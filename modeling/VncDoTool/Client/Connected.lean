import VncDoTool.Client.Steps
import VncDoTool.Lib.Effect

/-!
# What a connected client changes

The handlers behind the server's name, for a client completed with any methods. They change its
attributes in three ways: through a method, through what a decoder keeps, and by counting rectangles.

* `RFBClient.Frame`: a relation between attributes that whatever they do is as.
* `RFBClient.Frame.Connected`: a client behind the server's name, whose suspended generator is, too.
* `RFBClient.Frame.turn`: every turn of such a client.
-/

namespace VncDoTool

namespace RFBClient

variable {D S : Type} {env : Env D S} {R : Attrs D S → Attrs D S → Prop}

/-- A relation between the attributes before and after whatever a connected client does to them. -/
structure Frame (env : Env D S) (R : Attrs D S → Attrs D S → Prop) : Prop where
  refl : ∀ a, R a a
  trans : ∀ {a a' a''}, R a a' → R a' a'' → R a a''
  quiet : ∀ {a a'}, Quiet a a' → R a a'
  /-- The rectangles that are still to come, and those that were recorded. -/
  counts : ∀ a rectangles rectanglePos,
    R a { a with rectangles := rectangles, rectanglePos := rectanglePos }
  emits : ∀ a e, (∀ method, e ≠ .called method) → R a { a with log := a.log ++ [e] }
  calls : ∀ method, method ≠ .vncConnectionMade → Effect.Does R (env.call method)

namespace Frame

variable (frame : Frame env R)

/-- The contract of a generator that does nothing else. -/
def contract : Coroutine.Contract Request PyErr (Attrs D S) where
  meanwhile _ _ := True
  does := R
  asks _ := True
  raises _ := True
  refl := frame.refl
  trans := frame.trans

/-- A run of such a generator. -/
abbrev Holds {α : Type} (a : Attrs D S) (x : GenStep D S α) : Prop :=
  x.Honours frame.contract (fun _ _ => True) a

/-- What is parked behind the server's name, with such a generator if there is one. -/
def Parks : Expected D S → Prop
  | .connection | .framebufferUpdate | .rectangle => True
  | .ended (.message _) _ | .ended (.rectangle _) _ => True
  | .pump (.message _) _ resume => ∀ block t, frame.Holds t (resume block t)
  | .pump (.rectangle _) _ resume => ∀ block t, frame.Holds t (resume block t)
  | _ => False

/-- A client behind the server's name. -/
def Connected (c : RFBClient D S) : Prop := ∃ e, c.phase = .expecting e ∧ frame.Parks e

/-- What code of the handlers does to a client. -/
structure Keeps (c c' : RFBClient D S) : Prop where
  attrs : R c.attrs c'.attrs
  phase : c'.phase = c.phase ∨ frame.Connected c'

variable {frame} {c c' c'' : RFBClient D S}

theorem Connected.of_phase (h : frame.Connected c) (hphase : c'.phase = c.phase) :
    frame.Connected c' := by
  obtain ⟨e, he, hparks⟩ := h
  exact ⟨e, hphase.trans he, hparks⟩

theorem Keeps.trans (h : frame.Keeps c c') (h' : frame.Keeps c' c'') : frame.Keeps c c'' := by
  refine ⟨frame.trans h.attrs h'.attrs, ?_⟩
  rcases h'.phase with hsame | hconnected
  · rcases h.phase with hsame' | hconnected
    · exact .inl (hsame.trans hsame')
    · exact .inr (hconnected.of_phase hsame)
  · exact .inr hconnected

theorem Keeps.connected (h : frame.Keeps c c') (hconnected : frame.Connected c) :
    frame.Connected c' := by
  rcases h.phase with hsame | hconnected'
  · exact hconnected.of_phase hsame
  · exact hconnected'

variable (frame)

/-- A change of nothing but the buffer and the attributes. -/
theorem keeps_attrs (h : R c.attrs c'.attrs) (hphase : c'.phase = c.phase) : frame.Keeps c c' :=
  ⟨h, .inl hphase⟩

theorem keeps_refl (c : RFBClient D S) : frame.Keeps c c := frame.keeps_attrs (frame.refl _) rfl

/-! ## Straight-line code -/

theorem does_bind {α β : Type} {m : Py (RFBClient D S) α} {f : α → Py (RFBClient D S) β}
    (hm : Effect.Does frame.Keeps m) (hf : ∀ v, Effect.Does frame.Keeps (f v)) :
    Effect.Does frame.Keeps (m >>= f) :=
  Effect.does_bind (fun _ _ _ h h' => h.trans h') hm hf

theorem does_onAttrs {α : Type} {m : Py (Attrs D S) α} (h : Effect.Does R m) :
    Effect.Does frame.Keeps (onAttrs m) := by
  intro c
  have hattrs := h c.attrs
  rw [run_onAttrs]
  cases hrun : m.run c.attrs with
  | ok v a =>
    rw [hrun] at hattrs
    exact frame.keeps_attrs hattrs rfl
  | error e a =>
    rw [hrun] at hattrs
    exact frame.keeps_attrs hattrs rfl

theorem does_expect {e : Expected D S} (h : frame.Parks e) : Effect.Does frame.Keeps (expect e) :=
  fun _ => ⟨frame.refl _, .inr ⟨e, rfl, h⟩⟩

include frame in
theorem does_write (what : Written) (data : Bytes) :
    Effect.Does R (Attrs.write what data : Py (Attrs D S) Unit) :=
  fun a => frame.emits a _ fun _ => by simp

include frame in
theorem does_loseConnection : Effect.Does R (Attrs.loseConnection : Py (Attrs D S) Unit) :=
  fun a => frame.emits a _ fun _ => by simp

theorem does_abortConnection (reason : String) :
    Effect.Does frame.Keeps (abortConnection env reason) := by
  unfold abortConnection
  refine frame.does_bind (fun c => frame.keeps_attrs (frame.refl _) rfl) fun _ => ?_
  refine frame.does_bind (frame.does_onAttrs (frame.calls _ (by simp))) fun _ => ?_
  exact frame.does_onAttrs frame.does_loseConnection

theorem does_doConnection : Effect.Does frame.Keeps (doConnection env) := by
  unfold doConnection
  refine Effect.does_get_bind fun c => ?_
  split_ifs
  · exact frame.does_expect (e := .rectangle) trivial c
  · refine frame.does_bind (frame.does_onAttrs (frame.calls _ (by simp))) (fun _ => ?_) c
    exact frame.does_expect (e := .connection) trivial

theorem does_settleRectangle (rect : Rect) (changed : Bool) :
    Effect.Does frame.Keeps (settleRectangle env rect changed) := by
  unfold settleRectangle record
  cases changed with
  | true =>
    refine frame.does_bind (frame.does_onAttrs fun a => ?_) fun _ => frame.does_doConnection
    exact frame.counts a a.rectangles _
  | false => exact frame.does_doConnection

theorem does_finishRectangle (rect : Rect) (outcome : Outcome) :
    Effect.Does frame.Keeps (finishRectangle env rect outcome) := by
  unfold finishRectangle
  split
  · exact frame.does_settleRectangle _ _
  · dsimp only
    split_ifs
    · exact frame.does_abortConnection _
    · refine frame.does_bind (frame.does_onAttrs (frame.calls _ (by simp))) fun _ => ?_
      exact frame.does_settleRectangle _ _

/-! ## Generators -/

section

variable {α β : Type} {a : Attrs D S}

theorem holds_bind {m : Gen D S α} {f : α → Gen D S β} (hm : frame.Holds a (m.run a))
    (hf : ∀ v t, frame.Holds t ((f v).run t)) : frame.Holds a ((m >>= f).run a) :=
  Coroutine.honours_bind hm fun v t _ => hf v t

theorem holds_read (n : ℕ) : frame.Holds a ((Gen.read n).run a) :=
  Coroutine.honours_yield trivial fun _ _ _ => trivial

theorem holds_lift {m : Py (Attrs D S) α} (h : Effect.Does R m) : frame.Holds a ((Gen.lift m).run a) :=
  Gen.honours_lift_of_does h (fun _ => trivial) a

theorem holds_requirePayload (length : ℕ) :
    frame.Holds a ((requirePayload length : Gen D S Unit).run a) := by
  unfold requirePayload
  split_ifs
  · exact Coroutine.honours_throw trivial
  · exact Coroutine.honours_pure trivial

include frame in
theorem does_answerFence (flags : ℕ) (payload : Bytes) :
    Effect.Does R (answerFence flags payload : Py (Attrs D S) Unit) := by
  unfold answerFence
  generalize clientFence (flags &&& knownFlags : ℕ) payload = fence
  split_ifs
  · have hfence : Effect.Does R (encoded fence : Py (Attrs D S) Bytes) := by
      rcases fence with e | message
      · cases e <;> exact Effect.does_throw frame.refl _
      · exact Effect.does_pure frame.refl _
    have htrans : ∀ a a' a'', R a a' → R a' a'' → R a a'' := fun _ _ _ => frame.trans
    exact Effect.does_bind htrans hfence fun message => frame.does_write .message message
  · exact Effect.does_pure frame.refl _

/-- The handler of a message. -/
theorem holds_messageHandler {msgid : ℕ} {handler : Gen D S Unit}
    (h : messageHandler env msgid = some handler) (a : Attrs D S) : frame.Holds a (handler.run a) := by
  unfold messageHandler at h
  split_ifs at h
  -- SetColourMapEntries, Bell, ServerCutText and ServerFence.
  all_goals
    obtain rfl := Option.some.inj h
  · unfold setColourMapEntriesHandler
    refine frame.holds_bind (frame.holds_read 5) fun header a => ?_
    refine frame.holds_bind (frame.holds_requirePayload _) fun _ a => ?_
    refine frame.holds_bind (frame.holds_read _) fun block a => ?_
    exact frame.holds_lift (frame.calls _ (by simp))
  · exact frame.holds_lift (frame.calls _ (by simp))
  · unfold serverCutTextHandler
    refine frame.holds_bind (frame.holds_read 7) fun header a => ?_
    refine frame.holds_bind (frame.holds_requirePayload _) fun _ a => ?_
    refine frame.holds_bind (frame.holds_read _) fun text a => ?_
    exact frame.holds_lift (frame.calls _ (by simp))
  · unfold serverFenceHandler
    refine frame.holds_bind (frame.holds_read 8) fun header a => ?_
    dsimp only
    split_ifs
    · exact frame.holds_lift (frame.does_answerFence _ _)
    · refine frame.holds_bind (frame.holds_read _) fun payload a => ?_
      exact frame.holds_lift (frame.does_answerFence _ _)

include frame in
/-- What a decoder has a method do. -/
theorem attrs_of_paints {a₁ : Attrs D S} {method : Callback} (hquiet : Quiet a a₁)
    (hpaints : method.paints) : R a (Effect.state ((env.call method).run a₁)) := by
  refine frame.trans (frame.quiet hquiet) (frame.calls method ?_ a₁)
  rintro rfl
  exact absurd hpaints (by simp [Callback.paints])

/-- A decoder. -/
theorem holds_of_paintsLast {x : GenStep D S Outcome} (h : PaintsLast env.callback a x) :
    frame.Holds a x := by
  induction x generalizing a with
  | done a' outcome =>
    refine ⟨?_, trivial⟩
    rcases h with hquiet | ⟨-, a₁, method, hquiet, hpaints, hrun⟩
    · exact frame.quiet hquiet
    · have hattrs := frame.attrs_of_paints hquiet hpaints
      rwa [show (env.call method).run a₁ = .ok () a' from hrun] at hattrs
  | failed a' e =>
    refine ⟨?_, trivial⟩
    rcases h with hquiet | ⟨a₁, method, hquiet, hpaints, hrun⟩
    · exact frame.quiet hquiet
    · have hattrs := frame.attrs_of_paints hquiet hpaints
      rwa [show (env.call method).run a₁ = .error e a' from hrun] at hattrs
  | yielded a' y resume ih =>
    exact ⟨frame.quiet h.1, trivial, fun answer t _ => ih answer t (h.2 answer t)⟩

end

/-! ## Turns -/

/-- The pump, for a task whose end keeps the relation and whose generator may be parked. -/
theorem keeps_pump (task : Task) (hfinish : ∀ v, Effect.Does frame.Keeps (finish env task v))
    (hparks : ∀ size (resume : Block size.toNat → Attrs D S → GenStep D S task.Result),
      (∀ block t, frame.Holds t (resume block t)) → frame.Parks (.pump task size resume))
    {x : GenStep D S task.Result} (h : frame.Holds c.attrs x) :
    frame.Keeps c (Effect.state ((pump env task x).run c)) := by
  -- Whether the buffer is empty is answered first; then the pause is one of three.
  have hpause := drive_honours (fun _ => trivial) (!c.packet.isEmpty) h
  rw [run_pump]
  cases hdrive : drive (!c.packet.isEmpty) x with
  | done a v =>
    rw [hdrive] at hpause
    cases hpause with
    | done hdoes _ =>
      have hattrs : frame.Keeps c { c with attrs := a } := frame.keeps_attrs hdoes rfl
      exact hattrs.trans (hfinish v _)
  | failed a e =>
    rw [hdrive] at hpause
    cases hpause with
    | failed hdoes _ =>
      have hattrs : frame.Keeps c { c with attrs := a } := frame.keeps_attrs hdoes rfl
      simp only
      split_ifs
      · exact hattrs.trans (frame.does_abortConnection _ _)
      · exact hattrs
  | wants a size resume =>
    rw [hdrive] at hpause
    cases hpause with
    | wants hdoes _ hnext =>
      have hattrs : frame.Keeps c { c with attrs := a } := frame.keeps_attrs hdoes rfl
      simp only
      split_ifs
      · exact hattrs.trans (frame.does_abortConnection _ _)
      · exact ⟨hdoes, .inr ⟨_, rfl, hparks size resume fun block t => hnext block t trivial⟩⟩

theorem keeps_pump_message (msgid : ℕ) {x : GenStep D S Unit} (h : frame.Holds c.attrs x) :
    frame.Keeps c (Effect.state ((pump env (.message msgid) x).run c)) :=
  frame.keeps_pump (.message msgid) (fun _ => frame.does_expect (e := .connection) trivial)
    (fun _ _ hholds => hholds) h

theorem keeps_pump_rectangle (rect : Rect) {x : GenStep D S Outcome} (h : frame.Holds c.attrs x) :
    frame.Keeps c (Effect.state ((pump env (.rectangle rect) x).run c)) :=
  frame.keeps_pump (.rectangle rect) (frame.does_finishRectangle rect) (fun _ _ hholds => hholds) h

theorem keeps_handleConnection (block : Block 1) :
    frame.Keeps c (Effect.state ((handleConnection env block).run c)) := by
  unfold handleConnection
  dsimp only
  split_ifs
  · exact frame.does_expect (e := .framebufferUpdate) trivial c
  · cases hhandler : messageHandler env (byteAt block.bytes 0) with
    | none => exact frame.does_abortConnection _ c
    | some handler => exact frame.keeps_pump_message _ (frame.holds_messageHandler hhandler c.attrs)

theorem keeps_handleFramebufferUpdate (block : Block 3) :
    frame.Keeps c (Effect.state ((handleFramebufferUpdate env block).run c)) := by
  unfold handleFramebufferUpdate
  refine frame.does_bind (frame.does_onAttrs ?_) (fun _ => ?_) c
  · exact fun a => frame.counts a _ _
  · refine frame.does_bind (frame.does_onAttrs (frame.calls _ (by simp))) fun _ => ?_
    exact frame.does_doConnection

theorem keeps_handleRectangle (block : Block 12) :
    frame.Keeps c (Effect.state ((handleRectangle env block).run c)) := by
  have hcounts : ∀ n, frame.Keeps c { c with attrs := { c.attrs with rectangles := n } } :=
    fun n => frame.keeps_attrs (frame.counts c.attrs n c.attrs.rectanglePos) rfl
  rw [run_handleRectangle]
  split_ifs
  · rw [run_pumpRectangle]
    cases env.decoders (i32At block.bytes 8) with
    | none => exact (hcounts _).trans (frame.does_abortConnection _ _)
    | some decoder =>
      refine (hcounts (remaining block c.attrs.rectangles - 1)).trans ?_
      exact frame.keeps_pump_rectangle _ (frame.holds_of_paintsLast (decoder.paintsLast _ _ _))
  · exact (hcounts _).trans (frame.does_doConnection _)

/-- What is parked, called with the bytes it waited for. -/
theorem keeps_handle {e : Expected D S} (hparks : frame.Parks e) (block : Block e.len) :
    frame.Keeps c (Effect.state ((handle env e block).run c)) := by
  cases e with
  | connection => exact frame.keeps_handleConnection block
  | framebufferUpdate => exact frame.keeps_handleFramebufferUpdate block
  | rectangle => exact frame.keeps_handleRectangle block
  | pump task size resume =>
    -- `_pump` runs its generator as a finished one, until it parks again.
    have hended : ∀ task : Task, frame.Parks (.ended task size.toNat) →
        frame.Keeps c { c with phase := .expecting (.ended task size.toNat) } :=
      fun _ h => ⟨frame.refl _, .inr ⟨_, rfl, h⟩⟩
    rw [run_handle_pump]
    cases task with
    | security secType => exact hparks.elim
    | message msgid =>
      refine (hended (.message msgid) trivial).trans ?_
      exact frame.keeps_pump_message msgid (hparks block _)
    | rectangle rect =>
      refine (hended (.rectangle rect) trivial).trans ?_
      exact frame.keeps_pump_rectangle rect (hparks block _)
  | ended task size =>
    cases task with
    | security secType => exact hparks.elim
    | message msgid => exact frame.does_expect (e := .connection) trivial c
    | rectangle rect => exact frame.keeps_refl c
  | _ => exact hparks.elim

/-- A turn of a connected client. -/
theorem turn (hconnected : frame.Connected c) (hready : ready c = true) :
    R c.attrs (client ((turn env).run c)).attrs ∧
      frame.Connected (client ((RFBClient.turn env).run c)) := by
  obtain ⟨e, hphase, hlen, -⟩ := exists_of_ready hready
  obtain ⟨e', hphase', hparks⟩ := id hconnected
  obtain rfl : e = e' := Phase.expecting.inj (hphase.symm.trans hphase')
  have htaken : frame.Keeps c { c with packet := c.packet.drop e.len } :=
    frame.keeps_attrs (frame.refl c.attrs) rfl
  have hkeeps := htaken.trans (frame.keeps_handle hparks (Block.ofPrefix e.len c.packet hlen))
  rw [run_turn env hphase hlen]
  have hclient : ∀ r : Delivery D S, Effect.state r = client r := fun r => by cases r <;> rfl
  rw [hclient] at hkeeps
  exact ⟨hkeeps.attrs, hkeeps.connected hconnected⟩

end Frame

end RFBClient

end VncDoTool
