import VncDoTool.Client.Reading
import VncDoTool.Client.Termination
import VncDoTool.Decoders.Table

/-!
# Segmentation of what a client receives

However a server's bytes are cut into deliveries, a client that settles on no VeNCrypt shows the
same and ends up in the same state.

* `RFBClient.more`: a client with more bytes behind what it buffers; `RFBClient.Commutes`: code that
  makes nothing of them. `RFBClient.commutes_turn`: one call of the parked handler.
* `RFBClient.Settles`: the loop, up to where it rests; `RFBClient.settles_more_iff`: bytes that come
  early make no difference to it.
* `RFBClient.Receives`: a run of deliveries that all return; `RFBClient.receives_iff_settles`,
  `RFBClient.delivers_of_receives`, `RFBClient.receives_of_delivers`: it comes to a single delivery.
* `RFBClient.segmentation_invisible`: two ways of cutting.
-/

namespace VncDoTool

namespace RFBClient

variable {D S : Type}

/-- A client with more bytes behind what it buffers. One that has aborted drops them. -/
def more (c : RFBClient D S) (data : Bytes) : RFBClient D S :=
  { c with packet := if c.aborted then c.packet else c.packet ++ data }

/-- More bytes behind what the client of a delivery buffers. -/
def moreOf (data : Bytes) : Delivery D S → Delivery D S
  | .ok u c => .ok u (more c data)
  | .error e c => .error e (more c data)

@[simp] theorem more_attrs (c : RFBClient D S) (data : Bytes) : (more c data).attrs = c.attrs := rfl

@[simp] theorem more_phase (c : RFBClient D S) (data : Bytes) : (more c data).phase = c.phase := rfl

@[simp] theorem more_aborted (c : RFBClient D S) (data : Bytes) :
    (more c data).aborted = c.aborted := rfl

theorem more_of_aborted {c : RFBClient D S} (h : c.aborted = true) (data : Bytes) :
    more c data = c := by
  unfold more
  rw [if_pos h]

theorem more_of_live {c : RFBClient D S} (h : c.aborted = false) (data : Bytes) :
    more c data = { c with packet := c.packet ++ data } := by
  unfold more
  rw [if_neg (by simp [h])]

theorem more_more (c : RFBClient D S) (a b : Bytes) : more (more c a) b = more c (a ++ b) := by
  unfold more
  by_cases h : c.aborted
  · simp only [h, if_true]
  · simp only [h, Bool.false_eq_true, if_false, List.append_assoc]

theorem more_nil (c : RFBClient D S) : more c [] = c := by
  unfold more
  simp only [List.append_nil, ite_self]

/-- Code that leaves bytes which come early for later. -/
def Commutes (m : Py (RFBClient D S) Unit) (c : RFBClient D S) (data : Bytes) : Prop :=
  m.run (more c data) = moreOf data (m.run c)

section

variable {library : Library}
  {decoders : ℤ → Option (Decoder (D := D) (S := S) (baseCallback library))} {c : RFBClient D S}
  {data : Bytes}

/-! ## Handler calls -/

theorem commutes_abortConnection (reason : String) :
    Commutes (abortConnection (base library decoders) reason) c data := by
  unfold Commutes
  rw [run_abortConnection, run_abortConnection]
  rfl

theorem commutes_expect (e : Expected D S) : Commutes (expect e) c data := rfl

theorem commutes_doClientInitialization :
    Commutes (doClientInitialization : Py (RFBClient D S) Unit) c data := rfl

theorem commutes_doConnection : Commutes (doConnection (base library decoders)) c data := by
  unfold Commutes
  rw [run_doConnection, run_doConnection, more_attrs]
  split_ifs <;> rfl

theorem commutes_settleRectangle (rect : Rect) (changed : Bool) :
    Commutes (settleRectangle (base library decoders) rect changed) c data := by
  unfold Commutes
  rw [run_settleRectangle, run_settleRectangle]
  cases changed with
  | true => exact commutes_doConnection (c := { c with
      attrs := { c.attrs with rectanglePos := c.attrs.rectanglePos ++ [rect] } })
  | false => exact commutes_doConnection

theorem commutes_finish {task : Task} (v : task.Result) :
    Commutes (finish (base library decoders) task v) c data := by
  cases task with
  | security secType =>
    cases v with
    | true => exact commutes_doClientInitialization
    | false => rfl
  | message msgid => exact commutes_expect _
  | rectangle rect =>
    obtain ⟨changed, paste⟩ := v
    cases paste with
    | none => exact commutes_settleRectangle rect changed
    | some paste =>
      by_cases hlen : paste.1.length = rect.width * rect.height * paste.2.bypp
      · change (finishRectangle _ rect ⟨changed, some (paste.1, paste.2)⟩).run (more c data) =
          moreOf data ((finishRectangle _ rect ⟨changed, some (paste.1, paste.2)⟩).run c)
        rw [run_finishRectangle_of_length hlen, run_finishRectangle_of_length hlen]
        exact commutes_settleRectangle rect changed (c := { c with attrs := { c.attrs with
          log := c.attrs.log ++ [.called (.updateRectangle rect paste.1 paste.2)] } })
      · have habort : finish (base library decoders) (.rectangle rect) ⟨changed, some paste⟩ =
            abortConnection (base library decoders) _ := if_pos hlen
        rw [habort]
        exact commutes_abortConnection _

/-- One step of a generator that only reads. -/
theorem commutes_pump {task : Task} {x : GenStep D S task.Result} (h : Plods c.attrs x) :
    Commutes (pump (base library decoders) task x) c data := by
  unfold Commutes
  rw [run_pump, run_pump, drive_of_plods h (!(more c data).packet.isEmpty) (!c.packet.isEmpty)]
  cases drive (!c.packet.isEmpty) x with
  | done a v => exact commutes_finish v (c := { c with attrs := a })
  | failed a e =>
    simp only
    split_ifs
    · exact commutes_abortConnection _ (c := { c with attrs := a })
    · rfl
  | wants a size resume =>
    simp only
    split_ifs
    · exact commutes_abortConnection _ (c := { c with attrs := a })
    · rfl

theorem commutes_startSecurity {secType : ℕ} (hsettles : secType ≠ AuthTypes.vencrypt.value) :
    Commutes (startSecurity (base library decoders) secType) c data := by
  unfold Commutes
  rw [run_startSecurity, run_startSecurity]
  cases hhandler : securityHandler (base library decoders) secType with
  | none => exact commutes_abortConnection _
  | some handler => exact commutes_pump (plods_securityHandler hhandler hsettles c.attrs)

theorem commutes_handle (hreads : OnlyReads decoders) {e : Expected D S} {block : Block e.len}
    (hphase : c.phase = .expecting e) (h : Plodding c) (havoids : e.Avoids block) :
    Commutes (handle (base library decoders) e block) c data := by
  cases e with
  | auth =>
    simp only [handle, handleAuth]
    split_ifs
    · exact commutes_expect _
    · exact commutes_startSecurity (havoids _ rfl)
    · exact commutes_abortConnection _
  | numberSecurityTypes =>
    simp only [handle, handleNumberSecurityTypes]
    split_ifs <;> exact commutes_expect _
  | securityTypes count =>
    simp only [handle, handleSecurityTypes]
    split
    next secType hchosen =>
      exact commutes_startSecurity (havoids secType hchosen) (c := { c with attrs := { c.attrs with
        log := c.attrs.log ++ [.wrote .securityType [UInt8.ofNat secType]] } })
    · exact commutes_abortConnection _
  | connFailed =>
    simp only [handle, handleConnFailed]
    split_ifs
    · exact commutes_abortConnection _
    · exact commutes_expect _
  | connMessage waitfor => exact commutes_abortConnection _
  | serverInit => rfl
  | serverName namelen => rfl
  | connection =>
    simp only [handle, handleConnection]
    split_ifs
    · exact commutes_expect _
    · split
      · exact commutes_abortConnection _
      next handler hhandler => exact commutes_pump (plods_messageHandler hhandler c.attrs)
  | framebufferUpdate =>
    unfold Commutes
    simp only [handle]
    rw [run_handleFramebufferUpdate, run_handleFramebufferUpdate]
    exact commutes_doConnection (c := { c with attrs := { c.attrs with
      rectangles := u16At block.bytes 1
      rectanglePos := []
      log := c.attrs.log ++ [.called .beginUpdate] } })
  -- The header is read off the block: what lies behind it does not matter.
  | rectangle =>
    unfold Commutes
    simp only [handle]
    rw [run_handleRectangle, run_handleRectangle, more_attrs]
    split_ifs
    · rw [run_pumpRectangle, run_pumpRectangle]
      cases hdecoder : (base library decoders).decoders (i32At block.bytes 8) with
      | none => exact commutes_abortConnection _ (c := { c with attrs := { c.attrs with
          rectangles := remaining block c.attrs.rectangles - 1 } })
      | some decoder =>
        exact commutes_pump (plods_decode hreads hdecoder _ _ _) (c := { c with
          attrs := { c.attrs with rectangles := remaining block c.attrs.rectangles - 1 } })
    · exact commutes_doConnection (c := { c with attrs := { c.attrs with
        rectangles := remaining block c.attrs.rectangles } })
  -- The generator never asks for the buffer but where it may open a tunnel, and this run opens none.
  | pump task size resume =>
    unfold Commutes
    rw [run_handle_pump, run_handle_pump]
    exact commutes_pump (c := { c with phase := .expecting (.ended task size.toNat) })
      (h.plods _ hphase block c.attrs (KeepsClear.refl _))
  | ended task size => cases task <;> rfl

/-! ## The loop -/

theorem plodding_more (h : Plodding c) (data : Bytes) : Plodding (more c data) := ⟨h.clear, h.plods⟩

theorem ready_more (h : ready c = true) (data : Bytes) : ready (more c data) = true := by
  obtain ⟨e, hphase, hlen, hlive⟩ := exists_of_ready h
  rw [more_of_live hlive]
  unfold ready
  simp only [hphase, hlive, List.length_append]
  simp
  omega

/-- What settles the security type is buffered already. -/
theorem chosenType_more (h : ready c = true) (data : Bytes) : chosenType (more c data) = chosenType c := by
  obtain ⟨e, hphase, hlen, hlive⟩ := exists_of_ready h
  rw [more_of_live hlive]
  unfold chosenType
  simp only [hphase]
  cases e with
  | auth =>
    simp only
    rw [List.take_append_of_le_length hlen]
  | securityTypes count =>
    simp only
    rw [List.take_append_of_le_length hlen]
  | _ => rfl

theorem avoidsVeNCrypt_more (h : AvoidsVeNCrypt c) (hready : ready c = true) :
    AvoidsVeNCrypt (more c data) := by
  intro secType _ hchosen
  rw [chosenType_more hready data] at hchosen
  exact h secType hready hchosen

theorem avoidsVeNCrypt_of_more (h : AvoidsVeNCrypt (more c data)) : AvoidsVeNCrypt c := by
  intro secType hready hchosen
  refine h secType (ready_more hready data) ?_
  rw [chosenType_more hready data]
  exact hchosen

/-- Bytes that come early make no difference to a turn of the loop. -/
theorem commutes_turn (hreads : OnlyReads decoders) (h : Plodding c) (hready : ready c = true)
    (havoids : AvoidsVeNCrypt c) (data : Bytes) : Commutes (turn (base library decoders)) c data := by
  obtain ⟨e, hphase, hlen, hlive⟩ := exists_of_ready hready
  have hlen' : e.len ≤ (more c data).packet.length := by
    rw [more_of_live hlive, List.length_append]
    omega
  have hblock : Block.ofPrefix e.len (more c data).packet hlen' = Block.ofPrefix e.len c.packet hlen := by
    apply Block.ext
    rw [Block.bytes_ofPrefix, Block.bytes_ofPrefix, more_of_live hlive,
      List.take_append_of_le_length hlen]
  have hdrop : (more c data).packet.drop e.len = c.packet.drop e.len ++ data := by
    rw [more_of_live hlive, List.drop_append_of_le_length hlen]
  unfold Commutes
  rw [run_turn _ hphase hlen, run_turn _ (c := more c data) hphase hlen', hblock, hdrop]
  have hnext := @commutes_handle D S library decoders { c with packet := c.packet.drop e.len } data
    hreads e (Block.ofPrefix e.len c.packet hlen) hphase ⟨h.clear, h.plods⟩
    (havoids.avoids hready hphase hlen)
  unfold Commutes at hnext
  rw [more_of_live (c := { c with packet := c.packet.drop e.len }) hlive] at hnext
  exact hnext

/-- The loop goes on from here to where it rests, and every turn finds a client that is `good`. -/
inductive Drains (good : RFBClient D S → Prop) (env : Env D S) : RFBClient D S → RFBClient D S → Prop
  | rest {c : RFBClient D S} (h : ready c = false) : Drains good env c c
  | turn {c c₁ c' : RFBClient D S} (hturns : Turns env c c₁) (hgood : good c)
      (h : Drains good env c₁ c') : Drains good env c c'

theorem Drains.mono {env : Env D S} {good good' : RFBClient D S → Prop} {c c' : RFBClient D S}
    (h : Drains good env c c') (hgood : ∀ c, good c → good' c) : Drains good' env c c' := by
  induction h with
  | rest h => exact .rest h
  | turn hturns hc _ ih => exact .turn hturns (hgood _ hc) ih

/-- The loop rests in one place only. -/
theorem Drains.unique {env : Env D S} {good good' : RFBClient D S → Prop} {c c' c'' : RFBClient D S}
    (h : Drains good env c c') (h' : Drains good' env c c'') : c' = c'' := by
  induction h with
  | rest hrest =>
    cases h' with
    | rest _ => rfl
    | turn hturns _ _ => exact absurd hturns.1 (by simp [hrest])
  | turn hturns _ _ ih =>
    cases h' with
    | rest hrest => exact absurd hturns.1 (by simp [hrest])
    | turn hturns' _ h' =>
      have hsame := hturns.2.symm.trans hturns'.2
      simp only [EStateM.Result.ok.injEq, true_and] at hsame
      subst hsame
      exact ih h'

/-- Where the loop rests, it rests. -/
theorem Drains.rests {env : Env D S} {good : RFBClient D S → Prop} {c c' : RFBClient D S}
    (h : Drains good env c c') : ready c' = false := by
  induction h with
  | rest h => exact h
  | turn _ _ _ ih => exact ih

/-- The loop of the model rests there too. -/
theorem drains_iff_handleExpected {env : Env D S} {c c' : RFBClient D S} :
    Drains (fun _ => True) env c c' ↔ ∃ fuel, handleExpected env fuel c = some (.ok () c') := by
  constructor
  · intro h
    induction h with
    | rest h => exact ⟨0, handleExpected_of_not_ready 0 h⟩
    | turn hturns _ _ ih =>
      obtain ⟨fuel, hfuel⟩ := ih
      refine ⟨fuel + 1, ?_⟩
      rw [handleExpected_of_ready fuel hturns.1, hturns.2]
      exact hfuel
  · rintro ⟨fuel, hfuel⟩
    -- Each unit of fuel is a turn.
    induction fuel generalizing c with
    | zero =>
      cases hready : ready c with
      | true => simp [handleExpected, hready] at hfuel
      | false =>
        rw [handleExpected_of_not_ready 0 hready] at hfuel
        cases hfuel
        exact .rest hready
    | succ fuel ih =>
      cases hready : ready c with
      | true =>
        rw [handleExpected_of_ready fuel hready] at hfuel
        cases hturn : (turn env).run c with
        | ok u c₁ =>
          rw [hturn] at hfuel
          exact .turn ⟨hready, hturn⟩ trivial (ih hfuel)
        | error e c₁ =>
          rw [hturn] at hfuel
          exact absurd hfuel (by simp)
      | false =>
        rw [handleExpected_of_not_ready _ hready] at hfuel
        cases hfuel
        exact .rest hready

/-- A turn with bytes that came early. -/
theorem turns_more (hreads : OnlyReads decoders) {c c₁ : RFBClient D S} (h : Plodding c)
    (havoids : AvoidsVeNCrypt c) (hturns : Turns (base library decoders) c c₁) (data : Bytes) :
    Turns (base library decoders) (more c data) (more c₁ data) := by
  refine ⟨ready_more hturns.1 data, ?_⟩
  rw [commutes_turn hreads h hturns.1 havoids data, hturns.2]
  rfl

theorem plodding_of_turns (hreads : OnlyReads decoders) {c c₁ : RFBClient D S} (h : Plodding c)
    (havoids : AvoidsVeNCrypt c) (hturns : Turns (base library decoders) c c₁) : Plodding c₁ := by
  have hnext := plodding_turn hreads h hturns.1 havoids
  rw [hturns.2] at hnext
  exact hnext

/-- Bytes that come early make no difference to where the loop comes to rest. -/
theorem drains_more_iff (hreads : OnlyReads decoders) {c c' c'' : RFBClient D S} {data : Bytes}
    (hplodding : Plodding c) (h : Drains AvoidsVeNCrypt (base library decoders) c c') :
    Drains AvoidsVeNCrypt (base library decoders) (more c data) c'' ↔
      Drains AvoidsVeNCrypt (base library decoders) (more c' data) c'' := by
  induction h with
  | rest _ => exact Iff.rfl
  | turn hturns havoids _ ih =>
    rw [← ih (plodding_of_turns hreads hplodding havoids hturns)]
    have hmore := turns_more hreads hplodding havoids hturns data
    constructor
    · intro h
      cases h with
      | rest hrest => exact absurd hmore.1 (by simp [hrest])
      | turn hturns' _ h =>
        have hsame := hmore.2.symm.trans hturns'.2
        simp only [EStateM.Result.ok.injEq, true_and] at hsame
        rw [hsame]
        exact h
    · exact .turn hmore (avoidsVeNCrypt_more havoids hturns.1)

/-- A loop that comes to rest with bytes that came early does without them. -/
theorem exists_drains_of_more (hreads : OnlyReads decoders) {c c'' : RFBClient D S} {data : Bytes}
    (hplodding : Plodding c)
    (h : Drains AvoidsVeNCrypt (base library decoders) (more c data) c'') :
    ∃ c', Drains AvoidsVeNCrypt (base library decoders) c c' := by
  generalize hx : more c data = x at h
  induction h generalizing c with
  | rest h =>
    subst hx
    cases hready : ready c with
    | false => exact ⟨c, .rest hready⟩
    | true => exact absurd (ready_more hready data) (by simp [h])
  | turn hturns havoids _ ih =>
    subst hx
    cases hready : ready c with
    | false => exact ⟨c, .rest hready⟩
    | true =>
      have havoids := avoidsVeNCrypt_of_more havoids
      have hcommutes := commutes_turn hreads hplodding hready havoids data
      unfold Commutes at hcommutes
      rw [hturns.2] at hcommutes
      cases hturn : (turn (base library decoders)).run c with
      | error e c₁ =>
        rw [hturn] at hcommutes
        exact absurd hcommutes (by simp [moreOf])
      | ok u c₁ =>
        rw [hturn] at hcommutes
        simp only [moreOf, EStateM.Result.ok.injEq] at hcommutes
        obtain ⟨c', hc'⟩ :=
          ih (plodding_of_turns hreads hplodding havoids ⟨hready, hturn⟩) hcommutes.2.symm
        exact ⟨c', .turn ⟨hready, hturn⟩ havoids hc'⟩

/-- The client is past the version header, or has given up. -/
def Started (c : RFBClient D S) : Prop := c.aborted = true ∨ c.phase ≠ .initial

theorem kept_started : Kept (Started : RFBClient D S → Prop) where
  attrs _ _ h := h
  parks _ _ _ := .inr (by simp)
  aborts _ _ := .inl rfl

theorem started_of_turns {c c₁ : RFBClient D S} (h : Turns (base library decoders) c c₁) :
    Started c₁ := by
  obtain ⟨e, hphase, hlen, -⟩ := exists_of_ready h.1
  have hstarted : Started { c with packet := c.packet.drop e.len } := .inr (by simp [hphase])
  have hnext := @Kept.handle D S library decoders Started kept_started _ e
    (Block.ofPrefix e.len c.packet hlen) hstarted
  rw [← run_turn _ hphase hlen, h.2] at hnext
  exact hnext

theorem Drains.plodding (hreads : OnlyReads decoders) {c c' : RFBClient D S} (hplodding : Plodding c)
    (h : Drains AvoidsVeNCrypt (base library decoders) c c') : Plodding c' := by
  induction h with
  | rest _ => exact hplodding
  | turn hturns havoids _ ih => exact ih (plodding_of_turns hreads hplodding havoids hturns)

theorem Drains.started {c c' : RFBClient D S} {good : RFBClient D S → Prop} (hstarted : Started c)
    (h : Drains good (base library decoders) c c') : Started c' := by
  induction h with
  | rest _ => exact hstarted
  | turn hturns _ _ ih => exact ih (started_of_turns hturns)

/-! ## Deliveries -/

/-- `dataReceived` returns, and every turn of the loop finds a client that is `good`. -/
inductive Delivers (good : RFBClient D S → Prop) (env : Env D S) (c : RFBClient D S) (data : Bytes) :
    RFBClient D S → Prop
  | dropped (h : c.aborted = true) : Delivers good env c data c
  | taken {c₁ c' : RFBClient D S} (hlive : c.aborted = false)
      (hdeliver : (deliver env data).run c = .ok () c₁) (hdrains : Drains good env c₁ c') :
      Delivers good env c data c'

theorem Delivers.mono {env : Env D S} {good good' : RFBClient D S → Prop} {c c' : RFBClient D S}
    {data : Bytes} (h : Delivers good env c data c') (hgood : ∀ c, good c → good' c) :
    Delivers good' env c data c' := by
  cases h with
  | dropped h => exact .dropped h
  | taken hlive hdeliver hdrains => exact .taken hlive hdeliver (hdrains.mono hgood)

theorem Delivers.unique {env : Env D S} {good good' : RFBClient D S → Prop} {c c' c'' : RFBClient D S}
    {data : Bytes} (h : Delivers good env c data c') (h' : Delivers good' env c data c'') :
    c' = c'' := by
  cases h with
  | dropped habort =>
    cases h' with
    | dropped _ => rfl
    | taken hlive _ _ => exact absurd habort (by simp [hlive])
  | taken hlive hdeliver hdrains =>
    cases h' with
    | dropped habort => exact absurd habort (by simp [hlive])
    | taken _ hdeliver' hdrains' =>
      have hsame := hdeliver.symm.trans hdeliver'
      simp only [EStateM.Result.ok.injEq, true_and] at hsame
      subst hsame
      exact hdrains.unique hdrains'

/-- The deliveries of the model that return. -/
theorem delivers_iff_dataReceived {env : Env D S} {c c' : RFBClient D S} {data : Bytes} :
    Delivers (fun _ => True) env c data c' ↔
      ∃ fuel, dataReceived env fuel c data = some (.ok () c') := by
  unfold dataReceived
  by_cases habort : c.aborted = true
  · simp only [if_pos habort]
    constructor
    · intro h
      cases h with
      | dropped _ => exact ⟨0, rfl⟩
      | taken hlive _ _ => exact absurd habort (by simp [hlive])
    · rintro ⟨_, h⟩
      cases h
      exact .dropped habort
  · simp only [if_neg habort]
    constructor
    · intro h
      cases h with
      | dropped h => exact absurd h habort
      | taken _ hdeliver hdrains =>
        rw [hdeliver]
        exact drains_iff_handleExpected.mp hdrains
    · rintro ⟨fuel, h⟩
      cases hdeliver : (deliver env data).run c with
      | error e c₁ =>
        rw [hdeliver] at h
        exact absurd h (by simp)
      | ok u c₁ =>
        rw [hdeliver] at h
        exact .taken (by simpa using habort) hdeliver (drains_iff_handleExpected.mpr ⟨fuel, h⟩)

/-- `dataReceived` is called on one chunk after the other, and returns each time. -/
inductive Receives (good : RFBClient D S → Prop) (env : Env D S) :
    RFBClient D S → List Bytes → RFBClient D S → Prop
  | nil (c : RFBClient D S) : Receives good env c [] c
  | cons {c c₁ c' : RFBClient D S} {data : Bytes} {chunks : List Bytes}
      (hdata : Delivers good env c data c₁) (h : Receives good env c₁ chunks c') :
      Receives good env c (data :: chunks) c'

theorem Receives.mono {env : Env D S} {good good' : RFBClient D S → Prop} {c c' : RFBClient D S}
    {chunks : List Bytes} (h : Receives good env c chunks c') (hgood : ∀ c, good c → good' c) :
    Receives good' env c chunks c' := by
  induction h with
  | nil c => exact .nil c
  | cons hdata _ ih => exact .cons (hdata.mono hgood) ih

theorem Receives.unique {env : Env D S} {good good' : RFBClient D S → Prop} {c c' c'' : RFBClient D S}
    {chunks : List Bytes} (h : Receives good env c chunks c') (h' : Receives good' env c chunks c'') :
    c' = c'' := by
  induction h with
  | nil c =>
    cases h' with
    | nil => rfl
  | cons hdata _ ih =>
    cases h' with
    | cons hdata' h' =>
      obtain rfl := hdata.unique hdata'
      exact ih h'

/-- An aborted client drops whatever comes. -/
theorem receives_of_aborted {env : Env D S} {good : RFBClient D S → Prop} {c : RFBClient D S}
    (h : c.aborted = true) (chunks : List Bytes) : Receives good env c chunks c := by
  induction chunks with
  | nil => exact .nil c
  | cons data chunks ih => exact .cons (.dropped h) ih

/-- A live client that waits for no TLS handshake. -/
theorem extend_eq_more {c : RFBClient D S} (hlive : c.aborted = false)
    (hclear : c.attrs.tlsHandshakePending = false) (data : Bytes) : extend c data = more c data := by
  rw [more_of_live hlive]
  unfold extend
  rw [← hclear]

/-- Past the version header a delivery is the bytes, and the loop. -/
theorem delivers_iff_of_started {env : Env D S} {good : RFBClient D S → Prop} {c c' : RFBClient D S}
    {data : Bytes} (hstarted : Started c) (hclear : c.attrs.tlsHandshakePending = false) :
    Delivers good env c data c' ↔ Drains good env (more c data) c' := by
  cases habort : c.aborted with
  | true =>
    rw [more_of_aborted habort]
    have hrest := ready_of_aborted habort
    constructor
    · intro h
      obtain rfl := h.unique (.dropped habort : Delivers good env c data c)
      exact .rest hrest
    · intro h
      obtain rfl := h.unique (.rest hrest : Drains good env c c)
      exact .dropped habort
  | false =>
    have hphase : c.phase ≠ .initial := hstarted.resolve_left (by simp [habort])
    cases hexpecting : c.phase with
    | initial => exact absurd hexpecting hphase
    | expecting e =>
      have hdeliver := run_deliver_of_expecting env hexpecting data
      rw [extend_eq_more habort hclear] at hdeliver
      constructor
      · intro h
        cases h with
        | dropped h => exact absurd h (by simp [habort])
        | taken _ hdeliver' hdrains =>
          have hsame := hdeliver.symm.trans hdeliver'
          simp only [EStateM.Result.ok.injEq, true_and] at hsame
          rw [hsame]
          exact hdrains
      · exact .taken habort hdeliver

/-- Past the version header a run of deliveries is all their bytes at once, and the loop. -/
theorem receives_iff_drains (hreads : OnlyReads decoders) {c c' : RFBClient D S} {chunks : List Bytes}
    (hstarted : Started c) (hplodding : Plodding c) (hrest : ready c = false) :
    Receives AvoidsVeNCrypt (base library decoders) c chunks c' ↔
      Drains AvoidsVeNCrypt (base library decoders) (more c chunks.flatten) c' := by
  induction chunks generalizing c with
  | nil =>
    rw [List.flatten_nil, more_nil]
    constructor
    · intro h
      cases h with
      | nil => exact .rest hrest
    · intro h
      obtain rfl := h.unique (.rest hrest : Drains AvoidsVeNCrypt (base library decoders) c c)
      exact .nil _
  | cons data chunks ih =>
    have hdata := @delivers_iff_of_started D S (base library decoders) AvoidsVeNCrypt c
    -- Behind the first chunk the induction hypothesis holds of whatever its loop came to.
    have hlater : ∀ {c₁}, Drains AvoidsVeNCrypt (base library decoders) (more c data) c₁ →
        (Receives AvoidsVeNCrypt (base library decoders) c₁ chunks c' ↔
          Drains AvoidsVeNCrypt (base library decoders) (more c (data ++ chunks.flatten)) c') := by
      intro c₁ hdrains
      have hplodding' := plodding_more hplodding data
      rw [ih (Drains.started (c := more c data) hstarted hdrains)
        (hdrains.plodding hreads hplodding') hdrains.rests, ← drains_more_iff hreads hplodding' hdrains,
        more_more]
    rw [List.flatten_cons]
    constructor
    · intro h
      cases h with
      | cons hdelivers h => exact (hlater ((hdata hstarted hplodding.clear).mp hdelivers)).mp h
    · intro h
      rw [← more_more] at h
      obtain ⟨c₁, hdrains⟩ := exists_drains_of_more hreads (plodding_more hplodding data) h
      rw [more_more] at h
      exact .cons ((hdata hstarted hplodding.clear).mpr hdrains) ((hlater hdrains).mpr h)

/-! ## The version header -/

/-- What `_handleInitial` looks at. -/
def head (c : RFBClient D S) : Bytes := c.packet.take 12

/-- Whether what is buffered is a version header, or can still become one, is undecided. -/
def Undecided (c : RFBClient D S) : Prop :=
  normalise (head c) ≠ header ∧ normalise (head c) <+: header

theorem length_of_normalise {b : Bytes} (h : normalise b = header) : b.length = 12 := by
  have hlen := congrArg List.length h
  unfold normalise at hlen
  rw [List.length_map] at hlen
  exact hlen

/-- A complete header is all `_handleInitial` ever sees. -/
theorem head_more_of_header (h : normalise (head c) = header) (data : Bytes) :
    head (more c data) = head c := by
  have hlen := length_of_normalise h
  unfold head at hlen
  rw [List.length_take] at hlen
  unfold head more
  split_ifs
  · rfl
  · exact List.take_append_of_le_length (by omega)

/-- More bytes only extend the header. -/
theorem head_prefix_more (c : RFBClient D S) (data : Bytes) :
    normalise (head c) <+: normalise (head (more c data)) := by
  unfold head more normalise
  simp only
  split_ifs
  · exact List.prefix_rfl
  · rw [List.take_append]
    exact (List.prefix_append _ _).map _

theorem run_handleInitial_of_header {env : Env D S} (h : normalise (head c) = header) :
    (handleInitial env).run c = (answerHeader (head c)).run c := by
  rw [run_handleInitial]
  exact if_pos h

theorem run_handleInitial_of_undecided {env : Env D S} (h : Undecided c) :
    (handleInitial env).run c = .ok () c := by
  rw [run_handleInitial]
  exact (if_neg h.1).trans (if_neg (not_not_intro h.2))

/-- What can no longer become a header is reported. -/
theorem run_handleInitial_of_not_header (h : ¬normalise (head c) <+: header) :
    ∃ reason, (handleInitial (base library decoders)).run c =
      (abortConnection (base library decoders) reason).run c := by
  have hne : normalise (head c) ≠ header := by
    intro heq
    rw [heq] at h
    exact h List.prefix_rfl
  unfold head at h hne
  rw [run_handleInitial, if_neg hne, if_pos h]
  exact ⟨_, rfl⟩

/-- Bytes behind a complete header make no difference to the answer. -/
theorem commutes_handleInitial (h : normalise (head c) = header) (data : Bytes)
    (hlive : c.aborted = false) : Commutes (handleInitial (base library decoders)) c data := by
  have hlen := length_of_normalise h
  unfold head at hlen
  rw [List.length_take] at hlen
  have hmore : normalise (head (more c data)) = header := by
    rw [head_more_of_header h]
    exact h
  unfold Commutes
  rw [run_handleInitial_of_header h, run_handleInitial_of_header hmore, head_more_of_header h,
    run_answerHeader, run_answerHeader]
  cases negotiate (announced (head c)) with
  | none => rfl
  | some version =>
    simp only [moreOf, more, greeted, hlive, Bool.false_eq_true, if_false]
    rw [List.drop_append_of_le_length (by omega)]

/-- Answering a header leaves no handshake pending and no generator parked. -/
theorem plodding_answerHeader {c₁ : RFBClient D S} (hclear : c.attrs.tlsHandshakePending = false)
    (h : (answerHeader (head c)).run c = .ok () c₁) : Plodding c₁ ∧ Started c₁ := by
  rw [run_answerHeader] at h
  cases hversion : negotiate (announced (head c)) with
  | none =>
    rw [hversion] at h
    exact absurd h (by simp)
  | some version =>
    rw [hversion] at h
    simp only [EStateM.Result.ok.injEq, true_and] at h
    subst h
    refine ⟨plodding_of_plain hclear ?_, .inr (by simp [greeted])⟩
    unfold Plain greeted
    simp only
    split_ifs <;> rfl

/-! ## Two ways of cutting -/

/-- An event without the text of a protocol-error reason. -/
def Event.blank : Event → Event
  | .called (.vncProtocolError _) => .called (.vncProtocolError "")
  | e => e

/-- Two clients have shown the same, up to the text of the protocol-error reason, and stand at the
same point if they have not aborted. -/
structure Alike (c c' : RFBClient D S) : Prop where
  aborted : c.aborted = c'.aborted
  shows : c.attrs.log.map Event.blank = c'.attrs.log.map Event.blank
  same : c.aborted = false → c = c'

theorem Alike.refl (c : RFBClient D S) : Alike c c := ⟨rfl, rfl, fun _ => rfl⟩

theorem Alike.symm {c c' : RFBClient D S} (h : Alike c c') : Alike c' c where
  aborted := h.aborted.symm
  shows := h.shows.symm
  same hlive := (h.same (h.aborted.trans hlive)).symm

theorem Alike.trans {c c' c'' : RFBClient D S} (h : Alike c c') (h' : Alike c' c'') :
    Alike c c'' where
  aborted := h.aborted.trans h'.aborted
  shows := h.shows.trans h'.shows
  same hlive := (h.same hlive).trans (h'.same (h.aborted.symm.trans hlive))

/-- Clients that abort where they stood alike are alike. -/
theorem alike_abortConnection {c c' c₁ c₁' : RFBClient D S} {reason reason' : String}
    (hattrs : c.attrs = c'.attrs)
    (h : (abortConnection (base library decoders) reason).run c = .ok () c₁)
    (h' : (abortConnection (base library decoders) reason').run c' = .ok () c₁') : Alike c₁ c₁' := by
  rw [run_abortConnection] at h h'
  cases h
  cases h'
  refine ⟨rfl, ?_, fun hlive => absurd hlive (by simp)⟩
  simp only [hattrs, List.map_append, List.map_cons, Event.blank]

/-- A client that waits for the version header. -/
structure AtHeader (c : RFBClient D S) : Prop where
  initial : c.phase = .initial
  live : c.aborted = false
  clear : c.attrs.tlsHandshakePending = false
  undecided : Undecided c

theorem AtHeader.rests (h : AtHeader c) : ready c = false := by
  unfold ready
  rw [h.initial]

/-- A delivery to a client that waits for the version header. -/
theorem AtHeader.run_deliver (h : AtHeader c) (env : Env D S) (data : Bytes) :
    (deliver env data).run c = (handleInitial env).run (more c data) := by
  rw [run_deliver_of_initial env h.initial, extend_eq_more h.live h.clear]

/-- What a delivery comes to there. -/
theorem AtHeader.cases (h : AtHeader c) (data : Bytes) :
    normalise (head (more c data)) = header ∨ ¬normalise (head (more c data)) <+: header ∨
      AtHeader (more c data) := by
  by_cases hheader : normalise (head (more c data)) = header
  · exact .inl hheader
  · by_cases hprefix : normalise (head (more c data)) <+: header
    · exact .inr (.inr ⟨h.initial, h.live, h.clear, hheader, hprefix⟩)
    · exact .inr (.inl hprefix)

/-- A delivery that completes the header, and those after it. -/
theorem receives_iff_of_header (hreads : OnlyReads decoders) (h : AtHeader c) {data : Bytes}
    (hheader : normalise (head (more c data)) = header) (chunks : List Bytes) (c' : RFBClient D S) :
    Receives AvoidsVeNCrypt (base library decoders) c (data :: chunks) c' ↔
      Delivers AvoidsVeNCrypt (base library decoders) c (data ++ chunks.flatten) c' := by
  have hfirst := h.run_deliver (base library decoders) data
  have hall := h.run_deliver (base library decoders) (data ++ chunks.flatten)
  rw [← more_more] at hall
  have hcommutes := @commutes_handleInitial D S library decoders (more c data) hheader chunks.flatten
    h.live
  unfold Commutes at hcommutes
  rw [hcommutes, ← hfirst] at hall
  cases hdeliver : (deliver (base library decoders) data).run c with
  -- An exception while answering the header ends both sides: neither has a run.
  | error e c₁ =>
    rw [hdeliver] at hall
    constructor
    · intro h'
      cases h' with
      | cons hdelivers _ =>
        cases hdelivers with
        | dropped habort => exact absurd habort (by simp [h.live])
        | taken _ hok _ => exact absurd (hdeliver.symm.trans hok) (by simp)
    · intro h'
      cases h' with
      | dropped habort => exact absurd habort (by simp [h.live])
      | taken _ hok _ => exact absurd (hall.symm.trans hok) (by simp [moreOf])
  -- The header is answered: from here on the chunks are one buffer and its loop.
  | ok u c₁ =>
    rw [hdeliver] at hall
    rw [hdeliver, run_handleInitial_of_header hheader] at hfirst
    obtain ⟨hplodding, hstarted⟩ :=
      @plodding_answerHeader D S (more c data) c₁ h.clear hfirst.symm
    have hlater : ∀ {c₂}, Drains AvoidsVeNCrypt (base library decoders) c₁ c₂ →
        (Receives AvoidsVeNCrypt (base library decoders) c₂ chunks c' ↔
          Drains AvoidsVeNCrypt (base library decoders) (more c₁ chunks.flatten) c') := by
      intro c₂ hdrains
      rw [receives_iff_drains hreads (Drains.started hstarted hdrains)
        (hdrains.plodding hreads hplodding) hdrains.rests, ← drains_more_iff hreads hplodding hdrains]
    constructor
    · intro h'
      cases h' with
      | cons hdelivers h' =>
        cases hdelivers with
        | dropped habort => exact absurd habort (by simp [h.live])
        | taken _ hok hdrains =>
          have hsame := hdeliver.symm.trans hok
          simp only [EStateM.Result.ok.injEq, true_and] at hsame
          subst hsame
          exact .taken h.live hall ((hlater hdrains).mp h')
    · intro h'
      cases h' with
      | dropped habort => exact absurd habort (by simp [h.live])
      | taken _ hok hdrains =>
        have hsame := hall.symm.trans hok
        simp only [moreOf, EStateM.Result.ok.injEq, true_and] at hsame
        subst hsame
        obtain ⟨c₂, hdrains₂⟩ := exists_drains_of_more hreads hplodding hdrains
        exact .cons (.taken h.live hdeliver hdrains₂) ((hlater hdrains₂).mpr hdrains)

/-- A delivery that can no longer become a header aborts, and so does all that begins with it. -/
theorem exists_abort_of_not_header (h : AtHeader c) {data : Bytes}
    (hheader : ¬normalise (head (more c data)) <+: header) (rest : Bytes) :
    ∃ c₁ c₂, Delivers AvoidsVeNCrypt (base library decoders) c data c₁ ∧
      Delivers AvoidsVeNCrypt (base library decoders) c (data ++ rest) c₂ ∧ c₁.aborted = true ∧
        Alike c₁ c₂ := by
  have hall : ¬normalise (head (more c (data ++ rest))) <+: header := by
    rw [← more_more]
    exact fun hprefix => hheader ((head_prefix_more (more c data) rest).trans hprefix)
  obtain ⟨reason, hfirst⟩ :=
    @run_handleInitial_of_not_header D S library decoders (more c data) hheader
  obtain ⟨reason', hsecond⟩ :=
    @run_handleInitial_of_not_header D S library decoders (more c (data ++ rest)) hall
  rw [← h.run_deliver] at hfirst hsecond
  rw [run_abortConnection] at hfirst hsecond
  refine ⟨_, _, .taken h.live hfirst (.rest (ready_of_aborted rfl)),
    .taken h.live hsecond (.rest (ready_of_aborted rfl)), rfl, ?_⟩
  exact @alike_abortConnection D S library decoders _ _ _ _ reason reason' rfl
    (run_abortConnection reason (more c data)) (run_abortConnection reason' (more c (data ++ rest)))

/-- A run of deliveries comes to a single one. -/
theorem delivers_of_receives (hreads : OnlyReads decoders) {c' : RFBClient D S} {chunks : List Bytes}
    (h : AtHeader c) (hreceives : Receives AvoidsVeNCrypt (base library decoders) c chunks c') :
    ∃ c'', Delivers AvoidsVeNCrypt (base library decoders) c chunks.flatten c'' ∧ Alike c' c'' := by
  induction chunks generalizing c with
  | nil =>
    cases hreceives with
    | nil =>
      refine ⟨_, .taken h.live ?_ (.rest h.rests), Alike.refl c'⟩
      rw [List.flatten_nil, h.run_deliver, more_nil]
      exact run_handleInitial_of_undecided h.undecided
  | cons data chunks ih =>
    rw [List.flatten_cons]
    -- The first chunk completes a header, completes none and aborts, or leaves it undecided.
    rcases h.cases data with hheader | hheader | hagain
    · exact ⟨c', (receives_iff_of_header hreads h hheader chunks c').mp hreceives, Alike.refl c'⟩
    · obtain ⟨c₁, c₂, hfirst, hall, habort, halike⟩ :=
        @exists_abort_of_not_header D S library decoders c h data hheader chunks.flatten
      cases hreceives with
      | cons hdelivers hreceives =>
        obtain rfl := hdelivers.unique hfirst
        have hdropped : Receives AvoidsVeNCrypt (base library decoders) _ chunks _ :=
          receives_of_aborted habort chunks
        obtain rfl := hreceives.unique hdropped
        exact ⟨c₂, hall, halike⟩
    · have hfirst : Delivers AvoidsVeNCrypt (base library decoders) c data (more c data) := by
        refine .taken h.live ?_ (.rest hagain.rests)
        rw [h.run_deliver]
        exact run_handleInitial_of_undecided hagain.undecided
      cases hreceives with
      | cons hdelivers hreceives =>
        obtain rfl := hdelivers.unique hfirst
        obtain ⟨c'', hdelivers'', halike⟩ := ih hagain hreceives
        refine ⟨c'', ?_, halike⟩
        cases hdelivers'' with
        | dropped habort => exact absurd habort (by simp [h.live])
        | taken _ hdeliver hdrains =>
          rw [hagain.run_deliver, more_more, ← h.run_deliver] at hdeliver
          exact .taken h.live hdeliver hdrains

/-- A single delivery comes to any run of deliveries that cuts it. -/
theorem receives_of_delivers (hreads : OnlyReads decoders) {c'' : RFBClient D S} {chunks : List Bytes}
    (h : AtHeader c)
    (hdelivers : Delivers AvoidsVeNCrypt (base library decoders) c chunks.flatten c'') :
    ∃ c', Receives AvoidsVeNCrypt (base library decoders) c chunks c' ∧ Alike c' c'' := by
  induction chunks generalizing c with
  | nil =>
    refine ⟨c, .nil c, ?_⟩
    have hnothing : Delivers AvoidsVeNCrypt (base library decoders) c [] c := by
      refine .taken h.live ?_ (.rest h.rests)
      rw [h.run_deliver, more_nil]
      exact run_handleInitial_of_undecided h.undecided
    obtain rfl := hdelivers.unique hnothing
    exact Alike.refl _
  | cons data chunks ih =>
    rw [List.flatten_cons] at hdelivers
    rcases h.cases data with hheader | hheader | hagain
    · exact ⟨c'', (receives_iff_of_header hreads h hheader chunks c'').mpr hdelivers, Alike.refl c''⟩
    · obtain ⟨c₁, c₂, hfirst, hall, habort, halike⟩ :=
        @exists_abort_of_not_header D S library decoders c h data hheader chunks.flatten
      obtain rfl := hdelivers.unique hall
      exact ⟨c₁, .cons hfirst (receives_of_aborted habort chunks), halike⟩
    · have hfirst : Delivers AvoidsVeNCrypt (base library decoders) c data (more c data) := by
        refine .taken h.live ?_ (.rest hagain.rests)
        rw [h.run_deliver]
        exact run_handleInitial_of_undecided hagain.undecided
      have hlater : Delivers AvoidsVeNCrypt (base library decoders) (more c data) chunks.flatten c'' := by
        cases hdelivers with
        | dropped habort => exact absurd habort (by simp [h.live])
        | taken _ hdeliver hdrains =>
          rw [h.run_deliver, ← more_more, ← hagain.run_deliver] at hdeliver
          exact .taken hagain.live hdeliver hdrains
      obtain ⟨c', hreceives, halike⟩ := ih hagain hlater
      exact ⟨c', .cons hfirst hreceives, halike⟩

theorem atHeader_fresh (factory : Factory) (decoding : D) (own : S) :
    AtHeader (fresh factory decoding own) where
  initial := rfl
  live := rfl
  clear := rfl
  undecided := ⟨(by decide : ([] : Bytes) ≠ header), List.nil_prefix⟩

end

/-- A run of deliveries that all return and settle on no VeNCrypt can be cut differently: it returns
again, shows the same callbacks and writes in the same order, and unless it aborts leaves the same
parked handler and the same bytes. -/
theorem segmentation_invisible {codecs : Codecs} {S : Type} (library : Library) (factory : Factory)
    (decoding : Decoding codecs) (own : S) {chunks chunks' : List Bytes}
    {c : RFBClient (Decoding codecs) S} (hcut : chunks.flatten = chunks'.flatten)
    (h : Receives AvoidsVeNCrypt (base library (Decoders.forConnection (baseCallback library)))
      (fresh factory decoding own) chunks c) :
    (∃ c', Receives AvoidsVeNCrypt (base library (Decoders.forConnection (baseCallback library)))
      (fresh factory decoding own) chunks' c') ∧
    ∀ c', Receives (fun _ => True) (base library (Decoders.forConnection (baseCallback library)))
      (fresh factory decoding own) chunks' c' → Alike c c' := by
  have hreads : OnlyReads (@Decoders.forConnection codecs S (baseCallback library)) :=
    fun _ _ hdecoder => Decoders.reads_forConnection _ hdecoder
  obtain ⟨c₀, hall, halike⟩ := delivers_of_receives hreads (atHeader_fresh factory decoding own) h
  rw [hcut] at hall
  obtain ⟨c', hreceives, halike'⟩ :=
    receives_of_delivers hreads (atHeader_fresh factory decoding own) hall
  refine ⟨⟨c', hreceives⟩, fun c'' h'' => ?_⟩
  obtain rfl := hreceives.unique h''
  exact halike.trans halike'.symm

/-- A version header and the number of security types, at once or in two pieces. -/
theorem segmentation_invisible_sample :
    ∃ c, Receives AvoidsVeNCrypt
      (base sampleLibrary (@Decoders.forConnection Decoders.sampleCodecs Unit
        (baseCallback sampleLibrary)))
      (fresh {} {} ()) [[82, 70, 66, 32, 48, 48, 51], [46, 48, 48, 56, 10, 1]] c := by
  have hdeliver : (deliver (base sampleLibrary (@Decoders.forConnection Decoders.sampleCodecs Unit
      (baseCallback sampleLibrary))) [82, 70, 66, 32, 48, 48, 51, 46, 48, 48, 56, 10, 1]).run
        (fresh {} {} ()) =
      .ok () (greeted (more (fresh {} {} ()) [82, 70, 66, 32, 48, 48, 51, 46, 48, 48, 56, 10, 1])
        (3, 8) (3, 8)) := rfl
  have hturns : Turns (base sampleLibrary (@Decoders.forConnection Decoders.sampleCodecs Unit
      (baseCallback sampleLibrary)))
      (greeted (more (fresh {} {} ()) [82, 70, 66, 32, 48, 48, 51, 46, 48, 48, 56, 10, 1])
        (3, 8) (3, 8))
      { greeted (fresh {} {} ()) (3, 8) (3, 8) with phase := .expecting (.securityTypes 1) } :=
    ⟨rfl, rfl⟩
  have havoids : AvoidsVeNCrypt
      (greeted (more (fresh {} {} () : RFBClient (Decoding Decoders.sampleCodecs) Unit)
        [82, 70, 66, 32, 48, 48, 51, 46, 48, 48, 56, 10, 1]) (3, 8) (3, 8)) := by
    intro secType _ hchosen
    exact absurd hchosen (by simp [chosenType, greeted, Ver.le])
  have hcut : [[82, 70, 66, 32, 48, 48, 51, 46, 48, 48, 56, 10, (1 : UInt8)]].flatten =
    [[82, 70, 66, 32, 48, 48, 51], [46, 48, 48, 56, 10, 1]].flatten := rfl
  exact (segmentation_invisible sampleLibrary {} {} () hcut
    (.cons (.taken rfl hdeliver (.turn hturns havoids (.rest rfl))) (.nil _))).1

end RFBClient

end VncDoTool
