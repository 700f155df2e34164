import VncDoTool.Client.Framing
import VncDoTool.Lib.Dialogue

/-!
# Joining a server of the None type

How a client gets through the handshake with a server whose only security type is None, as a dialogue:
what the server sends, and what the client has replied by then.

* `RFBClient.sent`: what a client has written, in order.
* `RFBClient.Joins`: from one client to another along a dialogue; `RFBClient.Joins.drains`: what the
  client has replied wherever the server's bytes stop.
* `RFBClient.noneDialogue`: the handshake; `RFBClient.joins_none`: the client follows it.
* `RFBClient.delivers_joining`: from a fresh client on, however much has come.
-/

namespace VncDoTool

namespace RFBClient

open Coroutine Decoders Dialogue

variable {codecs : Codecs} {S : Type} {library : Library}

/-! ## Writes -/

/-- What a write carries. -/
def Event.payload : Event → Bytes
  | .wrote _ data => data
  | _ => []

/-- All that a client has written. -/
def sent (c : RFBClient (Decoding codecs) S) : Bytes := c.attrs.log.flatMap Event.payload

/-- Nothing that was written is taken back. -/
theorem prefix_sent {c c' : RFBClient (Decoding codecs) S} {P : Event → Bool} (h : Leaves P c c') :
    sent c <+: sent c' := by
  obtain ⟨es, hlog, -⟩ := h.exists_shown
  unfold sent
  rw [hlog, List.flatMap_append]
  exact List.prefix_append _ _

/-- The loop writes behind what was written before. -/
theorem sent_of_drains {good : RFBClient (Decoding codecs) S → Prop}
    {c c' : RFBClient (Decoding codecs) S} (hsound : Sound (baseCallback library) c)
    (h : Drains good (connected codecs S library) c c') :
    Sound (baseCallback library) c' ∧ sent c <+: sent c' := by
  induction h with
  | rest _ => exact ⟨hsound, List.prefix_rfl⟩
  | turn hturns _ _ ih =>
    obtain ⟨e, hphase, -, -⟩ := exists_of_ready hturns.1
    have hleaves := @leaves_turn _ S library (forConnection (baseCallback library)) _ e hsound
      hturns.1 hphase
    have hnext := @sound_turn _ S library (forConnection (baseCallback library)) _ hturns.1 hsound
    rw [show (turn (base library _)).run _ = _ from hturns.2] at hleaves hnext
    obtain ⟨hsound', hprefix⟩ := ih hnext
    exact ⟨hsound', (prefix_sent hleaves).trans hprefix⟩

/-- So does a delivery. -/
theorem sent_of_delivers {good : RFBClient (Decoding codecs) S → Prop}
    {c c' : RFBClient (Decoding codecs) S} {data : Bytes} (hsound : Sound (baseCallback library) c)
    (h : Delivers good (connected codecs S library) c data c') :
    Sound (baseCallback library) c' ∧ sent c <+: sent c' := by
  cases h with
  | dropped _ => exact ⟨hsound, List.prefix_rfl⟩
  | taken hlive hdeliver hdrains =>
    have hleaves := @leaves_deliver _ S library (forConnection (baseCallback library)) c data hlive
    have hbegun := @sound_deliver _ S library (forConnection (baseCallback library)) c data hsound
    rw [show (deliver (base library _) data).run c = _ from hdeliver] at hleaves hbegun
    obtain ⟨hsound', hprefix⟩ := sent_of_drains hbegun hdrains
    exact ⟨hsound', (prefix_sent hleaves).trans hprefix⟩

/-! ## Dialogues -/

/-- The parked handler is one of those for messages, behind the name of the server. -/
def Expected.messaging : Expected (Decoding codecs) S → Bool
  | .connection | .framebufferUpdate | .rectangle => true
  | .pump (.message _) _ _ | .ended (.message _) _ => true
  | .pump (.rectangle _) _ _ | .ended (.rectangle _) _ => true
  | _ => false

/-- The client is behind the name of the server: `vncConnectionMade` has been called. -/
def Messaging (c : RFBClient (Decoding codecs) S) : Prop :=
  ∃ e, c.phase = .expecting e ∧ e.messaging = true

theorem not_messaging_of_initial {c : RFBClient (Decoding codecs) S} (h : c.phase = .initial) :
    ¬Messaging c := by
  rintro ⟨e, hphase, -⟩
  exact absurd (h.symm.trans hphase) (by simp)

/-- A live client that waits for exactly the bytes of a segment, before the end of the name. -/
def Waits (c : RFBClient (Decoding codecs) S) (segment : Bytes) : Prop :=
  ∃ e, c.phase = .expecting e ∧ e.len = segment.length ∧ e.messaging = false ∧ c.aborted = false

/-- The client waits for one segment after the other, and replies to each. -/
inductive Joins (env : Env (Decoding codecs) S) :
    RFBClient (Decoding codecs) S → Dialogue UInt8 UInt8 → RFBClient (Decoding codecs) S → Prop
  | nil (c : RFBClient (Decoding codecs) S) : Joins env c [] c
  | cons {c c₁ c' : RFBClient (Decoding codecs) S} {segment reply : Bytes}
      {d : Dialogue UInt8 UInt8} (hwaits : Waits c segment) (htakes : Takes env c segment c₁)
      (hsent : sent c₁ = sent c ++ reply) (h : Joins env c₁ d c') :
      Joins env c ((segment, reply) :: d) c'

/-- A client in the middle of the handshake. -/
def Joining (c : RFBClient (Decoding codecs) S) : Prop := c.aborted = false ∧ ¬Messaging c

variable {env : Env (Decoding codecs) S} {c c' c'' : RFBClient (Decoding codecs) S}
  {segment p : Bytes} {d : Dialogue UInt8 UInt8}

/-- A segment that is not complete is not handled. -/
theorem Waits.rests (h : Waits c segment) (hshort : p.length < segment.length) :
    ready { c with packet := p } = false ∧ Joining { c with packet := p } := by
  obtain ⟨e, hphase, hlen, hbefore, hlive⟩ := h
  refine ⟨?_, hlive, ?_⟩
  · unfold ready
    simp only [hphase, hlive, Bool.not_false, Bool.and_true, decide_eq_false_iff_not]
    omega
  · rintro ⟨e', hphase', hmessaging⟩
    obtain rfl := Phase.expecting.inj (hphase.symm.trans hphase')
    exact absurd hmessaging (by simp [hbefore])

/-- What the loop does after some turns. -/
theorem Drains.after_advances (h : Relation.ReflTransGen (Advances env) c c')
    (hdrains : Drains AvoidsVeNCrypt env c' c'') : Drains AvoidsVeNCrypt env c c'' := by
  induction h using Relation.ReflTransGen.head_induction_on with
  | refl => exact hdrains
  | head hadvances _ ih => exact .turn hadvances.1 hadvances.2 ih

/-- Wherever the bytes of the server stop, the client has replied to the segments that are complete. -/
theorem Joins.drains (h : Joins env c d c') (hrest : ready { c' with packet := [] } = false)
    (hp : p <+: said d) :
    ∃ c₁, Drains AvoidsVeNCrypt env { c with packet := p } c₁ ∧ sent c₁ = sent c ++ spoken d p ∧
      (p.length < (said d).length → Joining c₁) ∧ (p = said d → c₁ = { c' with packet := [] }) := by
  induction h generalizing p with
  | nil c =>
    obtain rfl : p = [] := List.prefix_nil.mp hp
    exact ⟨_, .rest hrest, (List.append_nil _).symm, fun hlt => absurd hlt (Nat.lt_irrefl 0),
      fun _ => rfl⟩
  | @cons c c₁ c' segment reply d hwaits htakes hsent h ih =>
    rw [said_cons] at hp ⊢
    by_cases hwhole : segment.length ≤ p.length
    · -- the segment is complete: the client goes on with what is behind it
      obtain ⟨p', rfl⟩ := List.prefix_of_prefix_length_le (List.prefix_append segment _) hp hwhole
      have hp' : p' <+: said d := (List.prefix_append_right_inj segment).mp hp
      obtain ⟨c₂, hdrains, hsent', hjoining, hall⟩ := ih hrest hp'
      refine ⟨c₂, hdrains.after_advances (htakes p'), ?_, fun hlt => ?_, fun heq => ?_⟩
      · rw [hsent', hsent, spoken_append, List.append_assoc]
      · rw [List.length_append, List.length_append] at hlt
        exact hjoining (by omega)
      · exact hall (List.append_cancel_left heq)
    · -- It is not: the client waits for the rest of it, and has said nothing more.
      have hshort := Nat.not_le.mp hwhole
      obtain ⟨hquiet, hjoining⟩ := hwaits.rests hshort
      refine ⟨_, .rest hquiet, ?_, fun _ => hjoining, fun heq => ?_⟩
      · rw [spoken_of_lt hshort, List.append_nil]
        rfl
      · rw [heq, List.length_append] at hshort
        omega

/-! ## The handshake -/

/-- What a server of the None type says behind its greeting, and the replies. -/
def noneDialogue (version : Ver) (shared : UInt8) (serverInit name : Bytes) : Dialogue UInt8 UInt8 :=
  (if ¬Ver.le (3, 7) version then [(be32 AuthTypes.none.value, [shared])]
  else if ¬Ver.le (3, 8) version then [([1], []), ([1], [1, shared])]
  else [([1], []), ([1], [1]), (be32 0, [shared])]) ++ [(serverInit, []), (name, [])]

/-- What ClientInit says. -/
def sharedFlag (factory : Factory) : UInt8 := if factory.shared then 1 else 0

/-- The attributes once the type is settled and ClientInit is sent. -/
def initialised (a : Attrs (Decoding codecs) S) : Attrs (Decoding codecs) S :=
  { a with log := a.log ++ [.wrote .clientInit [sharedFlag a.factory]] }

/-- The attributes once None is chosen off the list of the server. -/
def choosing (a : Attrs (Decoding codecs) S) : Attrs (Decoding codecs) S :=
  { a with log := a.log ++ [.wrote .securityType [1]] }

/-- The attributes once the screen of the server is known, and its name. -/
def introduced (serverInit : Block 24) (name : Bytes) (a : Attrs (Decoding codecs) S) :
    Attrs (Decoding codecs) S :=
  { a with
    width := u16At serverInit.bytes 0
    height := u16At serverInit.bytes 2
    pixelFormat := PixelFormat.fromBytes (Block.of _ (length_pixformat serverInit))
    name := name
    log := a.log ++ [.called .vncConnectionMade] }

/-- A client that waits for a handler's bytes and has none. -/
abbrev expecting (a : Attrs (Decoding codecs) S) (e : Expected (Decoding codecs) S) :
    RFBClient (Decoding codecs) S :=
  { attrs := a, phase := .expecting e }

variable {a a' : Attrs (Decoding codecs) S} {e e' : Expected (Decoding codecs) S} {bytes : Bytes}

/-- A handler call of the handshake, and what the client writes in it. -/
theorem Joins.handle {reply : Bytes} (hlength : bytes.length = e.len) (hbefore : e.messaging = false)
    (havoids : ∀ block : Block e.len, block.bytes = bytes → e.Avoids block)
    (h : Joins env (expecting a' e') d c')
    (hhandle : ∀ (block : Block e.len) rest, block.bytes = bytes →
      (RFBClient.handle env e block).run { expecting a e with packet := rest } =
        .ok () { expecting a' e' with packet := rest })
    (hsent : sent (expecting a' e') = sent (expecting a e) ++ reply) :
    Joins env (expecting a e) ((bytes, reply) :: d) c' := by
  refine .cons ⟨e, rfl, hlength.symm, hbefore, rfl⟩ (fun rest => .single ?_) hsent h
  exact advances_of_avoids e bytes rest rfl havoids rfl hlength rfl fun block hblock =>
    hhandle block rest hblock

/-- Something written behind what was written before. -/
theorem sent_wrote (what : Written) (data : Bytes) (a : Attrs (Decoding codecs) S)
    (e e' : Expected (Decoding codecs) S) :
    sent (expecting { a with log := a.log ++ [Event.wrote what data] } e') =
      sent (expecting a e) ++ data := by
  show (a.log ++ [Event.wrote what data]).flatMap Event.payload = _
  rw [List.flatMap_append, List.flatMap_singleton]
  rfl

/-- The name of the server ends the handshake. -/
theorem joins_serverName (name : Bytes) (a : Attrs (Decoding codecs) S) :
    Joins (connected codecs S library) (expecting a (.serverName name.length)) [(name, [])]
      (parked { a with name := name, log := a.log ++ [.called .vncConnectionMade] }) := by
  refine .handle rfl rfl (fun block _ => Expected.avoids_of_past rfl block) (.nil _)
    (fun block rest hblock => ?_) ?_
  · show (handleServerName _ block).run _ = _
    rw [run_handleServerName, hblock]
  · show (a.log ++ [Event.called .vncConnectionMade]).flatMap Event.payload = _
    rw [List.flatMap_append]
    rfl

/-- ServerInit and the name. -/
theorem joins_serverInit (serverInit : Block 24) {name : Bytes}
    (hname : u32At serverInit.bytes 20 = name.length) (a : Attrs (Decoding codecs) S) :
    Joins (connected codecs S library) (expecting a .serverInit) [(serverInit.bytes, []), (name, [])]
      (parked (introduced serverInit name a)) := by
  refine .handle serverInit.length_bytes rfl (fun block _ => Expected.avoids_of_past rfl block)
    (joins_serverName name { a with
      width := u16At serverInit.bytes 0
      height := u16At serverInit.bytes 2
      pixelFormat := PixelFormat.fromBytes (Block.of _ (length_pixformat serverInit)) })
    (fun block rest hblock => ?_) (List.append_nil _).symm
  obtain rfl : block = serverInit := Block.ext hblock
  rw [← hname]
  exact run_handleServerInit block _

/-- Before 3.7 the server dictates the type. -/
theorem joins_auth (h : ¬Ver.le (3, 8) a.version)
    (hjoins : Joins (connected codecs S library) (expecting (initialised a) .serverInit) d c') :
    Joins (connected codecs S library) (expecting a .auth)
      ((be32 AuthTypes.none.value, [sharedFlag a.factory]) :: d) c' := by
  have hread : ∀ block : Block 4, block.bytes = be32 AuthTypes.none.value →
      u32At block.bytes 0 = AuthTypes.none.value := by
    intro block hblock
    rw [hblock]
    rfl
  have hhandler : (securityHandler (connected codecs S library) AuthTypes.none.value).isSome = true :=
    rfl
  refine .handle (e := .auth) rfl rfl (fun block hblock secType hchooses => ?_) hjoins
    (fun block rest hblock => ?_) (sent_wrote .clientInit _ a _ _)
  · obtain rfl : secType = AuthTypes.none.value :=
      (Option.some.inj hchooses).symm.trans (hread block hblock)
    decide
  · show (handleAuth _ block).run _ = _
    unfold handleAuth
    dsimp only
    rw [hread block hblock, if_neg (by decide), if_pos hhandler,
      run_startSecurity_none_of_lt (by exact h)]
    rfl

/-- From 3.7 on it counts its types. -/
theorem joins_numberSecurityTypes
    (hjoins : Joins (connected codecs S library) (expecting a (.securityTypes 1)) d c') :
    Joins (connected codecs S library) (expecting a .numberSecurityTypes) (([1], []) :: d) c' := by
  refine .handle (e := .numberSecurityTypes) rfl rfl
    (fun block _ => Expected.avoids_of_past rfl block) hjoins (fun block rest hblock => ?_)
    (List.append_nil _).symm
  have hread : byteAt block.bytes 0 = 1 := by
    rw [hblock]
    rfl
  show (handleNumberSecurityTypes block).run _ = _
  unfold handleNumberSecurityTypes
  dsimp only
  rw [hread]
  rfl

/-- None is chosen off a list of nothing else. -/
theorem joins_securityTypes {reply : Bytes}
    (hjoins : Joins (connected codecs S library) (expecting a' e') d c')
    (hstart : ∀ rest, (startSecurity (connected codecs S library) AuthTypes.none.value).run
      { expecting (choosing a) (.securityTypes 1) with packet := rest } =
        .ok () { expecting a' e' with packet := rest })
    (hsent : sent (expecting a' e') = sent (expecting a (.securityTypes 1)) ++ reply) :
    Joins (connected codecs S library) (expecting a (.securityTypes 1)) (([1], reply) :: d) c' := by
  have hread : ∀ block : Block 1, block.bytes = [1] →
      ((block.bytes.map UInt8.toNat).filter (· ∈ supportedAuths)).max? = some AuthTypes.none.value := by
    intro block hblock
    rw [hblock]
    rfl
  refine .handle (e := .securityTypes 1) rfl rfl (fun block hblock secType hchooses => ?_) hjoins
    (fun block rest hblock => ?_) hsent
  · obtain rfl : secType = AuthTypes.none.value :=
      Option.some.inj (hchooses.symm.trans (hread block hblock))
    decide
  · show (handleSecurityTypes _ block).run _ = _
    unfold handleSecurityTypes
    dsimp only
    rw [hread block hblock]
    exact hstart rest

/-- From 3.8 on None has a SecurityResult. -/
theorem joins_awaitingResult
    (hjoins : Joins (connected codecs S library) (expecting (initialised a) .serverInit) d c') :
    Joins (connected codecs S library)
      (expecting a (awaitingResult (connected codecs S library) AuthTypes.none.value))
      ((be32 0, [sharedFlag a.factory]) :: d) c' := by
  refine .handle (e := awaitingResult _ _) rfl rfl
    (fun block _ => Expected.avoids_of_past rfl block) hjoins
    (fun block rest hblock => ?_) (sent_wrote .clientInit _ a _ _)
  have hread : u32At block.bytes 0 = 0 := by
    rw [hblock]
    rfl
  rw [run_handle_awaitingResult_of_zero hread]
  rfl

/-- A client that has answered the greeting of such a server joins it. -/
theorem joins_none (serverInit : Block 24) {name : Bytes}
    (hname : u32At serverInit.bytes 20 = name.length) (a : Attrs (Decoding codecs) S) :
    Joins (connected codecs S library)
      (expecting a (if ¬Ver.le (3, 7) a.version then .auth else .numberSecurityTypes))
      (noneDialogue a.version (sharedFlag a.factory) serverInit.bytes name)
      (parked (introduced serverInit name
        (initialised (if ¬Ver.le (3, 7) a.version then a else choosing a)))) := by
  unfold noneDialogue
  by_cases hlisted : Ver.le (3, 7) a.version
  · rw [if_neg (not_not_intro hlisted), if_neg (not_not_intro hlisted), if_neg (not_not_intro hlisted)]
    have hend := @joins_serverInit codecs S library serverInit name hname (initialised (choosing a))
    by_cases hresult : Ver.le (3, 8) a.version
    · rw [if_neg (not_not_intro hresult)]
      have hawaiting := joins_awaitingResult (a := choosing a) hend
      refine joins_numberSecurityTypes (joins_securityTypes hawaiting (fun rest => ?_)
        (sent_wrote .securityType [1] a _ _))
      exact run_startSecurity_none_of_le hresult
    · rw [if_pos hresult]
      refine joins_numberSecurityTypes (joins_securityTypes hend (fun rest => ?_) ?_)
      · rw [run_startSecurity_none_of_lt hresult]
        rfl
      · -- the choice and ClientInit are written in one go
        show sent (expecting (initialised (choosing a)) .serverInit) = _
        rw [initialised, sent_wrote .clientInit _ (choosing a) (.securityTypes 1), choosing,
          sent_wrote .securityType _ a (.securityTypes 1), List.append_assoc]
        rfl
  · -- Under 3.3 the type is dictated, and no result comes.
    have hresult : ¬Ver.le (3, 8) a.version := fun h => hlisted (Ver.le_trans (by decide) h)
    rw [if_pos hlisted, if_pos hlisted, if_pos hlisted]
    exact joins_auth hresult (joins_serverInit serverInit hname (initialised a))

/-! ## From the greeting on -/

/-- The handshake of a server of the None type, its greeting first. -/
def handshake (greeting : Block 12) (version : Ver) (shared : UInt8) (serverInit : Block 24)
    (name : Bytes) : Dialogue UInt8 UInt8 :=
  (greeting.bytes, versionMessage version) :: noneDialogue version shared serverInit.bytes name

/-- The attributes of a client that has answered a greeting. -/
def answered (greeting : Block 12) (version : Ver) (factory : Factory) (decoding : Decoding codecs)
    (own : S) : Attrs (Decoding codecs) S where
  factory := factory
  version := version
  versionServer := announced greeting.bytes
  decoding := decoding
  own := own
  log := [.wrote .protocolVersion (versionMessage version)]

/-- The attributes of a client that has gone through such a handshake. -/
def joined (greeting : Block 12) (version : Ver) (serverInit : Block 24) (name : Bytes)
    (factory : Factory) (decoding : Decoding codecs) (own : S) : Attrs (Decoding codecs) S :=
  let a := answered greeting version factory decoding own
  introduced serverInit name (initialised (if ¬Ver.le (3, 7) version then a else choosing a))

variable {greeting : Block 12} {version : Ver} {serverInit : Block 24} {name : Bytes}
  {factory : Factory} {decoding : Decoding codecs} {own : S}

/-- The beginning of a version header may still become one. -/
theorem undecided_of_prefix (hheader : normalise greeting.bytes = header) (hp : p <+: greeting.bytes)
    (hshort : p.length < 12) : Undecided (more (fresh factory decoding own) p) := by
  have hhead : head (more (fresh factory decoding own) p) = p := List.take_of_length_le (by
    show p.length ≤ 12
    omega)
  have hprefix : normalise p <+: header := by
    rw [← hheader]
    exact hp.map _
  refine ⟨fun heq => ?_, ?_⟩
  · rw [hhead] at heq
    have hlength := length_of_normalise heq
    omega
  · rw [hhead]
    exact hprefix

/-- A delivery that begins with the greeting answers it. -/
theorem run_deliver_greeting (hheader : normalise greeting.bytes = header)
    (hversion : negotiate (announced greeting.bytes) = some version) (rest : Bytes) :
    (deliver env (greeting.bytes ++ rest)).run (fresh factory decoding own) =
      .ok () { expecting (answered greeting version factory decoding own)
        (if ¬Ver.le (3, 7) version then .auth else .numberSecurityTypes) with packet := rest } := by
  have hhead : head (more (fresh factory decoding own) (greeting.bytes ++ rest)) = greeting.bytes :=
    List.take_left' greeting.length_bytes
  rw [(atHeader_fresh factory decoding own).run_deliver,
    run_handleInitial_of_header (by rw [hhead, hheader]), run_answerHeader, hhead, hversion]
  have hdrop : (greeting.bytes ++ rest).drop 12 = rest := List.drop_left' greeting.length_bytes
  unfold greeted
  show EStateM.Result.ok () { expecting (answered greeting version factory decoding own) _ with
    packet := (greeting.bytes ++ rest).drop 12 } = _
  rw [hdrop]

/-- However much of the handshake has come, the client has replied to what is complete of it; it is in
its message loop exactly when all has come, and has stored what the server said. -/
theorem delivers_joining (hheader : normalise greeting.bytes = header)
    (hversion : negotiate (announced greeting.bytes) = some version)
    (hname : u32At serverInit.bytes 20 = name.length)
    (hp : p <+: said (handshake greeting version (sharedFlag factory) serverInit name)) :
    ∃ c, Delivers AvoidsVeNCrypt (connected codecs S library) (fresh factory decoding own) p c ∧
      sent c = spoken (handshake greeting version (sharedFlag factory) serverInit name) p ∧
      (p.length < (said (handshake greeting version (sharedFlag factory) serverInit name)).length →
        Joining c) ∧
      (p = said (handshake greeting version (sharedFlag factory) serverInit name) →
        c = parked (joined greeting version serverInit name factory decoding own)) := by
  unfold handshake at hp ⊢
  rw [said_cons] at hp ⊢
  have hstart := atHeader_fresh (S := S) factory decoding own
  by_cases hwhole : 12 ≤ p.length
  · -- The greeting is complete and is answered: what is behind it is the rest of the dialogue.
    obtain ⟨p', rfl⟩ := List.prefix_of_prefix_length_le (List.prefix_append greeting.bytes _) hp
      (by rw [greeting.length_bytes]; exact hwhole)
    have hp' := (List.prefix_append_right_inj greeting.bytes).mp hp
    have hjoins := @joins_none codecs S library serverInit name hname
      (answered greeting version factory decoding own)
    obtain ⟨c, hdrains, hsent, hjoining, hall⟩ := hjoins.drains rfl hp'
    refine ⟨c, .taken hstart.live (run_deliver_greeting hheader hversion p') hdrains, ?_, ?_, ?_⟩
    · rw [hsent, spoken_append]
      rfl
    · intro hlt
      rw [List.length_append, List.length_append] at hlt
      exact hjoining (Nat.lt_of_add_lt_add_left hlt)
    · intro heq
      exact hall (List.append_cancel_left heq)
  · -- What there is of it is buffered, and nothing is said.
    have hshort := Nat.not_le.mp hwhole
    have hundecided : Undecided (more (fresh factory decoding own) p) := by
      refine undecided_of_prefix hheader ?_ hshort
      refine List.prefix_of_prefix_length_le hp (List.prefix_append _ _) ?_
      rw [greeting.length_bytes]
      omega
    refine ⟨more (fresh factory decoding own) p, .taken hstart.live ?_ (.rest rfl), ?_, ?_, ?_⟩
    · rw [hstart.run_deliver]
      exact run_handleInitial_of_undecided hundecided
    · rw [spoken_of_lt (by rw [greeting.length_bytes]; exact hshort)]
      rfl
    · intro _
      exact ⟨rfl, not_messaging_of_initial rfl⟩
    · intro heq
      rw [heq, List.length_append, greeting.length_bytes] at hshort
      omega

end RFBClient

end VncDoTool
