import VncDoTool.Capture.Stripping
import VncDoTool.Client.ServerStream
import VncDoTool.Replay.Serving
import Mathlib.Data.List.Infix

/-!
# Playing a recording back at a client

A replay of a stripped recording and a client of this program, connected: what was recorded, what the
client is told, and what each has of the other at any time.

* `Recording`: what is needed of a recording for a client of this program to join its replay.
* `Playback`: the two and what is on its way between them, with `Playback.Step`.
* `Playback.Keeps`: what every step keeps; `Playback.keeps_of_reaches`.
* `Playback.playback`: the handshake, the bytes behind it, and that neither side waits in vain.
* `Playback.playback_messages`: what a client shows of recorded messages.
-/

namespace VncDoTool

open Replay RFBClient Dialogue

/-- A stripped recording that a client of this program can join: a greeting it answers with the version
of the recording, and a ServerInit with the name it announces. -/
structure Recording : Type where
  greeting : Block 12
  header : normalise greeting.bytes = RFBClient.header
  version : Ver
  negotiates : negotiate (announced greeting.bytes) = some version
  serverInit : Block 24
  name : Bytes
  name_len : u32At serverInit.bytes 20 = name.length
  /-- What the server sent behind the name. -/
  later : Bytes

namespace Recording

variable (rec : Recording)

/-- The handshake that is played back, with the replies of a client. -/
def dialogue (factory : Factory) : Dialogue UInt8 UInt8 :=
  handshake rec.greeting rec.version (sharedFlag factory) rec.serverInit rec.name

/-- What the server says in it. -/
def opening : Bytes := said (rec.dialogue {})

/-- The replies make no difference to what the server says. -/
theorem said_dialogue (factory : Factory) : said (rec.dialogue factory) = rec.opening := by
  unfold opening dialogue handshake noneDialogue said
  split_ifs <;> rfl

/-- The capture. -/
def capture : Capture where
  s2c := rec.opening ++ rec.later
  negotiatedVersion := some rec.version

/-- What a replay of the recording permits. -/
theorem grants (factory : Factory) :
    Grants (ReplayProtocol.permitted (HandshakeScrubber.init false).step rec.capture.s2c)
      (rec.dialogue factory) fun c2s => if Asks c2s then rec.later.length else 0 := by
  have hplays := ReplayProtocol.plays_handshake rec.later rec.greeting
    (ReplayProtocol.parseVersion_versionMessage rec.negotiates) (sharedFlag factory) rec.serverInit
    rec.name_len
  unfold ReplayProtocol.Plays at hplays
  rw [show said (handshake rec.greeting rec.version (sharedFlag factory) rec.serverInit rec.name) =
    rec.opening from rec.said_dialogue factory] at hplays
  exact hplays

/-- The screen the recorded server announced. -/
def display : Display where
  width := u16At rec.serverInit.bytes 0
  height := u16At rec.serverInit.bytes 2
  pixelFormat := PixelFormat.fromBytes (Block.of _ (length_pixformat rec.serverInit))

end Recording

/-- A replay and a client of this program, with what each has been handed of what the other wrote, and
what the application has had the client write. -/
structure Playback (codecs : Codecs) (S : Type) : Type where
  replay : ReplayProtocol
  client : RFBClient (Decoding codecs) S
  delivered : Bytes := []
  /-- What the transport of the client was given: what the client's handlers wrote, and the application's
  messages, in the order they were written. -/
  outbox : Bytes := []
  taken : Bytes := []
  requested : List Bytes := []

namespace Playback

variable {codecs : Codecs} {S : Type} {library : Library}

/-- Some of what is on its way arrives. What the client writes then goes to its transport. -/
inductive Arrives (capture : Capture) (library : Library) : Playback codecs S → Playback codecs S → Prop
  | toClient {p : Playback codecs S} {c : RFBClient (Decoding codecs) S} (chunk : Bytes)
      (hne : chunk ≠ []) (hflight : p.delivered ++ chunk <+: p.replay.written.flatten)
      (hdelivers : Delivers (fun _ => True) (connected codecs S library) p.client chunk c) :
      Arrives capture library p { p with
        client := c
        delivered := p.delivered ++ chunk
        outbox := p.outbox ++ (sent c).drop (sent p.client).length }
  | toReplay {p : Playback codecs S} {r : ReplayProtocol} (chunk : Bytes) (fuel : ℕ) (hne : chunk ≠ [])
      (hflight : p.taken ++ chunk <+: p.outbox)
      (hdata : ReplayProtocol.dataReceived capture fuel p.replay chunk = some r) :
      Arrives capture library p { p with replay := r, taken := p.taken ++ chunk }

/-- A step of the two: something arrives, or the application has the client write, at any time once it is
connected. What it writes goes to the transport and leaves the client as it is, as every message does but
SetPixelFormat and SetEncodings, which the client also takes note of. -/
inductive Step (capture : Capture) (library : Library) : Playback codecs S → Playback codecs S → Prop
  | arrives {p p' : Playback codecs S} (h : Arrives capture library p p') : Step capture library p p'
  | writes {p : Playback codecs S} (data : Bytes) (hconnected : Messaging p.client) :
      Step capture library p { p with
        outbox := p.outbox ++ data
        requested := p.requested ++ [data] }

/-- What the two can come to. -/
inductive Reaches (capture : Capture) (library : Library) (factory : Factory)
    (decoding : Decoding codecs) (own : S) : Playback codecs S → Prop
  | start {fuel : ℕ} {r : ReplayProtocol} (h : ReplayProtocol.advance capture fuel {} = some r) :
      Reaches capture library factory decoding own
        { replay := r, client := fresh factory decoding own }
  | step {p p' : Playback codecs S} (h : Reaches capture library factory decoding own p)
      (hstep : Step capture library p p') : Reaches capture library factory decoding own p'

/-- Nothing is on its way. -/
def Quiet (p : Playback codecs S) : Prop :=
  p.delivered = p.replay.written.flatten ∧ p.taken = p.outbox

/-- The client that has joined. -/
def joinedClient (rec : Recording) (factory : Factory) (decoding : Decoding codecs) (own : S) :
    RFBClient (Decoding codecs) S :=
  parked (joined rec.greeting rec.version rec.serverInit rec.name factory decoding own)

/-! ## What every step keeps -/

variable {rec : Recording} {factory : Factory} {decoding : Decoding codecs} {own : S}
  {p p' : Playback codecs S}

/-- What comes of a delivery in the handshake. -/
theorem delivers_opening {data : Bytes} (h : data <+: rec.opening) :
    ∃ c, Delivers AvoidsVeNCrypt (connected codecs S library) (fresh factory decoding own) data c ∧
      sent c = spoken (rec.dialogue factory) data ∧
      (data.length < rec.opening.length → Joining c) ∧
      (data = rec.opening → c = joinedClient rec factory decoding own) := by
  rw [← rec.said_dialogue factory] at h ⊢
  exact @delivers_joining codecs S library data rec.greeting rec.version rec.serverInit rec.name factory
    decoding own rec.header rec.negotiates rec.name_len h

/-- The client that has joined has replied to the whole handshake. -/
theorem sent_joinedClient :
    sent (joinedClient rec factory decoding own) = replied (rec.dialogue factory) := by
  obtain ⟨c, -, hsent, -, hall⟩ := @delivers_opening codecs S sampleLibrary rec factory decoding own _
    List.prefix_rfl
  rw [hall rfl, ← rec.said_dialogue factory, spoken_said] at hsent
  exact hsent

/-- Another delivery. -/
theorem receives_concat {good : RFBClient (Decoding codecs) S → Prop}
    {env : Env (Decoding codecs) S} {c c' c'' : RFBClient (Decoding codecs) S} {chunks : List Bytes}
    {data : Bytes} (h : Receives good env c chunks c') (hdata : Delivers good env c' data c'') :
    Receives good env c (chunks ++ [data]) c'' := by
  induction h with
  | nil c => exact .cons hdata (.nil c'')
  | cons hfirst _ ih => exact .cons hfirst (ih hdata)

/-- Behind the handshake nothing else arrives before the client has asked for a framebuffer, and until
then its transport was given the replies and what the application said, and nothing else. -/
def Held (rec : Recording) (factory : Factory) (chunks : List Bytes) (p : Playback codecs S) : Prop :=
  (chunks = [] ∧ p.outbox = replied (rec.dialogue factory) ++ p.requested.flatten) ∨
    Asks p.requested.flatten ∧ ∃ q, Asks q ∧ replied (rec.dialogue factory) ++ q <+: p.outbox

/-- How far the client is. -/
inductive Stage (rec : Recording) (library : Library) (factory : Factory) (decoding : Decoding codecs)
    (own : S) (p : Playback codecs S) : Prop
  /-- In the handshake it has replied to what is complete of it, and nobody has said anything else. -/
  | joining (hshort : p.delivered.length < rec.opening.length)
      (hdelivers : Delivers AvoidsVeNCrypt (connected codecs S library)
        (fresh factory decoding own) p.delivered p.client)
      (hsent : sent p.client = spoken (rec.dialogue factory) p.delivered) (hjoining : Joining p.client)
      (houtbox : p.outbox = sent p.client) (hrequested : p.requested = [])
  /-- Behind it, it is the client that was told what was recorded. -/
  | joined (chunks : List Bytes) (hdelivered : p.delivered = rec.opening ++ chunks.flatten)
      (hreceives : Receives (fun _ => True) (connected codecs S library)
        (joinedClient rec factory decoding own) chunks p.client)
      (hheld : Held rec factory chunks p)

/-- What every step keeps. -/
structure Keeps (rec : Recording) (library : Library) (factory : Factory) (decoding : Decoding codecs)
    (own : S) (p : Playback codecs S) : Prop where
  serves : ReplayProtocol.Serves rec.capture p.taken p.replay
  sound : Sound (baseCallback library) p.client
  taken : p.taken <+: p.outbox
  delivered : p.delivered <+: p.replay.written.flatten
  length : p.outbox.length = (sent p.client).length + p.requested.flatten.length
  stage : Stage rec library factory decoding own p

/-- Nobody has asked for a framebuffer by saying nothing. -/
theorem not_asks_nil : ¬Asks [] := by
  rw [← saw_iff_asks, sawUpdateRequest, dif_pos rfl]
  exact Bool.false_ne_true

/-- The replies are written first. -/
theorem Held.replied {chunks : List Bytes} (h : Held rec factory chunks p) :
    Dialogue.replied (rec.dialogue factory) <+: p.outbox := by
  obtain ⟨-, houtbox⟩ | ⟨-, q, -, hq⟩ := h
  · rw [houtbox]
    exact List.prefix_append _ _
  · exact (List.prefix_append _ _).trans hq

/-- Behind them a framebuffer is asked for, once the application has done so. -/
theorem Held.asks {chunks : List Bytes} (h : Held rec factory chunks p)
    (hasks : Asks p.requested.flatten) :
    ∃ q, Asks q ∧ Dialogue.replied (rec.dialogue factory) ++ q <+: p.outbox := by
  obtain ⟨-, houtbox⟩ | ⟨-, hq⟩ := h
  · exact ⟨_, hasks, houtbox ▸ List.prefix_rfl⟩
  · exact hq

/-- And as long as it has not, nothing has arrived behind the handshake. -/
theorem Held.of_not_asks {chunks : List Bytes} (h : Held rec factory chunks p)
    (hasks : ¬Asks p.requested.flatten) :
    chunks = [] ∧ p.outbox = Dialogue.replied (rec.dialogue factory) ++ p.requested.flatten :=
  h.resolve_right fun hboth => hasks hboth.1

/-- What the client may have as long as it has not asked for a framebuffer. -/
theorem permitted_le_opening {requested taken : Bytes} (hasks : ¬Asks requested)
    (htaken : taken <+: replied (rec.dialogue factory) ++ requested) :
    ReplayProtocol.permitted (HandshakeScrubber.init false).step rec.capture.s2c taken ≤
      rec.opening.length := by
  obtain ⟨more, hmore⟩ := htaken
  have hall := (rec.grants factory).limit_replied requested
  rw [if_neg hasks, Nat.add_zero, rec.said_dialogue] at hall
  rw [← hall, ← hmore]
  exact ReplayProtocol.permitted_mono _ _ _ _

/-- And once it has. -/
theorem permitted_of_asks {requested taken : Bytes} (hasks : Asks requested)
    (htaken : replied (rec.dialogue factory) ++ requested <+: taken) :
    ReplayProtocol.permitted (HandshakeScrubber.init false).step rec.capture.s2c taken =
      rec.capture.s2c.length := by
  obtain ⟨more, rfl⟩ := htaken
  have hall := (rec.grants factory).limit_replied requested
  rw [if_pos hasks, rec.said_dialogue] at hall
  have hlength : rec.capture.s2c.length = rec.opening.length + rec.later.length :=
    List.length_append
  refine Nat.le_antisymm (ReplayProtocol.permitted_le _ _ _) ?_
  rw [hlength, ← hall]
  exact ReplayProtocol.permitted_mono _ _ _ _

/-- What is on its way to a client that has not asked for a framebuffer belongs to the handshake. -/
theorem Keeps.flight_opening (h : Keeps rec library factory decoding own p)
    (hasks : ¬Asks p.requested.flatten)
    (houtbox : p.outbox <+: replied (rec.dialogue factory) ++ p.requested.flatten) :
    p.replay.written.flatten <+: rec.opening := by
  have hle := permitted_le_opening hasks (h.taken.trans houtbox)
  rw [h.serves.written_eq]
  refine List.prefix_of_prefix_length_le (List.take_prefix _ _) (List.prefix_append _ rec.later) ?_
  rw [List.length_take]
  exact (Nat.min_le_left _ _).trans hle

/-- In the handshake the client takes whatever arrives. -/
theorem exists_delivers {data chunk : Bytes} {c₀ : RFBClient (Decoding codecs) S}
    (hflight : data ++ chunk <+: rec.opening)
    (hdelivers : Delivers AvoidsVeNCrypt (connected codecs S library) (fresh factory decoding own)
      data c₀) :
    ∃ c, Delivers AvoidsVeNCrypt (connected codecs S library) c₀ chunk c ∧
      Delivers AvoidsVeNCrypt (connected codecs S library) (fresh factory decoding own)
        (data ++ chunk) c := by
  obtain ⟨c, hall, -, hjoining, hend⟩ :=
    @delivers_opening codecs S library rec factory decoding own _ hflight
  have hlive : c.aborted = false := by
    rcases Nat.lt_or_ge (data ++ chunk).length rec.opening.length with hshort | hwhole
    · exact (hjoining hshort).1
    · rw [hend (hflight.eq_of_length_le hwhole)]
      rfl
  -- what has arrived and the chunk come to the same as both at once
  have hreads : OnlyReads (@Decoders.forConnection codecs S (baseCallback library)) :=
    fun _ _ hdecoder => Decoders.reads_forConnection _ hdecoder
  have hcut : [data, chunk].flatten = data ++ chunk := by simp
  obtain ⟨c₂, hreceives, halike⟩ := receives_of_delivers hreads (atHeader_fresh factory decoding own)
    (by rw [hcut]; exact hall)
  obtain rfl := halike.same (halike.aborted.trans hlive)
  refine ⟨c₂, ?_, hall⟩
  cases hreceives with
  | cons hfirst hrest =>
    obtain rfl := hfirst.unique hdelivers
    cases hrest with
    | cons hsecond hnil =>
      cases hnil with
      | nil => exact hsecond

/-- A chunk that arrives in the handshake. -/
theorem stage_of_joining {chunk outbox : Bytes} {c c₀ : RFBClient (Decoding codecs) S}
    (hflight : p.delivered ++ chunk <+: rec.opening)
    (hdelivers : Delivers AvoidsVeNCrypt (connected codecs S library) (fresh factory decoding own)
      p.delivered c₀)
    (hchunk : Delivers (fun _ => True) (connected codecs S library) c₀ chunk c)
    (houtbox : outbox = sent c) (hrequested : p.requested = []) :
    Stage rec library factory decoding own
      { p with client := c, delivered := p.delivered ++ chunk, outbox := outbox } := by
  obtain ⟨c₁, hlater, hall⟩ := exists_delivers hflight hdelivers
  obtain rfl := hlater.unique hchunk
  obtain ⟨c', hall', hsent, hjoining, hend⟩ :=
    @delivers_opening codecs S library rec factory decoding own _ hflight
  obtain rfl := hall.unique hall'
  -- Either the opening is still incomplete, or the chunk was its last.
  rcases Nat.lt_or_ge (p.delivered ++ chunk).length rec.opening.length with hshort | hwhole
  · exact .joining hshort hall hsent (hjoining hshort) houtbox hrequested
  · have heq := hflight.eq_of_length_le hwhole
    have hclient := hend heq
    refine .joined [] ?_ ?_ (.inl ⟨rfl, ?_⟩)
    · show p.delivered ++ chunk = _
      rw [heq, List.flatten_nil, List.append_nil]
    · rw [hclient]
      exact .nil _
    · show outbox = _ ++ p.requested.flatten
      rw [houtbox, hclient, sent_joinedClient, hrequested, List.flatten_nil, List.append_nil]

/-- A step that hands the client a chunk. -/
theorem Keeps.toClient (h : Keeps rec library factory decoding own p) {chunk : Bytes}
    {c : RFBClient (Decoding codecs) S} (hne : chunk ≠ [])
    (hflight : p.delivered ++ chunk <+: p.replay.written.flatten)
    (hdelivers : Delivers (fun _ => True) (connected codecs S library) p.client chunk c) :
    Keeps rec library factory decoding own { p with
      client := c
      delivered := p.delivered ++ chunk
      outbox := p.outbox ++ (sent c).drop (sent p.client).length } := by
  obtain ⟨hsound, hmore⟩ := sent_of_delivers h.sound hdelivers
  refine ⟨h.serves, hsound, h.taken.trans (List.prefix_append _ _), hflight, ?_, ?_⟩
  · have hlonger := hmore.length_le
    dsimp only
    rw [List.length_append, List.length_drop, h.length]
    omega
  cases h.stage with
  | joining hshort hjoins hsent hjoining houtbox hrequested =>
    have hasks : ¬Asks p.requested.flatten := by
      rw [hrequested]
      exact not_asks_nil
    refine stage_of_joining (hflight.trans (h.flight_opening hasks ?_)) hjoins hdelivers ?_ hrequested
    · rw [houtbox, hsent]
      exact (prefix_spoken _ _).trans (List.prefix_append _ _)
    · obtain ⟨written, hwritten⟩ := hmore
      rw [houtbox, ← hwritten, List.drop_left]
  | joined chunks hdelivered hreceives hheld =>
    -- nothing but the handshake is on its way before the client has asked
    have hasks : Asks p.requested.flatten := by
      by_contra hasks
      obtain ⟨rfl, houtbox⟩ := hheld.of_not_asks hasks
      have hlonger := (hflight.trans (h.flight_opening hasks (by rw [houtbox]))).length_le
      rw [hdelivered, List.flatten_nil, List.append_nil, List.length_append] at hlonger
      exact hne (List.length_eq_zero_iff.mp (by omega))
    obtain ⟨q, hq, hprefix⟩ := hheld.asks hasks
    refine .joined (chunks ++ [chunk]) ?_ (receives_concat hreceives hdelivers)
      (.inr ⟨hasks, q, hq, hprefix.trans (List.prefix_append _ _)⟩)
    show p.delivered ++ chunk = _
    rw [hdelivered, List.flatten_append, List.flatten_singleton, List.append_assoc]

/-- Whatever the client's transport was given begins with its reply to the greeting. -/
theorem Keeps.reply (h : Keeps rec library factory decoding own p) :
    p.outbox.take 12 <+: versionMessage rec.version := by
  have hfirst : (replied (rec.dialogue factory)).take 12 = versionMessage rec.version :=
    List.take_left' rfl
  cases h.stage with
  | joining hshort hjoins hsent hjoining houtbox hrequested =>
    rw [houtbox, hsent, ← hfirst]
    exact List.IsPrefix.take (prefix_spoken _ _) 12
  | joined chunks hdelivered hreceives hheld =>
    obtain ⟨more, hmore⟩ := hheld.replied
    rw [← hmore, ← hfirst, List.take_append_of_le_length (by
      rw [← List.take_append_drop 12 (replied _), hfirst, List.length_append]
      exact Nat.le_add_right 12 _)]

/-- A step that hands the replay a chunk. -/
theorem Keeps.toReplay (h : Keeps rec library factory decoding own p) {chunk : Bytes} {fuel : ℕ}
    {r : ReplayProtocol} (hflight : p.taken ++ chunk <+: p.outbox)
    (hdata : ReplayProtocol.dataReceived rec.capture fuel p.replay chunk = some r) :
    Keeps rec library factory decoding own { p with replay := r, taken := p.taken ++ chunk } := by
  have hparses := ReplayProtocol.parseVersion_versionMessage rec.negotiates
  obtain ⟨hserves, hwritten⟩ := h.serves.dataReceived rfl hparses
    ((List.IsPrefix.take hflight 12).trans h.reply) hdata
  refine ⟨hserves, h.sound, hflight, h.delivered.trans ?_, h.length, ?_⟩
  · obtain ⟨more, hmore⟩ := hwritten
    rw [← hmore, List.flatten_append]
    exact List.prefix_append _ _
  · cases h.stage with
    | joining hshort hjoins hsent hjoining houtbox hrequested =>
      exact .joining hshort hjoins hsent hjoining houtbox hrequested
    | joined chunks hdelivered hreceives hheld => exact .joined chunks hdelivered hreceives hheld

/-- A step in which the application has the client write a message. -/
theorem Keeps.writes (h : Keeps rec library factory decoding own p) (data : Bytes)
    (hconnected : Messaging p.client) :
    Keeps rec library factory decoding own { p with
      outbox := p.outbox ++ data
      requested := p.requested ++ [data] } := by
  have hrequested : (p.requested ++ [data]).flatten = p.requested.flatten ++ data := by
    rw [List.flatten_append, List.flatten_singleton]
  refine ⟨h.serves, h.sound, h.taken.trans (List.prefix_append _ _), h.delivered, ?_, ?_⟩
  · dsimp only
    rw [hrequested, List.length_append, List.length_append, h.length, Nat.add_assoc]
  cases h.stage with
  | joining hshort hjoins hsent hjoining houtbox hrequested => exact absurd hconnected hjoining.2
  | joined chunks hdelivered hreceives hheld =>
    refine .joined chunks hdelivered hreceives ?_
    unfold Held
    dsimp only
    rw [hrequested]
    obtain ⟨hnone, houtbox⟩ | ⟨hasks, q, hq, hprefix⟩ := hheld
    · exact .inl ⟨hnone, by rw [houtbox, List.append_assoc]⟩
    · exact .inr ⟨ReplayProtocol.asks_append hasks data, q, hq, hprefix.trans (List.prefix_append _ _)⟩

/-- Every step keeps it. -/
theorem Keeps.arrives (h : Keeps rec library factory decoding own p)
    (harrives : Arrives rec.capture library p p') : Keeps rec library factory decoding own p' := by
  cases harrives with
  | toClient chunk hne hflight hdelivers => exact h.toClient hne hflight hdelivers
  | toReplay chunk fuel hne hflight hdata => exact h.toReplay hflight hdata

theorem Keeps.step (h : Keeps rec library factory decoding own p)
    (hstep : Step rec.capture library p p') : Keeps rec library factory decoding own p' := by
  cases hstep with
  | arrives harrives => exact h.arrives harrives
  | writes data hconnected => exact h.writes data hconnected

/-- The start of a connection. -/
theorem keeps_start {fuel : ℕ} {r : ReplayProtocol}
    (h : ReplayProtocol.advance rec.capture fuel {} = some r) :
    Keeps rec library factory decoding own
      { replay := r, client := fresh factory decoding own } := by
  have hparses := ReplayProtocol.parseVersion_versionMessage rec.negotiates
  have hfresh := atHeader_fresh (S := S) factory decoding own
  have hgreeting : 0 < rec.greeting.bytes.length := by
    rw [rec.greeting.length_bytes]
    decide
  refine ⟨ReplayProtocol.serves_start rfl hparses h, sound_of_plain trivial, List.nil_prefix,
    List.nil_prefix, rfl, .joining ?_ (.taken hfresh.live ?_ (.rest hfresh.rests)) ?_
    ⟨rfl, not_messaging_of_initial rfl⟩ rfl rfl⟩
  · show 0 < (rec.greeting.bytes ++ _).length
    rw [List.length_append]
    omega
  · rw [hfresh.run_deliver, more_nil]
    exact run_handleInitial_of_undecided hfresh.undecided
  · have hnothing : ([] : Bytes).length < rec.greeting.bytes.length := hgreeting
    exact (spoken_of_lt hnothing).symm

/-- Whatever the two come to. -/
theorem keeps_of_reaches (h : Reaches rec.capture library factory decoding own p) :
    Keeps rec library factory decoding own p := by
  induction h with
  | start h => exact keeps_start h
  | step _ hstep ih => exact ih.step hstep

/-! ## What becomes of a connection -/

/-- What the client's transport was given can arrive. -/
theorem Keeps.exists_toReplay (h : Keeps rec library factory decoding own p)
    (htaken : p.taken ≠ p.outbox) : ∃ p', Arrives rec.capture library p p' := by
  obtain ⟨chunk, hchunk⟩ := h.taken
  have hne : chunk ≠ [] := by
    rintro rfl
    apply htaken
    rw [← hchunk, List.append_nil]
  obtain ⟨n, r, hdata, -⟩ := ReplayProtocol.exists_dataReceived h.serves.settled chunk
  exact ⟨_, .toReplay chunk n hne (by rw [hchunk]) (hdata n (Nat.le_refl n))⟩

/-- In the handshake something is on its way, and can arrive. -/
theorem Keeps.exists_arrives (h : Keeps rec library factory decoding own p)
    (hshort : p.delivered.length < rec.opening.length) :
    ¬Quiet p ∧ ∃ p', Arrives rec.capture library p p' := by
  cases h.stage with
  | joined chunks hdelivered hreceives hheld =>
    rw [hdelivered, List.length_append] at hshort
    omega
  | joining _ hjoins hsent hjoining houtbox hrequested =>
    by_cases hdelivered : p.delivered = p.replay.written.flatten
    · -- all that was sent has arrived: the replies grant more, so that they have not
      have htaken : p.taken ≠ p.outbox := by
        intro htaken
        have hgranted := (rec.grants factory).lt_spoken (by rw [rec.said_dialogue]; exact hshort)
        have hlength := congrArg List.length (hdelivered.trans h.serves.written_eq)
        rw [htaken, houtbox, hsent, List.length_take] at hlength
        have hall : rec.opening.length ≤ rec.capture.s2c.length :=
          (List.prefix_append rec.opening rec.later).length_le
        omega
      exact ⟨fun hquiet => htaken hquiet.2, h.exists_toReplay htaken⟩
    · obtain ⟨chunk, hchunk⟩ := h.delivered
      have hne : chunk ≠ [] := by
        rintro rfl
        apply hdelivered
        rw [← hchunk, List.append_nil]
      have hopening := h.flight_opening (by rw [hrequested]; exact not_asks_nil)
        (by rw [houtbox, hsent]; exact (prefix_spoken _ _).trans (List.prefix_append _ _))
      rw [← hchunk] at hopening
      obtain ⟨c, hdelivers, -⟩ := exists_delivers hopening hjoins
      exact ⟨fun hquiet => hdelivered hquiet.1, _, .toClient chunk hne
        (by rw [hchunk]) (hdelivers.mono fun _ _ => trivial)⟩

/-- Where nothing is on its way, the client has joined, and has had what it asked for. -/
theorem Keeps.of_quiet (h : Keeps rec library factory decoding own p) (hquiet : Quiet p) :
    p.delivered = rec.opening ++ (if Asks p.requested.flatten then rec.later else []) ∧
      (¬Asks p.requested.flatten → p.client = joinedClient rec factory decoding own) := by
  cases h.stage with
  | joining hshort _ _ _ _ _ => exact absurd hquiet (h.exists_arrives hshort).1
  | joined chunks hdelivered hreceives hheld =>
    by_cases hasks : Asks p.requested.flatten
    · rw [if_pos hasks]
      refine ⟨?_, fun hnot => absurd hasks hnot⟩
      obtain ⟨q, hq, hprefix⟩ := hheld.asks hasks
      rw [hquiet.1, h.serves.written_eq, permitted_of_asks hq (by rw [hquiet.2]; exact hprefix),
        List.take_length]
      rfl
    · rw [if_neg hasks]
      obtain ⟨rfl, -⟩ := hheld.of_not_asks hasks
      exact ⟨hdelivered, fun _ =>
        hreceives.unique (.nil _ : Receives (fun _ => True) (connected codecs S library) _ [] _)⟩

end Playback

/-! ## Recorded sessions -/

/-- What a replay finds in the archive of a session. -/
def Replay.Capture.recorded (events : List HandshakeScrubber.Event) : Capture where
  s2c := HandshakeScrubber.recording events (HandshakeScrubber.init false) .s2c
  negotiatedVersion :=
    (HandshakeScrubber.feedAll events (HandshakeScrubber.init false)).2.fields.negotiatedVersion

/-- The recording of a session that a client of this program can join. -/
def Session.recording (s : Session) (hheader : normalise s.greeting.bytes = header)
    (hversion : negotiate (announced s.greeting.bytes) = some s.version) (later : Bytes) : Recording where
  greeting := s.greeting
  header := hheader
  version := s.version
  negotiates := hversion
  serverInit := s.serverInit
  name := s.name
  name_len := s.name_len
  later := later

/-- The archive of a session is its recording. -/
theorem recorded_eq (s : Session) (hheader : normalise s.greeting.bytes = header)
    (hversion : negotiate (announced s.greeting.bytes) = some s.version)
    (later : List HandshakeScrubber.Event) {events : List HandshakeScrubber.Event}
    (h : HandshakeScrubber.arrivals events =
      HandshakeScrubber.arrivals s.turns ++ HandshakeScrubber.arrivals later) :
    Capture.recorded events =
      (s.recording hheader hversion (HandshakeScrubber.bytesOn .s2c later)).capture := by
  have hfeed := HandshakeScrubber.feedAll_of_arrivals s later h
  have hs2c := (HandshakeScrubber.recording_session s later h).1
  unfold Capture.recorded Recording.capture
  rw [hs2c, hfeed]
  congr 1
  unfold Recording.opening Recording.dialogue handshake noneDialogue Session.recording said
  dsimp only
  by_cases hlisted : Ver.le (3, 7) s.version
  · by_cases hresult : Ver.le (3, 8) s.version
    · simp [hlisted, hresult]
    · simp [hlisted, hresult]
  · have hresult : ¬Ver.le (3, 8) s.version := fun h => hlisted (Ver.le_trans (by decide) h)
    simp [hlisted, hresult]

namespace Playback

variable {codecs : Codecs} {S : Type} {library : Library} {factory : Factory}
  {decoding : Decoding codecs} {own : S} {p : Playback codecs S}

/-- How far a recording has been played back, and what has become of the client. -/
structure PlaysBack (rec : Recording) (library : Library) (factory : Factory) (decoding : Decoding codecs)
    (own : S) (p : Playback codecs S) : Prop where
  /-- The replay finds no mismatch. -/
  live : p.replay.closed = false
  /-- The client has been handed a beginning of the recording. -/
  delivered : p.delivered <+: rec.capture.s2c
  /-- Before the end of the name the client is in the handshake, and something can arrive. -/
  joins : p.delivered.length < rec.opening.length →
    Joining p.client ∧ ¬Quiet p ∧ ∃ p', Arrives rec.capture library p p'
  /-- Behind the name it has joined with the type None, and was told the size, the pixel format and the
  name of the recorded server; what it has been handed since is what that server sent behind the name. -/
  joined : rec.opening.length ≤ p.delivered.length → ∃ chunks,
    p.delivered = rec.opening ++ chunks.flatten ∧
      Receives (fun _ => True) (connected codecs S library)
        (joinedClient rec factory decoding own) chunks p.client
  /-- When nothing is on its way any more it has joined, and has had all of that if it has asked for a
  framebuffer, and nothing of it if it has not. -/
  ended : Quiet p →
    p.delivered = rec.opening ++ if Asks p.requested.flatten then rec.later else []

/-- Whatever authentication a recorded session used and however it was cut: its archive is played back to
a client of this program that answers the greeting with the recorded version, in every interleaving of
what the two have on its way to each other and what the application has the client write. -/
theorem playback (s : Session) (hheader : normalise s.greeting.bytes = header)
    (hversion : negotiate (announced s.greeting.bytes) = some s.version)
    (later : List HandshakeScrubber.Event) {events : List HandshakeScrubber.Event}
    (h : HandshakeScrubber.arrivals events =
      HandshakeScrubber.arrivals s.turns ++ HandshakeScrubber.arrivals later)
    (hp : Reaches (Capture.recorded events) library factory decoding own p) :
    PlaysBack (s.recording hheader hversion (HandshakeScrubber.bytesOn .s2c later)) library factory
      decoding own p := by
  -- The archive is that of a session of type None, whatever was recorded.
  rw [recorded_eq s hheader hversion later h] at hp
  have hkeeps := keeps_of_reaches hp
  refine ⟨hkeeps.serves.live, hkeeps.delivered.trans ?_, fun hshort => ?_, fun hwhole => ?_,
    fun hquiet => (hkeeps.of_quiet hquiet).1⟩
  · rw [hkeeps.serves.written_eq]
    exact List.take_prefix _ _
  · refine ⟨?_, hkeeps.exists_arrives hshort⟩
    cases hkeeps.stage with
    | joining _ _ _ hjoining _ _ => exact hjoining
    | joined chunks hdelivered _ _ =>
      rw [hdelivered, List.length_append] at hshort
      omega
  · cases hkeeps.stage with
    | joining hshort _ _ _ _ _ => omega
    | joined chunks hdelivered hreceives _ => exact ⟨chunks, hdelivered, hreceives⟩

/-! ## Recorded messages -/

/-- Deliveries up to some point, and from there on. -/
theorem exists_of_receives_append {good : RFBClient (Decoding codecs) S → Prop}
    {env : Env (Decoding codecs) S} {c c' : RFBClient (Decoding codecs) S} {chunks more : List Bytes}
    (h : Receives good env c (chunks ++ more) c') :
    ∃ c₁, Receives good env c chunks c₁ ∧ Receives good env c₁ more c' := by
  induction chunks generalizing c with
  | nil => exact ⟨c, .nil c, h⟩
  | cons data chunks ih =>
    cases h with
    | cons hfirst hrest =>
      obtain ⟨c₁, hchunks, hmore⟩ := ih hrest
      exact ⟨c₁, .cons hfirst hchunks, hmore⟩

/-- A client that joined the replay of recorded messages shows what they denote, however it receives
them. -/
theorem exists_receives (rec : Recording) (library : Library) (factory : Factory)
    (decoding : Decoding codecs) (own : S) {messages : List ServerMessage}
    (hmessages : rec.later = messages.flatMap ServerMessage.serialise)
    (hwell : ∀ message ∈ messages, message.WellFormed rec.display) {chunks : List Bytes}
    (hcut : chunks.flatten = rec.later) :
    ∃ a', Receives (fun _ => True) (connected codecs S library)
        (joinedClient rec factory decoding own) chunks (parked a') ∧
      a'.log = (joinedClient rec factory decoding own).attrs.log ++
        messages.flatMap (ServerMessage.events rec.display) ∧
      Decoders.display a' = rec.display := by
  -- The handshake left the display the recording announces, and no handshake of TLS.
  have hdisplay : Decoders.display (joinedClient rec factory decoding own).attrs = rec.display := by
    unfold joinedClient joined introduced Recording.display Decoders.display
    split_ifs <;> rfl
  have hclear : (joinedClient rec factory decoding own).attrs.tlsHandshakePending = false := by
    unfold joinedClient joined
    split_ifs <;> rfl
  obtain ⟨a', htakes, hshowed⟩ := @takes_serverMessages codecs S library
    (joinedClient rec factory decoding own).attrs messages (by rw [hdisplay]; exact hwell)
  have hlog := hshowed.log
  rw [hdisplay] at hlog
  exact ⟨a', (receives_of_takes hclear (hcut.trans hmessages) htakes).mono fun _ _ => trivial, hlog,
    hshowed.display.trans hdisplay⟩

section Messages

variable {rec : Recording} {messages : List ServerMessage}

/-- What is still to come arrives, and shows the rest of the messages. -/
theorem Keeps.exists_shown (h : Keeps rec library factory decoding own p)
    (hmessages : rec.later = messages.flatMap ServerMessage.serialise)
    (hwell : ∀ message ∈ messages, message.WellFormed rec.display) {chunks : List Bytes}
    (hdelivered : p.delivered = rec.opening ++ chunks.flatten)
    (hreceives : Receives (fun _ => True) (connected codecs S library)
      (joinedClient rec factory decoding own) chunks p.client) {chunk : Bytes}
    (hflight : p.delivered ++ chunk <+: p.replay.written.flatten) :
    ∃ more c a', Delivers (fun _ => True) (connected codecs S library) p.client chunk c ∧
      Delivers (fun _ => True) (connected codecs S library) c more (parked a') ∧
      a'.log = (joinedClient rec factory decoding own).attrs.log ++
        messages.flatMap (ServerMessage.events rec.display) := by
  -- the chunk is the next one of a way to cut all that is recorded
  have hall : p.delivered ++ chunk <+: rec.opening ++ rec.later := by
    refine hflight.trans ?_
    rw [h.serves.written_eq]
    exact List.take_prefix _ _
  rw [hdelivered, List.append_assoc, List.prefix_append_right_inj] at hall
  obtain ⟨more, hmore⟩ := hall
  obtain ⟨a', hshown, hlog, -⟩ := @exists_receives codecs S rec library factory decoding own
    messages hmessages hwell (chunks ++ [chunk, more]) (by
      rw [List.flatten_append, ← hmore, List.append_assoc]
      simp)
  obtain ⟨c₁, hfirst, hrest⟩ := exists_of_receives_append hshown
  obtain rfl := hfirst.unique hreceives
  cases hrest with
  | cons hdelivers hlast =>
    cases hlast with
    | cons hlast hnil =>
      cases hnil with
      | nil => exact ⟨more, _, a', hdelivers, hlast, hlog⟩

/-- Something is always on its way, and can arrive, until nothing is. -/
theorem Keeps.exists_arrives_of_messages (h : Keeps rec library factory decoding own p)
    (hmessages : rec.later = messages.flatMap ServerMessage.serialise)
    (hwell : ∀ message ∈ messages, message.WellFormed rec.display) (hquiet : ¬Quiet p) :
    ∃ p', Arrives rec.capture library p p' := by
  cases h.stage with
  | joining hshort _ _ _ _ _ => exact (h.exists_arrives hshort).2
  | joined chunks hdelivered hreceives hheld =>
    by_cases htaken : p.taken = p.outbox
    · obtain ⟨chunk, hchunk⟩ := h.delivered
      have hne : chunk ≠ [] := by
        rintro rfl
        apply hquiet
        exact ⟨by rw [← hchunk, List.append_nil], htaken⟩
      have hflight : p.delivered ++ chunk <+: p.replay.written.flatten := by rw [hchunk]
      obtain ⟨more, c, a', hdelivers, -⟩ := h.exists_shown hmessages hwell hdelivered hreceives hflight
      exact ⟨_, .toClient chunk hne hflight hdelivers⟩
    · exact h.exists_toReplay htaken

/-- What the client writes when it is told some messages. -/
def answers (rec : Recording) (messages : List ServerMessage) : Bytes :=
  (messages.flatMap (ServerMessage.events rec.display)).flatMap Event.payload

/-- The client writes no more than its replies and its answers. -/
theorem Keeps.length_sent_le (h : Keeps rec library factory decoding own p)
    (hmessages : rec.later = messages.flatMap ServerMessage.serialise)
    (hwell : ∀ message ∈ messages, message.WellFormed rec.display) :
    (sent p.client).length ≤ (replied (rec.dialogue factory) ++ answers rec messages).length := by
  cases h.stage with
  | joining _ _ hsent _ _ _ =>
    rw [hsent]
    exact ((prefix_spoken _ _).trans (List.prefix_append _ _)).length_le
  | joined chunks hdelivered hreceives hheld =>
    obtain ⟨more, c, a', hdelivers, hlast, hlog⟩ :=
      h.exists_shown hmessages hwell hdelivered hreceives (by rw [List.append_nil]; exact h.delivered)
    obtain ⟨hsound, hnothing⟩ := sent_of_delivers h.sound hdelivers
    have hwritten := hnothing.trans (sent_of_delivers hsound hlast).2
    have hall : sent (parked a') = sent (joinedClient rec factory decoding own) ++
        answers rec messages := by
      unfold sent parked answers
      dsimp only
      rw [hlog, List.flatMap_append]
    rw [hall, sent_joinedClient] at hwritten
    exact hwritten.length_le

/-- How much can still arrive, of what the server has recorded, and of the replies, the answers and
what the application has said. -/
def remaining (rec : Recording) (factory : Factory) (messages : List ServerMessage)
    (p : Playback codecs S) : ℕ :=
  (rec.capture.s2c.length - p.delivered.length) +
    ((replied (rec.dialogue factory) ++ answers rec messages).length + p.requested.flatten.length -
      p.taken.length)

/-- Whatever arrives leaves less. -/
theorem Keeps.remaining_lt (h : Keeps rec library factory decoding own p)
    (hmessages : rec.later = messages.flatMap ServerMessage.serialise)
    (hwell : ∀ message ∈ messages, message.WellFormed rec.display)
    (harrives : Arrives rec.capture library p p') :
    remaining rec factory messages p' < remaining rec factory messages p := by
  have hlonger : ∀ data chunk : Bytes, chunk ≠ [] → data.length < (data ++ chunk).length := by
    intro data chunk hne
    rw [List.length_append]
    exact Nat.lt_add_of_pos_right (List.length_pos_iff.mpr hne)
  unfold remaining
  -- A chunk is not empty, and no more comes than there is.
  cases harrives with
  | toClient chunk hne hflight hdelivers =>
    have hle := hflight.length_le
    rw [h.serves.written_eq] at hle
    have hshorter := hle.trans (List.take_prefix _ rec.capture.s2c).length_le
    have hmore := hlonger p.delivered chunk hne
    dsimp only
    omega
  | toReplay chunk fuel hne hflight hdata =>
    have hle := hflight.length_le
    have hsent := h.length_sent_le hmessages hwell
    have hmore := hlonger p.taken chunk hne
    rw [h.length] at hle
    dsimp only
    omega

/-- What is on its way to the two, and what they write when it arrives, comes to an end. -/
theorem Keeps.acc_arrives (h : Keeps rec library factory decoding own p)
    (hmessages : rec.later = messages.flatMap ServerMessage.serialise)
    (hwell : ∀ message ∈ messages, message.WellFormed rec.display) :
    Acc (fun p₂ p₁ => Arrives rec.capture library p₁ p₂) p := by
  generalize hremaining : remaining rec factory messages p = n
  induction n using Nat.strong_induction_on generalizing p with
  | _ n ih =>
    refine ⟨_, fun p' harrives => ih _ ?_ (h.arrives harrives) rfl⟩
    rw [← hremaining]
    exact h.remaining_lt hmessages hwell harrives

/-- The two come to rest when the application lets them. -/
theorem exists_quiet (hmessages : rec.later = messages.flatMap ServerMessage.serialise)
    (hwell : ∀ message ∈ messages, message.WellFormed rec.display)
    (hp : Reaches rec.capture library factory decoding own p) :
    ∃ p', Reaches rec.capture library factory decoding own p' ∧ Quiet p' ∧
      p'.requested = p.requested := by
  induction (keeps_of_reaches hp).acc_arrives hmessages hwell with
  | intro p _ ih =>
    by_cases hquiet : Quiet p
    · exact ⟨p, hp, hquiet, rfl⟩
    · obtain ⟨p₁, harrives⟩ := (keeps_of_reaches hp).exists_arrives_of_messages hmessages hwell hquiet
      obtain ⟨p', hp', hquiet', hrequested⟩ := ih p₁ harrives (hp.step (.arrives harrives))
      refine ⟨p', hp', hquiet', hrequested.trans ?_⟩
      cases harrives <;> rfl

/-- At rest a client that has asked for a framebuffer has shown the messages. -/
theorem Keeps.shows_of_quiet (h : Keeps rec library factory decoding own p)
    (hmessages : rec.later = messages.flatMap ServerMessage.serialise)
    (hwell : ∀ message ∈ messages, message.WellFormed rec.display) (hquiet : Quiet p)
    (hasks : Asks p.requested.flatten) :
    ∃ a', p.client = parked a' ∧
      a'.log = (joinedClient rec factory decoding own).attrs.log ++
        messages.flatMap (ServerMessage.events rec.display) ∧
      Decoders.display a' = rec.display := by
  have hended := (h.of_quiet hquiet).1
  rw [if_pos hasks] at hended
  cases h.stage with
  | joining hshort _ _ _ _ _ => exact absurd hquiet (h.exists_arrives hshort).1
  | joined chunks hdelivered hreceives _ =>
    obtain ⟨a', hshown, hlog, hsame⟩ := @exists_receives codecs S _ library factory decoding own
      messages hmessages hwell chunks (List.append_cancel_left (hdelivered.symm.trans hended))
    exact ⟨a', hreceives.unique hshown, hlog, hsame⟩

end Messages

/-- What becomes of a connection to the replay of recorded messages. -/
structure ShowsMessages (rec : Recording) (messages : List ServerMessage) (library : Library)
    (factory : Factory) (decoding : Decoding codecs) (own : S) (p : Playback codecs S) : Prop where
  /-- Until nothing is on its way, something can arrive. -/
  moves : ¬Quiet p → ∃ p', Arrives rec.capture library p p'
  /-- It does not go on for ever. -/
  ends : Acc (fun p₂ p₁ => Arrives rec.capture library p₁ p₂) p
  /-- A client that was had ask for a framebuffer has then shown exactly what the messages denote on the
  recorded screen, in order, whatever else it was had write, and is between two messages with nothing
  buffered. -/
  shows : Quiet p → Asks p.requested.flatten → ∃ a', p.client = parked a' ∧
    a'.log = (joinedClient rec factory decoding own).attrs.log ++
      messages.flatMap (ServerMessage.events rec.display) ∧
    Decoders.display a' = rec.display

/-- Where the server of a recorded session sent well-formed messages behind the handshake, the replay
shows them to a client, in every interleaving of what the two have on its way to each other and what the
application has the client write. -/
theorem playback_messages (s : Session) (hheader : normalise s.greeting.bytes = header)
    (hversion : negotiate (announced s.greeting.bytes) = some s.version)
    (later : List HandshakeScrubber.Event) {events : List HandshakeScrubber.Event}
    (h : HandshakeScrubber.arrivals events =
      HandshakeScrubber.arrivals s.turns ++ HandshakeScrubber.arrivals later)
    {messages : List ServerMessage}
    (hmessages : HandshakeScrubber.bytesOn .s2c later = messages.flatMap ServerMessage.serialise)
    (hwell : ∀ message ∈ messages, message.WellFormed
      (s.recording hheader hversion (HandshakeScrubber.bytesOn .s2c later)).display)
    (hp : Reaches (Capture.recorded events) library factory decoding own p) :
    ShowsMessages (s.recording hheader hversion (HandshakeScrubber.bytesOn .s2c later)) messages library
      factory decoding own p := by
  rw [recorded_eq s hheader hversion later h] at hp
  have hkeeps := keeps_of_reaches hp
  exact ⟨hkeeps.exists_arrives_of_messages hmessages hwell, hkeeps.acc_arrives hmessages hwell,
    hkeeps.shows_of_quiet hmessages hwell⟩

/-! ## A recording that rings the bell -/

/-- A session over VNC Authentication, behind whose handshake the server rings the bell. -/
abbrev ringing : List HandshakeScrubber.Event := Session.sample.turns ++ [(.s2c, [2])]

/-- Its recording. -/
abbrev ringingRecording : Recording := Session.sample.recording (by decide) (by decide) [2]

/-- A request for one pixel. -/
abbrev onePixel : Bytes := [3, 0, 0, 0, 0, 0, 0, 1, 0, 1]

theorem asks_onePixel (more : Bytes) : Asks (onePixel ++ more) := by
  have hlength : onePixel.length = 10 := rfl
  exact .request hlength rfl

/-- The application asks for one pixel, and presses a key once it has been told all there is. -/
abbrev pixelAndKey : List Bytes := [onePixel, [4, 1, 0, 0, 0, 0, 0, 97]]

theorem exists_start (capture : Capture) (library : Library) (factory : Factory)
    (decoding : Decoding codecs) (own : S) :
    ∃ r, Reaches capture library factory decoding own
      { replay := r, client := fresh factory decoding own } := by
  obtain ⟨n, r, hstart, -⟩ := ReplayProtocol.exists_advance (ReplayProtocol.paces_start capture)
  exact ⟨r, .start (hstart n (Nat.le_refl n))⟩

/-- A whole run of such a client and the replay. -/
theorem exists_ringing : ∃ p : Playback Decoders.sampleCodecs Unit,
    Reaches (Capture.recorded ringing) sampleLibrary {} {} () p ∧ p.requested = pixelAndKey ∧
      Quiet p := by
  have heq : Capture.recorded ringing = ringingRecording.capture :=
    recorded_eq Session.sample (by decide) (by decide) [(.s2c, [2])]
      (HandshakeScrubber.arrivals_append _ _)
  have hmessages : ringingRecording.later = [ServerMessage.bell].flatMap ServerMessage.serialise := rfl
  have hwell : ∀ message ∈ [ServerMessage.bell], message.WellFormed ringingRecording.display := by
    simp [ServerMessage.WellFormed]
  have hparked : ∀ a : Decoders.DAttrs Decoders.sampleCodecs Unit, Messaging (parked a) := fun _ =>
    ⟨.connection, rfl, rfl⟩
  rw [heq]
  -- in the handshake the application says nothing
  obtain ⟨r, hr⟩ := @exists_start Decoders.sampleCodecs Unit ringingRecording.capture
    sampleLibrary {} {} ()
  obtain ⟨p₁, hp₁, hquiet₁, hrequested₁⟩ := exists_quiet hmessages hwell hr
  have hnothing : ¬Asks p₁.requested.flatten := by
    rw [hrequested₁]
    exact not_asks_nil
  have hjoined := ((keeps_of_reaches hp₁).of_quiet hquiet₁).2 hnothing
  -- then it asks for the pixel
  have hasks := hp₁.step (.writes onePixel (by rw [hjoined]; exact hparked _))
  obtain ⟨p₂, hp₂, hquiet₂, hrequested₂⟩ := exists_quiet hmessages hwell hasks
  have hsaid : p₂.requested = [onePixel] := by
    rw [hrequested₂, hrequested₁]
    rfl
  obtain ⟨a', hclient, -⟩ := (keeps_of_reaches hp₂).shows_of_quiet hmessages hwell hquiet₂
    (by rw [hsaid]; exact asks_onePixel [])
  -- and presses the key
  have hpresses := hp₂.step (.writes [4, 1, 0, 0, 0, 0, 0, 97] (by rw [hclient]; exact hparked _))
  obtain ⟨p₃, hp₃, hquiet₃, hrequested₃⟩ := exists_quiet hmessages hwell hpresses
  refine ⟨p₃, hp₃, hrequested₃.trans ?_, hquiet₃⟩
  dsimp only
  rw [hsaid]
  rfl

/-- The client has been handed the whole recording. -/
theorem playback_ringing : ∃ p : Playback Decoders.sampleCodecs Unit,
    Reaches (Capture.recorded ringing) sampleLibrary {} {} () p ∧ p.requested = pixelAndKey ∧
      Quiet p ∧ p.replay.closed = false ∧ p.delivered = ringingRecording.capture.s2c := by
  obtain ⟨p, hp, hrequested, hquiet⟩ := exists_ringing
  have hplays := playback Session.sample (by decide) (by decide) [(.s2c, [2])]
    (HandshakeScrubber.arrivals_append _ _) hp
  have hasks : Asks p.requested.flatten := by
    rw [hrequested]
    exact asks_onePixel _
  have hended := hplays.ended hquiet
  rw [if_pos hasks] at hended
  exact ⟨p, hp, hrequested, hquiet, hplays.live, hended⟩

/-- Its application has been told of the bell last. -/
theorem playback_messages_ringing : ∃ p : Playback Decoders.sampleCodecs Unit,
    Reaches (Capture.recorded ringing) sampleLibrary {} {} () p ∧ p.requested = pixelAndKey ∧
      Quiet p ∧ ∃ a', p.client = parked a' ∧ a'.log.getLast? = some (.called .bell) := by
  obtain ⟨p, hp, hrequested, hquiet⟩ := exists_ringing
  have hmessages : ringingRecording.later = [ServerMessage.bell].flatMap ServerMessage.serialise := rfl
  have hwell : ∀ message ∈ [ServerMessage.bell], message.WellFormed ringingRecording.display := by
    simp [ServerMessage.WellFormed]
  obtain ⟨a', hclient, hlog, -⟩ := (playback_messages Session.sample (by decide) (by decide)
    [(.s2c, [2])] (HandshakeScrubber.arrivals_append _ _) hmessages hwell hp).shows hquiet
    (by rw [hrequested]; exact asks_onePixel _)
  refine ⟨p, hp, hrequested, hquiet, a', hclient, ?_⟩
  rw [hlog]
  simp [ServerMessage.events]

end Playback

end VncDoTool
