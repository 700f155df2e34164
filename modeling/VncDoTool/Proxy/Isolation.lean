import VncDoTool.Proxy.Sessions

/-!
# Files of clients that are recorded side by side

With a directory for output every client is recorded in a file of its own. The factory knows only
the file it opened last, and closes that one for whichever client goes.

* `Proxies.Isolated`: a call concerns the file of its client and no other.
* `Proxies.Orderly`: whoever goes is the client that came last.
* `Proxies.isolated_iff_orderly`: the runs of isolated calls are those of orderly ones.
-/

namespace VncDoTool

namespace VNCLoggingServerFactory

variable {f : VNCLoggingServerFactory} {file other : ℕ} {line : List Char}

@[simp] theorem out_write : (f.write file line).out = f.out := by
  unfold write
  split_ifs <;> rfl

@[simp] theorem length_write : (f.write file line).files.length = f.files.length := by
  unfold write
  split_ifs
  · exact List.length_modify ..
  · rfl

/-- Writing to a file leaves every file open that was. -/
theorem IsOpen.write (h : f.IsOpen other) : (f.write file line).IsOpen other := by
  obtain ⟨content, hcontent, hopen⟩ := h
  unfold VNCLoggingServerFactory.write
  split_ifs
  · by_cases hsame : file = other
    · refine ⟨{ content with lines := content.lines ++ [line] }, ?_, hopen⟩
      simp [hsame, hcontent]
    · refine ⟨content, ?_, hopen⟩
      simp [hsame, hcontent]
  · exact ⟨content, hcontent, hopen⟩

/-- Closing a file leaves every other one open that was. -/
theorem IsOpen.close (h : f.IsOpen other) (hne : file ≠ other) : (f.close file).IsOpen other := by
  obtain ⟨content, hcontent, hopen⟩ := h
  refine ⟨content, ?_, hopen⟩
  simp [VNCLoggingServerFactory.close, hne, hcontent]

end VNCLoggingServerFactory

namespace VNCLoggingServerProxy

variable {o : ProxyOptions} {p : VNCLoggingServerProxy} {f : VNCLoggingServerFactory}

/-- Bytes concern no file. -/
theorem carry_frame (tap : Tap) (data : Bytes) :
    (p.carry f tap data).1.recorder = p.recorder ∧ (p.carry f tap data).1.refused = p.refused ∧
      (p.carry f tap data).1.lost = p.lost ∧ (p.carry f tap data).2.files = f.files ∧
      (p.carry f tap data).2.out = f.out := by
  unfold carry abortCapture
  dsimp only
  split <;> (try split_ifs) <;> exact ⟨rfl, rfl, rfl, rfl, rfl⟩

/-- A client that was accepted goes: whatever becomes of its capture, the factory closes the file it
knows. -/
theorem connectionLost_frame (client : ℕ) (writable : Bool) (h : p.refused = false) :
    ∃ (p' : VNCLoggingServerProxy) (f' : VNCLoggingServerFactory),
      p.connectionLost o f client writable = (p', f'.clientConnectionLost) ∧
      p'.recorder = p.recorder ∧ p'.refused = p.refused ∧ p'.lost = true ∧
      f'.files = f.files ∧ f'.out = f.out := by
  have hwrite : (p.writeCapture f client writable).1.recorder = p.recorder ∧
      (p.writeCapture f client writable).1.refused = p.refused ∧
      (p.writeCapture f client writable).2.files = f.files ∧
      (p.writeCapture f client writable).2.out = f.out := by
    unfold writeCapture
    split <;> (try split_ifs) <;> exact ⟨rfl, rfl, rfl, rfl⟩
  unfold connectionLost
  rw [if_neg (by simp [h])]
  split_ifs
  · exact ⟨_, _, rfl, hwrite.1, hwrite.2.1, rfl, hwrite.2.2.1, hwrite.2.2.2⟩
  · exact ⟨_, _, rfl, hwrite.1, hwrite.2.1, rfl, hwrite.2.2.1, hwrite.2.2.2⟩
  · exact ⟨_, _, rfl, rfl, rfl, rfl, rfl, rfl⟩
  · exact ⟨_, _, rfl, rfl, rfl, rfl, rfl, rfl⟩

end VNCLoggingServerProxy

namespace Proxies

variable {o : ProxyOptions} {s : Proxies} {e : ProxyEvent} {events : List ProxyEvent}

/-- The line is added to the file of its client, which was open, and to no other. -/
def Recorded (o : ProxyOptions) (s : Proxies) (e : ProxyEvent) (file : ℕ) (line : List Char) :
    Prop :=
  s.factory.IsOpen file ∧
    (step o s e).factory.files =
      s.factory.files.modify file fun content => { content with lines := content.lines ++ [line] }

/-- An event is written to the file that was opened for its client, which is open, and a client that
goes has its own file closed and no other. -/
def Isolated (o : ProxyOptions) (s : Proxies) (e : ProxyEvent) : Prop :=
  match e.call with
  | .keyEvent elapsed key down =>
    ∃ p file line, s.clients e.client = some p ∧ p.recorder = some file ∧
      Recorder.keyLine elapsed key down = some line ∧ Recorded o s e file line
  | .pointerEvent elapsed x y buttonmask =>
    ∃ p file, s.clients e.client = some p ∧ p.recorder = some file ∧
      Recorded o s e file (Recorder.pointerLine elapsed p.mouse x y buttonmask)
  | .connectionLost _ =>
    s.Live e.client →
      ∃ p file, s.clients e.client = some p ∧ p.recorder = some file ∧ s.factory.IsOpen file ∧
        (step o s e).factory.files =
          s.factory.files.modify file fun content => { content with closed := true }
  | _ => True

/-- A key that is pressed has a character that a file takes, and a client that goes is the one whose
file was opened last. -/
def Orderly (s : Proxies) (e : ProxyEvent) : Prop :=
  match e.call with
  | .keyEvent _ key _ => key.isValidChar
  | .connectionLost _ =>
    ∀ p file, s.clients e.client = some p → p.recorder = some file →
      file + 1 = s.factory.files.length
  | _ => True

/-- What holds while every client that went was the last one to come. -/
structure Sound (s : Proxies) : Prop where
  /-- Every client that was accepted has a file. -/
  recorder : ∀ i p, s.clients i = some p → p.refused = false →
    ∃ file, p.recorder = some file ∧ file < s.factory.files.length
  refused : ∀ i p, s.clients i = some p → p.refused = true → p.recorder = none
  /-- It is its own. -/
  own : ∀ i j p q file, s.clients i = some p → s.clients j = some q → p.recorder = some file →
    q.recorder = some file → i = j
  /-- It is open while its client is there. -/
  isOpen : ∀ i p file, s.clients i = some p → p.lost = false → p.recorder = some file →
    s.factory.IsOpen file
  /-- The factory knows the file opened last, -/
  out : ∀ file, s.factory.out = some file → file + 1 = s.factory.files.length
  /-- and knows it while its client is there. -/
  newest : ∀ i p file, s.clients i = some p → p.lost = false → p.recorder = some file →
    file + 1 = s.factory.files.length → s.factory.out = some file

theorem sound_start : Sound {} where
  recorder _ _ h := absurd h (by simp)
  refused _ _ h := absurd h (by simp)
  own _ _ _ _ _ h := absurd h (by simp)
  isOpen _ _ _ h := absurd h (by simp)
  out _ h := absurd h (by simp)
  newest _ _ _ h := absurd h (by simp)

/-- A call that keeps the file of its client, where a client that goes is the last one to come. -/
theorem Sound.update (h : Sound s) {i : ℕ} {p p' : VNCLoggingServerProxy}
    {f' : VNCLoggingServerFactory} (hp : s.clients i = some p)
    (hrecorder : p'.recorder = p.recorder) (hrefused : p'.refused = p.refused)
    (hlost : p'.lost = false → p.lost = false)
    (hlength : f'.files.length = s.factory.files.length)
    (hopen : ∀ file, s.factory.IsOpen file → (p'.lost = true → p.recorder ≠ some file) →
      f'.IsOpen file)
    (hout : f'.out = s.factory.out ∨ f'.out = none ∧ p'.lost = true ∧
      ∃ file, p.recorder = some file ∧ file + 1 = s.factory.files.length) :
    Sound ⟨f', Function.update s.clients i (some p')⟩ := by
  -- a client of the new state is one of the old state, with the same file
  have hold : ∀ j q, Function.update s.clients i (some p') j = some q →
      ∃ q', s.clients j = some q' ∧ q.recorder = q'.recorder ∧ q.refused = q'.refused ∧
        (q.lost = false → q'.lost = false) ∧ (j = i → q = p') := by
    intro j q hq
    rcases client_cases hq with ⟨rfl, rfl⟩ | ⟨hj, hq⟩
    · exact ⟨p, hp, hrecorder, hrefused, hlost, fun _ => rfl⟩
    · exact ⟨q, hq, rfl, rfl, id, fun h => absurd h hj⟩
  -- a file whose client is there is not that of the client that went
  have hother : ∀ j q file, Function.update s.clients i (some p') j = some q → q.lost = false →
      q.recorder = some file → p'.lost = true → p.recorder ≠ some file := by
    intro j q file hq hqlost hfile hgone hown
    obtain ⟨q', hq', hrec, -, -, hsame⟩ := hold j q hq
    have hj : j = i := h.own j i q' p file hq' hp (hrec ▸ hfile) hown
    rw [hsame hj, hgone] at hqlost
    exact absurd hqlost (by simp)
  refine ⟨?_, ?_, ?_, ?_, ?_, ?_⟩
  · intro j q hq hqrefused
    obtain ⟨q', hq', hrec, href, -, -⟩ := hold j q hq
    obtain ⟨file, hfile, hlt⟩ := h.recorder j q' hq' (href ▸ hqrefused)
    exact ⟨file, hrec.trans hfile, hlength ▸ hlt⟩
  · intro j q hq hqrefused
    obtain ⟨q', hq', hrec, href, -, -⟩ := hold j q hq
    exact hrec.trans (h.refused j q' hq' (href ▸ hqrefused))
  · intro j k q r file hq hr hqfile hrfile
    obtain ⟨q', hq', hqrec, -⟩ := hold j q hq
    obtain ⟨r', hr', hrrec, -⟩ := hold k r hr
    exact h.own j k q' r' file hq' hr' (hqrec ▸ hqfile) (hrrec ▸ hrfile)
  · intro j q file hq hqlost hfile
    obtain ⟨q', hq', hrec, -, hqlost', -⟩ := hold j q hq
    exact hopen file (h.isOpen j q' file hq' (hqlost' hqlost) (hrec ▸ hfile))
      (hother j q file hq hqlost hfile)
  · intro file hfile
    change f'.out = some file at hfile
    rcases hout with hsame | ⟨hnone, -⟩
    · exact (h.out file (hsame ▸ hfile)).trans hlength.symm
    · rw [hnone] at hfile
      exact absurd hfile (by simp)
  · intro j q file hq hqlost hfile hnewest
    obtain ⟨q', hq', hrec, -, hqlost', -⟩ := hold j q hq
    rcases hout with hsame | ⟨-, hgone, newest, hown, hlast⟩
    · exact hsame.trans (h.newest j q' file hq' (hqlost' hqlost) (hrec ▸ hfile)
        (hnewest.trans hlength))
    · have hfile' : newest = file := by
        change file + 1 = f'.files.length at hnewest
        omega
      exact absurd (hfile' ▸ hown) (hother j q file hq hqlost hfile hgone)

/-- A client that is refused has no file. -/
theorem Sound.refuse (h : Sound s) (i : ℕ) :
    Sound ⟨s.factory, Function.update s.clients i (some { refused := true })⟩ := by
  have hold : ∀ j q file, Function.update s.clients i (some { refused := true }) j = some q →
      q.recorder = some file → s.clients j = some q := by
    intro j q file hq hfile
    rcases client_cases hq with ⟨-, rfl⟩ | ⟨-, hq⟩
    · exact absurd hfile (by simp)
    · exact hq
  refine ⟨?_, ?_, ?_, ?_, h.out, ?_⟩
  · intro j q hq hrefused
    rcases client_cases hq with ⟨-, rfl⟩ | ⟨-, hq⟩
    · exact absurd hrefused (by simp)
    · exact h.recorder j q hq hrefused
  · intro j q hq hrefused
    rcases client_cases hq with ⟨-, rfl⟩ | ⟨-, hq⟩
    · rfl
    · exact h.refused j q hq hrefused
  · intro j k q r file hq hr hqfile hrfile
    exact h.own j k q r file (hold j q file hq hqfile) (hold k r file hr hrfile) hqfile hrfile
  · intro j q file hq hthere hfile
    exact h.isOpen j q file (hold j q file hq hfile) hthere hfile
  · intro j q file hq hthere hfile
    exact h.newest j q file (hold j q file hq hfile) hthere hfile

/-- Files in use are there. -/
theorem Sound.lt (h : Sound s) {i file : ℕ} {p : VNCLoggingServerProxy}
    (hp : s.clients i = some p) (hfile : p.recorder = some file) :
    file < s.factory.files.length := by
  cases hrefused : p.refused with
  | true => exact absurd ((h.refused i p hp hrefused).symm.trans hfile) (by simp)
  | false =>
    obtain ⟨file', hfile', hlt⟩ := h.recorder i p hp hrefused
    rw [hfile, Option.some.injEq] at hfile'
    exact hfile' ▸ hlt

/-- A client that is accepted gets a file of its own. -/
theorem Sound.accept (h : Sound s) {i : ℕ} {p : VNCLoggingServerProxy}
    {f' : VNCLoggingServerFactory} (hrecorder : p.recorder = some s.factory.files.length)
    (hrefused : p.refused = false) (hfiles : f'.files = s.factory.files ++ [({} : SessionFile)])
    (hout : f'.out = some s.factory.files.length) :
    Sound ⟨f', Function.update s.clients i (some p)⟩ := by
  have hlength : f'.files.length = s.factory.files.length + 1 := by rw [hfiles]; simp
  have hopen : ∀ file, s.factory.IsOpen file → f'.IsOpen file := by
    rintro file ⟨content, hcontent, hopen⟩
    refine ⟨content, ?_, hopen⟩
    have hlt := (List.getElem?_eq_some_iff.mp hcontent).1
    rw [hfiles, List.getElem?_append_left hlt, hcontent]
  -- The new client has the file opened last; the files of the others are older and stay open.
  refine ⟨?_, ?_, ?_, ?_, ?_, ?_⟩
  · intro j q hq hqrefused
    rcases client_cases hq with ⟨-, rfl⟩ | ⟨-, hq⟩
    · exact ⟨_, hrecorder, by rw [hlength]; omega⟩
    · obtain ⟨file, hfile, hlt⟩ := h.recorder j q hq hqrefused
      exact ⟨file, hfile, by rw [hlength]; omega⟩
  · intro j q hq hqrefused
    rcases client_cases hq with ⟨-, rfl⟩ | ⟨-, hq⟩
    · exact absurd (hrefused.symm.trans hqrefused) (by simp)
    · exact h.refused j q hq hqrefused
  · intro j k q r file hq hr hqfile hrfile
    rcases client_cases hq with ⟨hj, rfl⟩ | ⟨hj, hq'⟩ <;>
      rcases client_cases hr with ⟨hk, rfl⟩ | ⟨hk, hr'⟩
    · exact hj.trans hk.symm
    · have hsame := Option.some.inj (hqfile.symm.trans hrecorder)
      exact absurd (h.lt hr' hrfile) (by omega)
    · have hsame := Option.some.inj (hrfile.symm.trans hrecorder)
      exact absurd (h.lt hq' hqfile) (by omega)
    · exact h.own j k q r file hq' hr' hqfile hrfile
  · intro j q file hq hthere hfile
    rcases client_cases hq with ⟨-, rfl⟩ | ⟨-, hq⟩
    · have hsame := Option.some.inj (hfile.symm.trans hrecorder)
      refine ⟨{}, ?_, rfl⟩
      change f'.files[file]? = some {}
      rw [hfiles, hsame]
      simp
    · exact hopen file (h.isOpen j q file hq hthere hfile)
  · intro file hfile
    have hsame := Option.some.inj (hfile.symm.trans hout)
    rw [hsame]
    exact hlength.symm
  · intro j q file hq hthere hfile hnewest
    rcases client_cases hq with ⟨-, rfl⟩ | ⟨-, hq⟩
    · exact hout.trans (hrecorder.symm.trans hfile)
    · have hlt := h.lt hq hfile
      change file + 1 = f'.files.length at hnewest
      omega

theorem Sound.connectionMade (h : Sound s) (i : ℕ)
    (hcapturing : o.capturing = false) (hdirectory : o.directory = true) :
    Sound (step o s ⟨i, .connectionMade⟩) := by
  show Sound ⟨(VNCLoggingServerProxy.connectionMade o s.factory).2, Function.update s.clients i
    (some (VNCLoggingServerProxy.connectionMade o s.factory).1)⟩
  unfold VNCLoggingServerProxy.connectionMade VNCLoggingServerFactory.getRecorder
  rw [if_neg (by simp [hcapturing] : ¬o.capturing = true), if_pos hdirectory]
  by_cases hbusy : o.oneShot ∧ s.factory.sessionTaken
  · rw [if_pos hbusy]
    exact h.refuse i
  · rw [if_neg hbusy]
    simp only
    split_ifs <;> exact h.accept rfl rfl rfl rfl

/-- Any other call, where a client that goes is the last one to come. -/
theorem Sound.step (h : Sound s) (hpossible : s.Possible e) (horderly : s.Orderly e)
    (hcapturing : o.capturing = false) (hdirectory : o.directory = true) :
    Sound (step o s e) := by
  obtain ⟨i, call⟩ := e
  have hupdate : ∀ p, s.clients i = some p → ∀ call,
      Proxies.step o s ⟨i, call⟩ = ⟨(perform o i p s.factory call).2,
        Function.update s.clients i (some (perform o i p s.factory call).1)⟩ := by
    intro p hp call
    unfold Proxies.step
    rw [hp, Option.getD_some]
  -- Bytes carried to the capture touch no file.
  have hcarry : ∀ p tap data, s.clients i = some p →
      Sound ⟨(p.carry s.factory tap data).2,
        Function.update s.clients i (some (p.carry s.factory tap data).1)⟩ := by
    intro p tap data hp
    obtain ⟨hrecorder, hrefused, hlost, hfiles, hout⟩ :=
      VNCLoggingServerProxy.carry_frame (p := p) (f := s.factory) tap data
    refine h.update hp hrecorder hrefused (fun hl => hlost ▸ hl) (by rw [hfiles]) ?_ (Or.inl hout)
    rintro file ⟨content, hcontent, hopen⟩ -
    exact ⟨content, hfiles ▸ hcontent, hopen⟩
  have hrecord : ∀ p p' line, s.clients i = some p → p'.recorder = p.recorder →
      p'.refused = p.refused → p'.lost = p.lost →
      Sound ⟨p.record s.factory line, Function.update s.clients i (some p')⟩ := by
    intro p p' line hp hrecorder hrefused hlost
    unfold VNCLoggingServerProxy.record
    cases hfile : p.recorder with
    | none =>
      exact h.update hp hrecorder hrefused (fun hl => hlost ▸ hl) rfl (fun _ hopen _ => hopen)
        (Or.inl rfl)
    | some file =>
      exact h.update hp hrecorder hrefused (fun hl => hlost ▸ hl)
        VNCLoggingServerFactory.length_write (fun _ hopen _ => hopen.write)
        (Or.inl VNCLoggingServerFactory.out_write)
  cases call with
  | connectionMade => exact h.connectionMade i hcapturing hdirectory
  | dataReceived data =>
    obtain ⟨p, hp, -⟩ := hpossible
    rw [hupdate p hp]
    change Sound ⟨(p.dataReceived s.factory data).2,
      Function.update s.clients i (some (p.dataReceived s.factory data).1)⟩
    unfold VNCLoggingServerProxy.dataReceived
    split_ifs
    · exact h.update hp rfl rfl id rfl (fun _ hopen _ => hopen) (Or.inl rfl)
    · exact hcarry p .c2s data hp
  | peerDataReceived data =>
    obtain ⟨p, hp, -⟩ := hpossible
    rw [hupdate p hp]
    exact hcarry p .s2c data hp
  | keyEvent elapsed key down =>
    obtain ⟨p, hp, -⟩ := hpossible
    rw [hupdate p hp]
    change Sound ⟨(p.handleKeyEvent s.factory elapsed key down).2,
      Function.update s.clients i (some (p.handleKeyEvent s.factory elapsed key down).1)⟩
    unfold VNCLoggingServerProxy.handleKeyEvent
    cases Recorder.keyLine elapsed key down with
    | none => exact h.update hp rfl rfl id rfl (fun _ hopen _ => hopen) (Or.inl rfl)
    | some line => exact hrecord p p line hp rfl rfl rfl
  | pointerEvent elapsed x y buttonmask =>
    obtain ⟨p, hp, -⟩ := hpossible
    rw [hupdate p hp]
    exact hrecord p { p with mouse := some (x, y) } _ hp rfl rfl rfl
  | connectionLost writable =>
    obtain ⟨p, hp, hthere⟩ := hpossible
    rw [hupdate p hp]
    change Sound ⟨(p.connectionLost o s.factory i writable).2,
      Function.update s.clients i (some (p.connectionLost o s.factory i writable).1)⟩
    cases hrefused : p.refused with
    | true =>
      unfold VNCLoggingServerProxy.connectionLost
      rw [if_pos hrefused]
      exact h.update hp rfl rfl (fun hl => absurd hl (by simp)) rfl (fun _ hopen _ => hopen)
        (Or.inl rfl)
    | false =>
      obtain ⟨p', f', heq, hrecorder, hrefused', hlost, hfiles, hout⟩ :=
        VNCLoggingServerProxy.connectionLost_frame (o := o) (f := s.factory) i writable hrefused
      obtain ⟨file, hfile, -⟩ := h.recorder i p hp hrefused
      -- The one that goes came last, so the file the factory closes is its own.
      have hnewest : file + 1 = s.factory.files.length := horderly p file hp hfile
      have hknown : f'.out = some file :=
        hout.trans (h.newest i p file hp hthere hfile hnewest)
      rw [heq]
      unfold VNCLoggingServerFactory.clientConnectionLost
      rw [hknown]
      refine h.update hp hrecorder hrefused' (fun hl => absurd hl (by simp [hlost])) ?_ ?_
        (Or.inr ⟨rfl, hlost, file, hfile, hnewest⟩)
      · rw [← hfiles]
        exact List.length_modify ..
      · rintro other ⟨content, hcontent, hopen⟩ hother
        have hne : file ≠ other := fun hsame => hother hlost (hsame ▸ hfile)
        have hopen' : f'.IsOpen other := ⟨content, hfiles ▸ hcontent, hopen⟩
        exact hopen'.close hne

/-- Closing a file that is open changes it. -/
theorem modify_close_inj {f : VNCLoggingServerFactory} {file other : ℕ} (hopen : f.IsOpen file)
    (h : (f.close other).files = (f.close file).files) : other = file := by
  obtain ⟨content, hcontent, hopen⟩ := hopen
  by_contra hne
  have hsame := congrArg (fun files => files[file]?) h
  simp [VNCLoggingServerFactory.close, hne, hcontent] at hsame
  rw [hsame] at hopen
  exact absurd hopen (by simp)

/-- A call of a client that is there is isolated exactly where it is orderly. -/
theorem Sound.isolated_iff (h : Sound s) (hpossible : s.Possible e) :
    Isolated o s e ↔ s.Orderly e := by
  obtain ⟨i, call⟩ := e
  have hwrites : ∀ (p : VNCLoggingServerProxy) (file : ℕ) (line : List Char),
      p.recorder = some file → s.factory.IsOpen file →
      (p.record s.factory line).files =
        s.factory.files.modify file fun content =>
          { content with lines := content.lines ++ [line] } := by
    intro p file line hfile hopen
    unfold VNCLoggingServerProxy.record VNCLoggingServerFactory.write
    rw [hfile]
    simp only
    rw [if_pos hopen]
  have hfiles : ∀ p, s.clients i = some p → ∀ call,
      (Proxies.step o s ⟨i, call⟩).factory = (perform o i p s.factory call).2 := by
    intro p hp call
    unfold Proxies.step
    rw [hp, Option.getD_some]
  cases call with
  | connectionMade => exact Iff.rfl
  | dataReceived data => exact Iff.rfl
  | peerDataReceived data => exact Iff.rfl
  | keyEvent elapsed key down =>
    obtain ⟨p, hp, hrefused, hthere⟩ := hpossible
    obtain ⟨file, hfile, -⟩ := h.recorder i p hp hrefused
    have hopen := h.isOpen i p file hp hthere hfile
    have hline : Recorder.keyLine elapsed key down ≠ none ↔ key.isValidChar := by
      rw [Recorder.keyLine_eq, Recorder.chr]
      split_ifs with hvalid <;> simp [hvalid]
    constructor
    · rintro ⟨-, -, line, -, -, hrecorded, -⟩
      exact hline.mp (by simp [hrecorded])
    · intro hvalid
      obtain ⟨line, hrecorded⟩ := Option.ne_none_iff_exists'.mp (hline.mpr hvalid)
      refine ⟨p, file, line, hp, hfile, hrecorded, hopen, ?_⟩
      rw [hfiles p hp]
      change (p.handleKeyEvent s.factory elapsed key down).2.files = _
      unfold VNCLoggingServerProxy.handleKeyEvent
      rw [hrecorded]
      exact hwrites p file line hfile hopen
  | pointerEvent elapsed x y buttonmask =>
    obtain ⟨p, hp, hrefused, hthere⟩ := hpossible
    obtain ⟨file, hfile, -⟩ := h.recorder i p hp hrefused
    have hopen := h.isOpen i p file hp hthere hfile
    refine ⟨fun _ => trivial, fun _ => ⟨p, file, hp, hfile, hopen, ?_⟩⟩
    rw [hfiles p hp]
    exact hwrites p file _ hfile hopen
  | connectionLost writable =>
    obtain ⟨p, hp, hthere⟩ := hpossible
    cases hrefused : p.refused with
    | true =>
      constructor
      · intro _ q file hq hfile
        obtain rfl := Option.some.inj (hp.symm.trans hq)
        exact absurd ((h.refused i p hp hrefused).symm.trans hfile) (by simp)
      · rintro - ⟨q, hq, hqrefused, -⟩
        obtain rfl := Option.some.inj (hp.symm.trans hq)
        exact absurd (hrefused.symm.trans hqrefused) (by simp)
    | false =>
      obtain ⟨file, hfile, -⟩ := h.recorder i p hp hrefused
      have hopen := h.isOpen i p file hp hthere hfile
      obtain ⟨p', f', heq, -, -, -, hsame, hout⟩ :=
        VNCLoggingServerProxy.connectionLost_frame (o := o) (f := s.factory) i writable hrefused
      have hlost : (Proxies.step o s ⟨i, .connectionLost writable⟩).factory =
          f'.clientConnectionLost := by
        rw [hfiles p hp]
        exact congrArg Prod.snd heq
      constructor
      · intro hisolated q newest hq hnewest
        obtain rfl := Option.some.inj (hp.symm.trans hq)
        obtain ⟨r, closed, hr, hclosed, -, hclose⟩ := hisolated ⟨p, hp, hrefused, hthere⟩
        obtain rfl := Option.some.inj (hp.symm.trans hr)
        obtain rfl := Option.some.inj (hclosed.symm.trans hnewest)
        have hclose' : f'.clientConnectionLost.files = (f'.close closed).files := by
          rw [← hlost, hclose, ← hsame]
          rfl
        have hopen' : f'.IsOpen closed := by
          obtain ⟨content, hcontent, hc⟩ := h.isOpen i p closed hp hthere hnewest
          exact ⟨content, hsame ▸ hcontent, hc⟩
        unfold VNCLoggingServerFactory.clientConnectionLost at hclose'
        cases hknown : f'.out with
        | none =>
          -- the factory closes no file
          rw [hknown] at hclose'
          obtain ⟨content, hcontent, hc⟩ := hopen'
          have hentry := congrArg (fun files => files[closed]?) hclose'
          simp [VNCLoggingServerFactory.close, hcontent] at hentry
          rw [hentry] at hc
          exact absurd hc (by simp)
        | some other =>
          rw [hknown] at hclose'
          obtain rfl := modify_close_inj hopen' hclose'
          exact h.out other (hout ▸ hknown)
      · intro horderly _
        have hnewest := horderly p file hp hfile
        have hknown : f'.out = some file :=
          hout.trans (h.newest i p file hp hthere hfile hnewest)
        refine ⟨p, file, hp, hfile, hopen, ?_⟩
        rw [hlost, VNCLoggingServerFactory.clientConnectionLost, hknown, ← hsame]
        rfl

/-- With a file for each client, the calls of a run are isolated exactly where each client that goes
is the one that came last, and each key has a character. -/
theorem isolated_iff_orderly (hcapturing : o.capturing = false) (hdirectory : o.directory = true)
    (h : Runs o events) :
    Machine.Throughout (step o) (Isolated o) {} events ↔
      Machine.Throughout (step o) Orderly {} events :=
  Machine.throughout_iff Sound sound_start
    (fun _ _ hsound hpossible => hsound.isolated_iff hpossible)
    (fun _ _ hsound hpossible horderly => hsound.step hpossible horderly hcapturing hdirectory) h

/-- Two clients that come, the first of which moves the pointer after the second has gone. -/
abbrev nested : List ProxyEvent :=
  [⟨0, .connectionMade⟩, ⟨1, .connectionMade⟩, ⟨1, .connectionLost true⟩,
    ⟨0, .pointerEvent ⟨0, 0⟩ 1 1 0⟩]

/-- A run that is orderly. -/
theorem nested_isolated :
    Machine.Throughout (step { directory := true }) (Isolated { directory := true }) {} nested ↔
      Machine.Throughout (step { directory := true }) Orderly {} nested :=
  isolated_iff_orderly rfl rfl ⟨rfl, rfl, ⟨_, rfl, rfl⟩, ⟨_, rfl, rfl, rfl⟩, trivial⟩

/-- Two clients that come, the first of which goes. -/
abbrev overlapping : List ProxyEvent :=
  [⟨0, .connectionMade⟩, ⟨1, .connectionMade⟩, ⟨0, .connectionLost true⟩]

/-- The file of the second one is closed. -/
theorem not_isolated_overlapping :
    Runs { directory := true } overlapping ∧
      ¬Machine.Throughout (step { directory := true }) (Isolated { directory := true }) {}
        overlapping := by
  refine ⟨⟨rfl, rfl, ⟨_, rfl, rfl⟩, trivial⟩, ?_⟩
  rintro ⟨-, -, hlost, -⟩
  obtain ⟨p, file, hp, hfile, -, hclose⟩ := hlost ⟨_, rfl, rfl, rfl⟩
  have hown : some 1 = some file := (congrArg (·.bind VNCLoggingServerProxy.recorder) hp).trans hfile
  obtain rfl := Option.some.inj hown
  have hclosed : [false, false, true] = [false, true, false] :=
    congrArg (List.map SessionFile.closed) hclose
  exact absurd hclosed (by decide)

end Proxies

end VncDoTool
