import VncDoTool.Lib.Coroutine

/-!
# Contracts of coroutines

What a suspended coroutine promises its driver, whatever it is answered and however often it is
resumed, as long as the driver leaves the shared state alone in between.

* `Coroutine.Contract`: what every segment of a run does to the shared state, what it asks for,
  what it raises, and what the driver may do meanwhile.
* `Coroutine.Step.Honours`: a run keeps a contract and finishes with a postcondition.
* `Honours.bind` and the rules for the primitives: how composed coroutines are verified.
* `Coroutine.Step.Asks`: what a run asks for, whatever becomes of the shared state.
* `Coroutine.Step.Ends`: what a run returns, whatever becomes of it.
* `Coroutine.Step.Fails`: what a run raises, but behind suspensions that are known.
-/

namespace Coroutine

/-- A contract between a coroutine and its driver. -/
structure Contract (Y ε σ : Type) : Type where
  /-- What the driver may do to the shared state while the coroutine is suspended. -/
  meanwhile : σ → σ → Prop
  /-- What the coroutine does to it between two suspensions. -/
  does : σ → σ → Prop
  asks : Y → Prop
  raises : ε → Prop
  refl : ∀ s, does s s
  trans : ∀ {s s' s''}, does s s' → does s' s'' → does s s''

namespace Step

variable {Y : Type} {R : Y → Type} {ε σ α β : Type} {C : Contract Y ε σ}

/-- From `s` on the run keeps the contract, and finishes only where the postcondition `Q` holds. -/
def Honours (C : Contract Y ε σ) (Q : σ → α → Prop) : σ → Step Y R ε σ α → Prop
  | s, .done s' a => C.does s s' ∧ Q s' a
  | s, .failed s' e => C.does s s' ∧ C.raises e
  | s, .yielded s' y k =>
    C.does s s' ∧ C.asks y ∧ ∀ r t, C.meanwhile s' t → (k r t).Honours C Q t

@[simp] theorem honours_done (Q : σ → α → Prop) (s s' : σ) (a : α) :
    (done s' a : Step Y R ε σ α).Honours C Q s ↔ C.does s s' ∧ Q s' a := Iff.rfl

@[simp] theorem honours_failed (Q : σ → α → Prop) (s s' : σ) (e : ε) :
    (failed s' e : Step Y R ε σ α).Honours C Q s ↔ C.does s s' ∧ C.raises e := Iff.rfl

@[simp] theorem honours_yielded (Q : σ → α → Prop) (s s' : σ) (y : Y)
    (k : R y → σ → Step Y R ε σ α) :
    (yielded s' y k).Honours C Q s ↔
      C.does s s' ∧ C.asks y ∧ ∀ r t, C.meanwhile s' t → (k r t).Honours C Q t := Iff.rfl

namespace Honours

variable {Q Q' : σ → α → Prop} {s s₀ : σ} {x : Step Y R ε σ α}

/-- What was done before the run is part of its first segment. -/
theorem from_earlier (hdoes : C.does s₀ s) (h : x.Honours C Q s) : x.Honours C Q s₀ := by
  cases x with
  | done s' a => exact ⟨C.trans hdoes h.1, h.2⟩
  | failed s' e => exact ⟨C.trans hdoes h.1, h.2⟩
  | yielded s' y k => exact ⟨C.trans hdoes h.1, h.2⟩

/-- A weaker postcondition. -/
theorem weaken (h : x.Honours C Q s) (hQ : ∀ s a, Q s a → Q' s a) : x.Honours C Q' s := by
  induction x generalizing s with
  | done s' a => exact ⟨h.1, hQ s' a h.2⟩
  | failed s' e => exact h
  | yielded s' y k ih => exact ⟨h.1, h.2.1, fun r t ht => ih r t (h.2.2 r t ht)⟩

/-- A weaker contract. -/
theorem of_stronger {C' : Contract Y ε σ} (h : x.Honours C Q s)
    (hmeanwhile : ∀ s t, C'.meanwhile s t → C.meanwhile s t)
    (hdoes : ∀ s t, C.does s t → C'.does s t) (hasks : ∀ y, C.asks y → C'.asks y)
    (hraises : ∀ e, C.raises e → C'.raises e) : x.Honours C' Q s := by
  induction x generalizing s with
  | done s' a => exact ⟨hdoes _ _ h.1, h.2⟩
  | failed s' e => exact ⟨hdoes _ _ h.1, hraises e h.2⟩
  | yielded s' y k ih =>
    exact ⟨hdoes _ _ h.1, hasks y h.2.1, fun r t ht => ih r t (h.2.2 r t (hmeanwhile _ _ ht))⟩

/-- What neither the coroutine nor its driver changes is what it was where the run finishes. -/
theorem unchanged {τ : Type} (f : σ → τ) (hdoes : ∀ s t, C.does s t → f t = f s)
    (hmeanwhile : ∀ s t, C.meanwhile s t → f t = f s) (h : x.Honours C Q s) :
    x.Honours C (fun t a => Q t a ∧ f t = f s) s := by
  induction x generalizing s with
  | done s' a => exact ⟨h.1, h.2, hdoes _ _ h.1⟩
  | failed s' e => exact h
  | yielded s' y k ih =>
    refine ⟨h.1, h.2.1, fun r t ht => ?_⟩
    have hsame : f t = f s := (hmeanwhile _ _ ht).trans (hdoes _ _ h.1)
    rw [← hsame]
    exact ih r t (h.2.2 r t ht)

/-- Runs in sequence: the first one's postcondition is what the second one starts from. -/
theorem bind {P : σ → β → Prop} {f : α → σ → Step Y R ε σ β} (h : x.Honours C Q s)
    (hf : ∀ a s', Q s' a → (f a s').Honours C P s') : (x.bind f).Honours C P s := by
  induction x generalizing s with
  | done s' a => exact from_earlier h.1 (hf a s' h.2)
  | failed s' e => exact h
  | yielded s' y k ih => exact ⟨h.1, h.2.1, fun r t ht => ih r t (h.2.2 r t ht)⟩

end Honours

/-- Everything the run asks for, whatever it is answered and whatever becomes of the shared state, is
as `P` says. -/
def Asks (P : Y → Prop) : Step Y R ε σ α → Prop
  | .done _ _ => True
  | .failed _ _ => True
  | .yielded _ y k => P y ∧ ∀ r t, (k r t).Asks P

/-- A run that keeps its contract whatever its driver does asks for no more than the contract says. -/
theorem Honours.asks {Q : σ → α → Prop} {s : σ} {x : Step Y R ε σ α} (h : x.Honours C Q s)
    (hany : ∀ s t, C.meanwhile s t) : x.Asks C.asks := by
  induction x generalizing s with
  | done s' a => trivial
  | failed s' e => trivial
  | yielded s' y k ih => exact ⟨h.2.1, fun r t => ih r t (h.2.2 r t (hany s' t))⟩

namespace Asks

variable {P : Y → Prop}

theorem mono {P' : Y → Prop} {x : Step Y R ε σ α} (h : x.Asks P) (hP : ∀ y, P y → P' y) :
    x.Asks P' := by
  induction x with
  | done s a => trivial
  | failed s e => trivial
  | yielded s y k ih => exact ⟨hP y h.1, fun r t => ih r t (h.2 r t)⟩

/-- Runs in sequence ask for what either of them asks for. -/
theorem bind {x : Step Y R ε σ α} {f : α → σ → Step Y R ε σ β} (h : x.Asks P)
    (hf : ∀ a s, (f a s).Asks P) : (x.bind f).Asks P := by
  induction x with
  | done s a => exact hf a s
  | failed s e => trivial
  | yielded s y k ih => exact ⟨h.1, fun r t => ih r t (h.2 r t)⟩

end Asks

/-- Whatever the run is answered and whatever becomes of the shared state, what it returns is as `P`
says. -/
def Ends (P : α → Prop) : Step Y R ε σ α → Prop
  | .done _ a => P a
  | .failed _ _ => True
  | .yielded _ _ k => ∀ r t, (k r t).Ends P

/-- What a sequence returns is up to its last part. -/
theorem ends_bind {P : β → Prop} {x : Step Y R ε σ α} {f : α → σ → Step Y R ε σ β}
    (hf : ∀ a s, (f a s).Ends P) : (x.bind f).Ends P := by
  induction x with
  | done s a => exact hf a s
  | failed s e => trivial
  | yielded s y k ih => exact fun r t => ih r t

/-- Whatever the run is answered and whatever becomes of the shared state, what it raises is as `P`
says, unless it was suspended where `known` says. -/
def Fails (P : ε → Prop) (known : (y : Y) → (R y → σ → Step Y R ε σ α) → Prop) :
    Step Y R ε σ α → Prop
  | .done _ _ => True
  | .failed _ e => P e
  | .yielded _ y k => known y k ∨ ∀ r t, (k r t).Fails P known

/-- It raises nothing but what `P` says. -/
abbrev FailsOnly (P : ε → Prop) : Step Y R ε σ α → Prop := Fails P fun _ _ => False

/-- A first part that raises nothing else, and what follows it. -/
theorem FailsOnly.bind {P : ε → Prop} {known : (y : Y) → (R y → σ → Step Y R ε σ β) → Prop}
    {x : Step Y R ε σ α} {f : α → σ → Step Y R ε σ β} (h : x.FailsOnly P)
    (hf : ∀ a s, (f a s).Fails P known) : (x.bind f).Fails P known := by
  induction x with
  | done s a => exact hf a s
  | failed s e => exact h
  | yielded s y k ih => exact .inr fun r t => ih r t (h.resolve_left not_false r t)

/-- No suspension need be known. -/
theorem FailsOnly.fails {P : ε → Prop} {known : (y : Y) → (R y → σ → Step Y R ε σ α) → Prop}
    {x : Step Y R ε σ α} (h : x.FailsOnly P) : x.Fails P known := by
  have hbind : (x.bind fun a s => .done s a).Fails P known := h.bind fun _ _ => trivial
  rwa [bind_done_right] at hbind

/-- A run that keeps a contract, with what is known of all it can return. -/
theorem Honours.and_ends {Q : σ → α → Prop} {P : α → Prop} {s : σ} {x : Step Y R ε σ α}
    (h : x.Honours C Q s) (hends : x.Ends P) : x.Honours C (fun s a => Q s a ∧ P a) s := by
  induction x generalizing s with
  | done s' a => exact ⟨h.1, h.2, hends⟩
  | failed s' e => exact h
  | yielded s' y k ih => exact ⟨h.1, h.2.1, fun r t ht => ih r t (h.2.2 r t ht) (hends r t)⟩

end Step

variable {Y : Type} {R : Y → Type} {ε σ α β : Type} {C : Contract Y ε σ} {Q : σ → α → Prop} {s : σ}

/-- Coroutines in sequence. -/
theorem honours_bind {P : σ → β → Prop} {m : Coroutine Y R ε σ α} {f : α → Coroutine Y R ε σ β}
    (hm : (m.run s).Honours C Q s) (hf : ∀ a s', Q s' a → ((f a).run s').Honours C P s') :
    ((m >>= f).run s).Honours C P s := hm.bind hf

/-- A coroutine that only returns. -/
theorem honours_pure {a : α} (h : Q s a) :
    ((pure a : Coroutine Y R ε σ α).run s).Honours C Q s := ⟨C.refl s, h⟩

/-- A coroutine that only fails. -/
theorem honours_throw {e : ε} (h : C.raises e) :
    ((throw e : Coroutine Y R ε σ α).run s).Honours C Q s := ⟨C.refl s, h⟩

/-- A request, resumed where the driver left the state. -/
theorem honours_yield {y : Y} {P : σ → R y → Prop} (hask : C.asks y)
    (hP : ∀ r t, C.meanwhile s t → P t r) :
    ((Coroutine.yield y : Coroutine Y R ε σ (R y)).run s).Honours C P s :=
  ⟨C.refl s, hask, fun r t ht => ⟨C.refl t, hP r t ht⟩⟩

/-- A change of the shared state. -/
theorem honours_modify {f : σ → σ} {P : σ → Unit → Prop} (hdoes : C.does s (f s))
    (hP : P (f s) ()) : ((modify f : Coroutine Y R ε σ Unit).run s).Honours C P s := ⟨hdoes, hP⟩

/-- A loop over a list, with an invariant of the shared state and what the loop carries. -/
theorem honours_foldlM {β : Type} {I : σ → α → Prop} {f : α → β → Coroutine Y R ε σ α}
    (hf : ∀ a b t, I t a → ((f a b).run t).Honours C I t) (bs : List β) {a : α} (h : I s a) :
    ((bs.foldlM f a).run s).Honours C I s := by
  induction bs generalizing a s with
  | nil => exact honours_pure h
  | cons b bs ih =>
    rw [List.foldlM_cons]
    exact honours_bind (hf a b s h) fun a' t ht => ih ht

/-- A look at the shared state, and what is done with it. -/
theorem honours_get_bind {P : σ → α → Prop} {f : σ → Coroutine Y R ε σ α}
    (h : ((f s).run s).Honours C P s) : ((get >>= f).run s).Honours C P s := h

end Coroutine
