import VncDoTool.Lib.Coroutine

/-!
# Feeding coroutines

A coroutine that asks for its input is run on one that is at hand: each request takes what it needs
off the front.

* `Coroutine.Step.feed`: what a run comes to on an input.
* `Coroutine.Consumes`: a coroutine finishes on exactly an input, whatever follows it.
* `Coroutine.Rejects`: a coroutine fails on an input, whatever follows it.
* `Coroutine.Ran`: a coroutine finished on an input and left a rest of it; `ran_bind` and the rules for
  the primitives take such a run apart.
* `Consumes.bind`, `Rejects.bind_left`, `Rejects.bind_right` and the rules for the primitives, with
  `Consumes.foldlM_cons` and `Rejects.foldlM_cons` for loops.
-/

namespace Coroutine

variable {Y : Type} {R : Y → Type} {ε σ α β B : Type}

/-- How requests are answered from an input: the answer, and what is left of the input. -/
abbrev Supply (Y : Type) (R : Y → Type) (B : Type) : Type :=
  (y : Y) → List B → Option (R y × List B)

/-- What a run comes to on an input. -/
inductive Fed (ε σ α B : Type) : Type
  | done (s : σ) (a : α) (rest : List B)
  | failed (s : σ) (e : ε) (rest : List B)
  /-- The input did not do for a request. -/
  | starved (s : σ)

/-- Run to the end, as long as the input does; nothing else touches the shared state. -/
def Step.feed (supply : Supply Y R B) : Step Y R ε σ α → List B → Fed ε σ α B
  | .done s a, input => .done s a input
  | .failed s e, input => .failed s e input
  | .yielded s y resume, input =>
    match supply y input with
    | none => .starved s
    | some (r, rest) => (resume r s).feed supply rest

variable {supply : Supply Y R B}

/-- Two runs in sequence. -/
theorem Step.feed_bind (x : Step Y R ε σ α) (f : α → σ → Step Y R ε σ β) (input : List B) :
    (x.bind f).feed supply input =
      match x.feed supply input with
      | .done s a rest => (f a s).feed supply rest
      | .failed s e rest => .failed s e rest
      | .starved s => .starved s := by
  induction x generalizing input with
  | done s a => rfl
  | failed s e => rfl
  | yielded s y resume ih =>
    rw [Step.bind_yielded, Step.feed, Step.feed]
    cases supply y input with
    | none => rfl
    | some answer => exact ih answer.1 s answer.2

/-- From `s`, the coroutine takes exactly `input`, and finishes with `a` in `s'`. -/
def Consumes (supply : Supply Y R B) (m : Coroutine Y R ε σ α) (s : σ) (input : List B) (a : α)
    (s' : σ) : Prop :=
  ∀ rest, (m.run s).feed supply (input ++ rest) = .done s' a rest

/-- From `s`, the coroutine fails on `input` with an exception in `P`. -/
def Rejects (supply : Supply Y R B) (m : Coroutine Y R ε σ α) (s : σ) (input : List B)
    (P : ε → Prop) : Prop :=
  ∀ rest, ∃ s' e rest', (m.run s).feed supply (input ++ rest) = .failed s' e rest' ∧ P e

/-! ## Finishing -/

namespace Consumes

variable {m : Coroutine Y R ε σ α} {f : α → Coroutine Y R ε σ β} {s s' s'' : σ} {a : α} {b : β}
  {input input' : List B}

theorem pure (a : α) (s : σ) : Consumes supply (Pure.pure a : Coroutine Y R ε σ α) s [] a s :=
  fun _ => rfl

theorem get (s : σ) : Consumes supply (Coroutine.get : Coroutine Y R ε σ σ) s [] s s :=
  fun _ => rfl

theorem modify (f : σ → σ) (s : σ) :
    Consumes supply (Coroutine.modify f : Coroutine Y R ε σ Unit) s [] () (f s) :=
  fun _ => rfl

/-- An answer that is made of exactly the input. -/
theorem yield {y : Y} {r : R y} (h : ∀ rest, supply y (input ++ rest) = some (r, rest)) (s : σ) :
    Consumes supply (Coroutine.yield y : Coroutine Y R ε σ (R y)) s input r s := by
  intro rest
  rw [run_yield, Step.feed, h rest]
  rfl

theorem bind (hm : Consumes supply m s input a s') (hf : Consumes supply (f a) s' input' b s'') :
    Consumes supply (m >>= f) s (input ++ input') b s'' := by
  intro rest
  rw [run_bind, Step.feed_bind, List.append_assoc, hm (input' ++ rest)]
  exact hf rest

/-- A first part that takes nothing. -/
theorem bind_nil (hm : Consumes supply m s [] a s') (hf : Consumes supply (f a) s' input b s'') :
    Consumes supply (m >>= f) s input b s'' := hm.bind hf

/-- A last part that takes nothing. -/
theorem bind_pure (hm : Consumes supply m s input a s') (hf : Consumes supply (f a) s' [] b s'') :
    Consumes supply (m >>= f) s input b s'' := by
  have hboth := hm.bind hf
  rwa [List.append_nil] at hboth

/-- One round of a loop, and the rounds after it. -/
theorem foldlM_cons {γ : Type} {step : β → γ → Coroutine Y R ε σ β} {x : γ} {xs : List γ}
    {b b' b'' : β} (hstep : Consumes supply (step b x) s input b' s')
    (hloop : Consumes supply (xs.foldlM step b') s' input' b'' s'') :
    Consumes supply ((x :: xs).foldlM step b) s (input ++ input') b'' s'' := by
  rw [List.foldlM_cons]
  exact hstep.bind hloop

end Consumes

/-! ## Failing -/

namespace Rejects

variable {m : Coroutine Y R ε σ α} {f : α → Coroutine Y R ε σ β} {s s' : σ} {a : α}
  {input input' : List B} {P : ε → Prop}

theorem throw {e : ε} (h : P e) (s : σ) (input : List B) :
    Rejects supply (Coroutine.throw e : Coroutine Y R ε σ α) s input P :=
  fun rest => ⟨s, e, input ++ rest, rfl, h⟩

/-- What comes behind an input that is rejected does not matter. -/
theorem append (h : Rejects supply m s input P) (input' : List B) :
    Rejects supply m s (input ++ input') P := by
  intro rest
  rw [List.append_assoc]
  exact h (input' ++ rest)

theorem bind_left (h : Rejects supply m s input P) : Rejects supply (m >>= f) s input P := by
  intro rest
  obtain ⟨s', e, rest', hfed, he⟩ := h rest
  refine ⟨s', e, rest', ?_, he⟩
  rw [run_bind, Step.feed_bind, hfed]

theorem bind_right (hm : Consumes supply m s input a s') (hf : Rejects supply (f a) s' input' P) :
    Rejects supply (m >>= f) s (input ++ input') P := by
  intro rest
  obtain ⟨s'', e, rest', hfed, he⟩ := hf rest
  refine ⟨s'', e, rest', ?_, he⟩
  rw [run_bind, Step.feed_bind, List.append_assoc, hm (input' ++ rest)]
  exact hfed

/-- A first part that takes nothing. -/
theorem bind_nil (hm : Consumes supply m s [] a s') (hf : Rejects supply (f a) s' input P) :
    Rejects supply (m >>= f) s input P := bind_right hm hf

/-- The first round of a loop fails. -/
theorem foldlM_head {γ : Type} {step : β → γ → Coroutine Y R ε σ β} {x : γ} {xs : List γ} {b : β}
    (hstep : Rejects supply (step b x) s input P) :
    Rejects supply ((x :: xs).foldlM step b) s input P := by
  rw [List.foldlM_cons]
  exact hstep.bind_left

/-- A later round of a loop fails. -/
theorem foldlM_cons {γ : Type} {step : β → γ → Coroutine Y R ε σ β} {x : γ} {xs : List γ} {b b' : β}
    (hstep : Consumes supply (step b x) s input b' s')
    (hloop : Rejects supply (xs.foldlM step b') s' input' P) :
    Rejects supply ((x :: xs).foldlM step b) s (input ++ input') P := by
  rw [List.foldlM_cons]
  exact bind_right hstep hloop

end Rejects

/-! ## Runs that finished -/

section Ran

variable {m : Coroutine Y R ε σ α} {f : α → Coroutine Y R ε σ β} {s s' : σ} {a : α} {b : β}
  {input rest : List B}

/-- From `s`, on `input`, the coroutine finished with `a` in `s'` and left `rest`. -/
def Ran (supply : Supply Y R B) (m : Coroutine Y R ε σ α) (s : σ) (input : List B) (s' : σ) (a : α)
    (rest : List B) : Prop :=
  (m.run s).feed supply input = .done s' a rest

/-- Both parts of a sequence finished, the second on what the first left. -/
theorem ran_bind (h : Ran supply (m >>= f) s input s' b rest) :
    ∃ t a mid, Ran supply m s input t a mid ∧ Ran supply (f a) t mid s' b rest := by
  unfold Ran at h
  rw [run_bind, Step.feed_bind] at h
  cases hm : (m.run s).feed supply input with
  | done t a mid =>
    rw [hm] at h
    exact ⟨t, a, mid, hm, h⟩
  | failed t e mid =>
    rw [hm] at h
    exact absurd h (by simp)
  | starved t =>
    rw [hm] at h
    exact absurd h (by simp)

theorem ran_pure {a' : α} (h : Ran supply (pure a : Coroutine Y R ε σ α) s input s' a' rest) :
    s = s' ∧ a = a' ∧ input = rest := by
  cases h
  exact ⟨rfl, rfl, rfl⟩

theorem ran_modify {g : σ → σ} {u : Unit}
    (h : Ran supply (Coroutine.modify g : Coroutine Y R ε σ Unit) s input s' u rest) :
    g s = s' ∧ input = rest := by
  cases h
  exact ⟨rfl, rfl⟩

theorem ran_get {t : σ} (h : Ran supply (Coroutine.get : Coroutine Y R ε σ σ) s input s' t rest) :
    s = s' ∧ s = t ∧ input = rest := by
  cases h
  exact ⟨rfl, rfl, rfl⟩

theorem not_ran_throw {e : ε} :
    ¬Ran supply (Coroutine.throw e : Coroutine Y R ε σ α) s input s' a rest := by
  intro h
  cases h

/-- One request finished with the answer. -/
theorem ran_yield {y : Y} {r : R y}
    (h : Ran supply (Coroutine.yield y : Coroutine Y R ε σ (R y)) s input s' r rest) :
    s = s' ∧ supply y input = some (r, rest) := by
  unfold Ran at h
  rw [run_yield, Step.feed] at h
  cases hanswer : supply y input with
  | none =>
    rw [hanswer] at h
    exact absurd h (by simp)
  | some answer =>
    rw [hanswer] at h
    cases h
    exact ⟨rfl, rfl⟩

end Ran

end Coroutine
