import Mathlib.Data.List.Basic

/-!
# Checked accesses

Computations that stop where they would reach outside of what they read or write, and where they
raise an error of their own; and what it means that they do as plain ones do.

* `Checked`: such a computation, which raises errors `ε` or is trapped.
* `Checked.item`, `Checked.slice`: an element and a slice, inside a list.
* `Checked.Agrees`: checked code comes to what plain code comes to, or raises what that raises; it is
  never trapped. `Checked.Agrees.bind`, `Checked.Agrees.foldlM`: the rules for code in sequence.
* `Checked.Stands`: a position in a list for what is left of it.
-/

/-- Why checked code stops. -/
inductive Trap (ε : Type) : Type
  | outOfBounds
  | raised (error : ε)
  deriving DecidableEq, Repr

/-- Code whose accesses are checked. -/
abbrev Checked (ε α : Type) : Type := Except (Trap ε) α

namespace Checked

variable {ε α β γ δ ι : Type}

/-- The code raises an error of its own. -/
def raise (error : ε) : Checked ε α := .error (.raised error)

/-- Plain code, none of whose accesses needs a check. -/
def lift : Except ε α → Checked ε α
  | .ok a => .ok a
  | .error error => raise error

/-- `xs[i]`. -/
def item (xs : List α) (i : ℕ) : Checked ε α :=
  match xs[i]? with
  | some x => .ok x
  | none => .error .outOfBounds

/-- `xs[start:stop]`. -/
def slice (xs : List α) (start stop : ℕ) : Checked ε (List α) :=
  if start ≤ stop ∧ stop ≤ xs.length then .ok ((xs.drop start).take (stop - start))
  else .error .outOfBounds

theorem item_eq {xs : List α} {i : ℕ} {x : α} (h : xs[i]? = some x) :
    (item xs i : Checked ε α) = .ok x := by
  unfold item
  rw [h]

theorem slice_eq {xs : List α} {start n : ℕ} (h : start + n ≤ xs.length) :
    (slice xs start (start + n) : Checked ε (List α)) = .ok ((xs.drop start).take n) := by
  unfold slice
  rw [if_pos ⟨Nat.le_add_right _ _, h⟩, Nat.add_sub_cancel_left]

/-! ## Agreement with plain code -/

/-- Checked code comes to a value related to that of plain code, or raises the same error, which is a
good one. -/
inductive Agrees (Good : ε → Prop) (R : α → β → Prop) : Checked ε α → Except ε β → Prop
  | ok {a : α} {b : β} (related : R a b) : Agrees Good R (.ok a) (.ok b)
  | raised {error : ε} (good : Good error) : Agrees Good R (raise error) (.error error)

variable {Good : ε → Prop} {R : α → β → Prop} {R' : γ → δ → Prop} {c : Checked ε α}
  {x : Except ε β}

/-- Code in sequence. -/
theorem Agrees.bind {f : α → Checked ε γ} {g : β → Except ε δ} (h : Agrees Good R c x)
    (hnext : ∀ a b, R a b → Agrees Good R' (f a) (g b)) : Agrees Good R' (c >>= f) (x >>= g) := by
  cases h with
  | ok related => exact hnext _ _ related
  | raised good => exact .raised good

/-- Plain code that goes on without raising. -/
theorem Agrees.map {R' : α → δ → Prop} {g : β → δ} (h : Agrees Good R c x)
    (himp : ∀ a b, R a b → R' a (g b)) : Agrees Good R' c (x >>= fun b => .ok (g b)) := by
  cases h with
  | ok related => exact .ok (himp _ _ related)
  | raised good => exact .raised good

/-- What is known of plain code that is not checked. -/
theorem agrees_lift {x : Except ε α} {R : α → α → Prop} (hok : ∀ a, x = .ok a → R a a)
    (herror : ∀ error, x = .error error → Good error) : Agrees Good R (lift x) x := by
  cases x with
  | ok a => exact .ok (hok a rfl)
  | error error => exact .raised (herror error rfl)

/-- A step of checked code that is not trapped and raises nothing, where the plain code has none. -/
theorem Agrees.bind_ok {f : γ → Checked ε α} {v : γ} {d : Checked ε γ} (hd : d = .ok v)
    (h : Agrees Good R (f v) x) : Agrees Good R (d >>= f) x := by
  rw [hd]
  exact h

/-- A step for each element of a list. -/
theorem Agrees.foldlM {f : α → ι → Checked ε α} {g : β → ι → Except ε β} {l : List ι} {a : α} {b : β}
    (hstep : ∀ a b i, i ∈ l → R a b → Agrees Good R (f a i) (g b i)) (h : R a b) :
    Agrees Good R (l.foldlM f a) (l.foldlM g b) := by
  induction l generalizing a b with
  | nil => exact .ok h
  | cons i l ih =>
    rw [List.foldlM_cons, List.foldlM_cons]
    refine (hstep a b i List.mem_cons_self h).bind fun a' b' h' => ?_
    exact ih (fun a b j hj => hstep a b j (List.mem_cons_of_mem i hj)) h'

/-! ## Positions -/

/-- A value with a position in a list stands for the value with what is left of the list. -/
structure Stands (data : List β) (Known : α → Prop) (p : α × ℕ) (q : α × List β) : Prop where
  value : p.1 = q.1
  rest : q.2 = data.drop p.2
  inside : p.2 ≤ data.length
  known : Known p.1

/-- A value that was read, and where the reader stands then. -/
theorem Agrees.read {data : List β} {Known : α → Prop} {a : α} {pos : ℕ} {rest : List β}
    (hrest : rest = data.drop pos) (hinside : pos ≤ data.length) (hknown : Known a) :
    Agrees Good (Stands data Known) (.ok (a, pos)) (.ok (a, rest)) :=
  .ok ⟨rfl, hrest, hinside, hknown⟩

end Checked
