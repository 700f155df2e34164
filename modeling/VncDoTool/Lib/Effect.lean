import Mathlib.Logic.Basic

/-!
# Effects of straight-line code

What code that may raise does to its state, however it ends.

* `Effect.state`, `Effect.returns`: the state a run leaves, and whether it returns.
* `Effect.Does`: every run relates the state it found to the state it left.
* `Effect.does_bind` and the rules for the primitives, for a relation that is reflexive and transitive.
-/

namespace Effect

variable {ε σ α β : Type} {R : σ → σ → Prop}

/-- The state a run leaves. -/
def state : EStateM.Result ε σ α → σ
  | .ok _ s => s
  | .error _ s => s

@[simp] theorem state_ok (a : α) (s : σ) : state (.ok a s : EStateM.Result ε σ α) = s := rfl

@[simp] theorem state_error (e : ε) (s : σ) : state (.error e s : EStateM.Result ε σ α) = s := rfl

/-- Whether a run returns. -/
def returns : EStateM.Result ε σ α → Bool
  | .ok _ _ => true
  | .error _ _ => false

theorem eq_ok_of_returns {x : EStateM.Result ε σ Unit} (h : returns x = true) : x = .ok () (state x) := by
  cases x with
  | ok u s => rfl
  | error e s => exact absurd h (by simp [returns])

/-- However a run ends, what it does to the state is as `R` says. -/
def Does (R : σ → σ → Prop) (m : EStateM ε σ α) : Prop := ∀ s, R s (state (m.run s))

/-- What a run does is as a weaker relation says too. -/
theorem Does.mono {R' : σ → σ → Prop} {m : EStateM ε σ α} (h : Does R m)
    (hR : ∀ s s', R s s' → R' s s') : Does R' m := fun s => hR s _ (h s)

theorem does_pure (hrefl : ∀ s, R s s) (a : α) : Does R (pure a : EStateM ε σ α) := hrefl

theorem does_throw (hrefl : ∀ s, R s s) (e : ε) : Does R (throw e : EStateM ε σ α) := hrefl

theorem does_modify {f : σ → σ} (h : ∀ s, R s (f s)) : Does R (modify f : EStateM ε σ Unit) := h

/-- Runs in sequence. -/
theorem does_bind (htrans : ∀ s s' s'', R s s' → R s' s'' → R s s'') {m : EStateM ε σ α}
    {f : α → EStateM ε σ β} (hm : Does R m) (hf : ∀ a, Does R (f a)) : Does R (m >>= f) := by
  intro s
  have hs := hm s
  rw [EStateM.run_bind]
  cases hrun : m.run s with
  | error e s' =>
    rw [hrun] at hs
    exact hs
  | ok a s' =>
    rw [hrun] at hs
    exact htrans s s' _ hs (hf a s')

/-- A look at the state, and what is done with it. -/
theorem does_get_bind {f : σ → EStateM ε σ α} (h : ∀ a, R a (state ((f a).run a))) :
    Does R (get >>= f) := h

end Effect
