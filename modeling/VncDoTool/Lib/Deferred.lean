import Mathlib.Data.List.Basic

/-!
# Deferred results

A chain of callbacks that run, one after the other, once there is a result: each turns the result
of the one before into a result of its own, or into something to wait for.

* `Deferred`: a chain that was not fired, one that ran to its end, and one that waits.
* `Deferred.add`, `Deferred.fire`, `Deferred.resume`: what runs callbacks.
* `Deferred.Follows`: what is known of a chain and of all the callbacks it was given, and the rules
  that keep it known.
-/

/-- A chain of callbacks `ε` with results `ρ`, which may wait for something `ι`. -/
inductive Deferred (ε ρ ι : Type) : Type
  | unfired (callbacks : List ε)
  | idle (result : ρ)
  | paused (on : ι) (callbacks : List ε)

namespace Deferred

variable {ε ρ ι σ : Type}

/-- The callbacks that have not run. -/
def waiting : Deferred ε ρ ι → List ε
  | unfired callbacks => callbacks
  | idle _ => []
  | paused _ callbacks => callbacks

/-- The chain was given a result. -/
def Fired : Deferred ε ρ ι → Prop
  | unfired _ => False
  | _ => True

instance : (d : Deferred ε ρ ι) → Decidable d.Fired
  | unfired _ => inferInstanceAs (Decidable False)
  | idle _ => inferInstanceAs (Decidable True)
  | paused _ _ => inferInstanceAs (Decidable True)

section

variable (handle : σ → ρ → ε → σ × (ρ ⊕ ι))

/-- Run callbacks on a result, up to one that has to wait. -/
def run (s : σ) (result : ρ) : List ε → σ × Deferred ε ρ ι
  | [] => (s, idle result)
  | callback :: callbacks =>
    match handle s result callback with
    | (s, .inl result) => run s result callbacks
    | (s, .inr on) => (s, paused on callbacks)

/-- Add a callback, which runs at once where nothing is waited for. -/
def add (s : σ) (callback : ε) : Deferred ε ρ ι → σ × Deferred ε ρ ι
  | unfired callbacks => (s, unfired (callbacks ++ [callback]))
  | idle result => run handle s result [callback]
  | paused on callbacks => (s, paused on (callbacks ++ [callback]))

/-- Give the chain its result. It has one already, or it is fired. -/
def fire (s : σ) (result : ρ) : Deferred ε ρ ι → σ × Deferred ε ρ ι
  | unfired callbacks => run handle s result callbacks
  | d => (s, d)

/-- What the chain waits for has come to a result. -/
def resume (s : σ) (result : ρ) : Deferred ε ρ ι → σ × Deferred ε ρ ι
  | paused _ callbacks => run handle s result callbacks
  | d => (s, d)

end

/-- A callback that runs at once and has a result of its own. -/
theorem add_idle {handle : σ → ρ → ε → σ × (ρ ⊕ ι)} {s s' : σ} {result result' : ρ} {callback : ε}
    (h : handle s result callback = (s', .inl result')) :
    add handle s callback (idle result) = (s', idle result') := by
  show run handle s result [callback] = _
  unfold run
  rw [h]
  rfl

/-! ## What is known of a chain -/

/-- What is known of a chain that was given `given`, in order: `Idle done s r` once `done` have run
and left `r`, `Held done s i` while the last of `done` waits for `i`. -/
def Follows (Start : σ → Prop) (Idle : List ε → σ → ρ → Prop) (Held : List ε → σ → ι → Prop)
    (given : List ε) (s : σ) : Deferred ε ρ ι → Prop
  | unfired callbacks => given = callbacks ∧ Start s
  | idle result => Idle given s result
  | paused on callbacks => ∃ done, given = done ++ callbacks ∧ Held done s on

variable {handle : σ → ρ → ε → σ × (ρ ⊕ ι)} {Start : σ → Prop} {Idle : List ε → σ → ρ → Prop}
  {Held : List ε → σ → ι → Prop} {given done callbacks : List ε} {s : σ} {d : Deferred ε ρ ι}
  {result : ρ} {callback : ε}

/-- What a callback makes known, by what it comes to. -/
def Runs (handle : σ → ρ → ε → σ × (ρ ⊕ ι)) (Idle : List ε → σ → ρ → Prop)
    (Held : List ε → σ → ι → Prop) : Prop :=
  ∀ done s result callback, Idle done s result →
    (∀ s' result', handle s result callback = (s', .inl result') →
      Idle (done ++ [callback]) s' result') ∧
    ∀ s' on, handle s result callback = (s', .inr on) → Held (done ++ [callback]) s' on

/-- Callbacks that run. -/
theorem follows_run (hruns : Runs handle Idle Held) (h : Idle done s result) :
    Follows Start Idle Held (done ++ callbacks) (run handle s result callbacks).1
      (run handle s result callbacks).2 := by
  induction callbacks generalizing done s result with
  | nil =>
    rw [List.append_nil]
    exact h
  | cons callback callbacks ih =>
    obtain ⟨hidle, hheld⟩ := hruns done s result callback h
    unfold run
    cases hcase : handle s result callback with
    | mk s' next =>
      cases next with
      | inl result' =>
        have hrest := ih (hidle s' result' hcase)
        rwa [List.append_assoc] at hrest
      | inr on =>
        exact ⟨done ++ [callback], by rw [List.append_assoc]; rfl, hheld s' on hcase⟩

theorem follows_add (hruns : Runs handle Idle Held) (h : Follows Start Idle Held given s d) :
    Follows Start Idle Held (given ++ [callback]) (add handle s callback d).1
      (add handle s callback d).2 := by
  cases d with
  | unfired callbacks =>
    obtain ⟨rfl, hstart⟩ := h
    exact ⟨rfl, hstart⟩
  | idle result => exact follows_run hruns h
  | paused on callbacks =>
    obtain ⟨done, rfl, hheld⟩ := h
    exact ⟨done, List.append_assoc _ _ _, hheld⟩

/-- A chain that is fired runs what it was given. -/
theorem follows_fire (hruns : Runs handle Idle Held) (hstart : Start s → Idle [] s result)
    (h : Follows Start Idle Held given s d) :
    Follows Start Idle Held given (fire handle s result d).1 (fire handle s result d).2 := by
  cases d with
  | unfired callbacks =>
    obtain ⟨rfl, hs⟩ := h
    exact follows_run hruns (hstart hs)
  | idle result => exact h
  | paused on callbacks => exact h

/-- A chain that has waited runs the rest. The state may have changed with the result. -/
theorem follows_resume {s' : σ} {on : ι} (hruns : Runs handle Idle Held)
    (hresult : ∀ done, Held done s on → Idle done s' result)
    (h : Follows Start Idle Held given s (.paused on callbacks)) :
    Follows Start Idle Held given (run handle s' result callbacks).1
      (run handle s' result callbacks).2 := by
  obtain ⟨done, rfl, hheld⟩ := h
  exact follows_run hruns (hresult done hheld)

/-- The state may change, and what is known of it with it. -/
theorem Follows.imp {s' : σ} {Start' : σ → Prop} {Idle' : List ε → σ → ρ → Prop}
    {Held' : List ε → σ → ι → Prop} (h : Follows Start Idle Held given s d)
    (hstart : Start s → Start' s') (hidle : ∀ done result, Idle done s result → Idle' done s' result)
    (hheld : ∀ done on, Held done s on → Held' done s' on) :
    Follows Start' Idle' Held' given s' d := by
  cases d with
  | unfired callbacks => exact ⟨h.1, hstart h.2⟩
  | idle result => exact hidle _ _ h
  | paused on callbacks =>
    obtain ⟨done, hgiven, hdone⟩ := h
    exact ⟨done, hgiven, hheld _ _ hdone⟩

end Deferred
