import Mathlib.Data.List.Basic

/-!
# Coroutines over a shared state

A generator function that works on an object it shares with its driver: it runs until it
finishes, fails, or suspends at a `yield`, and the driver resumes it with an answer whose
type depends on what was asked for. The shared object may change while the coroutine is
suspended, so a resumption takes it as an argument.

* `Coroutine.Step`: where a run stands. Steps are well founded, so every chain of
  resumptions of one coroutine ends.
* `Coroutine`: the monad, with `Coroutine.yield`, `Coroutine.throw`, `Coroutine.get` and
  `Coroutine.modify`.
* `Coroutine.Step.Resumes`: one resumption; `Coroutine.Step.wellFounded_resumes`.
* `Coroutine.Step.Always`: what holds of the shared state wherever a run can get, with the rule
  `Always.bind` for composed coroutines, and `Coroutine.Keeps`, the same of a coroutine.
* `Coroutine.Step.Lockstep`: two runs ask for the same, answer by answer, whatever their shared
  states, and `Coroutine.Blind`: a coroutine whose runs are all in lockstep.
-/

namespace Coroutine

/-- Where a coroutine stands: finished with a value, failed with an exception, or suspended
at a request `y` until it is resumed with an answer in `R y`. -/
inductive Step (Y : Type) (R : Y → Type) (ε σ α : Type) : Type
  | done (s : σ) (a : α)
  | failed (s : σ) (e : ε)
  | yielded (s : σ) (y : Y) (resume : R y → σ → Step Y R ε σ α)

namespace Step

variable {Y : Type} {R : Y → Type} {ε σ α β γ : Type}

/-- The shared state as the coroutine left it. -/
def state : Step Y R ε σ α → σ
  | .done s _ => s
  | .failed s _ => s
  | .yielded s _ _ => s

@[simp] theorem state_done (s : σ) (a : α) : (done s a : Step Y R ε σ α).state = s := rfl

@[simp] theorem state_failed (s : σ) (e : ε) : (failed s e : Step Y R ε σ α).state = s := rfl

@[simp] theorem state_yielded (s : σ) (y : Y) (k : R y → σ → Step Y R ε σ α) :
    (yielded s y k).state = s := rfl

/-- What the coroutine is suspended at, if it is. -/
def request : Step Y R ε σ α → Option Y
  | .yielded _ y _ => some y
  | _ => none

@[simp] theorem request_done (s : σ) (a : α) :
    (done s a : Step Y R ε σ α).request = none := rfl

@[simp] theorem request_failed (s : σ) (e : ε) :
    (failed s e : Step Y R ε σ α).request = none := rfl

@[simp] theorem request_yielded (s : σ) (y : Y) (k : R y → σ → Step Y R ε σ α) :
    (yielded s y k).request = some y := rfl

/-- Run a second coroutine on the value the first one finishes with. -/
def bind (f : α → σ → Step Y R ε σ β) : Step Y R ε σ α → Step Y R ε σ β
  | .done s a => f a s
  | .failed s e => .failed s e
  | .yielded s y k => .yielded s y fun r s' => (k r s').bind f

@[simp] theorem bind_done (f : α → σ → Step Y R ε σ β) (s : σ) (a : α) :
    (done s a : Step Y R ε σ α).bind f = f a s := rfl

@[simp] theorem bind_failed (f : α → σ → Step Y R ε σ β) (s : σ) (e : ε) :
    (failed s e : Step Y R ε σ α).bind f = failed s e := rfl

@[simp] theorem bind_yielded (f : α → σ → Step Y R ε σ β) (s : σ) (y : Y)
    (k : R y → σ → Step Y R ε σ α) :
    (yielded s y k).bind f = yielded s y fun r s' => (k r s').bind f := rfl

@[simp] theorem bind_done_right (x : Step Y R ε σ α) :
    x.bind (fun a s => done s a) = x := by
  induction x with
  | done s a => rfl
  | failed s e => rfl
  | yielded s y k ih =>
    simp only [bind_yielded, yielded.injEq, heq_eq_eq, true_and]
    funext r s'
    exact ih r s'

theorem bind_assoc (x : Step Y R ε σ α) (f : α → σ → Step Y R ε σ β)
    (g : β → σ → Step Y R ε σ γ) :
    (x.bind f).bind g = x.bind fun a s => (f a s).bind g := by
  induction x with
  | done s a => rfl
  | failed s e => rfl
  | yielded s y k ih =>
    simp only [bind_yielded, yielded.injEq, heq_eq_eq, true_and]
    funext r s'
    exact ih r s'

/-- The run goes from one step to another on some answer. -/
inductive Resumes : Step Y R ε σ α → Step Y R ε σ α → Prop
  | mk (s : σ) (y : Y) (k : R y → σ → Step Y R ε σ α) (r : R y) (s' : σ) :
      Resumes (.yielded s y k) (k r s')

/-- No run goes on for ever. -/
theorem wellFounded_resumes :
    WellFounded fun x y : Step Y R ε σ α => Resumes y x := by
  refine ⟨fun x => ?_⟩
  induction x with
  | done s a => exact ⟨_, fun y hy => by cases hy⟩
  | failed s e => exact ⟨_, fun y hy => by cases hy⟩
  | yielded s y k ih =>
    refine ⟨_, fun z hz => ?_⟩
    cases hz with
    | mk _ _ _ r s' => exact ih r s'

/-- `P` holds of the shared state wherever the run can get, as long as it is resumed with
states in which `P` holds. -/
def Always (P : σ → Prop) : Step Y R ε σ α → Prop
  | .done s _ => P s
  | .failed s _ => P s
  | .yielded s _ k => P s ∧ ∀ r s', P s' → (k r s').Always P

@[simp] theorem always_done (P : σ → Prop) (s : σ) (a : α) :
    (done s a : Step Y R ε σ α).Always P ↔ P s := Iff.rfl

@[simp] theorem always_yielded (P : σ → Prop) (s : σ) (y : Y) (k : R y → σ → Step Y R ε σ α) :
    (yielded s y k).Always P ↔ P s ∧ ∀ r s', P s' → (k r s').Always P := Iff.rfl

/-- `P` holds where the run stands. -/
theorem Always.state {P : σ → Prop} {x : Step Y R ε σ α} (h : x.Always P) : P x.state := by
  cases x with
  | done s a => exact h
  | failed s e => exact h
  | yielded s y k => exact h.1

/-- What always holds of a run and of every continuation always holds of both in sequence. -/
theorem Always.bind {P : σ → Prop} {x : Step Y R ε σ α} {f : α → σ → Step Y R ε σ β}
    (h : x.Always P) (hf : ∀ a s, P s → (f a s).Always P) : (x.bind f).Always P := by
  induction x with
  | done s a => exact hf a s h
  | failed s e => exact h
  | yielded s y k ih => exact ⟨h.1, fun r s' hs' => ih r s' (h.2 r s' hs')⟩

/-- Two runs ask for the same, and go on asking for the same on the same answers, whatever the
states they share with their drivers. -/
inductive Lockstep : Step Y R ε σ α → Step Y R ε σ α → Prop
  | done (s s' : σ) (a : α) : Lockstep (.done s a) (.done s' a)
  | failed (s s' : σ) (e : ε) : Lockstep (.failed s e) (.failed s' e)
  | yielded (s s' : σ) {y : Y} {k k' : R y → σ → Step Y R ε σ α}
      (h : ∀ r t t', Lockstep (k r t) (k' r t')) : Lockstep (.yielded s y k) (.yielded s' y k')

theorem Lockstep.request_eq {x x' : Step Y R ε σ α} (h : Lockstep x x') :
    x.request = x'.request := by
  cases h <;> rfl

/-- Runs in lockstep followed by runs in lockstep. -/
theorem Lockstep.bind {x x' : Step Y R ε σ α} {f f' : α → σ → Step Y R ε σ β}
    (h : Lockstep x x') (hf : ∀ a s s', Lockstep (f a s) (f' a s')) :
    Lockstep (x.bind f) (x'.bind f') := by
  induction h with
  | done s s' a => exact hf a s s'
  | failed s s' e => exact .failed s s' e
  | yielded s s' _ ih => exact .yielded s s' ih

end Step

end Coroutine

/-- A coroutine: run it from a shared state to its first suspension or its end. -/
structure Coroutine (Y : Type) (R : Y → Type) (ε σ α : Type) : Type where
  run : σ → Coroutine.Step Y R ε σ α

namespace Coroutine

variable {Y : Type} {R : Y → Type} {ε σ α β : Type}

/-- Suspend at a request and return the answer. -/
def yield (y : Y) : Coroutine Y R ε σ (R y) :=
  ⟨fun s => .yielded s y fun r s' => .done s' r⟩

/-- Fail with an exception. -/
def throw (e : ε) : Coroutine Y R ε σ α := ⟨fun s => .failed s e⟩

/-- Read the shared state. -/
def get : Coroutine Y R ε σ σ := ⟨fun s => .done s s⟩

/-- Change the shared state. -/
def modify (f : σ → σ) : Coroutine Y R ε σ Unit := ⟨fun s => .done (f s) ()⟩

instance : Monad (Coroutine Y R ε σ) where
  pure a := ⟨fun s => .done s a⟩
  bind m f := ⟨fun s => (m.run s).bind fun a s' => (f a).run s'⟩

@[simp] theorem run_pure (a : α) (s : σ) :
    (pure a : Coroutine Y R ε σ α).run s = .done s a := rfl

@[simp] theorem run_bind (m : Coroutine Y R ε σ α) (f : α → Coroutine Y R ε σ β) (s : σ) :
    (m >>= f).run s = (m.run s).bind fun a s' => (f a).run s' := rfl

@[simp] theorem run_map (g : α → β) (m : Coroutine Y R ε σ α) (s : σ) :
    (g <$> m).run s = (m.run s).bind fun a s' => .done s' (g a) := rfl

@[simp] theorem run_yield (y : Y) (s : σ) :
    (yield y : Coroutine Y R ε σ (R y)).run s =
      .yielded s y fun r s' => .done s' r := rfl

@[simp] theorem run_throw (e : ε) (s : σ) :
    (throw e : Coroutine Y R ε σ α).run s = .failed s e := rfl

@[simp] theorem run_get (s : σ) : (get : Coroutine Y R ε σ σ).run s = .done s s := rfl

@[simp] theorem run_modify (f : σ → σ) (s : σ) :
    (modify f : Coroutine Y R ε σ Unit).run s = .done (f s) () := rfl

instance : LawfulMonad (Coroutine Y R ε σ) :=
  LawfulMonad.mk' _
    (fun x => congrArg Coroutine.mk (funext fun s => Step.bind_done_right (x.run s)))
    (fun _ _ => rfl)
    (fun x f g => congrArg Coroutine.mk (funext fun s => Step.bind_assoc (x.run s) _ _))

/-- A coroutine keeps `P`: started and resumed where `P` holds, it leaves the shared state so. -/
def Keeps (P : σ → Prop) (m : Coroutine Y R ε σ α) : Prop := ∀ s, P s → (m.run s).Always P

namespace Keeps

variable {P : σ → Prop}

theorem pure (a : α) : Keeps P (Pure.pure a : Coroutine Y R ε σ α) := fun _ h => h

theorem yield (y : Y) : Keeps P (Coroutine.yield y : Coroutine Y R ε σ (R y)) :=
  fun _ h => ⟨h, fun _ _ h' => h'⟩

theorem modify {f : σ → σ} (hf : ∀ s, P s → P (f s)) :
    Keeps P (Coroutine.modify f : Coroutine Y R ε σ Unit) := hf

theorem bind {m : Coroutine Y R ε σ α} {f : α → Coroutine Y R ε σ β} (hm : Keeps P m)
    (hf : ∀ a, Keeps P (f a)) : Keeps P (m >>= f) :=
  fun s h => (hm s h).bind fun a s' h' => hf a s' h'

theorem ite {c : Prop} [Decidable c] {m₁ m₂ : Coroutine Y R ε σ α} (h₁ : Keeps P m₁)
    (h₂ : Keeps P m₂) : Keeps P (if c then m₁ else m₂) := by
  split
  · exact h₁
  · exact h₂

end Keeps

/-- A coroutine that never looks at the shared state: all its runs are in lockstep. -/
def Blind (m : Coroutine Y R ε σ α) : Prop := ∀ s s', (m.run s).Lockstep (m.run s')

namespace Blind

theorem pure (a : α) : Blind (Pure.pure a : Coroutine Y R ε σ α) := fun s s' => .done s s' a

theorem yield (y : Y) : Blind (Coroutine.yield y : Coroutine Y R ε σ (R y)) :=
  fun s s' => .yielded s s' fun r t t' => .done t t' r

theorem modify (f : σ → σ) : Blind (Coroutine.modify f : Coroutine Y R ε σ Unit) :=
  fun s s' => .done (f s) (f s') ()

theorem bind {m : Coroutine Y R ε σ α} {f : α → Coroutine Y R ε σ β} (hm : Blind m)
    (hf : ∀ a, Blind (f a)) : Blind (m >>= f) := fun s s' => (hm s s').bind hf

theorem ite {c : Prop} [Decidable c] {m₁ m₂ : Coroutine Y R ε σ α} (h₁ : Blind m₁)
    (h₂ : Blind m₂) : Blind (if c then m₁ else m₂) := by
  split
  · exact h₁
  · exact h₂

end Blind

end Coroutine
