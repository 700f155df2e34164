import Mathlib.Data.List.Induction

/-!
# Machines

A machine takes a state and an event to the next state; a run is a list of events.

* `Machine.Throughout`: every event of a run meets a condition on the state it comes in.
* `Machine.invariant`: what each step keeps of the state and its history holds at the end of a run.
* `Machine.Throughout.imp`: a condition that the steps which meet another one ensure.
* `Machine.throughout_iff`: two conditions that agree wherever the machine comes are met by the same
  runs.
-/

namespace Machine

variable {S E : Type} {next : S → E → S} {P Q R : S → E → Prop} {s : S} {e : E}
  {events more : List E}

/-- Every event meets the condition in the state it comes in. -/
def Throughout (next : S → E → S) (P : S → E → Prop) : S → List E → Prop
  | _, [] => True
  | s, e :: events => P s e ∧ Throughout next P (next s e) events

theorem throughout_append :
    Throughout next P s (events ++ more) ↔
      Throughout next P s events ∧ Throughout next P (events.foldl next s) more := by
  induction events generalizing s with
  | nil => simp [Throughout]
  | cons e events ih => simp [Throughout, ih, and_assoc]

theorem throughout_concat :
    Throughout next P s (events ++ [e]) ↔
      Throughout next P s events ∧ P (events.foldl next s) e := by
  simp [throughout_append, Throughout]

/-- What holds of a state and its history at the start, and is kept by each step. -/
theorem invariant (Inv : List E → S → Prop) (hstart : Inv [] s)
    (hstep : ∀ past s e, Inv past s → P s e → Inv (past ++ [e]) (next s e))
    (h : Throughout next P s events) : Inv events (events.foldl next s) := by
  induction events using List.reverseRecOn with
  | nil => exact hstart
  | append_singleton events e ih =>
    obtain ⟨hevents, he⟩ := throughout_concat.mp h
    rw [List.foldl_append]
    exact hstep _ _ e (ih hevents) he

/-- A condition that each step ensures where it meets another one, from what such steps keep. -/
theorem Throughout.imp (Inv : S → Prop) (hstart : Inv s)
    (hstep : ∀ s e, Inv s → P s e → Q s e ∧ Inv (next s e)) (h : Throughout next P s events) :
    Throughout next Q s events := by
  induction events generalizing s with
  | nil => trivial
  | cons e events ih =>
    obtain ⟨hq, hnext⟩ := hstep s e hstart h.1
    exact ⟨hq, ih hnext h.2⟩

/-- Conditions that say the same wherever the machine comes, where each step that meets one of them
keeps what says so. -/
theorem throughout_iff (Inv : S → Prop) (hstart : Inv s)
    (hiff : ∀ s e, Inv s → P s e → (Q s e ↔ R s e))
    (hstep : ∀ s e, Inv s → P s e → R s e → Inv (next s e))
    (h : Throughout next P s events) :
    Throughout next Q s events ↔ Throughout next R s events := by
  induction events generalizing s with
  | nil => exact Iff.rfl
  | cons e events ih =>
    obtain ⟨he, hevents⟩ := h
    have hsame := hiff s e hstart he
    constructor
    · rintro ⟨hq, hrest⟩
      have hr := hsame.mp hq
      exact ⟨hr, (ih (hstep s e hstart he hr) hevents).mp hrest⟩
    · rintro ⟨hr, hrest⟩
      exact ⟨hsame.mpr hr, (ih (hstep s e hstart he hr) hevents).mpr hrest⟩

end Machine
