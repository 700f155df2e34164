import Mathlib.Data.List.Basic

/-!
# Dialogues

Two parties on a pair of streams: one speaks in segments, the other replies to each.

* `Dialogue`: the segments, each with its reply; `Dialogue.said` and `Dialogue.replied` are the two
  streams.
* `Dialogue.spoken`: what the second party has said once it has heard so much of the first.
* `Dialogue.Grants`: how much the first party may have said once it has heard so much of the second.
* `Dialogue.Grants.lt_spoken`: the parties never wait for each other before all is said.
-/

variable {α β : Type}

/-- The segments of one party, each with the reply of the other. -/
abbrev Dialogue (α β : Type) : Type := List (List α × List β)

namespace Dialogue

variable {segment heard more : List α} {reply : List β} {d : Dialogue α β}

/-- All that the first party says. -/
def said (d : Dialogue α β) : List α := d.flatMap Prod.fst

/-- All that the second party replies. -/
def replied (d : Dialogue α β) : List β := d.flatMap Prod.snd

theorem said_cons : said ((segment, reply) :: d) = segment ++ said d := rfl

theorem replied_cons : replied ((segment, reply) :: d) = reply ++ replied d := rfl

/-- What is replied once `heard` has been heard: the replies to the segments that are complete. -/
def spoken : Dialogue α β → List α → List β
  | [], _ => []
  | (segment, reply) :: d, heard =>
    if segment.length ≤ heard.length then reply ++ spoken d (heard.drop segment.length) else []

/-- A complete segment is replied to. -/
theorem spoken_append (segment heard : List α) (reply : List β) (d : Dialogue α β) :
    spoken ((segment, reply) :: d) (segment ++ heard) = reply ++ spoken d heard := by
  have hroom : segment.length ≤ (segment ++ heard).length := by
    rw [List.length_append]
    omega
  rw [spoken, if_pos hroom, List.drop_left]

/-- A segment that is not complete is not. -/
theorem spoken_of_lt (h : heard.length < segment.length) :
    spoken ((segment, reply) :: d) heard = [] := by
  rw [spoken, if_neg (Nat.not_le.mpr h)]

/-- Nothing is replied that does not belong to the dialogue. -/
theorem prefix_spoken (d : Dialogue α β) (heard : List α) : spoken d heard <+: replied d := by
  induction d generalizing heard with
  | nil => exact List.prefix_rfl
  | cons turn d ih =>
    rw [spoken]
    split
    · exact (List.prefix_append_right_inj turn.2).mpr (ih _)
    · exact List.nil_prefix

/-- Who has heard all has replied to all. -/
theorem spoken_said (d : Dialogue α β) : spoken d (said d) = replied d := by
  induction d with
  | nil => rfl
  | cons turn d ih =>
    rw [said_cons, spoken_append, ih]
    rfl

/-- `limit`, how much may be said by what has been heard, grants each segment once the replies to those
before it are there; what it grants behind the last reply is `final`. -/
def Grants : (limit : List β → ℕ) → Dialogue α β → (final : List β → ℕ) → Prop
  | limit, [], final => limit = final
  | limit, (segment, reply) :: d, final =>
    (∀ heard, segment.length ≤ limit heard) ∧
      ∃ next, (∀ heard, limit (reply ++ heard) = segment.length + next heard) ∧ Grants next d final

variable {limit final : List β → ℕ}

/-- As long as not all is said, the replies so far grant more than what they reply to. -/
theorem Grants.lt_spoken (h : Grants limit d final) (hheard : heard.length < (said d).length) :
    heard.length < limit (spoken d heard) := by
  induction d generalizing limit heard with
  | nil => exact absurd hheard (Nat.not_lt_zero _)
  | cons turn d ih =>
    obtain ⟨segment, reply⟩ := turn
    obtain ⟨hsegment, next, hnext, hrest⟩ := h
    by_cases hwhole : segment.length ≤ heard.length
    · -- the segment is complete, and its reply grants what comes behind it
      rw [said_cons, List.length_append] at hheard
      have hlater : (heard.drop segment.length).length < (said d).length := by
        rw [List.length_drop]
        omega
      have hgranted := ih hrest hlater
      rw [List.length_drop] at hgranted
      rw [spoken, if_pos hwhole, hnext]
      omega
    · have hshort := Nat.not_le.mp hwhole
      rw [spoken_of_lt hshort]
      exact Nat.lt_of_lt_of_le hshort (hsegment [])

/-- All replies together grant all that is said, and what `final` grants. -/
theorem Grants.limit_replied (h : Grants limit d final) (heard : List β) :
    limit (replied d ++ heard) = (said d).length + final heard := by
  induction d generalizing limit with
  | nil =>
    obtain rfl : limit = final := h
    exact (Nat.zero_add _).symm
  | cons turn d ih =>
    obtain ⟨segment, reply⟩ := turn
    obtain ⟨-, next, hnext, hrest⟩ := h
    rw [replied_cons, said_cons, List.append_assoc, hnext, ih hrest, List.length_append, Nat.add_assoc]

end Dialogue
