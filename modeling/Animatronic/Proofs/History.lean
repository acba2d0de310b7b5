import Mathlib.Data.List.Basic

/-!
# The latest event of a history

A history is a list of events, the first one in front.  Whether an event has a property may depend
on what has happened before it, so that a property is one of an event and of the events before it.

`Latest` points out the last event of a history that has a property.  As a history grows by one
event, that event is the latest if it has the property, and otherwise the latest event stays the
same (`latest_append_of`, `latest_append_of_not`).
-/

namespace Animatronic

namespace History

variable {Event : Type} {P : List Event → Event → Prop} {history before after : List Event}
  {event last : Event}

/-- An event of a longer history is its last one, or stands before that. -/
theorem append_singleton_eq_iff :
    history ++ [last] = before ++ event :: after ↔
      (before = history ∧ event = last ∧ after = []) ∨
        ∃ rest, after = rest ++ [last] ∧ history = before ++ event :: rest := by
  constructor
  · intro split
    rcases List.eq_nil_or_concat' after with rfl | ⟨rest, final, rfl⟩
    · obtain ⟨same, ends⟩ := List.append_inj' split rfl
      exact Or.inl ⟨same.symm, (List.singleton_inj.mp ends).symm, rfl⟩
    · rw [← List.cons_append, ← List.append_assoc] at split
      obtain ⟨same, ends⟩ := List.append_inj' split rfl
      obtain rfl : last = final := List.singleton_inj.mp ends
      exact Or.inr ⟨rest, rfl, same⟩
  · rintro (⟨rfl, rfl, rfl⟩ | ⟨rest, rfl, rfl⟩)
    · rfl
    · rw [List.append_assoc, List.cons_append]

/-- None of the events `after` has the property, coming after `before`. -/
def Without (P : List Event → Event → Prop) (before after : List Event) : Prop :=
  ∀ middle event rest, after = middle ++ event :: rest → ¬P (before ++ middle) event

theorem without_nil (P : List Event → Event → Prop) (before : List Event) :
    Without P before [] := by
  intro middle event rest split
  cases middle <;> cases split

theorem without_append_singleton :
    Without P before (after ++ [last]) ↔ Without P before after ∧ ¬P (before ++ after) last := by
  constructor
  · intro without
    refine ⟨fun middle event rest split => ?_, without after last [] rfl⟩
    refine without middle event (rest ++ [last]) ?_
    rw [split, List.append_assoc, List.cons_append]
  · rintro ⟨without, ends⟩ middle event rest split
    rcases append_singleton_eq_iff.mp split with ⟨rfl, rfl, -⟩ | ⟨shorter, -, split⟩
    · exact ends
    · exact without middle event shorter split

/-- Of a history, the event between `before` and `after` is the last one with the property. -/
structure Latest (P : List Event → Event → Prop) (history before : List Event) (event : Event)
    (after : List Event) : Prop where
  split : history = before ++ event :: after
  holds : P before event
  since : Without P (before ++ [event]) after

theorem not_latest_nil : ¬Latest P [] before event after := by
  intro latest
  have split := latest.split
  cases before <;> cases split

theorem latest_append_of (holds : P history last) :
    Latest P (history ++ [last]) before event after ↔
      before = history ∧ event = last ∧ after = [] := by
  constructor
  · intro latest
    rcases append_singleton_eq_iff.mp latest.split with here | ⟨rest, rfl, rfl⟩
    · exact here
    · have later := (without_append_singleton.mp latest.since).2
      rw [List.append_assoc, List.singleton_append] at later
      exact absurd holds later
  · rintro ⟨rfl, rfl, rfl⟩
    exact ⟨rfl, holds, without_nil P _⟩

theorem latest_append_of_not (other : ¬P history last) :
    Latest P (history ++ [last]) before event after ↔
      ∃ rest, after = rest ++ [last] ∧ Latest P history before event rest := by
  constructor
  · intro latest
    rcases append_singleton_eq_iff.mp latest.split with ⟨rfl, rfl, -⟩ | ⟨rest, rfl, split⟩
    · exact absurd latest.holds other
    · exact ⟨rest, rfl, split, latest.holds, (without_append_singleton.mp latest.since).1⟩
  · rintro ⟨rest, rfl, rfl, holds, since⟩
    refine ⟨by rw [List.append_assoc, List.cons_append], holds, ?_⟩
    refine without_append_singleton.mpr ⟨since, ?_⟩
    rwa [List.append_assoc, List.singleton_append]

end History

end Animatronic
