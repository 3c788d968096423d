/-
# Theory.History -- where an event stands in a log that grows

An event of a log that has grown by one is the new one, or stands where it stood
(`snoc_eq_split`).  `LastSince stops log x after` is an event with what has happened since,
none of which takes it back.
-/
import Mathlib.Data.List.Basic

namespace IsalesTelephony.Theory

set_option autoImplicit false

universe u

variable {α : Type u} {stops : α → Prop} {log before after : List α} {e x : α}

theorem snoc_eq_split :
    log ++ [e] = before ++ x :: after ↔
      (log = before ∧ e = x ∧ after = []) ∨ ∃ front, after = front ++ [e] ∧ log = before ++ x :: front := by
  constructor
  · intro split
    rcases List.eq_nil_or_concat' after with rfl | ⟨front, last, rfl⟩
    · obtain ⟨same, last⟩ := List.append_inj' split rfl
      exact .inl ⟨same, (List.cons.inj last).1, rfl⟩
    · rw [← List.cons_append, ← List.append_assoc] at split
      obtain ⟨same, last⟩ := List.append_inj' split rfl
      obtain rfl := (List.cons.inj last).1
      exact .inr ⟨front, rfl, same⟩
  · rintro (⟨rfl, rfl, rfl⟩ | ⟨front, rfl, rfl⟩)
    · rfl
    · simp

theorem getElem?_snoc_cases {i : Nat} (here : (log ++ [e])[i]? = some x) :
    log[i]? = some x ∨ i = log.length ∧ x = e := by
  rcases Nat.lt_trichotomy i log.length with lt | rfl | gt
  · rw [List.getElem?_append_left lt] at here
    exact .inl here
  · rw [List.getElem?_concat_length] at here
    exact .inr ⟨rfl, (Option.some.inj here).symm⟩
  · rw [List.getElem?_eq_none (by rw [List.length_append, List.length_singleton]; omega)] at here
    cases here

/-- `x` is in the log and `after` came after it, nothing of which stops it. -/
def LastSince (stops : α → Prop) (log : List α) (x : α) (after : List α) : Prop :=
  ∃ before, log = before ++ x :: after ∧ ∀ e ∈ after, ¬stops e

theorem not_lastSince_nil : ¬LastSince stops [] x after := by
  rintro ⟨before, split, -⟩
  exact absurd split.symm (List.append_ne_nil_of_right_ne_nil _ nofun)

theorem lastSince_snoc : LastSince stops (log ++ [e]) x after ↔
    (e = x ∧ after = []) ∨ (¬stops e ∧ ∃ front, after = front ++ [e] ∧ LastSince stops log x front) := by
  constructor
  · rintro ⟨before, split, kept⟩
    rcases snoc_eq_split.mp split with ⟨-, same, rfl⟩ | ⟨front, rfl, same⟩
    · exact .inl ⟨same, rfl⟩
    · refine .inr ⟨kept e (List.mem_append_right _ List.mem_cons_self), front, rfl, before, same, ?_⟩
      exact fun other member => kept other (List.mem_append_left _ member)
  · rintro (⟨rfl, rfl⟩ | ⟨going, front, rfl, before, rfl, kept⟩)
    · exact ⟨log, rfl, List.forall_mem_nil _⟩
    · refine ⟨before, by simp, fun other member => ?_⟩
      rcases List.mem_append.mp member with member | member
      · exact kept other member
      · obtain rfl := List.mem_singleton.mp member
        exact going

end IsalesTelephony.Theory
