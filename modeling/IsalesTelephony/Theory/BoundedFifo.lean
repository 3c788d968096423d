/-
# Theory.BoundedFifo -- a queue that drops its oldest items

`BoundedFifo α limit` holds at most `limit` items, and that is a field.  A push onto a full
queue overwrites its oldest item; what was overwritten is kept as history, so nothing is lost
from the account (`length_push`).
-/
import IsalesTelephony.Theory.SeqLog

namespace IsalesTelephony.Theory

set_option autoImplicit false

universe u

variable {α : Type u} {limit : Nat} {items : List α} {x : α}

/-! ## Drop-oldest, one item at a time -/

theorem length_keepNewest_le (limit : Nat) (items : List α) :
    (keepNewest limit items).length ≤ limit := by
  rw [keepNewest, List.length_drop]
  omega

theorem keepNewest_room (room : items.length < limit) :
    keepNewest limit (items ++ [x]) = items ++ [x] ∧ overflow limit (items ++ [x]) = [] := by
  have fits : (items ++ [x]).length ≤ limit := by
    rw [List.length_append]
    exact room
  have nothing := overflow_of_length_le fits
  exact ⟨by simpa [nothing] using overflow_append_keepNewest limit (items ++ [x]), nothing⟩

/-- What is added to a full queue takes the place of its first item. -/
theorem keepNewest_full {oldest : α} (full : (oldest :: items).length = limit) :
    keepNewest limit (oldest :: items ++ [x]) = items ++ [x] ∧
      overflow limit (oldest :: items ++ [x]) = [oldest] := by
  have more : (oldest :: items ++ [x]).length - limit = 1 := by
    rw [List.length_append, full, List.length_singleton]
    omega
  rw [keepNewest, overflow, more]
  exact ⟨rfl, rfl⟩

/-! ## The queue -/

structure BoundedFifo (α : Type u) (limit : Nat) where
  /-- oldest first -/
  items : List α := []
  within : items.length ≤ limit := by exact Nat.zero_le _
  /-- history: what was overwritten, oldest first -/
  overwritten : List α := []

namespace BoundedFifo

def push (q : BoundedFifo α limit) (x : α) : BoundedFifo α limit where
  items := keepNewest limit (q.items ++ [x])
  within := length_keepNewest_le limit _
  overwritten := q.overwritten ++ overflow limit (q.items ++ [x])

/-- Leave out the `n` oldest items. -/
def drop (q : BoundedFifo α limit) (n : Nat) : BoundedFifo α limit where
  items := q.items.drop n
  within := Nat.le_trans (List.drop_sublist n q.items).length_le q.within
  overwritten := q.overwritten

def clear (q : BoundedFifo α limit) : BoundedFifo α limit where
  overwritten := q.overwritten

/-- Every item pushed is queued or overwritten. -/
theorem length_push (q : BoundedFifo α limit) (x : α) :
    (q.push x).overwritten.length + (q.push x).items.length =
      q.overwritten.length + q.items.length + 1 := by
  have split := congrArg List.length (overflow_append_keepNewest limit (q.items ++ [x]))
  simp only [List.length_append, List.length_singleton] at split
  simp only [push, List.length_append]
  omega

end BoundedFifo

end IsalesTelephony.Theory
