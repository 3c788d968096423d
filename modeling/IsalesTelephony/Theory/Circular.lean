/-
# Theory.Circular -- a list laid out around a circular array

`window cells start n` are the `n` cells from `start` on, past the last cell from the first
again.  A window shorter than the array is not changed by a write at its end or past it
(`window_set`), a write at its end makes it longer by what is written (`window_write`), and
the window from the next cell on is the rest of it (`window_succ`).
-/
import Mathlib.Data.Nat.ModEq
import Mathlib.Data.List.Basic

namespace IsalesTelephony.Theory.Circular

set_option autoImplicit false

universe u

variable {α : Type u} {cells : List α} {start n k : Nat} {x : α}

def window (cells : List α) : Nat → Nat → List α
  | _, 0 => []
  | start, n + 1 => cells[start]?.toList ++ window cells ((start + 1) % cells.length) n

theorem mod_inside (inside : start < cells.length) (k : Nat) : k % cells.length < cells.length :=
  Nat.mod_lt _ (Nat.zero_lt_of_lt inside)

/-- The first cell, and the window from the next cell on. -/
theorem window_succ (inside : start < cells.length) (n : Nat) :
    window cells start (n + 1) = cells[start] :: window cells ((start + 1) % cells.length) n := by
  rw [window, List.getElem?_eq_getElem inside]
  rfl

/-- Two windows, one behind the other. -/
theorem window_append (inside : start < cells.length) (m n : Nat) :
    window cells start (m + n) =
      window cells start m ++ window cells ((start + m) % cells.length) n := by
  induction m generalizing start with
  | zero => rw [Nat.zero_add, Nat.add_zero, Nat.mod_eq_of_lt inside, window, List.nil_append]
  | succ m ih =>
      rw [Nat.succ_add_eq_add_succ, Nat.add_succ, window_succ inside, window_succ inside,
        ih (mod_inside inside _), Nat.mod_add_mod, Nat.add_assoc, Nat.add_comm 1 m]
      rfl

/-- Two places less than a whole round apart are two cells. -/
theorem places_ne {i : Nat} (start : Nat) (before : i < k) (round : k < cells.length) :
    (start + k) % cells.length ≠ (start + i) % cells.length := by
  intro same
  have places : k ≡ i [MOD cells.length] := Nat.ModEq.add_left_cancel' start same
  exact Nat.ne_of_gt before (places.eq_of_lt_of_lt round (before.trans round))

/-- A write at the end of a window or past it, by less than a round from its start. -/
theorem window_set (inside : start < cells.length) (past : n ≤ k) (round : k < cells.length) :
    window (cells.set ((start + k) % cells.length) x) start n = window cells start n := by
  induction n generalizing start k with
  | zero => rfl
  | succ n ih =>
      have first : (start + k) % cells.length ≠ start := by
        have ne := places_ne start (Nat.zero_lt_of_lt past) round
        rwa [Nat.add_zero, Nat.mod_eq_of_lt inside] at ne
      obtain ⟨k, rfl⟩ : ∃ later, k = later + 1 := ⟨k - 1, by omega⟩
      have later := ih (mod_inside inside (start + 1)) (Nat.le_of_succ_le_succ past)
        (Nat.lt_of_succ_lt round)
      rw [Nat.mod_add_mod, Nat.add_assoc, Nat.add_comm 1 k] at later
      rw [window, window, List.getElem?_set_ne first, List.length_set, later]

/-- A write at the end of a window that is not a whole round. -/
theorem window_write (inside : start < cells.length) (round : n < cells.length) :
    window (cells.set ((start + n) % cells.length) x) start (n + 1) =
      window cells start n ++ [x] := by
  have there := mod_inside inside (start + n)
  rw [window_append (by rwa [List.length_set]), window_set inside (Nat.le_refl n) round,
    List.length_set, window, List.getElem?_set_self there]
  rfl

/-- A write at the first cell, which the rest of the window has left. -/
theorem window_behind (inside : start < cells.length) (round : n < cells.length) :
    window (cells.set start x) ((start + 1) % cells.length) n =
      window cells ((start + 1) % cells.length) n := by
  have back : ((start + 1) % cells.length + (cells.length - 1)) % cells.length = start := by
    rw [Nat.mod_add_mod, Nat.add_assoc, Nat.add_sub_cancel' (Nat.zero_lt_of_lt inside),
      Nat.add_mod_right, Nat.mod_eq_of_lt inside]
  have kept := window_set (x := x) (mod_inside inside (start + 1)) (Nat.le_pred_of_lt round)
    (Nat.pred_lt (Nat.ne_zero_of_lt inside))
  rwa [Nat.pred_eq_sub_one, back] at kept

end IsalesTelephony.Theory.Circular
