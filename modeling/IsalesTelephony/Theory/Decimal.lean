/-
# Theory.Decimal -- runs of decimal digits and their values

`Nat.ofDigitChars 10 run 0` is the value of a run of digits and `Nat.toDigits 10 n` the run
without leading zeros that has the value `n`.  A digit of the latter other than 0 is one of
the former (`mem_of_mem_toDigits`).
-/
import Mathlib.Data.List.Induction

namespace IsalesTelephony.Theory.Decimal

set_option autoImplicit false

variable {run : List Char} {c : Char}

/-- The value of a run of digits. -/
def value (run : List Char) : Nat := Nat.ofDigitChars 10 run 0

theorem value_concat (run : List Char) (c : Char) :
    value (run ++ [c]) = 10 * value run + (c.toNat - '0'.toNat) := by
  rw [value, Nat.ofDigitChars_append, Nat.ofDigitChars_cons, Nat.ofDigitChars_nil, value]

theorem value_toDigits (n : Nat) : value (Nat.toDigits 10 n) = n :=
  Nat.ofDigitChars_ten_toDigits

/-- Different numbers are written differently. -/
theorem toDigits_inj {m n : Nat} (same : Nat.toDigits 10 m = Nat.toDigits 10 n) : m = n := by
  rw [← value_toDigits m, same, value_toDigits]

theorem isDigit_toNat (digit : c.isDigit = true) : 48 ≤ c.toNat ∧ c.toNat ≤ 57 := by
  simp only [Char.isDigit, Bool.and_eq_true, decide_eq_true_eq, ge_iff_le, UInt32.le_iff_toNat_le] at digit
  exact digit

theorem digitChar_sub (digit : c.isDigit = true) : Nat.digitChar (c.toNat - '0'.toNat) = c := by
  obtain ⟨low, high⟩ := isDigit_toNat digit
  refine Char.toNat_inj.mp ?_
  have cases : c.toNat = 48 ∨ c.toNat = 49 ∨ c.toNat = 50 ∨ c.toNat = 51 ∨ c.toNat = 52 ∨
      c.toNat = 53 ∨ c.toNat = 54 ∨ c.toNat = 55 ∨ c.toNat = 56 ∨ c.toNat = 57 := by omega
  rcases cases with h | h | h | h | h | h | h | h | h | h <;> rw [h] <;> rfl

/-- A digit of the value is a digit of the run, or a zero. -/
theorem mem_of_mem_toDigits (digits : ∀ c ∈ run, c.isDigit = true)
    (member : c ∈ Nat.toDigits 10 (value run)) (nonzero : c ≠ '0') : c ∈ run := by
  induction run using List.reverseRecOn with
  | nil =>
      have zero : Nat.toDigits 10 (value []) = ['0'] := rfl
      rw [zero, List.mem_singleton] at member
      exact absurd member nonzero
  | append_singleton front last ih =>
      obtain ⟨low, high⟩ := isDigit_toNat (digits last (by simp))
      have small : last.toNat - '0'.toNat < 10 := by
        have zero : '0'.toNat = 48 := rfl
        omega
      have one : Nat.toDigits 10 (last.toNat - '0'.toNat) = [last] := by
        rw [Nat.toDigits_of_lt_base small, digitChar_sub (digits last (by simp))]
      rw [value_concat] at member
      rcases Nat.eq_zero_or_pos (value front) with zero | pos
      · rw [zero, Nat.mul_zero, Nat.zero_add, one] at member
        exact List.mem_append_right _ member
      · rw [← Nat.toDigits_append_toDigits (by decide) pos small, one] at member
        rcases List.mem_append.mp member with before | isLast
        · exact List.mem_append_left _ (ih (fun c listed => digits c (by simp [listed])) before)
        · exact List.mem_append_right _ isLast

end IsalesTelephony.Theory.Decimal
