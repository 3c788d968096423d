/-
# Theory.Hex -- numbers written in hexadecimal digits and padded with zeros

The value of a run of lowercase digits is that of the number it was written from, however
many zeros stand before it (`value_padded`).  So different numbers are written differently
(`padded_inj`).
-/
import Mathlib.Data.List.Basic

namespace IsalesTelephony.Theory.Hex

set_option autoImplicit false

variable {run : List Char} {c : Char} {m n width : Nat}

def digit (c : Char) : Nat := if c.isDigit then c.toNat - '0'.toNat else c.toNat - 'a'.toNat + 10

/-- The value of a run of digits. -/
def value (run : List Char) : Nat := run.foldl (fun n c => 16 * n + digit c) 0

/-- The digits of a number after as many zeros as fill the width. -/
def padded (width n : Nat) : List Char := List.leftpad width '0' (Nat.toDigits 16 n)

theorem digit_digitChar : ∀ d < 16, digit (Nat.digitChar d) = d := by decide

theorem value_concat (run : List Char) (c : Char) : value (run ++ [c]) = 16 * value run + digit c := by
  simp [value]

theorem value_toDigits (n : Nat) : value (Nat.toDigits 16 n) = n := by
  induction n using Nat.strongRecOn with
  | ind n ih =>
      rcases Nat.lt_or_ge n 16 with small | large
      · rw [Nat.toDigits_of_lt_base small]
        show 16 * 0 + digit n.digitChar = n
        rw [digit_digitChar n small]
        omega
      · have last : n % 16 < 16 := Nat.mod_lt n (by decide)
        have split := Nat.toDigits_append_toDigits (b := 16) (by decide)
          (show 0 < n / 16 by omega) last
        rw [Nat.div_add_mod, Nat.toDigits_of_lt_base last] at split
        rw [← split, value_concat, ih (n / 16) (by omega), digit_digitChar _ last]
        omega

theorem value_zeros (count : Nat) (run : List Char) :
    value (List.replicate count '0' ++ run) = value run := by
  induction count with
  | zero => rfl
  | succ count ih => exact ih

theorem value_padded (width n : Nat) : value (padded width n) = n := by
  rw [padded, List.leftpad, value_zeros, value_toDigits]

/-- Different numbers are written differently. -/
theorem padded_inj (same : padded width m = padded width n) : m = n := by
  rw [← value_padded width m, same, value_padded]

end IsalesTelephony.Theory.Hex
