/-
# Theory.HalfEven -- rounding to the nearest integer, ties to even

The rounding of Python's `round` and of IEEE arithmetic.  `halfEven` adds at most one half
(`halfEven_le`) and leaves an integer alone (`halfEven_intCast`); a tie at one half goes down
to zero (`halfEven_eq_zero`).
-/
import Mathlib.Algebra.Order.Floor.Ring
import Mathlib.Data.Rat.Floor
import Mathlib.Tactic.Linarith

namespace IsalesTelephony.Theory

set_option autoImplicit false

universe u

variable {K : Type u} [Field K] [LinearOrder K] [FloorRing K]

/-- The integer nearest to `q`; of two that are equally near, the even one. -/
def halfEven (q : K) : ℤ :=
  if q - ⌊q⌋ < 1 / 2 then ⌊q⌋
  else if 1 / 2 < q - ⌊q⌋ then ⌊q⌋ + 1
  else if ⌊q⌋ % 2 = 0 then ⌊q⌋
  else ⌊q⌋ + 1

/-- It is the floor, and not too far below, or the next integer, and not too far above. -/
theorem halfEven_cases (q : K) :
    halfEven q = ⌊q⌋ ∧ q - ⌊q⌋ ≤ 1 / 2 ∨ halfEven q = ⌊q⌋ + 1 ∧ 1 / 2 ≤ q - ⌊q⌋ := by
  unfold halfEven
  split
  · rename_i below
    exact .inl ⟨rfl, below.le⟩
  · rename_i notBelow
    have half : 1 / 2 ≤ q - ⌊q⌋ := not_lt.mp notBelow
    split
    · exact .inr ⟨rfl, half⟩
    · rename_i notAbove
      split
      · exact .inl ⟨rfl, not_lt.mp notAbove⟩
      · exact .inr ⟨rfl, half⟩

variable [IsStrictOrderedRing K]

theorem halfEven_le (q : K) : (halfEven q : K) ≤ q + 1 / 2 := by
  rcases halfEven_cases q with ⟨floor, -⟩ | ⟨next, half⟩
  · rw [floor]
    linarith [Int.floor_le q]
  · rw [next]
    push_cast
    linarith

@[simp] theorem halfEven_intCast (n : ℤ) : halfEven (n : K) = n := by
  simp [halfEven]

@[simp] theorem halfEven_natCast (n : ℕ) : halfEven (n : K) = n := by
  rw [← Int.cast_natCast, halfEven_intCast]

theorem halfEven_eq_zero {q : K} (nonneg : 0 ≤ q) (half : q ≤ 1 / 2) : halfEven q = 0 := by
  have floor : ⌊q⌋ = 0 := Int.floor_eq_zero_iff.mpr ⟨nonneg, by linarith⟩
  unfold halfEven
  rw [floor, Int.cast_zero, sub_zero, if_neg (not_lt.mpr half)]
  simp

end IsalesTelephony.Theory
