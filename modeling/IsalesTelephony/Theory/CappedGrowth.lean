/-
# Theory.CappedGrowth -- geometric growth up to a cap

`capped initial factor cap n` is `initial` after `n` multiplications by `factor`, none of
which goes past `cap`: it may be capped at every step or once at the end (`capped_succ`).

`sinceReset` counts, in a history, the entries since the growth last began anew.  Two
readings of when it does count alike if they agree on every entry but the first one of the
history (`sinceReset_congr`), where growth begins either way.
-/
import Mathlib.Algebra.Order.GroupWithZero.Basic
import Mathlib.Algebra.Order.Ring.Defs
import Mathlib.Data.List.Basic

namespace IsalesTelephony.Theory

set_option autoImplicit false

universe u

/-! ## Growth -/

section Growth

variable {K : Type u} [Semiring K] [LinearOrder K] {initial factor cap : K}

def capped (initial factor cap : K) (n : Nat) : K := min (initial * factor ^ n) cap

theorem capped_zero (fits : initial ≤ cap) : capped initial factor cap 0 = initial := by
  rw [capped, pow_zero, mul_one, min_eq_left fits]

theorem capped_le_cap (n : Nat) : capped initial factor cap n ≤ cap := min_le_right _ _

variable [IsStrictOrderedRing K]

theorem initial_le_capped (start : 0 ≤ initial) (grows : 1 ≤ factor) (fits : initial ≤ cap)
    (n : Nat) : initial ≤ capped initial factor cap n :=
  le_min (le_mul_of_one_le_right start (one_le_pow₀ grows)) fits

/-- A capped value may be multiplied and capped again. -/
theorem capped_succ (start : 0 ≤ initial) (grows : 1 ≤ factor) (fits : initial ≤ cap) (n : Nat) :
    min (capped initial factor cap n * factor) cap = capped initial factor cap (n + 1) := by
  have room : cap ≤ cap * factor := le_mul_of_one_le_right (start.trans fits) grows
  calc min (capped initial factor cap n * factor) cap
      = min (min (initial * factor ^ n * factor) (cap * factor)) cap := by
        rw [capped, min_mul_of_nonneg _ _ (zero_le_one.trans grows)]
    _ = min (initial * factor ^ n * factor) cap := by rw [min_assoc, min_eq_right room]
    _ = capped initial factor cap (n + 1) := by rw [capped, pow_succ, mul_assoc]

/-- Growth has left its first value for good after one step, unless it cannot grow. -/
theorem capped_eq_initial_iff (start : 0 < initial) (grows : 1 ≤ factor) (fits : initial ≤ cap)
    (n : Nat) : capped initial factor cap n = initial ↔ n = 0 ∨ factor = 1 ∨ initial = cap := by
  constructor
  · intro same
    by_contra grown
    obtain ⟨later, factor_ne, below⟩ : n ≠ 0 ∧ factor ≠ 1 ∧ initial ≠ cap := by
      simpa [not_or] using grown
    have more : initial < initial * factor ^ n :=
      lt_mul_of_one_lt_right start (one_lt_pow₀ (lt_of_le_of_ne grows factor_ne.symm) later)
    have past : initial < capped initial factor cap n := lt_min more (lt_of_le_of_ne fits below)
    exact absurd same past.ne'
  · rintro (rfl | rfl | rfl)
    · exact capped_zero fits
    · rw [capped, one_pow, mul_one, min_eq_left fits]
    · exact le_antisymm (capped_le_cap n) (initial_le_capped start.le grows le_rfl n)

end Growth

/-! ## Histories -/

section Histories

variable {α : Type u} {p q : α → Bool}

/-- The entries that follow the last one to reset, up to `x`; with none that does, those that
follow the first one.  The earlier entries come latest first. -/
def sinceReset (resets : α → Bool) : α → List α → Nat
  | _, [] => 0
  | x, last :: earlier => if resets x then 0 else sinceReset resets last earlier + 1

theorem sinceReset_of_resets {x : α} (here : p x = true) (earlier : List α) :
    sinceReset p x earlier = 0 := by
  cases earlier with
  | nil => rfl
  | cons last earlier => exact if_pos here

theorem sinceReset_congr {x : α} {earlier : List α}
    (agree : ∀ y ∈ (x :: earlier).dropLast, p y = q y) :
    sinceReset p x earlier = sinceReset q x earlier := by
  induction earlier generalizing x with
  | nil => rfl
  | cons last earlier ih =>
      rw [List.dropLast_cons_cons] at agree
      have here : p x = q x := agree x List.mem_cons_self
      have before := ih fun y member => agree y (List.mem_cons_of_mem x member)
      simp only [sinceReset, here, before]

/-- What is not the first entry of a history has others before it. -/
theorem suffix_of_mem_dropLast {x : α} {history : List α} (member : x ∈ history.dropLast) :
    ∃ last earlier, x :: last :: earlier <:+ history := by
  induction history with
  | nil => cases member
  | cons y rest ih =>
      cases rest with
      | nil => cases member
      | cons last earlier =>
          rw [List.dropLast_cons_cons] at member
          rcases List.mem_cons.mp member with rfl | later
          · exact ⟨last, earlier, List.suffix_rfl⟩
          · obtain ⟨last', earlier', found⟩ := ih later
            exact ⟨last', earlier', found.trans (List.suffix_cons y _)⟩

theorem mem_dropLast_of_suffix {x y : α} {earlier history : List α}
    (suffix : y :: earlier <:+ history) (member : x ∈ (y :: earlier).dropLast) :
    x ∈ history.dropLast := by
  obtain ⟨later, rfl⟩ := suffix
  rw [List.dropLast_append_of_ne_nil (List.cons_ne_nil y earlier)]
  exact List.mem_append_right later member

end Histories

end IsalesTelephony.Theory
