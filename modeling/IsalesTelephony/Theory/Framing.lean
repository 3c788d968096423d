/-
# Theory.Framing -- a stream written in frames of one size

A writer of frames of `n` items keeps back what is too short for one.  What it has written
is then the longest front of the stream that is whole frames (`inFrames_of_append`).  A
writer that fills up the last frame needs as many as cover the stream (`slices_after`).
-/
import Mathlib.Data.List.Infix

namespace IsalesTelephony.Theory

set_option autoImplicit false

universe u

variable {α : Type u} {n : Nat}

/-- The longest front of `xs` whose length is a multiple of `n`. -/
structure InFrames (n : Nat) (front xs : List α) : Prop where
  ofStream : front <+: xs
  whole : n ∣ front.length
  longest : ∀ other, other <+: xs → n ∣ other.length → other.length ≤ front.length

/-- What is kept back is shorter than a frame. -/
theorem inFrames_of_append {front rest xs : List α} (split : front ++ rest = xs)
    (whole : n ∣ front.length) (short : rest.length < n) : InFrames n front xs := by
  refine ⟨⟨rest, split⟩, whole, fun other within wholeOther => ?_⟩
  have bound : other.length ≤ front.length + rest.length := by
    rw [← List.length_append, split]
    exact within.length_le
  obtain ⟨i, length⟩ := whole
  obtain ⟨j, lengthOther⟩ := wholeOther
  rw [length, lengthOther] at bound ⊢
  -- `n * j < n * (i + 1)`, so `j ≤ i`
  have close : n * j < n * (i + 1) := by
    rw [Nat.mul_add, Nat.mul_one]
    omega
  exact Nat.mul_le_mul_left n (Nat.lt_succ_iff.mp (Nat.lt_of_mul_lt_mul_left close))

/-- Frames one after the other. -/
theorem length_flatten_frames {frames : List (List α)} (whole : ∀ f ∈ frames, f.length = n) :
    frames.flatten.length = n * frames.length := by
  induction frames with
  | nil => simp
  | cons f rest ih =>
      obtain ⟨first, later⟩ := List.forall_mem_cons.mp whole
      rw [List.flatten_cons, List.length_append, first, ih later, List.length_cons,
        Nat.mul_add, Nat.mul_one, Nat.add_comm]

/-- Of the slices that cover `size` items, those after the first cover the rest. -/
theorem slices_after {size count : Nat} (pos : 0 < n)
    (slices : count + 1 = (size + n - 1) / n) :
    0 < size ∧ count = (size - n + n - 1) / n := by
  have some_ : 0 < size := by
    by_contra none_
    have zero : (size + n - 1) / n = 0 := Nat.div_eq_of_lt (by omega)
    omega
  have split := Nat.div_eq_sub_div (a := size + n - 1) pos (by omega)
  by_cases full : n ≤ size
  · have same : size + n - 1 - n = size - n + n - 1 := by omega
    rw [same] at split
    omega
  · have last : (size + n - 1 - n) / n = 0 := Nat.div_eq_of_lt (by omega)
    have none_after : (size - n + n - 1) / n = 0 := Nat.div_eq_of_lt (by omega)
    omega

end IsalesTelephony.Theory
