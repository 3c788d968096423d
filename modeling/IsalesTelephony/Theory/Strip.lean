/-
# Theory.Strip -- a list without the blanks around it

`strip blank xs` leaves out what is blank at either end of `xs`.  It does not see blanks that
are put around a list (`strip_pad`), and taking them away twice is taking them away once
(`strip_strip`).  `isSpace` are the blanks of Python's `str.strip()`.
-/
import Mathlib.Data.List.DropRight

namespace IsalesTelephony.Theory.Strip

set_option autoImplicit false

universe u

variable {α : Type u} {blank : α → Bool} {xs pre post : List α} {x : α}

/-- `xs` without the blanks at its ends. -/
def strip (blank : α → Bool) (xs : List α) : List α := (xs.dropWhile blank).rdropWhile blank

@[simp] theorem strip_nil : strip blank [] = [] := rfl

theorem strip_sublist (blank : α → Bool) (xs : List α) : (strip blank xs).Sublist xs :=
  (List.rdropWhile_prefix blank _).sublist.trans (List.dropWhile_suffix blank).sublist

theorem mem_of_mem_strip (member : x ∈ strip blank xs) : x ∈ xs := (strip_sublist blank xs).mem member

/-- A list without blanks has none around it. -/
theorem strip_eq_self (solid : ∀ x ∈ xs, blank x = false) : strip blank xs = xs := by
  have front : xs.dropWhile blank = xs := by
    cases xs with
    | nil => rfl
    | cons head rest => exact List.dropWhile_cons_of_neg (by simp [solid head List.mem_cons_self])
  rw [strip, front, List.rdropWhile_eq_self_iff]
  intro some_
  simp [solid _ (List.getLast_mem some_)]

theorem rdropWhile_append_blank (blanks : ∀ x ∈ post, blank x = true) :
    (xs ++ post).rdropWhile blank = xs.rdropWhile blank := by
  rw [List.rdropWhile, List.reverse_append,
    List.dropWhile_append_of_pos fun x member => blanks x (List.mem_reverse.mp member)]
  rfl

/-- Blanks around a list are not seen. -/
theorem strip_pad (before : ∀ x ∈ pre, blank x = true) (after : ∀ x ∈ post, blank x = true) :
    strip blank (pre ++ xs ++ post) = strip blank xs := by
  rw [strip, List.append_assoc, List.dropWhile_append_of_pos before, List.dropWhile_append]
  split
  · rename_i all
    rw [strip, List.isEmpty_iff.mp all, List.dropWhile_eq_nil_iff.mpr after]
  · exact rdropWhile_append_blank after

theorem strip_rdropWhile (blank : α → Bool) (xs : List α) :
    strip blank (xs.rdropWhile blank) = strip blank xs := by
  have split : xs.rdropWhile blank ++ xs.rtakeWhile blank = xs := List.rdropWhile_append_rtakeWhile
  have padded : strip blank ([] ++ xs.rdropWhile blank ++ xs.rtakeWhile blank) =
      strip blank (xs.rdropWhile blank) :=
    strip_pad (List.forall_mem_nil _) fun _ member => List.mem_rtakeWhile_imp member
  rw [List.nil_append, split] at padded
  exact padded.symm

theorem strip_strip (blank : α → Bool) (xs : List α) :
    strip blank (strip blank xs) = strip blank xs := by
  show strip blank ((xs.dropWhile blank).rdropWhile blank) = _
  rw [strip_rdropWhile, strip, List.dropWhile_idempotent]
  rfl

/-- A stripped list does not start with a blank. -/
theorem dropWhile_of_strip (stripped : strip blank xs = xs) : xs.dropWhile blank = xs := by
  refine (List.dropWhile_suffix blank).eq_of_length_le ?_
  calc xs.length = (strip blank xs).length := by rw [stripped]
    _ ≤ (xs.dropWhile blank).length := (List.rdropWhile_prefix blank _).length_le

/-- Nor does what it starts with. -/
theorem dropWhile_of_prefix (front : xs.dropWhile blank = xs) (starts : pre <+: xs) :
    pre.dropWhile blank = pre := by
  cases pre with
  | nil => rfl
  | cons head rest =>
      obtain ⟨more, rfl⟩ := starts
      have solid : ¬blank head = true := by
        intro isBlank
        rw [List.cons_append, List.dropWhile_cons_of_pos isBlank] at front
        have shorter := (List.dropWhile_suffix blank (l := rest ++ more)).length_le
        rw [front, List.length_cons] at shorter
        omega
      exact List.dropWhile_cons_of_neg solid

/-- What a stripped list starts with is only stripped at the end. -/
theorem strip_prefix (stripped : strip blank xs = xs) (starts : pre <+: xs) :
    strip blank pre <+: xs := by
  rw [strip, dropWhile_of_prefix (dropWhile_of_strip stripped) starts]
  exact (List.rdropWhile_prefix blank pre).trans starts

theorem dropWhile_append_cons (solid : blank x = false) :
    (pre ++ x :: post).dropWhile blank = pre.dropWhile blank ++ x :: post := by
  rw [List.dropWhile_append]
  split
  · rename_i all
    rw [List.isEmpty_iff.mp all, List.nil_append, List.dropWhile_cons_of_neg (by simp [solid])]
  · rfl

theorem rdropWhile_append_cons (solid : blank x = false) :
    (pre ++ x :: post).rdropWhile blank = pre ++ x :: post.rdropWhile blank := by
  simp [List.rdropWhile, dropWhile_append_cons solid]

/-- Behind a stripped list and a solid element only the end is stripped. -/
theorem strip_append_cons (stripped : strip blank pre = pre) (solid : blank x = false) :
    strip blank (pre ++ x :: post) = pre ++ x :: post.rdropWhile blank := by
  rw [strip, dropWhile_append_cons solid, dropWhile_of_strip stripped, rdropWhile_append_cons solid]

/-- A stripped list stays stripped behind a solid element. -/
theorem strip_cons_append (solid : blank x = false) (stripped : strip blank xs = xs) (some_ : xs ≠ []) :
    strip blank (x :: pre ++ xs) = x :: pre ++ xs := by
  have back : xs.rdropWhile blank = xs := by
    rwa [strip, dropWhile_of_strip stripped] at stripped
  have whole : (pre ++ xs).rdropWhile blank = pre ++ xs := by
    rw [List.rdropWhile_eq_self_iff] at back ⊢
    intro nonempty
    rw [List.getLast_append_of_ne_nil nonempty some_]
    exact back some_
  have front : strip blank ([] ++ x :: (pre ++ xs)) = [] ++ x :: (pre ++ xs).rdropWhile blank :=
    strip_append_cons rfl solid
  rw [whole] at front
  exact front

/-! ## Python -/

/-- The characters that `str.strip()` removes. -/
def spaces : List Nat :=
  [0x9, 0xa, 0xb, 0xc, 0xd, 0x1c, 0x1d, 0x1e, 0x1f, 0x20, 0x85, 0xa0, 0x1680, 0x2000, 0x2001,
    0x2002, 0x2003, 0x2004, 0x2005, 0x2006, 0x2007, 0x2008, 0x2009, 0x200a, 0x2028, 0x2029,
    0x202f, 0x205f, 0x3000]

def isSpace (c : Char) : Bool := spaces.contains c.toNat

end IsalesTelephony.Theory.Strip
