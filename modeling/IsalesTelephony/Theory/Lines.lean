/-
# Theory.Lines -- a stream of terminated lines, read from its front

`stream sep bodies` are the bodies one after the other, each followed by the separator,
which none of them contains.  A reader has some of it buffered.  Either the buffer ends
within the first line and holds no separator, or it holds the first line whole
(`prefix_stream_cons`); in the second case the first separator is at the end of that line
(`idxOf?_line`).

`lines sep xs` are the terminated lines of any stream, by plain splitting: those of some
bodies, and then those of what follows them (`lines_stream_append`).
-/
import Mathlib.Data.List.Infix

namespace IsalesTelephony.Theory.Lines

set_option autoImplicit false

universe u

variable {α : Type u}

/-- Each body, followed by the separator. -/
def stream (sep : α) (bodies : List (List α)) : List α := (bodies.map (· ++ [sep])).flatten

@[simp] theorem stream_nil (sep : α) : stream sep [] = [] := rfl

@[simp] theorem stream_cons (sep : α) (body : List α) (bodies : List (List α)) :
    stream sep (body :: bodies) = body ++ [sep] ++ stream sep bodies := rfl

theorem stream_append (sep : α) (a b : List (List α)) :
    stream sep (a ++ b) = stream sep a ++ stream sep b := by
  simp [stream]

/-- What is buffered of a stream ends within its first line, or is that line and a first
part of the rest. -/
theorem prefix_stream_cons {sep : α} {body buffer : List α} {bodies : List (List α)}
    (buffered : buffer <+: stream sep (body :: bodies)) :
    buffer <+: body ∨ ∃ more, buffer = body ++ [sep] ++ more ∧ more <+: stream sep bodies := by
  rw [stream_cons] at buffered
  rcases List.prefix_or_prefix_of_prefix buffered (List.prefix_append _ _) with short | long
  · rcases List.prefix_concat_iff.mp short with whole | within
    · exact .inr ⟨[], by rw [whole, List.append_nil], List.nil_prefix⟩
    · exact .inl within
  · obtain ⟨more, rfl⟩ := long
    exact .inr ⟨more, rfl, (List.prefix_append_right_inj _).mp buffered⟩

variable [BEq α] [LawfulBEq α]

/-- The separator is found at the end of the first line. -/
theorem idxOf?_line {sep : α} {body : List α} (clean : sep ∉ body) (more : List α) :
    (body ++ [sep] ++ more).idxOf? sep = some body.length := by
  rw [List.append_assoc]
  induction body with
  | nil => simp [List.idxOf?_cons]
  | cons head rest ih =>
      simp only [List.mem_cons, not_or] at clean
      have other : (head == sep) = false := by simpa using Ne.symm clean.1
      rw [List.cons_append, List.idxOf?_cons, other, if_neg Bool.false_ne_true, ih clean.2]
      rfl

/-- What is before the first separator does not contain it. -/
theorem split_of_idxOf? {sep : α} {xs : List α} {i : Nat} (found : xs.idxOf? sep = some i) :
    xs = xs.take i ++ sep :: xs.drop (i + 1) ∧ sep ∉ xs.take i := by
  obtain ⟨inside, here, before⟩ := List.idxOf?_eq_some_iff.mp found
  constructor
  · rw [← here, List.cons_getElem_drop_succ, List.take_append_drop]
  · intro member
    obtain ⟨j, early, at_⟩ := List.mem_iff_getElem.mp member
    rw [List.length_take] at early
    rw [List.getElem_take] at at_
    exact before j (by omega) at_

theorem idxOf?_within {sep : α} {body buffer : List α} (clean : sep ∉ body)
    (buffered : buffer <+: body) : buffer.idxOf? sep = none :=
  List.idxOf?_eq_none_iff.mpr fun member => clean (buffered.subset member)

/-! ## Splitting -/

/-- The terminated lines of a stream, with their separators. -/
def lines (sep : α) (xs : List α) : List (List α) := (xs.splitOn sep).dropLast.map (· ++ [sep])

omit [LawfulBEq α] in
theorem ne_nil_of_mem_lines {sep : α} {xs line : List α} (member : line ∈ lines sep xs) : line ≠ [] := by
  obtain ⟨body, -, rfl⟩ := List.mem_map.mp member
  exact List.concat_ne_nil sep body

theorem lines_eq_nil {sep : α} {rest : List α} (unterminated : sep ∉ rest) : lines sep rest = [] := by
  rw [lines, List.splitOn_eq_singleton unterminated]
  rfl

theorem splitOn_stream_append {sep : α} {bodies : List (List α)}
    (clean : ∀ body ∈ bodies, sep ∉ body) (rest : List α) :
    (stream sep bodies ++ rest).splitOn sep = bodies ++ rest.splitOn sep := by
  induction bodies with
  | nil => rfl
  | cons body more ih =>
      obtain ⟨first, later⟩ := List.forall_mem_cons.mp clean
      rw [stream_cons, List.append_assoc, List.append_assoc, List.singleton_append,
        List.splitOn_append_cons_self_of_not_mem first, ih later, List.cons_append]

/-- The lines of the bodies, then those of what follows them. -/
theorem lines_stream_append {sep : α} {bodies : List (List α)}
    (clean : ∀ body ∈ bodies, sep ∉ body) (rest : List α) :
    lines sep (stream sep bodies ++ rest) = bodies.map (· ++ [sep]) ++ lines sep rest := by
  rw [lines, splitOn_stream_append clean, List.dropLast_append_of_ne_nil (List.splitOn_ne_nil _ _),
    List.map_append, lines]

end IsalesTelephony.Theory.Lines
