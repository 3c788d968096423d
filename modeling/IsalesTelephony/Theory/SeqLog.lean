/-
# Theory.SeqLog -- a log with ever-increasing row ids, and drop-oldest bounds

`SeqLog α` is a table whose ids are assigned by a counter that never goes back:
the rows are in strictly increasing id order and no id exceeds the counter, and
both facts are fields, so a log with reused or unordered ids cannot be built.
Reading goes through a cursor: `ahead n` are the rows past `n`, and when the
first of them is passed the rest is what is ahead of it (`ahead_advance`).

`keepNewest n` is the drop-oldest bound on a list and `overflow n` what it
drops; together they are the list (`overflow_append_keepNewest`).
-/
import Mathlib.Data.List.Basic
import Mathlib.Data.List.Pairwise
import Mathlib.Order.Basic

namespace IsalesTelephony.Theory

set_option autoImplicit false

universe u

variable {α : Type u}

/-! ## Drop-oldest -/

/-- The newest `limit` items. -/
def keepNewest (limit : Nat) (items : List α) : List α := items.drop (items.length - limit)

/-- The oldest items, those past the limit. -/
def overflow (limit : Nat) (items : List α) : List α := items.take (items.length - limit)

theorem overflow_append_keepNewest (limit : Nat) (items : List α) :
    overflow limit items ++ keepNewest limit items = items :=
  List.take_append_drop _ _

theorem overflow_of_length_le {limit : Nat} {items : List α} (fits : items.length ≤ limit) :
    overflow limit items = [] := by
  simp [overflow, Nat.sub_eq_zero_of_le fits]

/-! ## The log -/

/-- Rows in increasing id order, none past the id counter. -/
structure SeqLog (α : Type u) where
  rows : List (Nat × α) := []
  last : Nat := 0
  ascending : rows.Pairwise fun a b => a.1 < b.1 := by exact List.Pairwise.nil
  bounded : ∀ row ∈ rows, row.1 ≤ last := by exact List.forall_mem_nil _
  deriving DecidableEq, Repr

namespace SeqLog

/-- Insert a row; it gets the next id. -/
def insert (log : SeqLog α) (value : α) : SeqLog α where
  rows := log.rows ++ [(log.last + 1, value)]
  last := log.last + 1
  ascending := by
    refine List.pairwise_append.mpr ⟨log.ascending, by simp, ?_⟩
    intro row member new isNew
    obtain rfl := List.mem_singleton.mp isNew
    exact Nat.lt_succ_of_le (log.bounded row member)
  bounded := by
    intro row member
    rcases List.mem_append.mp member with old | new
    · exact Nat.le_succ_of_le (log.bounded row old)
    · obtain rfl := List.mem_singleton.mp new
      exact Nat.le_refl _

/-- Delete the rows whose id is at most `seq`; the id counter stays. -/
def deleteThrough (log : SeqLog α) (seq : Nat) : SeqLog α where
  rows := log.rows.filter fun row => seq < row.1
  last := log.last
  ascending := log.ascending.filter _
  bounded := fun row member => log.bounded row (List.mem_filter.mp member).1

/-- Delete the oldest rows until `limit` are left. -/
def truncate (log : SeqLog α) (limit : Nat) : SeqLog α where
  rows := keepNewest limit log.rows
  last := log.last
  ascending := log.ascending.sublist (List.drop_sublist _ _)
  bounded := fun row member => log.bounded row (List.mem_of_mem_drop member)

/-- Delete every row; the id counter stays. -/
def clear (log : SeqLog α) : SeqLog α where
  last := log.last

/-- The rows a cursor at `cursor` has not passed. -/
def ahead (log : SeqLog α) (cursor : Int) : List (Nat × α) :=
  log.rows.filter fun row => cursor < (row.1 : Int)

/-- Passing the first row ahead leaves the others ahead; nothing else is passed. -/
theorem ahead_advance {log : SeqLog α} {cursor : Int} {seq : Nat} {value : α}
    {rest : List (Nat × α)} (first : log.ahead cursor = (seq, value) :: rest) :
    log.ahead seq = rest ∧
      ∀ row ∈ log.rows, row.1 ≤ seq → (row.1 : Int) ≤ cursor ∨ row = (seq, value) := by
  have sorted : (log.ahead cursor).Pairwise fun a b => a.1 < b.1 := log.ascending.filter _
  rw [first] at sorted
  have later := (List.pairwise_cons.mp sorted).1
  have passed : cursor < (seq : Int) := by
    have member : (seq, value) ∈ log.ahead cursor := by rw [first]; exact List.mem_cons_self
    simpa using (List.mem_filter.mp member).2
  constructor
  · have twice : log.ahead seq = (log.ahead cursor).filter fun row => seq < row.1 := by
      simp only [ahead, List.filter_filter]
      refine List.filter_congr fun row _ => ?_
      by_cases h : seq < row.1
      · have : cursor < (row.1 : Int) := by omega
        simp [h, this]
      · simp [h]
    rw [twice, first, List.filter_cons_of_neg (by simp)]
    exact List.filter_eq_self.mpr fun row member => by simpa using later row member
  · intro row member le
    by_cases behind : (row.1 : Int) ≤ cursor
    · exact Or.inl behind
    · have inAhead : row ∈ log.ahead cursor := List.mem_filter.mpr ⟨member, by simp; omega⟩
      rw [first] at inAhead
      rcases List.mem_cons.mp inAhead with same | inRest
      · exact Or.inr same
      · exact absurd (later row inRest) (by simp; omega)

theorem filter_suffix_of_ascending : ∀ {rows : List (Nat × α)} (seq : Nat),
    rows.Pairwise (fun a b => a.1 < b.1) → (rows.filter fun row => seq < row.1) <:+ rows
  | [], _, _ => List.suffix_refl _
  | row :: rest, seq, ascending => by
      obtain ⟨later, sorted⟩ := List.pairwise_cons.mp ascending
      by_cases kept : seq < row.1
      · -- what follows has larger ids, so nothing is deleted
        have all : (row :: rest).filter (fun row => seq < row.1) = row :: rest := by
          refine List.filter_eq_self.mpr fun other member => ?_
          rcases List.mem_cons.mp member with rfl | listed
          · exact decide_eq_true kept
          · exact decide_eq_true (Nat.lt_trans kept (later other listed))
        exact ⟨[], all⟩
      · rw [List.filter_cons_of_neg (by simpa using kept)]
        exact (filter_suffix_of_ascending seq sorted).trans (List.suffix_cons _ _)

/-- A deletion by id leaves the newest rows. -/
theorem deleteThrough_suffix (log : SeqLog α) (seq : Nat) :
    (log.deleteThrough seq).rows <:+ log.rows :=
  filter_suffix_of_ascending seq log.ascending

theorem deleteThrough_rows (log : SeqLog α) (seq : Nat) :
    (log.deleteThrough seq).rows = log.ahead seq := by
  simp [deleteThrough, ahead]

end SeqLog

end IsalesTelephony.Theory
