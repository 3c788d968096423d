/-
# Transport.AtomicAppend -- an append stores its row or leaves the rows alone

`append` commits its insert before it enforces the capacity, and only the insert is inside
its `try`.  So a count or an eviction that fails leaves the new row stored, and the caller
with a bare `sqlite3.Error` (`append_all_or_nothing_iff`).
-/
import IsalesTelephony.Transport.BufferHistory

namespace IsalesTelephony.Transport

set_option autoImplicit false

open IsalesTelephony.Theory

universe u

variable {F : Type u}

/-- The exception is a `SqliteEventBufferError`. -/
def BufferError.IsBufferError : BufferError → Prop
  | .notOpen => True
  | .appendFailed => True
  | .sqliteError => False

instance (error : BufferError) : Decidable error.IsBufferError := by
  cases error <;> unfold BufferError.IsBufferError <;> infer_instance

namespace SqliteEventBuffer

variable {b : SqliteEventBuffer F} {message : F} {fault : Option AppendFault}

/-- `append` returned the seq of a new row that is stored, or raised a
`SqliteEventBufferError` and left the pending rows as they were. -/
def AllOrNothing (b : SqliteEventBuffer F) (message : F) :
    SqliteEventBuffer F × Except BufferError Nat → Prop
  | (after, .ok seq) => b.table.last < seq ∧ (seq, some message) ∈ after.table.rows
  | (after, .error error) => error.IsBufferError ∧ after.table.rows = b.table.rows

/-- A statement that runs after the insert fails; the eviction runs if the buffer was full. -/
def FailsLate (b : SqliteEventBuffer F) (fault : Option AppendFault) : Prop :=
  b.isOpen = true ∧
    (fault = some .count ∨ fault = some .evict ∧ b.capacity ≤ b.table.rows.length)

/-- A row that was inserted is among the newest. -/
theorem inserted_kept (b : SqliteEventBuffer F) (message : F) :
    (b.table.last + 1, some message) ∈ keepNewest b.capacity (b.table.insert (some message)).rows := by
  have rows : (b.table.insert (some message)).rows =
      b.table.rows ++ [(b.table.last + 1, some message)] := rfl
  have pos := b.capacity_pos
  rw [rows, keepNewest, List.length_append, List.length_singleton,
    List.drop_append_of_le_length (by omega)]
  exact List.mem_append_right _ (List.mem_singleton_self _)

/-- Without a late failure. -/
theorem append_all_or_nothing (early : ¬ b.FailsLate fault) :
    AllOrNothing b message (b.append message fault) := by
  by_cases opened : b.isOpen = true
  · obtain ⟨counts, evicts⟩ := not_or.mp (not_and.mp early opened)
    unfold append
    rw [if_neg (not_not.mpr opened)]
    split
    · exact ⟨trivial, rfl⟩
    · dsimp only
      split
      · refine ⟨Nat.lt_succ_self _, ?_⟩
        exact List.mem_append_right _ (List.mem_singleton_self _)
      · rename_i full
        have full : b.capacity ≤ b.table.rows.length := by
          rw [SeqLog.insert, List.length_append, List.length_singleton] at full
          omega
        rw [if_neg fun evict => evicts ⟨evict, full⟩]
        exact ⟨Nat.lt_succ_self _, b.inserted_kept message⟩
  · unfold append
    rw [if_pos opened]
    exact ⟨trivial, rfl⟩

/-- With one the row stays, and what is raised is not the buffer's own error. -/
theorem append_fails_late (late : b.FailsLate fault) :
    b.append message fault =
      ({ b with table := b.table.insert (some message) }, .error .sqliteError) := by
  obtain ⟨opened, count | ⟨evict, full⟩⟩ := late
  · unfold append
    rw [if_neg (not_not.mpr opened), count, if_neg (by simp)]
    dsimp only
    rw [if_pos rfl]
  · have tooMany : ¬ (b.table.insert (some message)).rows.length ≤ b.capacity := by
      rw [SeqLog.insert, List.length_append, List.length_singleton]
      omega
    unfold append
    rw [if_neg (not_not.mpr opened), evict, if_neg (by simp)]
    dsimp only
    rw [if_neg (by simp), if_neg tooMany, if_pos rfl]

/-- **When an append is all or nothing.**  Whichever statement fails, an append stores its
row and returns its seq, or raises the buffer's error and leaves the rows as they were, if
and only if the statement that fails is not one that runs after the insert. -/
theorem append_all_or_nothing_iff (b : SqliteEventBuffer F) (message : F)
    (fault : Option AppendFault) :
    AllOrNothing b message (b.append message fault) ↔ ¬ b.FailsLate fault := by
  refine ⟨fun atomic late => ?_, append_all_or_nothing⟩
  rw [append_fails_late late] at atomic
  exact atomic.1

/-! ## Poles -/

/-- **A row that its caller is told was not stored.**  The count fails. -/
theorem failed_count_keeps_row :
    ¬ ∀ (b : SqliteEventBuffer String) (message : String) (fault : Option AppendFault),
      AllOrNothing b message (b.append message fault) := by
  intro claim
  have atomic := claim {} "hangup" (some .count)
  rw [append_fails_late ⟨rfl, .inl rfl⟩] at atomic
  exact atomic.1

end SqliteEventBuffer

end IsalesTelephony.Transport
