/-
# Transport.SqliteBuffer -- the durable edge-side event buffer

`SqliteEventBuffer` of `transport/sqlite_buffer.py`: one SQLite table with an
AUTOINCREMENT id, appended to, read in pages of 256 rows and deleted from the
front.  The table is a `SeqLog`; a row whose payload does not parse holds `none`.

Any SQL statement may fail.  `append` runs three (insert, count, eviction
delete), of which only the first is inside the source's `try`, so a failing
count leaves its row stored and the caller with an exception (`AppendFault`).
A flush alternates page reads and deletes, and the fault names the statement
that fails (`FlushFault`).

`drain_conserves`: whatever the pages and the corrupt rows, and whether or not a
page read fails, the frames handed on plus the frames still stored are the
frames that were stored, in order.  A failing delete is the exception: its frame
is handed on and stays stored.
-/
import IsalesTelephony.Theory.SeqLog

namespace IsalesTelephony.Transport

set_option autoImplicit false

open IsalesTelephony.Theory

universe u

variable {F : Type u}

/-- `SqliteEventBuffer`. -/
structure SqliteEventBuffer (F : Type u) where
  /-- `self._conn is not None` -/
  isOpen : Bool := true
  table : SeqLog (Option F) := {}
  capacity : Nat := 100000
  capacity_pos : 0 < capacity := by decide
  evictedRows : Nat := 0

/-- The exceptions the buffer raises. -/
inductive BufferError where
  /-- `SqliteEventBufferError("buffer not opened")` -/
  | notOpen
  /-- `SqliteEventBufferError("append failed")`, around the insert -/
  | appendFailed
  /-- a bare `sqlite3.Error` out of `_enforce_capacity_locked` -/
  | sqliteError
  deriving DecidableEq, Repr

/-- The statement of `append` that fails. -/
inductive AppendFault where
  | insert | count | evict
  deriving DecidableEq, Repr

namespace SqliteEventBuffer

/-- The frames of the rows that parse, oldest first. -/
def frames (table : SeqLog (Option F)) : List F := table.rows.filterMap (·.2)

/-- `append`, with `_enforce_capacity_locked`. -/
def append (b : SqliteEventBuffer F) (message : F) (fault : Option AppendFault) :
    SqliteEventBuffer F × Except BufferError Nat :=
  if ¬ b.isOpen then (b, .error .notOpen)
  else if fault = some .insert then (b, .error .appendFailed)
  else
    let table := b.table.insert (some message)
    if fault = some .count then ({ b with table := table }, .error .sqliteError)
    else if table.rows.length ≤ b.capacity then ({ b with table := table }, .ok table.last)
    else if fault = some .evict then ({ b with table := table }, .error .sqliteError)
    else
      ({ b with
          table := table.truncate b.capacity
          evictedRows := b.evictedRows + (table.rows.length - b.capacity) },
        .ok table.last)

/-- The frames a call of `append` evicts. -/
def appendEvicts (b : SqliteEventBuffer F) (message : F) (fault : Option AppendFault) : List F :=
  if b.isOpen ∧ fault ≠ some .insert ∧ fault ≠ some .count ∧ fault ≠ some .evict then
    (overflow b.capacity (b.table.insert (some message)).rows).filterMap (·.2)
  else []

/-- Whether a call of `append` leaves its row stored. -/
def appendStores (b : SqliteEventBuffer F) (fault : Option AppendFault) : Bool :=
  b.isOpen ∧ fault ≠ some .insert

/-- Stored before and appended is evicted and stored after. -/
theorem append_frames (b : SqliteEventBuffer F) (message : F) (fault : Option AppendFault) :
    b.appendEvicts message fault ++ frames (b.append message fault).1.table =
      frames b.table ++ if b.appendStores fault then [message] else [] := by
  have inserted : frames (b.table.insert (some message)) = frames b.table ++ [message] := by
    simp [frames, SeqLog.insert]
  have split : (overflow b.capacity (b.table.insert (some message)).rows).filterMap (·.2) ++
      frames ((b.table.insert (some message)).truncate b.capacity) =
        frames b.table ++ [message] := by
    rw [← inserted, frames, frames, SeqLog.truncate, ← List.filterMap_append,
      overflow_append_keepNewest]
  by_cases opened : b.isOpen = true
  · rcases fault with _ | (_ | _ | _) <;>
      by_cases fits : (b.table.insert (some message)).rows.length ≤ b.capacity <;>
      simp [appendEvicts, append, appendStores, opened, fits, inserted, split,
        overflow_of_length_le]
  · simp [appendEvicts, append, appendStores, opened]

end SqliteEventBuffer

/-! ## Flushing: pages, corrupt rows, weak acknowledgement -/

/-- The statement of a flush that fails: the n-th page read or the n-th delete. -/
inductive FlushFault where
  | select (n : Nat)
  | delete (n : Nat)
  deriving DecidableEq, Repr

namespace FlushFault

def afterSelect : FlushFault → FlushFault
  | .select (n + 1) => .select n
  | fault => fault

def afterDelete : FlushFault → FlushFault
  | .delete (n + 1) => .delete n
  | fault => fault

/-- The flush fails at a delete, if it fails. -/
def AtDelete : FlushFault → Prop
  | .delete _ => True
  | .select _ => False

instance (fault : FlushFault) : Decidable fault.AtDelete := by
  cases fault <;> unfold AtDelete <;> infer_instance

theorem atDelete_afterSelect {fault : FlushFault} (at_ : ¬ fault.AtDelete) :
    ¬ fault.afterSelect.AtDelete := by
  cases fault with
  | select n => cases n <;> exact fun h => h
  | delete n => exact absurd trivial at_

theorem atDelete_afterDelete {fault : FlushFault} (at_ : ¬ fault.AtDelete) :
    ¬ fault.afterDelete.AtDelete := by
  cases fault with
  | select n => exact fun h => h
  | delete n => exact absurd trivial at_

end FlushFault

namespace SqliteEventBuffer

def pageSize : Nat := 256

/-- What a flush leaves: the table, the frames put on the outbound queue, and
whether it ran to its end. -/
structure Drained (F : Type u) where
  table : SeqLog (Option F)
  put : List F
  done : Bool

/-- `for seq, msg in iter_pending(): await outbound.put(msg); delete_through(seq)`.
`cursor` is `last_yielded` and `page` the rows of the current page not yet
yielded.  The fuel counts page reads and rows; `drain` gives enough of it. -/
def drainRows : Nat → Option FlushFault → SeqLog (Option F) → Int → List (Nat × Option F) →
    List F → Drained F
  | 0, _, table, _, _, put => ⟨table, put, true⟩
  | fuel + 1, fault, table, cursor, [], put =>
      if fault = some (.select 0) then ⟨table, put, false⟩
      else
        match (table.ahead cursor).take pageSize with
        | [] => ⟨table, put, true⟩
        | row :: page => drainRows fuel (fault.map .afterSelect) table cursor (row :: page) put
  | fuel + 1, fault, table, _, (seq, none) :: page, put =>
      -- a row that does not parse is logged and skipped
      drainRows fuel fault table seq page put
  | fuel + 1, fault, table, _, (seq, some message) :: page, put =>
      if fault = some (.delete 0) then ⟨table, put ++ [message], false⟩
      else
        drainRows fuel (fault.map .afterDelete) (table.deleteThrough seq) seq page
          (put ++ [message])

/-- A flush of the whole table, from `last_yielded = -1`. -/
def drain (fault : Option FlushFault) (table : SeqLog (Option F)) : Drained F :=
  drainRows (2 * table.rows.length + 2) fault table (-1) [] []

/-- The rows behind the cursor that are still stored do not parse. -/
def BehindCorrupt (table : SeqLog (Option F)) (cursor : Int) : Prop :=
  ∀ row ∈ table.rows, (row.1 : Int) ≤ cursor → row.2 = none

theorem frames_eq_ahead {table : SeqLog (Option F)} {cursor : Int}
    (behind : BehindCorrupt table cursor) :
    frames table = (table.ahead cursor).filterMap (·.2) := by
  unfold frames SeqLog.ahead
  rw [List.filterMap_filter]
  refine List.filterMap_congr fun row member => ?_
  by_cases passed : cursor < (row.1 : Int)
  · simp [passed]
  · simp [passed, behind row member (by omega)]

theorem behindCorrupt_deleteThrough (table : SeqLog (Option F)) (seq : Nat) :
    BehindCorrupt (table.deleteThrough seq) seq := by
  intro row member le
  have beyond : seq < row.1 := by simpa using (List.mem_filter.mp member).2
  omega

theorem ahead_deleteThrough (table : SeqLog (Option F)) (seq : Nat) :
    (table.deleteThrough seq).ahead seq = table.ahead seq := by
  simp only [SeqLog.ahead, SeqLog.deleteThrough, List.filter_filter]
  exact List.filter_congr fun row _ => by simp

theorem drainRows_conserves (fuel : Nat) (fault : Option FlushFault)
    (table : SeqLog (Option F)) (cursor : Int) (page : List (Nat × Option F)) (put : List F)
    (healthy : ∀ f, fault = some f → ¬ f.AtDelete) (behind : BehindCorrupt table cursor)
    (prefix_ : page <+: table.ahead cursor) :
    (drainRows fuel fault table cursor page put).put ++
        frames (drainRows fuel fault table cursor page put).table = put ++ frames table := by
  induction fuel generalizing fault table cursor page put with
  | zero => rfl
  | succ fuel ih =>
      match page with
      | [] =>
          simp only [drainRows]
          split
          · rfl
          · split
            · rfl
            · rename_i row rows read
              refine ih _ _ _ _ _ (fun f some_ => ?_) behind ?_
              · obtain ⟨g, isG, rfl⟩ := Option.map_eq_some_iff.mp some_
                exact FlushFault.atDelete_afterSelect (healthy g isG)
              · rw [← read]; exact List.take_prefix _ _
      | (seq, none) :: page =>
          simp only [drainRows]
          obtain ⟨more, split⟩ := prefix_
          obtain ⟨ahead, passed⟩ := SeqLog.ahead_advance (split.symm.trans (List.cons_append ..))
          refine ih _ _ _ _ _ healthy (fun row member le => ?_) ⟨more, ahead.symm⟩
          rcases passed row member (by exact_mod_cast le) with before | rfl
          · exact behind row member before
          · rfl
      | (seq, some message) :: page =>
          simp only [drainRows]
          obtain ⟨more, split⟩ := prefix_
          have first := split.symm.trans (List.cons_append ..)
          obtain ⟨ahead, -⟩ := SeqLog.ahead_advance first
          split
          · rename_i hit
            exact absurd trivial (healthy _ hit)
          · have stored : frames table = message :: frames (table.deleteThrough seq) := by
              rw [frames_eq_ahead behind, first, frames, SeqLog.deleteThrough_rows, ahead]
              rfl
            rw [ih _ _ _ _ _ (fun f some_ => ?_) (behindCorrupt_deleteThrough table seq)
              ⟨more, by rw [ahead_deleteThrough, ahead]⟩, stored]
            · simp
            · obtain ⟨g, isG, rfl⟩ := Option.map_eq_some_iff.mp some_
              exact FlushFault.atDelete_afterDelete (healthy g isG)

/-- **Conservation.**  Without a failing delete, a flush hands on what it takes
out of the table, in order. -/
theorem drain_conserves (fault : Option FlushFault) (table : SeqLog (Option F))
    (healthy : ∀ f, fault = some f → ¬ f.AtDelete) :
    (drain fault table).put ++ frames (drain fault table).table = frames table := by
  have behind : BehindCorrupt table (-1) := fun row _ le => by omega
  simpa [drain] using
    drainRows_conserves (2 * table.rows.length + 2) fault table (-1) [] [] healthy behind
      (List.nil_prefix)

theorem drainRows_mem (fuel : Nat) (fault : Option FlushFault) (table : SeqLog (Option F))
    (cursor : Int) (page : List (Nat × Option F)) (put : List F)
    (behind : BehindCorrupt table cursor) (prefix_ : page <+: table.ahead cursor) (m : F) :
    (m ∈ (drainRows fuel fault table cursor page put).put ∨
        m ∈ frames (drainRows fuel fault table cursor page put).table) ↔
      m ∈ put ∨ m ∈ frames table := by
  induction fuel generalizing fault table cursor page put with
  | zero => rfl
  | succ fuel ih =>
      match page with
      | [] =>
          simp only [drainRows]
          split
          · rfl
          · split
            · rfl
            · rename_i row rows read
              exact ih _ _ _ _ _ behind (by rw [← read]; exact List.take_prefix _ _)
      | (seq, none) :: page =>
          simp only [drainRows]
          obtain ⟨more, split⟩ := prefix_
          obtain ⟨ahead, passed⟩ := SeqLog.ahead_advance (split.symm.trans (List.cons_append ..))
          refine ih _ _ _ _ _ (fun row member le => ?_) ⟨more, ahead.symm⟩
          rcases passed row member (by exact_mod_cast le) with before | rfl
          · exact behind row member before
          · rfl
      | (seq, some message) :: page =>
          simp only [drainRows]
          obtain ⟨more, split⟩ := prefix_
          have first := split.symm.trans (List.cons_append ..)
          obtain ⟨ahead, -⟩ := SeqLog.ahead_advance first
          have stored : frames table = message :: frames (table.deleteThrough seq) := by
            rw [frames_eq_ahead behind, first, frames, SeqLog.deleteThrough_rows, ahead]
            rfl
          split
          · rw [List.mem_append, List.mem_singleton, stored, List.mem_cons]
            tauto
          · rw [ih _ _ _ _ _ (behindCorrupt_deleteThrough table seq)
              ⟨more, by rw [ahead_deleteThrough, ahead]⟩, stored, List.mem_append,
              List.mem_singleton, List.mem_cons]
            tauto

/-- Whatever fails, a flush puts what was stored, and what it does not put stays
stored. -/
theorem drain_mem (fault : Option FlushFault) (table : SeqLog (Option F)) (m : F) :
    (m ∈ (drain fault table).put ∨ m ∈ frames (drain fault table).table) ↔ m ∈ frames table := by
  have behind : BehindCorrupt table (-1) := fun row _ le => by omega
  simpa [drain] using
    drainRows_mem (2 * table.rows.length + 2) fault table (-1) [] [] behind List.nil_prefix m

/-- Enough fuel empties the table: each page read brings a row the page did not
have, so reads and rows together are at most twice the rows ahead. -/
theorem drainRows_empties (fuel : Nat) (table : SeqLog (Option F)) (cursor : Int)
    (page : List (Nat × Option F)) (put : List F) (behind : BehindCorrupt table cursor)
    (prefix_ : page <+: table.ahead cursor)
    (enough : 2 * (table.ahead cursor).length + 1 ≤ fuel + page.length) :
    (drainRows fuel none table cursor page put).done = true ∧
      frames (drainRows fuel none table cursor page put).table = [] := by
  induction fuel generalizing table cursor page put with
  | zero =>
      have := prefix_.length_le
      omega
  | succ fuel ih =>
      match page with
      | [] =>
          simp only [drainRows, reduceCtorEq, if_false]
          split
          · rename_i none_
            have empty : table.ahead cursor = [] := by
              rcases List.take_eq_nil_iff.mp none_ with absurd_ | empty
              · exact absurd absurd_ (by decide)
              · exact empty
            exact ⟨rfl, by rw [frames_eq_ahead behind, empty]; rfl⟩
          · rename_i row rows read
            refine ih _ _ _ _ behind (by rw [← read]; exact List.take_prefix _ _) ?_
            simp only [List.length_nil, List.length_cons] at enough ⊢
            omega
      | (seq, none) :: page =>
          simp only [drainRows]
          obtain ⟨more, split⟩ := prefix_
          have first := split.symm.trans (List.cons_append ..)
          obtain ⟨ahead, passed⟩ := SeqLog.ahead_advance first
          refine ih _ _ _ _ (fun row member le => ?_) ⟨more, ahead.symm⟩ ?_
          · rcases passed row member (by exact_mod_cast le) with before | rfl
            · exact behind row member before
            · rfl
          · rw [first] at enough
            rw [ahead]
            simp only [List.length_cons] at enough
            omega
      | (seq, some message) :: page =>
          simp only [drainRows, reduceCtorEq, if_false, Option.map_none]
          obtain ⟨more, split⟩ := prefix_
          have first := split.symm.trans (List.cons_append ..)
          obtain ⟨ahead, -⟩ := SeqLog.ahead_advance first
          refine ih _ _ _ _ (behindCorrupt_deleteThrough table seq)
            ⟨more, by rw [ahead_deleteThrough, ahead]⟩ ?_
          rw [first] at enough
          rw [ahead_deleteThrough, ahead]
          simp only [List.length_cons] at enough
          omega

/-- Without a storage error a flush runs to its end and leaves no frame stored. -/
theorem drain_empties (table : SeqLog (Option F)) :
    (drain none table).done = true ∧ frames (drain none table).table = [] := by
  refine drainRows_empties _ table (-1) [] [] (fun row _ le => by omega) List.nil_prefix ?_
  have : (table.ahead (-1)).length ≤ table.rows.length := List.length_filter_le _ _
  simp only [List.length_nil]
  omega

end SqliteEventBuffer

end IsalesTelephony.Transport
