/-
# Transport.BufferHistory -- the buffer file over its whole life

One SQLite file and the `SqliteEventBuffer` instances that were made over it, in any number
and each with a capacity of its own.  An instance is opened and closed any number of times;
no statement fails.

`history` is every append that returned, with the seq it returned, and `evicted` what an
instance's own appends have evicted.  Acknowledgements, evictions and a clear all delete
from the front, so the rows are the newest part of the history (`DropOldest`), whatever the
instances did in between.
-/
import IsalesTelephony.Transport.SqliteBuffer
import IsalesTelephony.Theory.Transition

namespace IsalesTelephony.Transport

set_option autoImplicit false

open IsalesTelephony.Theory
open IsalesTelephony.Theory.Transition

universe u

variable {F : Type u}

namespace SqliteEventBuffer

/-! ## Deletions -/

/-- `delete_through`, which returns how many rows it deleted.  Ids are positive, so a
negative `seq` deletes none, as 0 does. -/
def deleteThrough (b : SqliteEventBuffer F) (seq : Int) :
    SqliteEventBuffer F × Except BufferError Nat :=
  if ¬ b.isOpen then (b, .error .notOpen)
  else
    let table := b.table.deleteThrough seq.toNat
    ({ b with table := table }, .ok (b.table.rows.length - table.rows.length))

/-- `clear`. -/
def clear (b : SqliteEventBuffer F) : SqliteEventBuffer F × Except BufferError Nat :=
  if ¬ b.isOpen then (b, .error .notOpen)
  else ({ b with table := b.table.clear }, .ok b.table.rows.length)

/-- The rows that an append of `message` evicts. -/
def evicts (b : SqliteEventBuffer F) (message : F) : List (Nat × Option F) :=
  overflow b.capacity (b.table.insert (some message)).rows

/-- An append without a storage error. -/
theorem append_ok (b : SqliteEventBuffer F) (message : F) (opened : b.isOpen = true) :
    (b.append message none).2 = .ok (b.table.last + 1) ∧
      (b.append message none).1.table.last = b.table.last + 1 ∧
      (b.append message none).1.table.rows =
        keepNewest b.capacity (b.table.insert (some message)).rows ∧
      (b.append message none).1.evictedRows = b.evictedRows + (b.evicts message).length := by
  unfold append
  rw [if_neg (not_not.mpr opened), if_neg nofun]
  dsimp only
  rw [if_neg nofun]
  by_cases fits : (b.table.insert (some message)).rows.length ≤ b.capacity
  · rw [if_pos fits, evicts, overflow_of_length_le fits, keepNewest, Nat.sub_eq_zero_of_le fits,
      List.drop_zero]
    exact ⟨rfl, rfl, rfl, rfl⟩
  · rw [if_neg fits, if_neg nofun]
    refine ⟨rfl, rfl, rfl, ?_⟩
    rw [evicts, overflow, List.length_take, Nat.min_eq_left (Nat.sub_le _ _)]

end SqliteEventBuffer

/-! ## The file and its instances -/

/-- An instance; what it sees of the file is the file's. -/
structure BufferInstance (F : Type u) where
  capacity : Nat
  capacity_pos : 0 < capacity
  isOpen : Bool := false
  evictedRows : Nat := 0
  /-- history: the rows its capacity enforcement has removed -/
  evicted : List (Nat × Option F) := []

structure BufferFile (F : Type u) where
  table : SeqLog (Option F) := {}
  instances : List (BufferInstance F) := []
  /-- history: the appends that returned, with the seq they returned -/
  history : List (Nat × F) := []

inductive FileAction (F : Type u) where
  /-- `SqliteEventBuffer(path=..., capacity_rows=...)` -/
  | create (capacityRows : Nat)
  | open (i : Nat)
  | append (i : Nat) (message : F)
  | deleteThrough (i : Nat) (seq : Int)
  | clear (i : Nat)
  | close (i : Nat)

namespace BufferFile

/-- The instance over the file. -/
def view (f : BufferFile F) (inst : BufferInstance F) : SqliteEventBuffer F where
  isOpen := inst.isOpen
  table := f.table
  capacity := inst.capacity
  capacity_pos := inst.capacity_pos
  evictedRows := inst.evictedRows

def update (f : BufferFile F) (i : Nat) (change : BufferInstance F → BufferInstance F) :
    BufferFile F :=
  { f with instances := f.instances.modify i change }

/-- Instance `i` appends. -/
def append (f : BufferFile F) (i : Nat) (inst : BufferInstance F) (message : F) : BufferFile F :=
  let b := f.view inst
  match b.append message none with
  | (after, .ok seq) =>
      { f.update i fun _ =>
          { inst with
            evictedRows := after.evictedRows
            evicted := inst.evicted ++ b.evicts message } with
        table := after.table
        history := f.history ++ [(seq, message)] }
  | (_, .error _) => f

def step (f : BufferFile F) : FileAction F → Option (BufferFile F)
  | .create capacityRows =>
      if pos : 0 < capacityRows then
        some { f with instances := f.instances ++ [⟨capacityRows, pos, false, 0, []⟩] }
      else none
  | .open i => f.instances[i]?.map fun _ => f.update i fun inst => { inst with isOpen := true }
  | .append i message => f.instances[i]?.map fun inst => f.append i inst message
  | .deleteThrough i seq =>
      f.instances[i]?.map fun inst => { f with table := ((f.view inst).deleteThrough seq).1.table }
  | .clear i => f.instances[i]?.map fun inst => { f with table := (f.view inst).clear.1.table }
  | .close i => f.instances[i]?.map fun _ => f.update i fun inst => { inst with isOpen := false }

/-! ## Drop-oldest -/

variable {f g : BufferFile F} {action : FileAction F}

/-- The rows that were appended, as they are stored. -/
def written (f : BufferFile F) : List (Nat × Option F) := f.history.map fun e => (e.1, some e.2)

/-- The file holds the newest appends, and every instance has counted what it evicted. -/
structure DropOldest (f : BufferFile F) : Prop where
  suffix : f.table.rows <:+ f.written
  increasing : f.history.Pairwise fun earlier later => earlier.1 < later.1
  assigned : ∀ e ∈ f.history, e.1 ≤ f.table.last
  counted : ∀ inst ∈ f.instances, inst.evictedRows = inst.evicted.length

theorem dropOldest_init : DropOldest ({} : BufferFile F) where
  suffix := List.suffix_refl _
  increasing := .nil
  assigned := fun _ member => by cases member
  counted := fun _ member => by cases member

/-! ### Appends -/

/-- What an append of an open instance does. -/
structure Appends (f g : BufferFile F) (i : Nat) (inst : BufferInstance F) (message : F) :
    Prop where
  history : g.history = f.history ++ [(f.table.last + 1, message)]
  last : g.table.last = f.table.last + 1
  rows : g.table.rows =
    keepNewest inst.capacity (f.table.rows ++ [(f.table.last + 1, some message)])
  instances : ∃ after : BufferInstance F, g.instances = f.instances.modify i (fun _ => after) ∧
    after.evictedRows = inst.evictedRows + ((f.view inst).evicts message).length ∧
    after.evicted = inst.evicted ++ (f.view inst).evicts message

theorem append_open {i : Nat} {inst : BufferInstance F} (message : F)
    (opened : inst.isOpen = true) : Appends f (f.append i inst message) i inst message := by
  obtain ⟨seq, last, rows, evictedRows⟩ := (f.view inst).append_ok message opened
  have returned : (f.view inst).append message none =
      (((f.view inst).append message none).1, .ok (f.table.last + 1)) := Prod.ext rfl seq
  unfold append
  dsimp only
  rw [returned]
  exact ⟨rfl, last, rows, _, rfl, evictedRows, rfl⟩

theorem append_closed {i : Nat} {inst : BufferInstance F} (message : F)
    (closed : inst.isOpen = false) : f.append i inst message = f := by
  simp [append, SqliteEventBuffer.append, view, closed]

theorem keepNewest_suffix {α : Type u} (limit : Nat) (items : List α) :
    keepNewest limit items <:+ items :=
  List.drop_suffix _ _

theorem mem_modify {α : Type u} {items : List α} {i : Nat} {change : α → α} {x : α}
    (member : x ∈ items.modify i change) :
    x ∈ items ∨ ∃ before, items[i]? = some before ∧ x = change before := by
  obtain ⟨j, found⟩ := List.mem_iff_getElem?.mp member
  by_cases here : i = j
  · subst here
    rw [List.getElem?_modify_eq] at found
    obtain ⟨before, at_, rfl⟩ := Option.map_eq_some_iff.mp found
    exact .inr ⟨before, at_, rfl⟩
  · rw [List.getElem?_modify_ne change items here] at found
    exact .inl (List.mem_of_getElem? found)

theorem dropOldest_append {i : Nat} {inst : BufferInstance F} {message : F}
    (dropOldest : DropOldest f) (at_ : f.instances[i]? = some inst)
    (appends : Appends f g i inst message) : DropOldest g := by
  obtain ⟨history, last, rows, after, instances, evictedRows, evicted⟩ := appends
  refine ⟨?_, ?_, fun e member => ?_, fun other member => ?_⟩
  · obtain ⟨older, before⟩ := dropOldest.suffix
    rw [rows]
    refine (keepNewest_suffix _ _).trans ⟨older, ?_⟩
    rw [← List.append_assoc, before, written, written, history, List.map_append]
    rfl
  · rw [history]
    refine List.pairwise_append.mpr ⟨dropOldest.increasing, List.pairwise_singleton _ _, ?_⟩
    intro e member new isNew
    obtain rfl := List.mem_singleton.mp isNew
    exact Nat.lt_succ_of_le (dropOldest.assigned e member)
  · rw [last]
    rw [history] at member
    rcases List.mem_append.mp member with old | new
    · exact Nat.le_succ_of_le (dropOldest.assigned e old)
    · obtain rfl := List.mem_singleton.mp new
      exact Nat.le_refl _
  · rw [instances] at member
    rcases mem_modify member with old | ⟨_, _, rfl⟩
    · exact dropOldest.counted other old
    · rw [evictedRows, evicted, List.length_append,
        dropOldest.counted inst (List.mem_of_getElem? at_)]

/-! ### The other operations -/

/-- A deletion from the front. -/
theorem dropOldest_delete {table : SeqLog (Option F)} (dropOldest : DropOldest f)
    (suffix : table.rows <:+ f.table.rows) (last : table.last = f.table.last) :
    DropOldest { f with table := table } where
  suffix := suffix.trans dropOldest.suffix
  increasing := dropOldest.increasing
  assigned := fun e member => last ▸ dropOldest.assigned e member
  counted := dropOldest.counted

/-- Opening and closing keep the counters. -/
theorem dropOldest_update {i : Nat} {change : BufferInstance F → BufferInstance F}
    (dropOldest : DropOldest f)
    (kept : ∀ inst, (change inst).evictedRows = inst.evictedRows ∧
      (change inst).evicted = inst.evicted) : DropOldest (f.update i change) where
  suffix := dropOldest.suffix
  increasing := dropOldest.increasing
  assigned := dropOldest.assigned
  counted := fun inst member => by
    rcases mem_modify member with old | ⟨before, at_, rfl⟩
    · exact dropOldest.counted inst old
    · rw [(kept before).1, (kept before).2]
      exact dropOldest.counted before (List.mem_of_getElem? at_)

/-- **One step.** -/
theorem dropOldest_step (dropOldest : DropOldest f) (next : f.step action = some g) :
    DropOldest g := by
  cases action with
  | create capacityRows =>
      simp only [step] at next
      split at next
      · obtain rfl := Option.some.inj next
        refine ⟨dropOldest.suffix, dropOldest.increasing, dropOldest.assigned, fun inst member => ?_⟩
        rcases List.mem_append.mp member with old | new
        · exact dropOldest.counted inst old
        · obtain rfl := List.mem_singleton.mp new
          rfl
      · cases next
  | «open» i =>
      obtain ⟨inst, at_, rfl⟩ := Option.map_eq_some_iff.mp next
      exact dropOldest_update dropOldest fun _ => ⟨rfl, rfl⟩
  | append i message =>
      obtain ⟨inst, at_, rfl⟩ := Option.map_eq_some_iff.mp next
      cases opened : inst.isOpen with
      | true => exact dropOldest_append dropOldest at_ (append_open message opened)
      | false =>
          rw [append_closed message opened]
          exact dropOldest
  | deleteThrough i seq =>
      obtain ⟨inst, at_, rfl⟩ := Option.map_eq_some_iff.mp next
      unfold SqliteEventBuffer.deleteThrough
      split
      · exact dropOldest
      · exact dropOldest_delete dropOldest (f.table.deleteThrough_suffix _) rfl
  | clear i =>
      obtain ⟨inst, at_, rfl⟩ := Option.map_eq_some_iff.mp next
      unfold SqliteEventBuffer.clear
      split
      · exact dropOldest
      · exact dropOldest_delete dropOldest (List.nil_suffix) rfl
  | close i =>
      obtain ⟨inst, at_, rfl⟩ := Option.map_eq_some_iff.mp next
      exact dropOldest_update dropOldest fun _ => ⟨rfl, rfl⟩

/-! ### Main result -/

/-- The row just appended is the newest, there are no more rows than the instance has room
for, and those that are missing were evicted. -/
structure Bounded (f g : BufferFile F) (inst : BufferInstance F) (message : F) (seq : Nat) :
    Prop where
  appended : g.history = f.history ++ [(seq, message)]
  newest : g.table.rows.getLast? = some (seq, some message)
  room : g.table.rows.length ≤ inst.capacity
  evicted : (f.view inst).evicts message ++ g.table.rows = f.table.rows ++ [(seq, some message)]

theorem bounded_of_appends {i : Nat} {inst : BufferInstance F} {message : F}
    (appends : Appends f g i inst message) : Bounded f g inst message (f.table.last + 1) := by
  obtain ⟨history, -, rows, -⟩ := appends
  have pos := inst.capacity_pos
  refine ⟨history, ?_, ?_, ?_⟩
  · rw [rows, keepNewest, List.getLast?_drop, if_neg, List.getLast?_concat]
    rw [List.length_append, List.length_singleton]
    omega
  · rw [rows, keepNewest, List.length_drop]
    omega
  · rw [rows]
    exact overflow_append_keepNewest _ _

/-- **A bounded drop-oldest log.**  In every run of instances over one file, the rows are
the newest part of the history, whose seqs increase, and every instance has counted what it
evicted; after an append the new row is stored and the capacity is kept. -/
theorem buffer_drops_oldest (f : BufferFile F) (run : Reachable step Free {} f) :
    DropOldest f ∧ ∀ (i : Nat) (inst : BufferInstance F) (message : F) (g : BufferFile F),
      f.instances[i]? = some inst → inst.isOpen = true → f.step (.append i message) = some g →
        ∃ seq, Bounded f g inst message seq := by
  refine ⟨run.invariant (P := DropOldest) dropOldest_init
    fun _ _ _ dropOldest _ next => dropOldest_step dropOldest next, ?_⟩
  intro i inst message g at_ opened next
  simp only [step, at_, Option.map_some, Option.some.injEq] at next
  subst next
  exact ⟨_, bounded_of_appends (append_open message opened)⟩

/-! ## Poles -/

/-- Three appends, an acknowledgement of the first, and a restart with room for one row. -/
def reopened : List (FileAction String) :=
  [.create 2, .open 0, .append 0 "a", .append 0 "b", .append 0 "c", .deleteThrough 0 1, .close 0,
    .create 1, .open 1, .append 1 "d"]

theorem reopened_runs : (run step {} reopened).isSome = true := by decide

theorem reopened_drops_oldest :
    DropOldest (Option.get _ reopened_runs) ∧
      (Option.get _ reopened_runs).table.rows = [(4, some "d")] ∧
      (Option.get _ reopened_runs).instances.map BufferInstance.evictedRows = [1, 2] :=
  ⟨(buffer_drops_oldest _ (reachable_get reopened_runs)).1, by decide, by decide⟩

end BufferFile

end IsalesTelephony.Transport
