/-
# Transport.PendingIterator -- one iteration of the pending rows

`iter_pending` reads the table in pages of 256 rows from a cursor, and the table is appended
to and deleted from between two calls of `next()`.  A page that was read stays in the
generator's hand.  Iteration starts with the first `next()`; no statement fails.

`start` is what was pending then, and `lost` the rows that were deleted before the page
they were on was read.  Each later page is read from the table as it is by then, so the
iterator goes on to rows that were appended since.  It yields the rows it started with if
and only if `next()` is never called with only new messages to come
(`iterator_is_snapshot`).
-/
import IsalesTelephony.Transport.BufferHistory

namespace IsalesTelephony.Transport

set_option autoImplicit false

open IsalesTelephony.Theory
open IsalesTelephony.Theory.Transition

universe u

variable {F : Type u}

/-! ## The generator -/

/-- Where the generator is suspended. -/
inductive IterPc (F : Type u) where
  | unstarted
  /-- at its `yield`: `last_yielded`, and the rows of the page not yet looked at -/
  | running (cursor : Int) (page : List (Nat × Option F))
  | finished

/-- Where the next page is read from, once the page in hand is used up. -/
def frontier : Int → List (Nat × Option F) → Int
  | cursor, [] => cursor
  | _, row :: page => frontier row.1 page

/-- One `next()` of the generator: what it yields, if it does, and where it is then.  The
fuel counts page reads and rows. -/
def pull (table : SeqLog (Option F)) : Nat → Int → List (Nat × Option F) →
    Option (Nat × F) × IterPc F
  | 0, _, _ => (none, .finished)
  | fuel + 1, cursor, [] =>
      match (table.ahead cursor).take SqliteEventBuffer.pageSize with
      | [] => (none, .finished)
      | row :: page => pull table fuel cursor (row :: page)
  -- a row that does not parse is logged and skipped
  | fuel + 1, _, (seq, none) :: page => pull table fuel seq page
  | _ + 1, _, (seq, some message) :: page => (some (seq, message), .running seq page)

structure Iteration (F : Type u) where
  buffer : SqliteEventBuffer F
  pc : IterPc F := .unstarted
  /-- history: the rows pending when iteration started, and the last seq given by then -/
  start : List (Nat × Option F) := []
  startLast : Nat := 0
  /-- history: what was yielded -/
  yielded : List (Nat × F) := []
  /-- history: the rows deleted before their page was read -/
  lost : List Nat := []

inductive IterAction (F : Type u) where
  | next
  | append (message : F)
  | deleteThrough (seq : Int)

namespace Iteration

/-- The generator at its first `next()`. -/
def begin (s : Iteration F) : Iteration F :=
  { s with start := s.buffer.table.rows, startLast := s.buffer.table.last }

/-- The generator runs on to its next `yield` or its end. -/
def resume (s : Iteration F) (cursor : Int) (page : List (Nat × Option F)) : Iteration F :=
  match pull s.buffer.table (page.length + 2 * s.buffer.table.rows.length + 1) cursor page with
  | (some row, pc) => { s with pc := pc, yielded := s.yielded ++ [row] }
  | (none, pc) => { s with pc := pc }

/-- The rows no page has been read with. -/
def unread (s : Iteration F) : List (Nat × Option F) :=
  match s.pc with
  | .running cursor page => s.buffer.table.ahead (frontier cursor page)
  | _ => []

/-- The rows that `after` no longer has, of those unread. -/
def deleted (s : Iteration F) (after : SqliteEventBuffer F) : List Nat :=
  (s.unread.map (·.1)).filter fun seq => seq ∉ after.table.rows.map (·.1)

/-- The buffer has changed under the generator. -/
def touch (s : Iteration F) (after : SqliteEventBuffer F) : Iteration F :=
  { s with buffer := after, lost := s.lost ++ s.deleted after }

def step (s : Iteration F) : IterAction F → Option (Iteration F)
  | .next =>
      match s.pc with
      | .unstarted =>
          -- `_require_open` raises otherwise
          if s.buffer.isOpen then some (s.begin.resume (-1) []) else none
      | .running cursor page => some (s.resume cursor page)
      | .finished => some s
  | .append message => some (s.touch (s.buffer.append message none).1)
  | .deleteThrough seq => some (s.touch (s.buffer.deleteThrough seq).1)

/-! ## What the iterator promises -/

/-- A row with the message it holds. -/
def entry (row : Nat × Option F) : Option (Nat × F) := row.2.map (row.1, ·)

/-- The messages pending at the start whose rows were not deleted before their page was
read. -/
def due (s : Iteration F) : List (Nat × F) :=
  (s.start.filter fun row => row.1 ∉ s.lost).filterMap entry

/-- The iterator yields what was pending when it started. -/
structure Snapshot (s : Iteration F) : Prop where
  increasing : s.yielded.Pairwise fun a b => a.1 < b.1
  notNew : ∀ row ∈ s.yielded, (row.1, some row.2) ∈ s.start
  inOrder : s.yielded <+: s.due
  complete : s.pc = .finished → s.yielded = s.due

/-- What the generator would still look at: the page in hand and what is stored past it. -/
def left (s : Iteration F) : List (Nat × Option F) :=
  match s.pc with
  | .running cursor page => page ++ s.buffer.table.ahead (frontier cursor page)
  | _ => []

/-- A message pending at the start is still to come, or none is to come at all. -/
def Settled (s : Iteration F) : IterAction F → Prop
  | .next => (∃ row ∈ s.left, row.1 ≤ s.startLast ∧ row.2.isSome = true) ∨
      ∀ row ∈ s.left, row.2 = none
  | _ => True

/-! ## One page after the other -/

variable {table : SeqLog (Option F)} {cursor : Int} {page : List (Nat × Option F)}

/-- Past a first part of what is ahead comes the rest. -/
theorem ahead_frontier {rest : List (Nat × Option F)}
    (split : table.ahead cursor = page ++ rest) : table.ahead (frontier cursor page) = rest := by
  induction page generalizing cursor with
  | nil => exact split
  | cons row page ih =>
      obtain ⟨seq, value⟩ := row
      exact ih (SeqLog.ahead_advance split).1

/-- What one `next()` makes of the rows that are left: it skips those without a message and
yields the first other. -/
inductive Pulls (table : SeqLog (Option F)) (left : List (Nat × Option F)) :
    Option (Nat × F) × IterPc F → Prop
  | ends (blank : ∀ row ∈ left, row.2 = none) : Pulls table left (none, .finished)
  | yields {skipped page : List (Nat × Option F)} {seq : Nat} {message : F}
      (blank : ∀ row ∈ skipped, row.2 = none)
      (split : left = skipped ++ (seq, some message) :: (page ++ table.ahead (frontier seq page))) :
      Pulls table left (some (seq, message), .running seq page)

/-- Each page read brings a row that was still ahead, so page reads and rows together are
at most twice the rows ahead. -/
theorem pull_cases (fuel : Nat)
    (enough : page.length + 2 * (table.ahead (frontier cursor page)).length + 1 ≤ fuel) :
    Pulls table (page ++ table.ahead (frontier cursor page)) (pull table fuel cursor page) := by
  induction fuel generalizing cursor page with
  | zero => omega
  | succ fuel ih =>
      match page with
      | [] =>
          simp only [pull]
          split
          · rename_i read
            have nothing : table.ahead cursor = [] := by
              rcases List.take_eq_nil_iff.mp read with absurd_ | nothing
              · exact absurd absurd_ (by decide)
              · exact nothing
            refine .ends fun row member => ?_
            rw [List.nil_append, frontier, nothing] at member
            cases member
          · rename_i row rows read
            have split : table.ahead cursor =
                (row :: rows) ++ (table.ahead cursor).drop SqliteEventBuffer.pageSize := by
              rw [← read, List.take_append_drop]
            have length := congrArg List.length split
            rw [← ahead_frontier split, List.length_append, List.length_cons] at length
            have read : Pulls table (row :: rows ++ table.ahead (frontier cursor (row :: rows)))
                (pull table fuel cursor (row :: rows)) := ih (by
              simp only [List.length_nil, frontier] at enough
              rw [List.length_cons]
              omega)
            rwa [ahead_frontier split, ← split] at read
      | (seq, none) :: page =>
          simp only [List.length_cons, frontier] at enough
          simp only [pull, frontier]
          have passed : Pulls table (page ++ table.ahead (frontier seq page))
              (pull table fuel seq page) := ih (by omega)
          generalize pull table fuel seq page = pulled at passed
          cases passed with
          | ends blank => exact .ends (List.forall_mem_cons.mpr ⟨rfl, blank⟩)
          | @yields skipped later seq' message blank split =>
              have blank : ∀ row ∈ (seq, none) :: skipped, row.2 = none :=
                List.forall_mem_cons.mpr ⟨rfl, blank⟩
              refine .yields blank ?_
              rw [List.cons_append, split]
              rfl
      | (seq, some message) :: page =>
          have blank : ∀ row ∈ ([] : List (Nat × Option F)), row.2 = none :=
            fun _ member => by cases member
          exact .yields blank rfl

/-! ## What is yielded -/

variable {s t : Iteration F} {action : IterAction F}

/-- A row that was appended before iteration started. -/
def Old (s : Iteration F) (row : Nat × F) : Bool := row.1 ≤ s.startLast

/-- While the generator runs: what it has yielded and what is left are rows in order, and
the messages it started with are those of them that are old, but for the lost ones. -/
structure Sound (s : Iteration F) : Prop where
  ascending : ((s.yielded.map (·.1)) ++ s.left.map (·.1)).Pairwise (· < ·)
  bounded : ∀ seq ∈ (s.yielded.map (·.1)) ++ s.left.map (·.1), seq ≤ s.buffer.table.last
  content : (s.yielded ++ s.left.filterMap entry).filter s.Old = s.due
  startBounded : ∀ row ∈ s.start, row.1 ≤ s.startLast
  started : s.startLast ≤ s.buffer.table.last
  unstarted : s.pc = .unstarted → s.yielded = [] ∧ s.start = [] ∧ s.lost = []

theorem sound_init (b : SqliteEventBuffer F) : Sound ({ buffer := b } : Iteration F) where
  ascending := .nil
  bounded := fun _ member => by cases member
  content := rfl
  startBounded := fun _ member => by cases member
  started := Nat.zero_le _
  unstarted := fun _ => ⟨rfl, rfl, rfl⟩

/-! ### One `next()` -/

/-- What a `next()` of a generator that runs or starts does to the iteration. -/
inductive Resumes (s t : Iteration F) (left : List (Nat × Option F)) : Prop
  | ends (blank : ∀ row ∈ left, row.2 = none) (same : t = { s with pc := .finished })
  | yields {skipped page : List (Nat × Option F)} {seq : Nat} {message : F}
      (blank : ∀ row ∈ skipped, row.2 = none)
      (same : t = { s with pc := .running seq page, yielded := s.yielded ++ [(seq, message)] })
      (split : left = skipped ++ (seq, some message) :: t.left)

theorem resume_cases (s : Iteration F) (cursor : Int) (page : List (Nat × Option F)) :
    Resumes s (s.resume cursor page) (page ++ s.buffer.table.ahead (frontier cursor page)) := by
  have enough : page.length + 2 * (s.buffer.table.ahead (frontier cursor page)).length + 1 ≤
      page.length + 2 * s.buffer.table.rows.length + 1 := by
    have fewer : (s.buffer.table.ahead (frontier cursor page)).length ≤ s.buffer.table.rows.length :=
      List.length_filter_le _ _
    omega
  have pulls := pull_cases _ enough
  unfold resume
  generalize pull s.buffer.table _ cursor page = pulled at pulls
  cases pulls with
  | ends blank => exact .ends blank rfl
  | yields blank split => exact .yields blank rfl split

theorem filterMap_blank {rows : List (Nat × Option F)} (blank : ∀ row ∈ rows, row.2 = none) :
    rows.filterMap entry = [] := by
  refine List.filterMap_eq_nil_iff.mpr fun row member => ?_
  rw [entry, blank row member, Option.map_none]

/-- `next()` moves the first message that is left to those that were yielded. -/
theorem sound_resumes {left : List (Nat × Option F)} (resumes : Resumes s t left)
    (ascending : ((s.yielded.map (·.1)) ++ left.map (·.1)).Pairwise (· < ·))
    (bounded : ∀ seq ∈ (s.yielded.map (·.1)) ++ left.map (·.1), seq ≤ s.buffer.table.last)
    (content : (s.yielded ++ left.filterMap entry).filter s.Old = s.due)
    (startBounded : ∀ row ∈ s.start, row.1 ≤ s.startLast)
    (started : s.startLast ≤ s.buffer.table.last) : Sound t := by
  cases resumes with
  | ends blank same =>
      subst same
      rw [filterMap_blank blank] at content
      refine ⟨?_, fun seq member => ?_, content, startBounded, started, nofun⟩
      · exact ascending.sublist (List.Sublist.append_left (List.nil_sublist _) _)
      · rcases List.mem_append.mp member with old | new
        · exact bounded seq (List.mem_append_left _ old)
        · cases new
  | @yields skipped page seq message blank same split =>
      have rows : (t.yielded.map (·.1)) ++ t.left.map (·.1) =
          (s.yielded.map (·.1)) ++ ((seq, some message) :: t.left).map (·.1) := by
        rw [same]
        simp
      have fewer : ((t.yielded.map (·.1)) ++ t.left.map (·.1)).Sublist
          ((s.yielded.map (·.1)) ++ left.map (·.1)) := by
        rw [rows, split]
        exact List.Sublist.append_left ((List.sublist_append_right _ _).map _) _
      refine ⟨ascending.sublist fewer, fun seq' member => ?_, ?_, ?_, ?_, ?_⟩
      · rw [same]
        exact bounded seq' (fewer.subset member)
      · have messages : t.yielded ++ t.left.filterMap entry = s.yielded ++ left.filterMap entry := by
          rw [split, List.filterMap_append, filterMap_blank blank, List.nil_append,
            List.filterMap_cons_some (by rfl : entry (seq, some message) = some (seq, message))]
          rw [same]
          simp
        rw [messages]
        rw [same]
        exact content
      · rw [same]; exact startBounded
      · rw [same]; exact started
      · rw [same]; nofun

/-! ### A change of the table -/

/-- The oldest rows are gone and new ones have come. -/
def Cut (before after : SeqLog (Option F)) : Prop :=
  before.last ≤ after.last ∧ ∃ dropped kept new, before.rows = dropped ++ kept ∧
    after.rows = kept ++ new ∧ ∀ row ∈ new, before.last < row.1

theorem cut_refl (table : SeqLog (Option F)) : Cut table table :=
  ⟨Nat.le_refl _, [], table.rows, [], rfl, (List.append_nil _).symm, nofun⟩

theorem cut_append (b : SqliteEventBuffer F) (message : F) :
    Cut b.table (b.append message none).1.table := by
  cases opened : b.isOpen with
  | false =>
      have same : (b.append message none).1 = b := by simp [SqliteEventBuffer.append, opened]
      rw [same]
      exact cut_refl _
  | true =>
      obtain ⟨-, last, rows, -⟩ := b.append_ok message opened
      have pos := b.capacity_pos
      have room : (b.table.insert (some message)).rows.length - b.capacity ≤ b.table.rows.length := by
        simp only [SeqLog.insert, List.length_append, List.length_singleton]
        omega
      refine ⟨by omega, _, _, [(b.table.last + 1, some message)],
        (List.take_append_drop
          ((b.table.insert (some message)).rows.length - b.capacity) b.table.rows).symm, ?_, ?_⟩
      · rw [rows, keepNewest]
        exact List.drop_append_of_le_length room
      · intro row member
        obtain rfl := List.mem_singleton.mp member
        exact Nat.lt_succ_self _

theorem cut_deleteThrough (b : SqliteEventBuffer F) (seq : Int) :
    Cut b.table (b.deleteThrough seq).1.table := by
  unfold SqliteEventBuffer.deleteThrough
  split
  · exact cut_refl _
  · obtain ⟨dropped, split⟩ := b.table.deleteThrough_suffix seq.toNat
    exact ⟨Nat.le_refl _, dropped, _, [], split.symm, (List.append_nil _).symm,
      List.forall_mem_nil _⟩

theorem mem_deleted {after : SqliteEventBuffer F} {seq : Nat} :
    seq ∈ s.deleted after ↔ seq ∈ s.unread.map (·.1) ∧ seq ∉ after.table.rows.map (·.1) := by
  simp [deleted]

/-- Of the unread rows a cut takes those it deletes, and it adds new ones. -/
theorem ahead_cut {before after : SeqLog (Option F)} (cut : Cut before after) (cursor : Int) :
    ∃ new, (∀ row ∈ new, before.last < row.1) ∧ new.Sublist after.rows ∧
      after.ahead cursor =
        ((before.ahead cursor).filter fun row => row.1 ∈ after.rows.map (·.1)) ++ new := by
  obtain ⟨-, dropped, kept, new, old, rows, later⟩ := cut
  refine ⟨new.filter fun row => cursor < (row.1 : Int),
    fun row member => later row (List.mem_filter.mp member).1, ?_, ?_⟩
  · rw [rows]
    exact List.filter_sublist.trans (List.sublist_append_right _ _)
  · have ascending := before.ascending
    rw [old] at ascending
    obtain ⟨-, -, below⟩ := List.pairwise_append.mp ascending
    have gone : ((dropped.filter fun row => cursor < (row.1 : Int)).filter
        fun row => row.1 ∈ after.rows.map (·.1)) = [] := by
      refine List.filter_eq_nil_iff.mpr fun row member stays => ?_
      have member := (List.mem_filter.mp member).1
      rw [rows, decide_eq_true_eq, List.map_append, List.mem_append] at stays
      rcases stays with inKept | inNew
      · obtain ⟨other, listed, same⟩ := List.mem_map.mp inKept
        exact absurd (below row member other listed) (by omega)
      · obtain ⟨other, listed, same⟩ := List.mem_map.mp inNew
        have bound := before.bounded row (by rw [old]; exact List.mem_append_left _ member)
        exact absurd (later other listed) (by omega)
    have stay : ((kept.filter fun row => cursor < (row.1 : Int)).filter
        fun row => row.1 ∈ after.rows.map (·.1)) = kept.filter fun row => cursor < (row.1 : Int) := by
      refine List.filter_eq_self.mpr fun row member => decide_eq_true ?_
      rw [rows, List.map_append]
      exact List.mem_append_left _ (List.mem_map_of_mem (List.mem_filter.mp member).1)
    have aheadBefore : before.ahead cursor = (dropped.filter fun row => cursor < (row.1 : Int)) ++
        kept.filter fun row => cursor < (row.1 : Int) := by
      rw [SeqLog.ahead, old, List.filter_append]
    have aheadAfter : after.ahead cursor = (kept.filter fun row => cursor < (row.1 : Int)) ++
        new.filter fun row => cursor < (row.1 : Int) := by
      rw [SeqLog.ahead, rows, List.filter_append]
    rw [aheadAfter, aheadBefore, List.filter_append, gone, List.nil_append, stay]

/-- What is left after a change of the table: the lost rows are gone, and new ones come. -/
theorem left_touch {after : SqliteEventBuffer F} (cut : Cut s.buffer.table after.table)
    (ascending : (s.left.map (·.1)).Pairwise (· < ·)) :
    ∃ new, (∀ row ∈ new, s.buffer.table.last < row.1) ∧ new.Sublist after.table.rows ∧
      (s.touch after).left = (s.left.filter fun row => row.1 ∉ s.deleted after) ++ new := by
  unfold left at ascending ⊢
  unfold touch
  dsimp only
  split at ascending
  · rename_i cursor page runs
    have unread : s.unread = s.buffer.table.ahead (frontier cursor page) := by simp [unread, runs]
    obtain ⟨new, later, listed, split⟩ := ahead_cut cut (frontier cursor page)
    refine ⟨new, later, listed, ?_⟩
    rw [List.map_append, List.pairwise_append] at ascending
    have inHand : (page.filter fun row => row.1 ∉ s.deleted after) = page := by
      refine List.filter_eq_self.mpr fun row member => decide_eq_true fun gone => ?_
      rw [mem_deleted, unread] at gone
      exact absurd (ascending.2.2 row.1 (List.mem_map_of_mem member) row.1 gone.1) (Nat.lt_irrefl _)
    have ahead : ((s.buffer.table.ahead (frontier cursor page)).filter
          fun row => row.1 ∉ s.deleted after) =
        (s.buffer.table.ahead (frontier cursor page)).filter
          fun row => row.1 ∈ after.table.rows.map (·.1) := by
      refine List.filter_congr fun row member => decide_eq_decide.mpr ?_
      rw [mem_deleted, unread, not_and_not_right]
      exact ⟨fun stays => stays (List.mem_map_of_mem member), fun stays _ => stays⟩
    rw [split, List.filter_append, inHand, ahead, List.append_assoc]
  · exact ⟨[], nofun, List.nil_sublist _, rfl⟩

theorem filterMap_entry_filter (rows : List (Nat × Option F)) (keep : Nat → Bool) :
    (rows.filter fun row => keep row.1).filterMap entry =
      (rows.filterMap entry).filter fun row => keep row.1 := by
  rw [List.filterMap_filter, List.filter_filterMap]
  refine List.filterMap_congr fun row _ => ?_
  obtain ⟨seq, value⟩ := row
  cases value <;> cases kept : keep seq <;> simp [entry, Option.filter, kept]

/-- What is due after a change of the table. -/
theorem due_touch (after : SqliteEventBuffer F) :
    (s.touch after).due = s.due.filter fun row => row.1 ∉ s.deleted after := by
  have both : s.start.filter (fun row => row.1 ∉ s.lost ++ s.deleted after) =
      (s.start.filter fun row => row.1 ∉ s.lost).filter fun row => row.1 ∉ s.deleted after := by
    rw [List.filter_filter]
    refine List.filter_congr fun row _ => ?_
    simp [Bool.and_comm]
  exact (congrArg (List.filterMap entry) both).trans
    (filterMap_entry_filter _ fun seq => seq ∉ s.deleted after)

theorem mem_left_of_unread {row : Nat × Option F} (unread : row ∈ s.unread) : row ∈ s.left := by
  unfold Iteration.left
  unfold Iteration.unread at unread
  split at unread
  · exact List.mem_append_right _ unread
  · cases unread

/-- What was yielded is not among what is deleted unread. -/
theorem undeleted_of_yielded {row : Nat × F} {after : SqliteEventBuffer F} (sound : Sound s)
    (yielded : row ∈ s.yielded) : row.1 ∉ s.deleted after := by
  obtain ⟨-, -, apart⟩ := List.pairwise_append.mp sound.ascending
  intro gone
  obtain ⟨other, unread, same⟩ := List.mem_map.mp (mem_deleted.mp gone).1
  have later := apart row.1 (List.mem_map_of_mem yielded) other.1
    (List.mem_map_of_mem (mem_left_of_unread unread))
  exact absurd same (Nat.ne_of_gt later)

theorem sound_touch {after : SqliteEventBuffer F} (sound : Sound s)
    (cut : Cut s.buffer.table after.table) : Sound (s.touch after) := by
  obtain ⟨new, later, listed, left⟩ :=
    left_touch cut (List.pairwise_append.mp sound.ascending).2.1
  have grows : s.buffer.table.last ≤ after.table.last := cut.1
  have newSorted : (new.map (·.1)).Pairwise (· < ·) :=
    List.pairwise_map.mpr (after.table.ascending.sublist listed)
  have fewer : ((s.left.filter fun row => row.1 ∉ s.deleted after).map (·.1)).Sublist
      (s.left.map (·.1)) := List.filter_sublist.map _
  have below : ∀ seq ∈ s.yielded.map (·.1) ++
      (s.left.filter fun row => row.1 ∉ s.deleted after).map (·.1), seq ≤ s.buffer.table.last :=
    fun seq member => sound.bounded seq ((List.Sublist.append_left fewer _).subset member)
  have newer : ∀ seq ∈ new.map (·.1), s.buffer.table.last < seq ∧ seq ≤ after.table.last := by
    intro seq member
    obtain ⟨row, inNew, rfl⟩ := List.mem_map.mp member
    exact ⟨later row inNew, after.table.bounded row (listed.subset inNew)⟩
  have rows : ((s.touch after).yielded.map (·.1)) ++ (s.touch after).left.map (·.1) =
      (s.yielded.map (·.1) ++ (s.left.filter fun row => row.1 ∉ s.deleted after).map (·.1)) ++
        new.map (·.1) := by
    rw [left, List.map_append, ← List.append_assoc]
    rfl
  refine ⟨?_, fun seq member => ?_, ?_, sound.startBounded, Nat.le_trans sound.started grows,
    fun fresh => ?_⟩
  · rw [rows]
    refine List.pairwise_append.mpr ⟨?_, newSorted, fun earlier old seq isNew => ?_⟩
    · exact sound.ascending.sublist (List.Sublist.append_left fewer _)
    · exact Nat.lt_of_le_of_lt (below earlier old) (newer seq isNew).1
  · rw [rows] at member
    rcases List.mem_append.mp member with old | isNew
    · exact Nat.le_trans (below seq old) grows
    · exact (newer seq isNew).2
  · -- what was yielded is not among what is deleted now, and what is new is not old
    have kept : s.yielded = s.yielded.filter fun row => row.1 ∉ s.deleted after :=
      (List.filter_eq_self.mpr fun row member =>
        decide_eq_true (undeleted_of_yielded sound member)).symm
    have none_ : (new.filterMap entry).filter (s.touch after).Old = [] := by
      refine List.filter_eq_nil_iff.mpr fun row member old => ?_
      obtain ⟨source, inNew, some_⟩ := List.mem_filterMap.mp member
      obtain ⟨message, -, rfl⟩ := Option.map_eq_some_iff.mp some_
      have old : source.1 ≤ s.startLast := of_decide_eq_true old
      have := later source inNew
      have := sound.started
      omega
    have yielded : (s.touch after).yielded = s.yielded := rfl
    have same : (s.touch after).Old = s.Old := rfl
    rw [due_touch, left, List.filterMap_append, ← List.append_assoc, List.filter_append, none_,
      List.append_nil, yielded, same, filterMap_entry_filter s.left fun seq => seq ∉ s.deleted after,
      ← sound.content]
    conv_lhs => rw [kept]
    rw [← List.filter_append, List.filter_filter, List.filter_filter]
    exact List.filter_congr fun row _ => Bool.and_comm _ _
  · obtain ⟨nothing, start, lost⟩ := sound.unstarted fresh
    have unread : s.unread = [] := by
      have fresh : s.pc = .unstarted := fresh
      simp [unread, fresh]
    refine ⟨nothing, start, ?_⟩
    simp [touch, lost, deleted, unread]

/-! ### One step -/

theorem sound_begin (sound : Sound s) (fresh : s.pc = .unstarted)
    (resumes : Resumes s.begin t s.buffer.table.rows) : Sound t := by
  obtain ⟨nothing, -, lost⟩ := sound.unstarted fresh
  have all : s.begin.due = s.buffer.table.rows.filterMap entry := by
    have kept : s.buffer.table.rows.filter (fun row => row.1 ∉ s.lost) = s.buffer.table.rows := by
      rw [lost]
      exact List.filter_eq_self.mpr fun row _ => rfl
    exact congrArg (List.filterMap entry) kept
  have yielded : s.begin.yielded = [] := nothing
  refine sound_resumes resumes ?_ ?_ ?_ s.buffer.table.bounded (Nat.le_refl _)
  · rw [yielded]
    exact List.pairwise_map.mpr s.buffer.table.ascending
  · rw [yielded]
    intro seq member
    obtain ⟨row, listed, rfl⟩ := List.mem_map.mp member
    exact s.buffer.table.bounded row listed
  · rw [yielded, all]
    refine List.filter_eq_self.mpr fun row member => decide_eq_true ?_
    obtain ⟨source, listed, some_⟩ := List.mem_filterMap.mp member
    obtain ⟨message, -, rfl⟩ := Option.map_eq_some_iff.mp some_
    exact s.buffer.table.bounded source listed

/-- What one step does. -/
inductive Moves (s : Iteration F) : IterAction F → Iteration F → Prop
  | begin {t : Iteration F} (fresh : s.pc = .unstarted)
      (resumes : Resumes s.begin t s.buffer.table.rows) : Moves s .next t
  | resume {t : Iteration F} (running : s.pc ≠ .unstarted) (resumes : Resumes s t s.left) :
      Moves s .next t
  | ended (finished : s.pc = .finished) : Moves s .next s
  | touch {action : IterAction F} {after : SqliteEventBuffer F} (aside : action ≠ .next)
      (cut : Cut s.buffer.table after.table) : Moves s action (s.touch after)

theorem step_cases (next : s.step action = some t) : s.Moves action t := by
  cases action with
  | next =>
      simp only [step] at next
      split at next
      · rename_i fresh
        split at next
        · obtain rfl := Option.some.inj next
          have all : s.begin.buffer.table.ahead (-1) = s.buffer.table.rows :=
            List.filter_eq_self.mpr fun row _ => decide_eq_true (by omega)
          have resumes := s.begin.resume_cases (-1) []
          rw [List.nil_append, frontier, all] at resumes
          exact .begin fresh resumes
        · cases next
      · rename_i cursor page runs
        obtain rfl := Option.some.inj next
        have resumes := s.resume_cases cursor page
        have left : s.left = page ++ s.buffer.table.ahead (frontier cursor page) := by
          simp [Iteration.left, runs]
        rw [← left] at resumes
        exact .resume (by rw [runs]; nofun) resumes
      · rename_i finished
        obtain rfl := Option.some.inj next
        exact .ended finished
  | append message =>
      obtain rfl := Option.some.inj next
      exact .touch nofun (cut_append s.buffer message)
  | deleteThrough seq =>
      obtain rfl := Option.some.inj next
      exact .touch nofun (cut_deleteThrough s.buffer seq)

/-- **One step.** -/
theorem sound_step (sound : Sound s) (next : s.step action = some t) : Sound t := by
  cases step_cases next with
  | begin fresh resumes => exact sound_begin sound fresh resumes
  | resume running resumes =>
      exact sound_resumes resumes sound.ascending sound.bounded sound.content sound.startBounded
        sound.started
  | ended => exact sound
  | touch aside cut => exact sound_touch sound cut

/-! ### New rows -/

/-- Nothing was yielded that was appended after iteration started. -/
def NoneNew (s : Iteration F) : Prop := ∀ row ∈ s.yielded, row.1 ≤ s.startLast

/-- The first message of rows in order is old if one of them is. -/
theorem noneNew_resumes {left : List (Nat × Option F)} (resumes : Resumes s t left)
    (ascending : left.Pairwise fun a b => a.1 < b.1)
    (settled : (∃ row ∈ left, row.1 ≤ s.startLast ∧ row.2.isSome = true) ∨
      ∀ row ∈ left, row.2 = none) (noneNew : NoneNew s) : NoneNew t := by
  cases resumes with
  | ends blank same =>
      subst same
      exact noneNew
  | @yields skipped page seq message blank same split =>
      have first : seq ≤ s.startLast := by
        rw [split] at settled ascending
        rcases settled with ⟨row, member, old, some_⟩ | none_
        · rcases List.mem_append.mp member with before | after
          · rw [blank row before] at some_
            cases some_
          · obtain ⟨later, -⟩ := List.pairwise_cons.mp (List.pairwise_append.mp ascending).2.1
            rcases List.mem_cons.mp after with rfl | beyond
            · exact old
            · exact Nat.le_trans (Nat.le_of_lt (later row beyond)) old
        · exact absurd (none_ _ (List.mem_append_right _ List.mem_cons_self)) nofun
      rw [same]
      intro row member
      rcases List.mem_append.mp member with old | new
      · exact noneNew row old
      · obtain rfl := List.mem_singleton.mp new
        exact first

theorem noneNew_step (sound : Sound s) (noneNew : NoneNew s) (settled : s.Settled action)
    (next : s.step action = some t) : NoneNew t := by
  cases step_cases next with
  | begin fresh resumes =>
      obtain ⟨nothing, -, -⟩ := sound.unstarted fresh
      have started : NoneNew s.begin := by
        intro row member
        have member : row ∈ s.yielded := member
        rw [nothing] at member
        cases member
      refine noneNew_resumes resumes s.buffer.table.ascending ?_ started
      by_cases blank : ∀ row ∈ s.buffer.table.rows, row.2 = none
      · exact .inr blank
      · push Not at blank
        obtain ⟨row, listed, some_⟩ := blank
        exact .inl ⟨row, listed, s.buffer.table.bounded row listed, Option.isSome_iff_ne_none.mpr some_⟩
  | resume running resumes =>
      have ascending := List.pairwise_map.mp (List.pairwise_append.mp sound.ascending).2.1
      exact noneNew_resumes resumes ascending settled noneNew
  | ended => exact noneNew
  | touch => exact noneNew

/-! ### Main result -/

theorem snapshot_of_sound (sound : Sound s) (noneNew : NoneNew s) : Snapshot s := by
  have kept : s.yielded.filter s.Old = s.yielded :=
    List.filter_eq_self.mpr fun row member => decide_eq_true (noneNew row member)
  have content := sound.content
  rw [List.filter_append, kept] at content
  have inOrder : s.yielded <+: s.due := ⟨_, content⟩
  refine ⟨List.pairwise_map.mp (List.pairwise_append.mp sound.ascending).1, fun row member => ?_,
    inOrder, fun finished => ?_⟩
  · obtain ⟨source, listed, some_⟩ := List.mem_filterMap.mp (inOrder.subset member)
    obtain ⟨message, held, rfl⟩ := Option.map_eq_some_iff.mp some_
    rw [← held]
    exact (List.mem_filter.mp listed).1
  · have nothing : s.left = [] := by simp [left, finished]
    rw [nothing] at content
    simpa using content

/-- A `next()` with only new messages to come yields one. -/
theorem not_snapshot_of_unsettled (sound : Sound s) (next : s.step .next = some t)
    (unsettled : ¬ s.Settled .next) : ¬ Snapshot t := by
  obtain ⟨noneOld, some_⟩ := not_or.mp unsettled
  have sound' := sound_step sound next
  cases step_cases next with
  | begin fresh => exact absurd (fun row member => by simp [left, fresh] at member) some_
  | ended finished => exact absurd (fun row member => by simp [left, finished] at member) some_
  | resume running resumes =>
      cases resumes with
      | ends blank => exact absurd blank some_
      | @yields skipped page seq message blank same split =>
          intro snapshot
          have member : (seq, message) ∈ t.yielded := by rw [same]; simp
          have old := sound'.startBounded _ (snapshot.notNew _ member)
          have started : t.startLast = s.startLast := by rw [same]
          refine noneOld ⟨(seq, some message), ?_, started ▸ old, rfl⟩
          rw [split]
          exact List.mem_append_right _ List.mem_cons_self
  | touch aside => exact absurd rfl aside

/-- **When the iterator is a snapshot.**  Over every buffer, in every run of `next()`,
appends and deletions in which `next()` is not called with only new messages to come, the
iterator yields what was pending when it started, in order, but for what was deleted before
its page was read; a `next()` called then yields a new one. -/
theorem iterator_is_snapshot (b : SqliteEventBuffer F) :
    (∀ s, Reachable step Settled ({ buffer := b } : Iteration F) s → Snapshot s) ∧
      ∀ s t, Reachable step Free ({ buffer := b } : Iteration F) s → s.step .next = some t →
        ¬ s.Settled .next → ¬ Snapshot t := by
  constructor
  · intro s run
    have both := run.invariant (P := fun s => Sound s ∧ NoneNew s)
      ⟨sound_init b, fun _ member => by cases member⟩
      fun _ _ _ holds settled next =>
        ⟨sound_step holds.1 next, noneNew_step holds.1 holds.2 settled next⟩
    exact snapshot_of_sound both.1 both.2
  · intro s t run next unsettled
    have sound := run.invariant (P := Sound) (sound_init b) fun _ _ _ sound _ next =>
      sound_step sound next
    exact not_snapshot_of_unsettled sound next unsettled

/-! ## Poles -/

instance (s : Iteration F) (action : IterAction F) : Decidable (s.Settled action) := by
  cases action <;> unfold Settled <;> infer_instance

/-- A flush that acknowledges what it was handed. -/
def acknowledged : List (IterAction String) :=
  [.append "ringing", .append "connected", .next, .deleteThrough 1, .next, .deleteThrough 2, .next]

theorem acknowledged_runs :
    (guardedRun step Settled ({ buffer := {} } : Iteration String) acknowledged).isSome = true := by
  decide

/-- One row is pending when iteration starts, and one is appended before its end. -/
def appended : List (IterAction String) := [.append "ringing", .next, .append "connected"]

theorem appended_runs :
    (run step ({ buffer := {} } : Iteration String) appended).isSome = true := by decide

theorem appended_goes_on :
    (((run step _ appended).get appended_runs).step .next).isSome = true := by decide

theorem flush_is_snapshot :
    Snapshot ((guardedRun step Settled _ acknowledged).get acknowledged_runs) ∧
      ¬ Snapshot ((((run step _ appended).get appended_runs).step .next).get appended_goes_on) :=
  ⟨(iterator_is_snapshot {}).1 _ (reachable_guarded_get acknowledged_runs),
    (iterator_is_snapshot {}).2 _ _ (reachable_get appended_runs) (Option.some_get _).symm
      (by decide)⟩

/-- **A row from after the start.**  The second page is read from the table as it is then. -/
theorem later_row_is_yielded :
    ¬ ∀ (b : SqliteEventBuffer String) (s : Iteration String),
      Reachable step Free ({ buffer := b } : Iteration String) s → Snapshot s := by
  intro claim
  have run := (reachable_get appended_runs).snoc trivial (Option.some_get appended_goes_on).symm
  have snapshot := claim {} _ run
  exact absurd (snapshot.notNew (2, "connected") (by decide)) (by decide)

end Iteration

end IsalesTelephony.Transport
