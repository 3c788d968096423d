/-
# Audio.RingBuffer -- the PCM ring buffer

`PcmRingBuffer` between the modem and the audio bridge: a deque of chunks with a byte
counter, drop statistics and a condition.  The condition's lock is never held where a task
is suspended: `wait` gives it up, and nothing else between taking and releasing it awaits.
So an operation runs in one step, and a `get` that waits runs again from the loop's test
once its waiter is woken.

`Traffic` is a buffer with what was offered to it, what each `get` gave and where each
accepted chunk went.  In every run the accounts agree (`ring_buffer_accounts`).
-/
import IsalesTelephony.Audio.Pcm
import IsalesTelephony.Theory.Belt
import IsalesTelephony.Theory.Transition

namespace IsalesTelephony.Audio

set_option autoImplicit false

open IsalesTelephony.Theory
open IsalesTelephony.Theory.Transition

/-! ## The buffer -/

/-- The bytes of some chunks. -/
def bytes (chunks : List Pcm) : Nat := (chunks.map List.length).sum

@[simp] theorem bytes_nil : bytes [] = 0 := rfl

@[simp] theorem bytes_cons (chunk : Pcm) (chunks : List Pcm) :
    bytes (chunk :: chunks) = chunk.length + bytes chunks := rfl

@[simp] theorem bytes_append (chunks later : List Pcm) :
    bytes (chunks ++ later) = bytes chunks + bytes later := by simp [bytes]

structure PcmRingBuffer where
  capacity : Nat
  /-- checked by `__init__` -/
  positive : 0 < capacity
  name : String := "pcm"
  chunks : List Pcm := []
  size : Int := 0
  /-- `_cond`: the tasks that wait, oldest first, and whether they have been woken -/
  waiters : List (Nat × Bool) := []
  closed : Bool := false
  droppedChunks : Nat := 0
  droppedBytes : Nat := 0

/-- How a `get` or a `get_nowait` ended. -/
inductive Got where
  | chunk (chunk : Pcm)
  /-- `StopAsyncIteration` -/
  | stop
  /-- `get_nowait` found nothing -/
  | nothing
  | cancelled
  deriving DecidableEq

instance waiterLawful : LawfulBEq (Nat × Bool) := inferInstance

/-- `Condition.notify(1)`: the first waiter not woken yet is. -/
def notify : List (Nat × Bool) → List (Nat × Bool)
  | [] => []
  | (task, true) :: later => (task, true) :: notify later
  | (task, false) :: later => (task, true) :: later

/-- `Condition.notify_all()`. -/
def notifyAll (waiters : List (Nat × Bool)) : List (Nat × Bool) :=
  waiters.map fun waiter => (waiter.1, true)

namespace PcmRingBuffer

/-- One turn of the loop of `put`. -/
def dropOldest (r : PcmRingBuffer) (old : Pcm) (rest : List Pcm) : PcmRingBuffer :=
  { r with
    chunks := rest
    size := r.size - old.length
    droppedChunks := r.droppedChunks + 1
    droppedBytes := r.droppedBytes + old.length }

/-- The loop of `put`, over the chunks queued, and those it drops. -/
def makeRoom (need : Nat) : List Pcm → PcmRingBuffer → PcmRingBuffer × List Pcm
  | [], r => (r, [])
  | old :: rest, r =>
      if (r.capacity : Int) < r.size + need then
        let later := makeRoom need rest (r.dropOldest old rest)
        (later.1, old :: later.2)
      else (r, [])

/-- The buffer after, and the queued chunks that were dropped. -/
def put (r : PcmRingBuffer) (chunk : Pcm) : Except String (PcmRingBuffer × List Pcm) :=
  if r.closed then .error ("PcmRingBuffer(" ++ r.name ++ ") closed")
  else if r.capacity < chunk.length then
    .ok ({ r with droppedChunks := r.droppedChunks + 1,
                  droppedBytes := r.droppedBytes + chunk.length }, [])
  else
    let room := makeRoom chunk.length r.chunks r
    .ok ({ room.1 with chunks := room.1.chunks ++ [chunk],
                       size := room.1.size + chunk.length,
                       waiters := notify room.1.waiters }, room.2)

def popleft (r : PcmRingBuffer) (chunk : Pcm) (rest : List Pcm) : PcmRingBuffer :=
  { r with chunks := rest, size := r.size - chunk.length }

/-- `get` of a task, from the loop's test on; `none` when it waits. -/
def get (r : PcmRingBuffer) (task : Nat) : PcmRingBuffer × Option Got :=
  match r.chunks with
  | chunk :: rest => (r.popleft chunk rest, some (.chunk chunk))
  | [] =>
      if r.closed then (r, some .stop)
      else ({ r with waiters := r.waiters ++ [(task, false)] }, none)

def getNowait (r : PcmRingBuffer) : PcmRingBuffer × Got :=
  match r.chunks with
  | chunk :: rest => (r.popleft chunk rest, .chunk chunk)
  | [] => (r, .nothing)

def close (r : PcmRingBuffer) : PcmRingBuffer :=
  { r with closed := true, waiters := notifyAll r.waiters }

/-- A waiter goes, because its task runs on. -/
def unwait (r : PcmRingBuffer) (task : Nat) : PcmRingBuffer :=
  { r with waiters := r.waiters.filter fun waiter => waiter.1 ≠ task }

end PcmRingBuffer

/-! ## Tasks -/

inductive RingAction where
  | put (chunk : Pcm)
  /-- a task calls `get` -/
  | get (task : Nat)
  /-- a woken task takes the lock again -/
  | wake (task : Nat)
  | getNowait (task : Nat)
  /-- a waiting task is cancelled; later versions of `wait` then notify another -/
  | cancel (task : Nat) (passesOn : Bool)
  | close

structure Traffic where
  ring : PcmRingBuffer
  /-- history: the chunks offered, and whether the buffer was closed by then -/
  offers : List (Bool × Pcm) := []
  /-- history: the chunks accepted and where they went -/
  belt : Belt Pcm := {}
  /-- history: how each `get` and `get_nowait` ended -/
  results : List (Nat × Got) := []

namespace Traffic

/-- A task's `get` or `get_nowait` ends. -/
def finish (s : Traffic) (ring : PcmRingBuffer) (task : Nat) (got : Got) : Traffic :=
  { s with
    ring := ring
    results := s.results ++ [(task, got)]
    belt := match got with
      | .chunk _ => s.belt.leave .taken 1
      | _ => s.belt }

/-- `get` from the loop's test on. -/
def getFrom (s : Traffic) (ring : PcmRingBuffer) (task : Nat) : Traffic :=
  match ring.get task with
  | (after, some got) => s.finish after task got
  | (after, none) => { s with ring := after }

def put (s : Traffic) (chunk : Pcm) : Traffic :=
  match s.ring.put chunk with
  | .error _ => { s with offers := s.offers ++ [(true, chunk)] }
  | .ok (after, dropped) =>
      { s with
        ring := after
        offers := s.offers ++ [(false, chunk)]
        belt := if chunk.length ≤ s.ring.capacity
          then (s.belt.leave .dropped dropped.length).join chunk else s.belt }

/-- A waiting task is cancelled. -/
def cancel (s : Traffic) (task : Nat) (passesOn : Bool) : Traffic :=
  let ring := s.ring.unwait task
  s.finish (if passesOn then { ring with waiters := notify ring.waiters } else ring) task .cancelled

def close (s : Traffic) : Traffic := { s with ring := s.ring.close }

def step (s : Traffic) : RingAction → Option Traffic
  | .put chunk => some (s.put chunk)
  | .get task =>
      -- a task waits in one place at a time
      if s.ring.waiters.any (·.1 = task) then none else some (s.getFrom s.ring task)
  | .wake task =>
      if (task, true) ∈ s.ring.waiters then some (s.getFrom (s.ring.unwait task) task) else none
  | .getNowait task =>
      if s.ring.waiters.any (·.1 = task) then none
      else some (s.finish s.ring.getNowait.1 task s.ring.getNowait.2)
  | .cancel task passesOn =>
      if s.ring.waiters.any (·.1 = task) then some (s.cancel task passesOn) else none
  | .close => some s.close

/-- The chunks that `get` and `get_nowait` gave, in order. -/
def delivered (s : Traffic) : List Pcm :=
  s.results.filterMap fun result =>
    match result.2 with
    | .chunk chunk => some chunk
    | _ => none

/-- The chunks offered before `close`. -/
def offeredOpen (s : Traffic) : List Pcm := (s.offers.filter fun offer => !offer.1).map (·.2)

/-- The accounts of a buffer agree. -/
structure Accounts (s : Traffic) : Prop where
  counted : s.ring.size = bytes s.ring.chunks
  bounded : s.ring.size ≤ s.ring.capacity
  accepted : s.belt.joined = s.offeredOpen.filter fun chunk => chunk.length ≤ s.ring.capacity
  inOrder : s.belt.gone.map (·.2) ++ s.ring.chunks = s.belt.joined
  delivered : s.delivered = s.belt.left .taken
  conserved : bytes s.offeredOpen =
    bytes s.delivered + s.ring.droppedBytes + bytes s.ring.chunks
  conservedChunks : s.offeredOpen.length =
    s.delivered.length + s.ring.droppedChunks + s.ring.chunks.length
  /-- none sleeps on a closed buffer -/
  awake : s.ring.closed = true → ∀ waiter ∈ s.ring.waiters, waiter.2 = true

/-- What a step does to the queue. -/
structure Orderly (s : Traffic) (action : RingAction) (t : Traffic) : Prop where
  /-- a put that is accepted drops the oldest chunks, and no more than it must -/
  dropsOldest : ∀ chunk, action = .put chunk → s.ring.closed = false →
    chunk.length ≤ s.ring.capacity → ∃ dropped kept, s.ring.chunks = dropped ++ kept ∧
      t.ring.chunks = kept ++ [chunk] ∧ t.belt.gone = s.belt.gone ++ dropped.map (.dropped, ·) ∧
      ∀ early late, dropped = early ++ late → late ≠ [] →
        s.ring.capacity < bytes (late ++ kept) + chunk.length
  /-- a put after `close` changes nothing -/
  refuses : ∀ chunk, action = .put chunk → s.ring.closed = true →
    t.ring = s.ring ∧ t.belt = s.belt ∧ t.results = s.results
  /-- `get` ends only when closed and empty -/
  stops : ∀ task, t.results = s.results ++ [(task, .stop)] →
    s.ring.closed = true ∧ s.ring.chunks = []
  /-- a `get` that runs takes the oldest chunk if there is one, closed or not -/
  serves : ∀ task chunk rest, action = .get task ∨ action = .wake task →
    s.ring.chunks = chunk :: rest →
      t.results = s.results ++ [(task, .chunk chunk)] ∧ t.ring.chunks = rest

end Traffic

/-! ## Dropping the oldest -/

/-- What the loop of `put` leaves: the longest end of the queue beside which the new chunk
fits. -/
structure Room (r : PcmRingBuffer) (need : Nat) (room : PcmRingBuffer) (dropped : List Pcm) :
    Prop where
  split : r.chunks = dropped ++ room.chunks
  counted : room.size = bytes room.chunks
  fits : room.size + need ≤ r.capacity
  same : room = { r with
    chunks := room.chunks
    size := room.size
    droppedChunks := r.droppedChunks + dropped.length
    droppedBytes := r.droppedBytes + bytes dropped }
  needed : ∀ early late, dropped = early ++ late → late ≠ [] →
    r.capacity < bytes (late ++ room.chunks) + need

theorem PcmRingBuffer.room_makeRoom {need : Nat} : ∀ {chunks : List Pcm} {r : PcmRingBuffer},
    r.chunks = chunks → r.size = bytes chunks → need ≤ r.capacity →
      Room r need (r.makeRoom need chunks).1 (r.makeRoom need chunks).2
  | [], r, queued, counted, small => by
      refine ⟨rfl, by rw [makeRoom, queued, counted], ?_, rfl, fun early late none_ some_ => ?_⟩
      · rw [makeRoom, counted, bytes_nil]
        omega
      · exact absurd (List.append_eq_nil_iff.mp none_.symm).2 some_
  | old :: rest, r, queued, counted, small => by
      have held : bytes (old :: rest) = old.length + bytes rest := rfl
      rw [makeRoom]
      split
      · rename_i full
        have later : Room (r.dropOldest old rest) need (makeRoom need rest (r.dropOldest old rest)).1
            (makeRoom need rest (r.dropOldest old rest)).2 :=
          room_makeRoom rfl (by simp only [dropOldest]; omega) small
        refine ⟨?_, later.counted, later.fits, ?_, ?_⟩
        · rw [queued]
          exact congrArg (old :: ·) later.split
        · have same := later.same
          simp only [dropOldest] at same
          simp only [dropOldest, bytes_cons, List.length_cons]
          rw [same]
          congr 1 <;> omega
        · intro early late parts some_
          cases early with
          | nil =>
              have whole : late ++ ((r.dropOldest old rest).makeRoom need rest).1.chunks =
                  old :: rest := by
                rw [← List.nil_append late, ← parts]
                exact congrArg (old :: ·) later.split.symm
              show r.capacity < bytes (late ++ (makeRoom need rest (r.dropOldest old rest)).1.chunks) + need
              rw [whole]
              omega
          | cons first early =>
              exact later.needed early late (List.cons.inj parts).2 some_
      · rename_i fits
        refine ⟨rfl, by rw [queued, counted], Int.not_lt.mp fits, rfl,
          fun early late none_ some_ => ?_⟩
        exact absurd (List.append_eq_nil_iff.mp none_.symm).2 some_

theorem mem_notify {waiter : Nat × Bool} : ∀ {waiters : List (Nat × Bool)},
    waiter ∈ notify waiters → waiter ∈ waiters ∨ waiter.2 = true
  | [], member => absurd member List.not_mem_nil
  | (task, true) :: later, member => by
      rcases List.mem_cons.mp member with rfl | inLater
      · exact .inr rfl
      · exact (mem_notify inLater).imp_left (List.mem_cons_of_mem _)
  | (task, false) :: later, member => by
      rcases List.mem_cons.mp member with rfl | inLater
      · exact .inr rfl
      · exact .inl (List.mem_cons_of_mem _ inLater)

/-! ## One step -/

namespace Traffic

variable {s t : Traffic} {action : RingAction}

/-- The buffer with its condition changed. -/
def rewait (r : PcmRingBuffer) (waiters : List (Nat × Bool)) : PcmRingBuffer :=
  { r with waiters := waiters }

/-- A waiter left by a step slept before, is awake, or sleeps on an open buffer. -/
def Rests (s : Traffic) (waiters : List (Nat × Bool)) : Prop :=
  ∀ waiter ∈ waiters, waiter ∈ s.ring.waiters ∨ waiter.2 = true ∨ s.ring.closed = false

/-- What one step does. -/
inductive Moves (s : Traffic) : RingAction → Traffic → Prop
  | refused {chunk : Pcm} (closed : s.ring.closed = true) :
      Moves s (.put chunk) { s with offers := s.offers ++ [(true, chunk)] }
  | oversize {chunk : Pcm} (isOpen : s.ring.closed = false)
      (large : s.ring.capacity < chunk.length) :
      Moves s (.put chunk)
        { s with
          ring := { s.ring with droppedChunks := s.ring.droppedChunks + 1,
                                droppedBytes := s.ring.droppedBytes + chunk.length }
          offers := s.offers ++ [(false, chunk)] }
  | accepted {chunk : Pcm} {room : PcmRingBuffer} {dropped : List Pcm}
      (isOpen : s.ring.closed = false) (small : chunk.length ≤ s.ring.capacity)
      (made : Room s.ring chunk.length room dropped) :
      Moves s (.put chunk)
        { s with
          ring := { room with chunks := room.chunks ++ [chunk],
                              size := room.size + chunk.length, waiters := notify room.waiters }
          offers := s.offers ++ [(false, chunk)]
          belt := (s.belt.leave .dropped dropped.length).join chunk }
  | takes {task : Nat} {action : RingAction} {chunk : Pcm} {rest : List Pcm}
      {waiters : List (Nat × Bool)}
      (calls : action = .get task ∨ action = .wake task ∨ action = .getNowait task)
      (head : s.ring.chunks = chunk :: rest) (rests : s.Rests waiters) :
      Moves s action (s.finish (rewait (s.ring.popleft chunk rest) waiters) task (.chunk chunk))
  | ends {task : Nat} {action : RingAction} {got : Got} {waiters : List (Nat × Bool)}
      (aside : ∀ chunk, action ≠ .put chunk) (without : ∀ chunk, got ≠ .chunk chunk)
      (stops : got = .stop → s.ring.closed = true ∧ s.ring.chunks = [])
      (serves : ∀ task, action = .get task ∨ action = .wake task → s.ring.chunks = [])
      (rests : s.Rests waiters) :
      Moves s action (s.finish (rewait s.ring waiters) task got)
  | waits {action : RingAction} {waiters : List (Nat × Bool)}
      (aside : ∀ chunk, action ≠ .put chunk) (empty : s.ring.chunks = [])
      (rests : s.Rests waiters) : Moves s action { s with ring := rewait s.ring waiters }
  | closes : Moves s .close s.close

theorem rests_unwait (s : Traffic) (task : Nat) : s.Rests (s.ring.unwait task).waiters :=
  fun _ member => .inl (List.mem_filter.mp member).1

/-- `get` from the loop's test on. -/
theorem moves_getFrom {task : Nat} {waiters : List (Nat × Bool)}
    (calls : action = .get task ∨ action = .wake task) (rests : s.Rests waiters) :
    s.Moves action (s.getFrom (rewait s.ring waiters) task) := by
  have aside : ∀ chunk, action ≠ .put chunk := by
    rintro chunk rfl
    rcases calls with isGet | isWake
    · cases isGet
    · cases isWake
  cases queued : s.ring.chunks with
  | cons chunk rest =>
      have got : (rewait s.ring waiters).get task =
          (rewait (s.ring.popleft chunk rest) waiters, some (.chunk chunk)) := by
        simp [PcmRingBuffer.get, rewait, queued, PcmRingBuffer.popleft]
      rw [getFrom, got]
      exact .takes (calls.imp_right .inl) queued rests
  | nil =>
      by_cases closed : s.ring.closed = true
      · have got : (rewait s.ring waiters).get task = (rewait s.ring waiters, some .stop) := by
          simp [PcmRingBuffer.get, rewait, queued, closed]
        rw [getFrom, got]
        exact .ends aside nofun (fun _ => ⟨closed, queued⟩) (fun _ _ => queued) rests
      · have got : (rewait s.ring waiters).get task =
            (rewait s.ring (waiters ++ [(task, false)]), none) := by
          simp [PcmRingBuffer.get, rewait, queued, closed]
        rw [getFrom, got]
        refine .waits aside queued fun waiter member => ?_
        rcases List.mem_append.mp member with old | new
        · exact rests waiter old
        · exact .inr (.inr (Bool.eq_false_of_not_eq_true closed))

theorem moves_put (counted : s.ring.size = bytes s.ring.chunks) (chunk : Pcm) :
    s.Moves (.put chunk) (s.put chunk) := by
  unfold put PcmRingBuffer.put
  by_cases closed : s.ring.closed = true
  · rw [if_pos closed]
    exact .refused closed
  · have isOpen := Bool.eq_false_of_not_eq_true closed
    rw [if_neg closed]
    by_cases large : s.ring.capacity < chunk.length
    · rw [if_pos large]
      simp only [if_neg (Nat.not_le.mpr large)]
      exact .oversize isOpen large
    · have small := Nat.not_lt.mp large
      rw [if_neg large]
      simp only [if_pos small]
      exact .accepted isOpen small (PcmRingBuffer.room_makeRoom rfl counted small)

theorem moves_cancel (task : Nat) (passesOn : Bool) :
    s.Moves (.cancel task passesOn) (s.cancel task passesOn) := by
  have notCall : ∀ other, RingAction.cancel task passesOn = .get other ∨
      RingAction.cancel task passesOn = .wake other → s.ring.chunks = [] :=
    fun _ calls => calls.elim nofun nofun
  have rests := s.rests_unwait task
  cases passesOn with
  | false =>
      have ends : s.Moves (.cancel task false)
          (s.finish (rewait s.ring (s.ring.unwait task).waiters) task .cancelled) :=
        .ends nofun nofun nofun notCall rests
      exact ends
  | true =>
      have ends : s.Moves (.cancel task true)
          (s.finish (rewait s.ring (notify (s.ring.unwait task).waiters)) task .cancelled) := by
        refine .ends nofun nofun nofun notCall fun waiter member => ?_
        rcases mem_notify member with old | awake
        · exact rests waiter old
        · exact .inr (.inl awake)
      exact ends

theorem step_cases (counted : s.ring.size = bytes s.ring.chunks)
    (next : s.step action = some t) : s.Moves action t := by
  have still : s.Rests s.ring.waiters := fun _ member => .inl member
  cases action with
  | put chunk =>
      obtain rfl := Option.some.inj next
      exact moves_put counted chunk
  | get task =>
      simp only [step] at next
      split at next
      · cases next
      · obtain rfl := Option.some.inj next
        exact moves_getFrom (.inl rfl) still
  | wake task =>
      simp only [step] at next
      split at next
      · obtain rfl := Option.some.inj next
        exact moves_getFrom (.inr rfl) (s.rests_unwait task)
      · cases next
  | getNowait task =>
      simp only [step] at next
      split at next
      · cases next
      · obtain rfl := Option.some.inj next
        cases queued : s.ring.chunks with
        | cons chunk rest =>
            have got : s.ring.getNowait =
                (rewait (s.ring.popleft chunk rest) s.ring.waiters, .chunk chunk) := by
              simp [PcmRingBuffer.getNowait, queued, rewait, PcmRingBuffer.popleft]
            rw [got]
            exact .takes (.inr (.inr rfl)) queued still
        | nil =>
            have got : s.ring.getNowait = (s.ring, .nothing) := by
              simp [PcmRingBuffer.getNowait, queued]
            have ends : s.Moves (.getNowait task)
                (s.finish (rewait s.ring s.ring.waiters) task .nothing) :=
              .ends nofun nofun nofun (fun _ _ => queued) still
            rw [got]
            exact ends
  | cancel task passesOn =>
      simp only [step] at next
      split at next
      · obtain rfl := Option.some.inj next
        exact moves_cancel task passesOn
      · cases next
  | close =>
      obtain rfl := Option.some.inj next
      exact .closes

/-! ## The accounts -/

theorem delivered_finish (ring : PcmRingBuffer) (task : Nat) (got : Got) :
    (s.finish ring task got).delivered =
      s.delivered ++ (match got with | .chunk chunk => [chunk] | _ => []) := by
  unfold delivered finish
  rw [List.filterMap_append]
  cases got <;> rfl

theorem delivered_put (chunk : Pcm) : (s.put chunk).delivered = s.delivered := by
  unfold put
  split <;> rfl

theorem delivered_cancel (task : Nat) (passesOn : Bool) :
    (s.cancel task passesOn).delivered = s.delivered :=
  (delivered_finish _ _ _).trans (List.append_nil _)

/-- A `get` gives the chunk it ends with, if it ends with one. -/
theorem delivered_getFrom (ring : PcmRingBuffer) (task : Nat) :
    (s.getFrom ring task).delivered = s.delivered ++
      (match (ring.get task).2 with | some (.chunk chunk) => [chunk] | _ => []) := by
  unfold getFrom
  split
  · rename_i after got ends
    rw [delivered_finish, ends]
    cases got <;> rfl
  · rename_i after waits
    rw [waits]
    exact (List.append_nil _).symm

/-- What a `get` ends with, and the chunks that it gives. -/
inductive Gives (s : Traffic) : Option Got → List Pcm → Prop
  | chunk {chunk : Pcm} {rest : List Pcm} (head : s.ring.chunks = chunk :: rest) :
      Gives s (some (.chunk chunk)) [chunk]
  | stop (closed : s.ring.closed = true) (empty : s.ring.chunks = []) : Gives s (some .stop) []
  | waits (empty : s.ring.chunks = []) : Gives s none []

theorem gives_getFrom (s : Traffic) (waiters : List (Nat × Bool)) (task : Nat) :
    ∃ given, Gives s ((rewait s.ring waiters).get task).2 given ∧
      (s.getFrom (rewait s.ring waiters) task).delivered = s.delivered ++ given := by
  rw [delivered_getFrom]
  cases queued : s.ring.chunks with
  | cons chunk rest =>
      have got : ((rewait s.ring waiters).get task).2 = some (.chunk chunk) := by
        simp [PcmRingBuffer.get, rewait, queued]
      rw [got]
      exact ⟨[chunk], .chunk queued, rfl⟩
  | nil =>
      by_cases closed : s.ring.closed = true
      · have got : ((rewait s.ring waiters).get task).2 = some .stop := by
          simp [PcmRingBuffer.get, rewait, queued, closed]
        rw [got]
        exact ⟨[], .stop closed queued, rfl⟩
      · have got : ((rewait s.ring waiters).get task).2 = none := by
          simp [PcmRingBuffer.get, rewait, queued, closed]
        rw [got]
        exact ⟨[], .waits queued, rfl⟩

/-- A chunk that is put joins the queue or does not. -/
theorem joined_put (chunk : Pcm) :
    (s.put chunk).belt.joined = s.belt.joined ∨
      (s.put chunk).belt.joined = s.belt.joined ++ [chunk] := by
  unfold put
  split
  · exact .inl rfl
  · dsimp only
    split
    · exact .inr rfl
    · exact .inl rfl

theorem offers_put (chunk : Pcm) :
    (s.put chunk).offers = s.offers ++ [(s.ring.closed, chunk)] := by
  unfold put PcmRingBuffer.put
  by_cases closed : s.ring.closed = true
  · rw [if_pos closed, closed]
  · rw [if_neg closed, Bool.eq_false_of_not_eq_true closed]
    by_cases large : s.ring.capacity < chunk.length
    · rw [if_pos large]
    · rw [if_neg large]

/-- Only a put offers. -/
theorem offers_moves (moves : s.Moves action t) (aside : ∀ chunk, action ≠ .put chunk) :
    t.offers = s.offers := by
  cases moves with
  | refused => exact absurd rfl (aside _)
  | oversize => exact absurd rfl (aside _)
  | accepted => exact absurd rfl (aside _)
  | takes => rfl
  | ends => rfl
  | waits => rfl
  | closes => rfl

theorem joined_finish (ring : PcmRingBuffer) (task : Nat) (got : Got) :
    (s.finish ring task got).belt.joined = s.belt.joined := by
  cases got <;> rfl

theorem joined_getFrom (ring : PcmRingBuffer) (task : Nat) :
    (s.getFrom ring task).belt.joined = s.belt.joined := by
  unfold getFrom
  split
  · exact joined_finish _ _ _
  · rfl

/-- A closed buffer stays closed. -/
theorem closed_moves (moves : s.Moves action t) (closed : s.ring.closed = true) :
    t.ring.closed = true := by
  cases moves with
  | refused => exact closed
  | oversize => exact closed
  | accepted isOpen small made => exact absurd (closed.symm.trans isOpen) nofun
  | takes => exact closed
  | ends => exact closed
  | waits => exact closed
  | closes => rfl

theorem offered_closed (chunk : Pcm) :
    { s with offers := s.offers ++ [(true, chunk)] }.offeredOpen = s.offeredOpen := by
  simp [offeredOpen]

theorem offered_open (chunk : Pcm) (became : t.offers = s.offers ++ [(false, chunk)]) :
    t.offeredOpen = s.offeredOpen ++ [chunk] := by
  simp [offeredOpen, became]

/-- The queue of the belt is the buffer's. -/
theorem Accounts.queued (accounts : Accounts s) : s.belt.queued = s.ring.chunks :=
  List.append_cancel_left (s.belt.inOrder.trans accounts.inOrder.symm)

theorem awake_rests {waiters : List (Nat × Bool)} (accounts : Accounts s)
    (rests : s.Rests waiters) (closed : s.ring.closed = true) :
    ∀ waiter ∈ waiters, waiter.2 = true := by
  intro waiter member
  rcases rests waiter member with old | awake | isOpen
  · exact accounts.awake closed waiter old
  · exact awake
  · rw [isOpen] at closed
    cases closed

theorem accounts_accepted {chunk : Pcm} {room : PcmRingBuffer} {dropped : List Pcm}
    (accounts : Accounts s) (isOpen : s.ring.closed = false)
    (small : chunk.length ≤ s.ring.capacity) (made : Room s.ring chunk.length room dropped) :
    Accounts { s with
      ring := { room with chunks := room.chunks ++ [chunk],
                          size := room.size + chunk.length, waiters := notify room.waiters }
      offers := s.offers ++ [(false, chunk)]
      belt := (s.belt.leave .dropped dropped.length).join chunk } := by
  have queued := accounts.queued
  have capacity : room.capacity = s.ring.capacity := by rw [made.same]
  have closed : room.closed = s.ring.closed := by rw [made.same]
  have droppedBytes : room.droppedBytes = s.ring.droppedBytes + bytes dropped := by rw [made.same]
  have droppedChunks : room.droppedChunks = s.ring.droppedChunks + dropped.length := by
    rw [made.same]
  have kept : (s.belt.leave .dropped dropped.length).queued = room.chunks := by
    rw [Belt.queued_leave, queued, made.split, List.drop_left]
  have split := congrArg bytes made.split
  have splitChunks := congrArg List.length made.split
  rw [bytes_append] at split
  rw [List.length_append] at splitChunks
  have conserved := accounts.conserved
  have conservedChunks := accounts.conservedChunks
  refine ⟨?_, ?_, ?_, ?_, ?_, ?_, ?_, fun shut => ?_⟩
  · simp only [bytes_append, bytes_cons, bytes_nil, made.counted]
    omega
  · simp only [capacity]
    exact made.fits
  · rw [offered_open (s := s) chunk rfl, List.filter_append]
    simp only [List.filter_singleton, capacity, decide_eq_true small, Belt.joined_join,
      Belt.joined_leave, accounts.accepted]
    rfl
  · rw [← Belt.inOrder, Belt.queued_join, kept]
  · have taken : (s.belt.leave .dropped dropped.length).left .taken = s.belt.left .taken :=
      Belt.left_leave_of_ne _ _ _ _ nofun
    exact accounts.delivered.trans taken.symm
  · rw [offered_open (s := s) chunk rfl]
    show bytes (s.offeredOpen ++ [chunk]) =
      bytes s.delivered + room.droppedBytes + bytes (room.chunks ++ [chunk])
    rw [bytes_append, bytes_append, droppedBytes]
    omega
  · rw [offered_open (s := s) chunk rfl]
    show (s.offeredOpen ++ [chunk]).length =
      s.delivered.length + room.droppedChunks + (room.chunks ++ [chunk]).length
    rw [List.length_append, List.length_append, droppedChunks]
    omega
  · exact absurd (shut.symm.trans (closed.trans isOpen)) nofun

/-- **One step.** -/
theorem accounts_moves (accounts : Accounts s) (moves : s.Moves action t) : Accounts t := by
  cases moves with
  | refused closed =>
      exact ⟨accounts.counted, accounts.bounded, by rw [offered_closed]; exact accounts.accepted,
        accounts.inOrder, accounts.delivered, by rw [offered_closed]; exact accounts.conserved,
        by rw [offered_closed]; exact accounts.conservedChunks, accounts.awake⟩
  | @oversize chunk isOpen large =>
      have conserved := accounts.conserved
      have conservedChunks := accounts.conservedChunks
      refine ⟨accounts.counted, accounts.bounded, ?_, accounts.inOrder, accounts.delivered, ?_, ?_,
        accounts.awake⟩
      · rw [offered_open (s := s) chunk rfl, List.filter_append, List.filter_singleton,
          decide_eq_false (Nat.not_le.mpr large)]
        exact accounts.accepted.trans (List.append_nil _).symm
      · rw [offered_open (s := s) chunk rfl, bytes_append, bytes_cons, bytes_nil]
        show bytes s.offeredOpen + (chunk.length + 0) =
          bytes s.delivered + (s.ring.droppedBytes + chunk.length) + bytes s.ring.chunks
        omega
      · rw [offered_open (s := s) chunk rfl, List.length_append, List.length_singleton]
        show s.offeredOpen.length + 1 =
          s.delivered.length + (s.ring.droppedChunks + 1) + s.ring.chunks.length
        omega
  | accepted isOpen small made => exact accounts_accepted accounts isOpen small made
  | @takes task action chunk rest waiters calls head rests =>
      have counted := accounts.counted
      have bounded := accounts.bounded
      have conserved := accounts.conserved
      have conservedChunks := accounts.conservedChunks
      rw [head, bytes_cons] at counted conserved
      rw [head, List.length_cons] at conservedChunks
      have first : s.belt.queued.take 1 = [chunk] := by
        rw [accounts.queued, head]
        rfl
      have awake := awake_rests accounts rests
      refine ⟨?_, ?_, accounts.accepted, ?_, ?_, ?_, ?_, awake⟩
      · show s.ring.size - chunk.length = bytes rest
        omega
      · show s.ring.size - chunk.length ≤ s.ring.capacity
        omega
      · show (s.belt.leave .taken 1).gone.map (·.2) ++ rest = s.belt.joined
        have queued : (s.belt.leave .taken 1).queued = rest := by
          rw [Belt.queued_leave, accounts.queued, head]
          rfl
        rw [← queued, Belt.inOrder, Belt.joined_leave]
      · rw [delivered_finish]
        show s.delivered ++ [chunk] = (s.belt.leave .taken 1).left .taken
        rw [Belt.left_leave, first, accounts.delivered]
      · rw [delivered_finish, bytes_append, bytes_cons, bytes_nil]
        show bytes s.offeredOpen =
          bytes s.delivered + (chunk.length + 0) + s.ring.droppedBytes + bytes rest
        omega
      · rw [delivered_finish, List.length_append, List.length_singleton]
        show s.offeredOpen.length = s.delivered.length + 1 + s.ring.droppedChunks + rest.length
        omega
  | @ends task action got waiters aside without stops serves rests =>
      have delivered : (s.finish (rewait s.ring waiters) task got).delivered = s.delivered := by
        rw [delivered_finish]
        cases got with
        | chunk chunk => exact absurd rfl (without chunk)
        | stop => exact List.append_nil _
        | nothing => exact List.append_nil _
        | cancelled => exact List.append_nil _
      have belt : (s.finish (rewait s.ring waiters) task got).belt = s.belt := by
        cases got with
        | chunk chunk => exact absurd rfl (without chunk)
        | stop => rfl
        | nothing => rfl
        | cancelled => rfl
      have awake := awake_rests accounts rests
      refine ⟨accounts.counted, accounts.bounded, ?_, ?_, ?_, ?_, ?_, awake⟩
      · rw [belt]
        exact accounts.accepted
      · rw [belt]
        exact accounts.inOrder
      · rw [belt, delivered]
        exact accounts.delivered
      · rw [delivered]
        exact accounts.conserved
      · rw [delivered]
        exact accounts.conservedChunks
  | waits aside empty rests =>
      have awake := awake_rests accounts rests
      exact ⟨accounts.counted, accounts.bounded, accounts.accepted, accounts.inOrder,
        accounts.delivered, accounts.conserved, accounts.conservedChunks, awake⟩
  | closes =>
      refine ⟨accounts.counted, accounts.bounded, accounts.accepted, accounts.inOrder,
        accounts.delivered, accounts.conserved, accounts.conservedChunks,
        fun _ waiter member => ?_⟩
      obtain ⟨_, _, rfl⟩ := List.mem_map.mp member
      rfl

/-- **What a step does to the queue.** -/
theorem orderly_step (accounts : Accounts s) (next : s.step action = some t) :
    Orderly s action t := by
  have queued := accounts.queued
  cases step_cases accounts.counted next with
  | @refused chunk closed =>
      refine ⟨fun _ _ isOpen => ?_, fun _ _ _ => ⟨rfl, rfl, rfl⟩, fun task stopped => ?_,
        fun _ _ _ calls => calls.elim nofun nofun⟩
      · exact absurd (closed.symm.trans isOpen) nofun
      · exact absurd stopped (by simp)
  | @oversize chunk isOpen large =>
      refine ⟨fun _ same _ small => ?_, fun _ _ closed => ?_, fun task stopped => ?_,
        fun _ _ _ calls => calls.elim nofun nofun⟩
      · cases same
        exact absurd small (Nat.not_le.mpr large)
      · exact absurd (closed.symm.trans isOpen) nofun
      · exact absurd stopped (by simp)
  | @accepted chunk room dropped isOpen small made =>
      refine ⟨fun _ same _ _ => ?_, fun _ _ closed => ?_, fun task stopped => ?_,
        fun _ _ _ calls => calls.elim nofun nofun⟩
      · cases same
        refine ⟨dropped, room.chunks, made.split, rfl, ?_, made.needed⟩
        have oldest : s.belt.queued.take dropped.length = dropped := by
          rw [queued, made.split, List.take_left]
        exact congrArg (fun items => s.belt.gone ++ items.map (Exit.dropped, ·)) oldest
      · exact absurd (closed.symm.trans isOpen) nofun
      · exact absurd stopped (by simp)
  | @takes task action chunk rest waiters calls head rests =>
      refine ⟨fun other same => ?_, fun other same => ?_, fun other stopped => ?_,
        fun other first later served split => ?_⟩
      · subst same
        exact absurd calls (by simp)
      · subst same
        exact absurd calls (by simp)
      · have last := List.append_cancel_left stopped
        cases last
      · have same : other = task := by
          rcases served with rfl | rfl
          · simpa using calls
          · simpa using calls
        obtain ⟨rfl, rfl⟩ := List.cons.inj (head.symm.trans split)
        subst same
        exact ⟨rfl, rfl⟩
  | @ends task action got waiters aside without stops serves rests =>
      refine ⟨fun other same => absurd same (aside other),
        fun other same => absurd same (aside other), fun other stopped => ?_,
        fun other first later served split => ?_⟩
      · have last := List.append_cancel_left stopped
        exact stops (Prod.mk.inj (List.cons.inj last).1).2
      · exact absurd (split.symm.trans (serves other served)) nofun
  | waits aside empty rests =>
      refine ⟨fun other same => absurd same (aside other),
        fun other same => absurd same (aside other), fun task stopped => ?_,
        fun _ _ _ _ split => ?_⟩
      · exact absurd stopped (by simp)
      · exact absurd (split.symm.trans empty) nofun
  | closes =>
      refine ⟨fun _ same => (by cases same), fun _ same => (by cases same), fun task stopped => ?_,
        fun _ _ _ calls => calls.elim nofun nofun⟩
      have same : s.results = s.results ++ [(task, .stop)] := stopped
      exact absurd same (by simp)

/-! ### Main result -/

theorem accounts_init (capacity : Nat) (positive : 0 < capacity) (name : String) :
    Accounts { ring := { capacity := capacity, positive := positive, name := name } } :=
  ⟨rfl, Int.natCast_nonneg _, rfl, rfl, rfl, rfl, rfl, fun _ _ member => by cases member⟩

/-- **The ring buffer.**  In every run of puts, gets and closes by any tasks, with chunks of
any size, the accounts of the buffer agree in every state, and each step treats the queue in
order. -/
theorem ring_buffer_accounts (capacity : Nat) (positive : 0 < capacity) (name : String) :
    ∀ s, Reachable step Free
        { ring := { capacity := capacity, positive := positive, name := name } } s →
      Accounts s ∧ s.delivered.Sublist s.belt.joined ∧ s.belt.joined.Sublist s.offeredOpen ∧
        ∀ action t, s.step action = some t → Orderly s action t := by
  intro s run
  have accounts := run.invariant (P := Accounts) (accounts_init capacity positive name)
    fun _ _ _ accounts _ next => accounts_moves accounts (step_cases accounts.counted next)
  refine ⟨accounts, ?_, ?_, fun action t next => orderly_step accounts next⟩
  · rw [accounts.delivered]
    exact s.belt.left_sublist .taken
  · rw [accounts.accepted]
    exact List.filter_sublist

/-- A reader that waits, a chunk dropped for the next, one too large, one taken after the
close and one refused. -/
def overflowing : List RingAction :=
  [.get 0, .put [1, 2], .wake 0, .put [3, 4, 5], .put [6, 7], .put [0, 0, 0, 0, 0], .close,
    .put [8], .get 1, .get 1]

theorem overflowing_runs :
    (run step { ring := { capacity := 4, positive := by decide } } overflowing).isSome = true := by
  decide

theorem overflowing_accounts :
    let s := (run step _ overflowing).get overflowing_runs
    Accounts s ∧ s.delivered = [[1, 2], [6, 7]] ∧ s.results.getLast? = some (1, .stop) :=
  ⟨(ring_buffer_accounts 4 (by decide) "pcm" _ (reachable_get overflowing_runs)).1, by decide,
    by decide⟩

end Traffic

end IsalesTelephony.Audio
