/-
# Transport.ReplayOrder -- the order in which frames reach the streams

`ReplayLog` keeps, beside the client, every frame put on an outbound queue, in
the order of the puts and across streams, and lets the process be restarted on
the same database.  A frame is put by `send` while connected, and by the flush
of a new stream; the two do not mix, because a flush that runs to its end leaves
nothing pending and only a disconnected `send` makes a frame pend.  So what was
put followed by what is pending never leaves the order of acceptance (`InOrder`),
and drop-oldest only takes frames out of it.

A restart keeps the row ids, since the table's counter is part of the file.
-/
import IsalesTelephony.Transport.FrameConservation

namespace IsalesTelephony.Transport

set_option autoImplicit false

open IsalesTelephony.Theory IsalesTelephony.Theory.Transition

universe u

variable {F : Type u}

namespace Pending

/-- With no storage error an append returns exactly when it stores its frame. -/
theorem append_returns (p : Pending F) (message : F) :
    (p.append message none).2 = p.appendStores none := by
  cases p with
  | memory limit pos queued => rfl
  | durable buffer =>
      simp only [append, appendStores, SqliteEventBuffer.append, SqliteEventBuffer.appendStores]
      by_cases opened : buffer.isOpen = true
      · by_cases fits : (buffer.table.insert (some message)).rows.length ≤ buffer.capacity
        · simp [opened, fits]
        · simp [opened, fits]
      · simp [opened]

/-- A buffer that is not open is left as it is. -/
theorem append_refused {p : Pending F} (message : F) (refused : p.appendStores none = false) :
    p.appendEvicts message none = [] ∧ (p.append message none).1.frames = p.frames := by
  cases p with
  | memory limit pos queued => cases refused
  | durable buffer =>
      have closed : buffer.isOpen = false := by
        simpa [appendStores, SqliteEventBuffer.appendStores] using refused
      simp [appendEvicts, append, frames, SqliteEventBuffer.append,
        SqliteEventBuffer.appendEvicts, closed]

/-- A flush that runs to its end leaves no frame pending. -/
theorem flush_empties {p : Pending F} (done : (p.flush none).2.2 = true) :
    (p.flush none).1.frames = [] := by
  cases p with
  | memory limit pos queued => rfl
  | durable buffer =>
      by_cases opened : buffer.isOpen = true
      · simpa [flush, opened, frames] using (SqliteEventBuffer.drain_empties buffer.table).2
      · simp [flush, opened] at done

end Pending

/-- The frames an action puts on the current stream's outbound queue. -/
def putBy (c : GrpcClient F) : ClientAction F → List (Sent F)
  | .send frame critical _ => if c.connected then [⟨c.nextSend, critical, frame⟩] else []
  | .metadataReady fault => (c.pending.flush fault).2.1
  | _ => []

/-- A client, through restarts of its process. -/
structure ReplayLog (F : Type u) where
  client : GrpcClient F
  /-- history: the frames put on the outbound queues, oldest first -/
  put : List (Sent F) := []

inductive ReplayAction (F : Type u) where
  | client (action : ClientAction F)
  /-- the process ends and a new one opens the same file -/
  | restart (capacity : Nat) (capacity_pos : 0 < capacity)

namespace ReplayLog

/-- A new client over the file the last one used.  Calls of `send` stay numbered
through all processes, and so do the histories. -/
def reopen (c : GrpcClient F) (table : SeqLog (Option (Sent F))) (capacity : Nat)
    (capacity_pos : 0 < capacity) : GrpcClient F :=
  { pending := .durable { table := table, capacity := capacity, capacity_pos := capacity_pos }
    nextSend := c.nextSend
    entered := c.entered
    accepted := c.accepted
    refused := c.refused
    evicted := c.evicted
    taken := c.taken
    stranded := c.stranded ++ c.queued
    replayed := c.replayed }

def step (l : ReplayLog F) : ReplayAction F → Option (ReplayLog F)
  | .client action => (l.client.step action).map fun c => ⟨c, l.put ++ putBy l.client action⟩
  | .restart capacity capacity_pos =>
      match l.client.pending with
      | .durable buffer =>
          some { l with client := reopen l.client buffer.table capacity capacity_pos }
      | .memory _ _ _ => none

/-- The frames an earlier process left pending count as accepted. -/
def init (pending : Pending (Sent F)) : ReplayLog F :=
  { client := { GrpcClient.init pending with accepted := pending.frames } }

/-- No statement of the durable buffer fails. -/
def Healthy (_ : ReplayLog F) : ReplayAction F → Prop
  | .client (.send _ _ fault) => fault = none
  | .client (.metadataReady fault) => fault = none
  | _ => True

instance (l : ReplayLog F) (action : ReplayAction F) : Decidable (Healthy l action) := by
  unfold Healthy
  split <;> infer_instance

variable {l m : ReplayLog F} {action : ReplayAction F}

/-- What is put is what the current queue gains. -/
theorem queued_step {c d : GrpcClient F} {action : ClientAction F} (next : c.step action = some d)
    (held : action ≠ .take) (same : action ≠ .openStream) :
    d.queued = c.queued ++ putBy c action := by
  cases action with
  | send frame critical fault =>
      obtain rfl := Option.some.inj next
      simp only [GrpcClient.send, putBy]
      split
      · simp [GrpcClient.queued]
      · split
        · simp [GrpcClient.queued]
        · split <;> simp [GrpcClient.queued]
  | start | metadataFailed | backoffElapsed =>
      simp only [GrpcClient.step] at next
      split at next
      · obtain rfl := Option.some.inj next
        simp [GrpcClient.queued, putBy]
      · cases next
  | openStream => exact absurd rfl same
  | metadataReady fault =>
      simp only [GrpcClient.step] at next
      split at next
      · obtain rfl := Option.some.inj next
        simp only [GrpcClient.metadataReady, GrpcClient.queued]
        split <;> simp [putBy]
      · cases next
  | streamEnded =>
      simp only [GrpcClient.step] at next
      split at next
      · obtain rfl := Option.some.inj next
        unfold GrpcClient.closeChannel
        split <;> simp [GrpcClient.queued, putBy]
      · cases next
  | take => exact absurd rfl held
  | stop =>
      obtain rfl := Option.some.inj next
      unfold GrpcClient.closeChannel
      split <;> simp [GrpcClient.queued, putBy]

/-! ## The order of acceptance -/

/-- What was put, then what is pending, is in the order of acceptance; the rest
of what was accepted is evicted.  Nothing pends while connected. -/
structure InOrder (l : ReplayLog F) : Prop where
  order : (l.put ++ l.client.pending.frames).Sublist l.client.accepted
  places : (l.client.evicted ++ (l.put ++ l.client.pending.frames)).Perm l.client.accepted
  distinct : (l.client.accepted.map Sent.stamp).Nodup
  fresh : ∀ x ∈ l.client.accepted, x.stamp < l.client.nextSend
  flushed : l.client.connected = true → l.client.pending.frames = []

theorem inOrder_init {pending : Pending (Sent F)} (named : (pending.frames.map Sent.stamp).Nodup) :
    InOrder (init pending) where
  order := List.Sublist.refl _
  places := List.Perm.refl _
  distinct := named
  fresh := fun _ listed => GrpcClient.stamp_lt_foldr_max listed
  flushed := fun up => by cases up

/-- A step that accepts nothing, and moves frames from pending to put at most. -/
theorem inOrder_move (ordered : InOrder l)
    (waiting : m.put ++ m.client.pending.frames = l.put ++ l.client.pending.frames)
    (accepted : m.client.accepted = l.client.accepted)
    (evicted : m.client.evicted = l.client.evicted) (next : l.client.nextSend ≤ m.client.nextSend)
    (flushed : m.client.connected = true → m.client.pending.frames = []) : InOrder m where
  order := by rw [waiting, accepted]; exact ordered.order
  places := by rw [waiting, accepted, evicted]; exact ordered.places
  distinct := accepted ▸ ordered.distinct
  fresh := fun x listed => lt_of_lt_of_le (ordered.fresh x (accepted ▸ listed)) next
  flushed := flushed

/-- A frame is accepted: it goes behind all others, and the oldest may go. -/
theorem inOrder_accept {message : Sent F} (dropped : List (Sent F)) (ordered : InOrder l)
    (stamped : message.stamp = l.client.nextSend)
    (waiting : dropped ++ m.client.pending.frames = l.client.pending.frames ++ [message] ∧
        m.put = l.put ∨
      dropped = [] ∧ l.client.pending.frames = [] ∧ m.client.pending.frames = [] ∧
        m.put = l.put ++ [message])
    (accepted : m.client.accepted = l.client.accepted ++ [message])
    (evicted : m.client.evicted = l.client.evicted ++ dropped)
    (next : m.client.nextSend = l.client.nextSend + 1)
    (flushed : m.client.connected = true → m.client.pending.frames = []) : InOrder m where
  order := by
    rw [accepted]
    rcases waiting with ⟨moved, put⟩ | ⟨-, before, after, put⟩
    · have whole : (l.put ++ (dropped ++ m.client.pending.frames)).Sublist
          (l.client.accepted ++ [message]) := by
        rw [moved, ← List.append_assoc]
        exact ordered.order.append (List.Sublist.refl _)
      rw [put]
      exact ((List.Sublist.refl _).append (List.sublist_append_right _ _)).trans whole
    · have order := ordered.order
      rw [before, List.append_nil] at order
      rw [after, List.append_nil, put]
      exact order.append (List.Sublist.refl _)
  places := by
    have grown := ordered.places.append_right [message]
    rw [accepted, evicted]
    refine List.Perm.trans ?_ grown
    rcases waiting with ⟨moved, put⟩ | ⟨none_, before, after, put⟩
    · rw [put, List.append_assoc, List.append_assoc, List.append_assoc l.put, ← moved]
      refine List.Perm.append_left _ ?_
      rw [← List.append_assoc, ← List.append_assoc]
      exact List.perm_append_comm.append_right _
    · simp [none_, before, after, put]
  distinct := by
    rw [accepted, List.map_append, List.map_singleton]
    refine List.nodup_append.mpr ⟨ordered.distinct, List.nodup_singleton _, ?_⟩
    intro stamp used other isNew same
    obtain ⟨x, listed, rfl⟩ := List.mem_map.mp used
    have := ordered.fresh x listed
    rw [List.mem_singleton.mp isNew, stamped] at same
    omega
  fresh := by
    intro x listed
    rw [accepted] at listed
    rw [next]
    rcases List.mem_append.mp listed with old | new
    · exact Nat.lt_succ_of_lt (ordered.fresh x old)
    · rw [List.mem_singleton.mp new, stamped]
      exact Nat.lt_succ_self _
  flushed := flushed

theorem inOrder_send {frame : F} {critical : Bool} (ordered : InOrder l) :
    InOrder ⟨(l.client.send frame critical none).1,
      l.put ++ putBy l.client (.send frame critical none)⟩ := by
  unfold GrpcClient.send putBy
  dsimp only
  split
  · rename_i up
    have before := ordered.flushed up
    exact inOrder_accept [] ordered rfl (.inr ⟨rfl, before, before, rfl⟩) rfl
      (List.append_nil _).symm rfl ordered.flushed
  · rename_i down
    split
    · exact inOrder_move ordered (by rw [List.append_nil]) rfl rfl (Nat.le_succ _) ordered.flushed
    · rw [l.client.pending.append_returns]
      split
      · rename_i stores
        have moved := l.client.pending.append_frames ⟨l.client.nextSend, critical, frame⟩ none
        rw [if_pos stores] at moved
        exact inOrder_accept _ ordered rfl (.inl ⟨moved, List.append_nil _⟩) rfl rfl rfl
          fun up => absurd up down
      · rename_i refused
        obtain ⟨evicts, keeps⟩ := Pending.append_refused
          (⟨l.client.nextSend, critical, frame⟩ : Sent F) (by simpa using refused)
        exact inOrder_move ordered (by simp only [keeps, List.append_nil]) rfl
          (by simp only [evicts, List.append_nil]) (Nat.le_succ _) fun up => absurd up down

theorem inOrder_client {action : ClientAction F} {c : GrpcClient F} (ordered : InOrder l)
    (healthy : Healthy l (.client action)) (next : l.client.step action = some c) :
    InOrder ⟨c, l.put ++ putBy l.client action⟩ := by
  cases action with
  | send frame critical fault =>
      obtain rfl : fault = none := healthy
      obtain rfl := Option.some.inj next
      exact inOrder_send ordered
  | start | openStream | backoffElapsed =>
      simp only [GrpcClient.step] at next
      split at next
      · obtain rfl := Option.some.inj next
        exact inOrder_move ordered (by simp [putBy, GrpcClient.openStream]) rfl rfl
          (Nat.le_refl _) ordered.flushed
      · cases next
  | metadataFailed =>
      simp only [GrpcClient.step] at next
      split at next
      · obtain rfl := Option.some.inj next
        exact inOrder_move ordered (by simp [putBy]) rfl rfl (Nat.le_refl _)
          fun up => by cases up
      · cases next
  | metadataReady fault =>
      obtain rfl : fault = none := healthy
      simp only [GrpcClient.step] at next
      split at next
      · obtain rfl := Option.some.inj next
        have moved : l.put ++ (l.client.pending.flush none).2.1 ++
            (l.client.pending.flush none).1.frames = l.put ++ l.client.pending.frames := by
          rw [List.append_assoc, l.client.pending.flush_conserves none fun _ h => by cases h]
        simp only [GrpcClient.metadataReady, putBy]
        split
        · rename_i done
          exact inOrder_move ordered moved rfl rfl (Nat.le_refl _)
            fun _ => Pending.flush_empties done
        · exact inOrder_move ordered moved rfl rfl (Nat.le_refl _) fun up => by cases up
      · cases next
  | streamEnded =>
      simp only [GrpcClient.step] at next
      split at next
      · obtain rfl := Option.some.inj next
        unfold GrpcClient.closeChannel
        split <;> exact inOrder_move ordered (by simp [putBy]) rfl rfl
          (Nat.le_refl _) fun up => by cases up
      · cases next
  | take =>
      simp only [GrpcClient.step] at next
      split at next
      · obtain rfl := Option.some.inj next
        exact inOrder_move ordered (by simp [putBy]) rfl rfl (Nat.le_refl _)
          ordered.flushed
      · obtain rfl := Option.some.inj next
        exact inOrder_move ordered (by simp [putBy]) rfl rfl (Nat.le_refl _)
          ordered.flushed
      · cases next
  | stop =>
      obtain rfl := Option.some.inj next
      unfold GrpcClient.closeChannel
      split <;> exact inOrder_move ordered (by simp [putBy]) rfl rfl
        (Nat.le_refl _) fun up => by cases up

theorem inOrder_step (ordered : InOrder l) (healthy : Healthy l action)
    (next : l.step action = some m) : InOrder m := by
  cases action with
  | client action =>
      obtain ⟨c, stepped, rfl⟩ := Option.map_eq_some_iff.mp next
      exact inOrder_client ordered healthy stepped
  | restart capacity capacity_pos =>
      simp only [step] at next
      split at next
      · rename_i buffer durable
        obtain rfl := Option.some.inj next
        have same : l.client.pending.frames = SqliteEventBuffer.frames buffer.table := by
          rw [durable]
          rfl
        exact inOrder_move ordered (by rw [same]; rfl) rfl rfl (Nat.le_refl _)
          fun up => by cases up
      · cases next

end ReplayLog

/-- **Replay keeps the order of acceptance.**  Over any number of streams and of
restarts on one file, with no storage error: what was put on the outbound queues
is a subsequence of what was accepted, no accepted frame is put twice, and the
accepted frames never put are those evicted and those pending. -/
theorem replay_in_order (pending : Pending (Sent F))
    (named : (pending.frames.map Sent.stamp).Nodup) (l : ReplayLog F)
    (run : Reachable ReplayLog.step ReplayLog.Healthy (ReplayLog.init pending) l) :
    l.put.Sublist l.client.accepted ∧ (l.put.map Sent.stamp).Nodup ∧
      ∀ m, m ∈ l.client.accepted ∧ m ∉ l.put ↔
        m ∈ l.client.evicted ∨ m ∈ l.client.pending.frames := by
  have ordered : l.InOrder := run.invariant (ReplayLog.inOrder_init named)
    fun _ _ _ ordered healthy next => ReplayLog.inOrder_step ordered healthy next
  have sublist := (List.sublist_append_left _ _).trans ordered.order
  refine ⟨sublist, ordered.distinct.sublist (sublist.map _), fun m => ?_⟩
  have apart := (ordered.places.nodup_iff).mpr ordered.distinct.of_map
  obtain ⟨-, waiting, evicted⟩ := List.nodup_append.mp apart
  obtain ⟨-, -, waits⟩ := List.nodup_append.mp waiting
  rw [← ordered.places.mem_iff, List.mem_append, List.mem_append]
  constructor
  · rintro ⟨isEvicted | isPut | isPending, notPut⟩
    · exact .inl isEvicted
    · exact absurd isPut notPut
    · exact .inr isPending
  · rintro (isEvicted | isPending)
    · exact ⟨.inl isEvicted, fun isPut =>
        evicted m isEvicted m (List.mem_append_left _ isPut) rfl⟩
    · exact ⟨.inr (.inr isPending), fun isPut => waits m isPut m isPending rfl⟩

/-! ## Poles -/

/-- Two frames wait for the first stream, one is sent on it, and one more waits
in the file while the process restarts. -/
def restartedActions : List (ReplayAction String) :=
  [.client (.send "alert" false none), .client (.send "dial" false none), .client .start,
    .client .openStream, .client (.metadataReady none), .client (.send "connected" false none),
    .client .streamEnded, .client (.send "hangup" false none), .restart 2 Nat.two_pos,
    .client .start, .client .openStream, .client (.metadataReady none)]

def emptyFile : Pending (Sent String) := .durable { capacity := 1, capacity_pos := by decide }

theorem restarted_runs : (guardedRun ReplayLog.step ReplayLog.Healthy (ReplayLog.init emptyFile)
    restartedActions).isSome = true := by decide

/-- The first frame is evicted by the second; the other three reach the two
streams in order. -/
theorem restart_replays_in_order :
    (Option.get _ restarted_runs).put =
        [⟨1, false, "dial"⟩, ⟨2, false, "connected"⟩, ⟨3, false, "hangup"⟩] ∧
      (Option.get _ restarted_runs).put.Sublist (Option.get _ restarted_runs).client.accepted :=
  ⟨by decide, (replay_in_order emptyFile (by decide) _ (reachable_guarded_get restarted_runs)).1⟩

/-- A critical frame, sent on an open stream. -/
def criticalActions : List (ReplayAction String) :=
  [.client .start, .client .openStream, .client (.metadataReady none),
    .client (.send "alert" true none)]

theorem critical_runs : (guardedRun ReplayLog.step ReplayLog.Healthy (ReplayLog.init emptyFile)
    criticalActions).isSome = true := by decide

/-- **Critical frames share the queues.**  They are put, but are not among the
accepted non-critical frames. -/
theorem critical_frame_is_put :
    ¬ ∀ (pending : Pending (Sent String)) (l : ReplayLog String),
      (pending.frames.map Sent.stamp).Nodup →
      Reachable ReplayLog.step ReplayLog.Healthy (ReplayLog.init pending) l →
        l.put.Sublist (l.client.accepted.filter fun m => !m.critical) := by
  intro claim
  have sublist := claim _ _ (by decide) (reachable_guarded_get critical_runs)
  exact absurd sublist (by decide)

end IsalesTelephony.Transport
