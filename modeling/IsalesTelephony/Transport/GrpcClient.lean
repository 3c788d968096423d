/-
# Transport.GrpcClient -- the cloud-edge client and its reconnect loop

`CloudEdgeGrpcClient` of `transport/grpc_client.py`.  One stream at a time; each
attempt opens a channel and installs a fresh outbound queue, waits for the
server's initial metadata, flushes the pending buffer onto the queue and then
reads the stream until it ends.  `send` puts a frame on the outbound queue while
connected and into the pending buffer otherwise, unless the frame is critical.

Putting on the unbounded queue does not suspend, so `send` and the flush are
single steps.  The actions are what the event loop can interleave: calls of
`send`, the outbound iterator taking an item, and the turns of the connect loop.

`entered`, `accepted`, `refused`, `evicted`, `taken` and `stranded` are history:
what became of every frame a caller handed to `send`.  A call of `send` is named
by its stamp, so two equal frames stay two frames.
-/
import IsalesTelephony.Transport.SqliteBuffer
import IsalesTelephony.Theory.Transition

namespace IsalesTelephony.Transport

set_option autoImplicit false

open IsalesTelephony.Theory

universe u

/-! ## The pending buffer -/

/-- Exactly one backend is active: the durable buffer, or a bounded deque. -/
inductive Pending (F : Type u) where
  | durable (buffer : SqliteEventBuffer F)
  | memory (limit : Nat) (limit_pos : 0 < limit) (queued : List F)

theorem smallLimit_pos : 0 < 3 := by decide

namespace Pending

variable {F : Type u}

def frames : Pending F → List F
  | .durable buffer => SqliteEventBuffer.frames buffer.table
  | .memory _ _ queued => queued

/-- Append a frame; `false` when the backend raises. -/
def append : Pending F → F → Option AppendFault → Pending F × Bool
  | .durable buffer, message, fault =>
      match buffer.append message fault with
      | (buffer, .ok _) => (.durable buffer, true)
      | (buffer, .error _) => (.durable buffer, false)
  | .memory limit pos queued, message, _ =>
      (.memory limit pos (keepNewest limit (queued ++ [message])), true)

/-- The frames an append evicts. -/
def appendEvicts : Pending F → F → Option AppendFault → List F
  | .durable buffer, message, fault => buffer.appendEvicts message fault
  | .memory limit _ queued, message, _ => overflow limit (queued ++ [message])

/-- Whether an append stores its frame, whatever it returns. -/
def appendStores : Pending F → Option AppendFault → Bool
  | .durable buffer, fault => buffer.appendStores fault
  | .memory _ _ _, _ => true

theorem append_frames (p : Pending F) (message : F) (fault : Option AppendFault) :
    p.appendEvicts message fault ++ (p.append message fault).1.frames =
      p.frames ++ if p.appendStores fault then [message] else [] := by
  cases p with
  | durable buffer =>
      have kept : ((Pending.durable buffer).append message fault).1.frames =
          SqliteEventBuffer.frames (buffer.append message fault).1.table := by
        simp only [append]
        split <;> rename_i h <;> rw [h] <;> rfl
      rw [kept]
      exact buffer.append_frames message fault
  | memory limit pos queued => exact overflow_append_keepNewest limit (queued ++ [message])

/-- What returns normally is stored. -/
theorem appendStores_of_append {p : Pending F} {message : F} {fault : Option AppendFault}
    (returned : (p.append message fault).2 = true) : p.appendStores fault = true := by
  cases p with
  | memory limit pos queued => rfl
  | durable buffer =>
      by_cases stores : buffer.appendStores fault = true
      · exact stores
      · have raises : ∃ e, (buffer.append message fault).2 = .error e := by
          have refused : buffer.isOpen = true → fault = some .insert := by
            simpa [SqliteEventBuffer.appendStores] using stores
          unfold SqliteEventBuffer.append
          split
          · exact ⟨_, rfl⟩
          · rename_i opened
            rw [if_pos (refused (by simpa using opened))]
            exact ⟨_, rfl⟩
        obtain ⟨e, raises⟩ := raises
        simp only [append] at returned
        split at returned
        · rename_i h
          rw [h] at raises
          cases raises
        · cases returned

/-- `_flush_buffer`: what it leaves pending, what it put on the outbound queue,
and whether it ran to its end. -/
def flush : Pending F → Option FlushFault → Pending F × List F × Bool
  | .durable buffer, fault =>
      if buffer.isOpen then
        let drained := SqliteEventBuffer.drain fault buffer.table
        (.durable { buffer with table := drained.table }, drained.put, drained.done)
      else (.durable buffer, [], false)
  | .memory limit pos queued, _ => (.memory limit pos [], queued, true)

/-- Without a failing delete a flush moves frames, in order. -/
theorem flush_conserves (p : Pending F) (fault : Option FlushFault)
    (healthy : ∀ f, fault = some f → ¬ f.AtDelete) :
    (p.flush fault).2.1 ++ (p.flush fault).1.frames = p.frames := by
  cases p with
  | durable buffer =>
      by_cases opened : buffer.isOpen = true
      · simpa [flush, opened, frames] using
          SqliteEventBuffer.drain_conserves fault buffer.table healthy
      · simp [flush, opened, frames]
  | memory limit pos queued => simp [flush, frames]

theorem flush_mem (p : Pending F) (fault : Option FlushFault) (m : F) :
    (m ∈ (p.flush fault).2.1 ∨ m ∈ (p.flush fault).1.frames) ↔ m ∈ p.frames := by
  cases p with
  | durable buffer =>
      by_cases opened : buffer.isOpen = true
      · simpa [flush, opened, frames] using SqliteEventBuffer.drain_mem fault buffer.table m
      · simp [flush, opened, frames]
  | memory limit pos queued => simp [flush, frames]

end Pending

/-! ## The client -/

/-- A frame together with the call of `send` that handed it over. -/
structure Sent (F : Type u) where
  stamp : Nat
  critical : Bool
  frame : F
  deriving DecidableEq, Repr

/-- How a call of `send` ended. -/
inductive SendResult where
  | ok
  /-- `EdgeNotConnected` -/
  | notConnected
  /-- an exception out of the durable buffer -/
  | storage
  deriving DecidableEq, Repr

/-- Where the connect loop is. -/
inductive LoopPhase where
  | idle
  | ready
  /-- `await call.initial_metadata()` -/
  | opening
  /-- `async for response in call` -/
  | streaming
  /-- `await asyncio.sleep(...)` -/
  | backoff
  | stopped
  deriving DecidableEq, Repr

structure GrpcClient (F : Type u) where
  connected : Bool := false
  /-- `_outbound`; `none` is the `_CLOSE` sentinel -/
  outbound : List (Option (Sent F)) := []
  pending : Pending (Sent F)
  phase : LoopPhase := .idle
  channel : Option Nat := none
  nextChannel : Nat := 0
  closedChannels : List Nat := []
  nextSend : Nat := 0
  /-- history: frames that reached the buffer or a queue -/
  entered : List (Sent F) := []
  /-- history: frames whose `send` returned normally -/
  accepted : List (Sent F) := []
  /-- history: frames whose `send` raised, and why -/
  refused : List (Sent F × SendResult) := []
  /-- history: frames dropped oldest-first by the buffer -/
  evicted : List (Sent F) := []
  /-- history: frames handed to a stream by its outbound iterator -/
  taken : List (Sent F) := []
  /-- history: frames left on an outbound queue when the next one replaced it -/
  stranded : List (Sent F) := []
  /-- history: frames a flush put on an outbound queue -/
  replayed : List (Sent F) := []

inductive ClientAction (F : Type u) where
  | send (frame : F) (critical : Bool) (fault : Option AppendFault)
  | start
  /-- a new attempt: channel, fresh outbound queue, `stub.Bidi` -/
  | openStream
  | metadataFailed
  /-- the stream is up: set connected and flush -/
  | metadataReady (fault : Option FlushFault)
  /-- the stream ends, cleanly or with an error -/
  | streamEnded
  | backoffElapsed
  /-- an outbound iterator takes the next item -/
  | take
  | stop
  deriving DecidableEq, Repr

namespace GrpcClient

variable {F : Type u}

def queued (c : GrpcClient F) : List (Sent F) := c.outbound.filterMap id

def send (c : GrpcClient F) (frame : F) (critical : Bool) (fault : Option AppendFault) :
    GrpcClient F × SendResult :=
  let message : Sent F := ⟨c.nextSend, critical, frame⟩
  if c.connected then
    ({ c with
        nextSend := c.nextSend + 1
        outbound := c.outbound ++ [some message]
        entered := c.entered ++ [message]
        accepted := c.accepted ++ [message] },
      .ok)
  else if critical then
    ({ c with nextSend := c.nextSend + 1, refused := c.refused ++ [(message, .notConnected)] },
      .notConnected)
  else
    let appended := c.pending.append message fault
    let stored : GrpcClient F :=
      { c with
        nextSend := c.nextSend + 1
        pending := appended.1
        entered := c.entered ++ if c.pending.appendStores fault then [message] else []
        evicted := c.evicted ++ c.pending.appendEvicts message fault }
    if appended.2 then ({ stored with accepted := c.accepted ++ [message] }, .ok)
    else ({ stored with refused := c.refused ++ [(message, .storage)] }, .storage)

/-- `await self._channel.close()` when there is one. -/
def closeChannel (c : GrpcClient F) : GrpcClient F :=
  match c.channel with
  | some channel =>
      { c with channel := none, closedChannels := c.closedChannels ++ [channel] }
  | none => c

/-- The first half of `_run_one_stream`, up to `await call.initial_metadata()`. -/
def openStream (c : GrpcClient F) : GrpcClient F :=
  { c with
    channel := some c.nextChannel
    nextChannel := c.nextChannel + 1
    outbound := []
    stranded := c.stranded ++ c.queued
    phase := .opening }

/-- Connected, then `_flush_buffer`; an exception out of the flush leaves
`_run_one_stream` before its `try`, so the channel stays open. -/
def metadataReady (c : GrpcClient F) (fault : Option FlushFault) : GrpcClient F :=
  let flushed := c.pending.flush fault
  let after : GrpcClient F :=
    { c with
      pending := flushed.1
      outbound := c.outbound ++ flushed.2.1.map some
      replayed := c.replayed ++ flushed.2.1 }
  if flushed.2.2 then { after with connected := true, phase := .streaming }
  else { after with connected := false, phase := .backoff }

def step (c : GrpcClient F) : ClientAction F → Option (GrpcClient F)
  | .send frame critical fault => some (c.send frame critical fault).1
  | .start => if c.phase = .idle then some { c with phase := .ready } else none
  | .openStream => if c.phase = .ready then some c.openStream else none
  | .metadataFailed =>
      if c.phase = .opening then some { c with connected := false, phase := .backoff } else none
  | .metadataReady fault => if c.phase = .opening then some (c.metadataReady fault) else none
  | .streamEnded =>
      if c.phase = .streaming then
        some { c.closeChannel with connected := false, phase := .backoff }
      else none
  | .backoffElapsed => if c.phase = .backoff then some { c with phase := .ready } else none
  | .take =>
      match c.outbound with
      | some message :: rest => some { c with outbound := rest, taken := c.taken ++ [message] }
      | none :: rest => some { c with outbound := rest }
      | [] => none
  | .stop =>
      some
        { c.closeChannel with
          outbound := c.outbound ++ [none]
          connected := false
          phase := .stopped }

/-- A client before `start`, over a pending buffer that may still hold what an
earlier process left; calls of `send` are numbered past the stamps in it. -/
def init (pending : Pending (Sent F)) : GrpcClient F :=
  { pending := pending
    entered := pending.frames
    nextSend := (pending.frames.map fun m => m.stamp + 1).foldr max 0 }

end GrpcClient

end IsalesTelephony.Transport
