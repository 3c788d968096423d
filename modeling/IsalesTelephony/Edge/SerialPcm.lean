/-
# Edge.SerialPcm -- the audio COM port, its two holders and the pumps of the calls

On Windows the capture opens the modem's audio port when the process starts, and the playback
adopts the handle (`_SerialPortHolder`).  Each call has a duplex pump of its own over the two.
`read_chunk` and `write_chunk` hand a blocking call on the handle to a worker thread
(`asyncio.to_thread`) and wait for it; a read that gives nothing is repeated, fifty times.

A pump that is cancelled waits no longer, and its call is withdrawn if no thread has taken it
up; else the thread goes on, and what it comes back with is dropped.
-/
import IsalesTelephony.Edge.DuplexPump

namespace IsalesTelephony.Edge

set_option autoImplicit false

open IsalesTelephony.Audio
open IsalesTelephony.Theory
open IsalesTelephony.Theory.Transition

/-- A `serial.Serial`. -/
structure SerialHandle where
  serialPath : String
  isOpen : Bool := true
  deriving DecidableEq

/-- `_SerialPortHolder`; a handle is its place among those opened. -/
structure SerialPortHolder where
  serialPath : String
  serial : Option Nat := none
  opened : Bool := false
  closed : Bool := false
  owns : Bool := true
  deriving DecidableEq

namespace SerialPortHolder

/-- `open_port`; `opens` is the driver's answer, and `none` is `SerialPcmError`. -/
def openPort (h : SerialPortHolder) (handles : List SerialHandle) (opens : Bool) :
    Option (SerialPortHolder × List SerialHandle) :=
  if h.opened || h.closed then some (h, handles)
  else if opens then
    some ({ h with serial := some handles.length, opened := true },
      handles ++ [{ serialPath := h.serialPath }])
  else none

/-- `adopt_serial_from`; `none` is `SerialPcmError`. -/
def adoptSerialFrom (h other : SerialPortHolder) : Option SerialPortHolder :=
  if !other.opened || other.serial.isNone then none
  else
    some { h with
      serial := other.serial, serialPath := other.serialPath, opened := true, owns := false }

/-- `close`. -/
def close (h : SerialPortHolder) (handles : List SerialHandle) :
    SerialPortHolder × List SerialHandle :=
  if h.closed then (h, handles)
  else
    let after := { h with closed := true, serial := none }
    match h.serial with
    | none => (after, handles)
    | some handle =>
        if h.owns then (after, handles.modify handle fun x => { x with isOpen := false })
        else (after, handles)

/-- `read_chunk` and `write_chunk` up to the first blocking call: the handle it is made on, or
`none` where `open_port` raises or the assertion fails. -/
def ready (h : SerialPortHolder) (handles : List SerialHandle) (opens : Bool) :
    Option (SerialPortHolder × List SerialHandle × Nat) :=
  match (if h.opened then some (h, handles) else h.openPort handles opens) with
  | none => none
  | some (h, handles) =>
      match h.serial with
      | none => none
      | some handle => some (h, handles, handle)

end SerialPortHolder

/-- A blocking call on a handle. -/
inductive SerialOp where
  | read
  | write (pcm : Pcm)
  deriving DecidableEq

/-- How it came back. -/
inductive SerialResult where
  | data (pcm : Pcm)
  /-- also after a short write or a timeout, which are logged -/
  | wrote
  | raised
  deriving DecidableEq

/-- Where a call is that was handed to `asyncio.to_thread`. -/
inductive ThreadPhase where
  | queued
  | running
  | finished (result : SerialResult)
  deriving DecidableEq

structure ThreadCall where
  op : SerialOp
  handle : Nat
  phase : ThreadPhase := .queued
  deriving DecidableEq

/-- `max_empty`. -/
def maxEmpty : Nat := 50

/-- The pump of a call. -/
structure PortPump where
  pump : DuplexPump
  /-- the last call it handed over -/
  call : Option ThreadCall := none
  /-- the reads in a row that gave nothing to the `read_chunk` under way -/
  empties : Nat := 0
  /-- history: how many reads had come back when it was created -/
  since : Nat

structure AudioPort where
  capture : SerialPortHolder
  playback : SerialPortHolder
  handles : List SerialHandle
  pumps : List PortPump := []
  /-- history: what the reads gave, each with its pump -/
  heard : List (Nat × Pcm) := []
  /-- history: the frames handed to the driver, each with its pump -/
  spoken : List (Nat × Pcm) := []

structure PortConfig where
  chunkBytes : Nat := 320
  ringCapacity : Nat := 16384
  positive : 0 < ringCapacity := by decide

inductive PortAction where
  /-- a call is connected -/
  | create
  /-- its pump's task runs for the first time -/
  | begin (i : Nat) (opens : Bool)
  /-- a thread takes the pump's call up -/
  | takeUp (i : Nat)
  /-- the call comes back on its thread -/
  | comeBack (i : Nat) (result : SerialResult)
  /-- the pump goes on with what came back -/
  | resume (i : Nat) (opens : Bool)
  | cancel (i : Nat)
  /-- another task uses the rings of the call -/
  | ring (i : Nat) (action : DuplexAction)
  | closeCapture
  | closePlayback

/-- What the other tasks do with the rings. -/
def DuplexAction.IsRing : DuplexAction → Bool
  | .put _ | .close | .upstream _ => true
  | .read _ | .wrote | .raises | .cancel => false

/-- The pump's task is not over. -/
def DuplexPump.Live (p : DuplexPump) : Bool :=
  match p.pc with
  | .reading | .writing => true
  | .ended _ => false

/-- The frame last handed to `write_chunk`. -/
def DuplexPump.frame (p : DuplexPump) : Pcm := (p.written.getLast?.map Frame.bytes).getD []

namespace AudioPort

/-- `_build_audio_backends` on Windows; `none` is that the port was not opened. -/
def build (path : String) (opens : Bool) : Option AudioPort :=
  match (SerialPortHolder.mk path none false false true).openPort [] opens with
  | none => none
  | some (capture, handles) =>
      match (SerialPortHolder.mk path none false false true).adoptSerialFrom capture with
      | none => none
      | some playback => some { capture := capture, playback := playback, handles := handles }

def setPump (s : AudioPort) (i : Nat) (x : PortPump) : AudioPort :=
  { s with pumps := s.pumps.set i x }

/-- The pump raises. -/
def raise (s : AudioPort) (i : Nat) (x : PortPump) : Option AudioPort :=
  (x.pump.step .raises).map fun pump => s.setPump i { x with pump := pump, call := none }

/-- `read_chunk`, up to its first call. -/
def readChunk (s : AudioPort) (i : Nat) (x : PortPump) (opens : Bool) : Option AudioPort :=
  match s.capture.ready s.handles opens with
  | none => s.raise i x
  | some (capture, handles, handle) =>
      some ({ s with capture := capture, handles := handles }.setPump i
        { x with empties := 0, call := some { op := .read, handle := handle } })

/-- `write_chunk`, up to its call. -/
def writeChunk (s : AudioPort) (i : Nat) (x : PortPump) (opens : Bool) : Option AudioPort :=
  match s.playback.ready s.handles opens with
  | none => s.raise i x
  | some (playback, handles, handle) =>
      some ({ s with playback := playback, handles := handles }.setPump i
        { x with call := some { op := .write x.pump.frame, handle := handle } })

/-- The pump goes on. -/
def resumed (s : AudioPort) (i : Nat) (x : PortPump) (opens : Bool) (handle : Nat) :
    SerialResult → Option AudioPort
  | .data [] =>
      if x.empties + 1 < maxEmpty then
        some (s.setPump i
          { x with empties := x.empties + 1, call := some { op := .read, handle := handle } })
      -- `read_chunk` returns `b""`
      else (x.pump.step (.read [])).map fun pump =>
        s.setPump i { x with pump := pump, call := none }
  | .data (byte :: rest) =>
      match x.pump.step (.read (byte :: rest)) with
      | none => none
      | some pump =>
          if pump.pc = .writing then s.writeChunk i { x with pump := pump, call := none } opens
          else some (s.setPump i { x with pump := pump, call := none })
  | .wrote =>
      match x.pump.step .wrote with
      | none => none
      | some pump => s.readChunk i { x with pump := pump, call := none } opens
  | .raised => s.raise i x

/-- A thread takes up the call. -/
def takenUp (s : AudioPort) (i : Nat) (x : PortPump) (call : ThreadCall) : AudioPort :=
  if (s.handles[call.handle]?.map (·.isOpen)).getD false then
    let after := s.setPump i { x with call := some { call with phase := .running } }
    match call.op with
    | .read => after
    | .write pcm => { after with spoken := s.spoken ++ [(i, pcm)] }
  -- `PortNotOpenError`
  else s.setPump i { x with call := some { call with phase := .finished .raised } }

/-- What a call may come back with, and what was heard by it. -/
def came (cfg : PortConfig) (i : Nat) : SerialOp → SerialResult → Option (List (Nat × Pcm))
  | .read, .data pcm => if pcm.length ≤ cfg.chunkBytes then some [(i, pcm)] else none
  | .write _, .wrote => some []
  | _, .raised => some []
  | _, _ => none

/-- What cancelling does to the call the pump waits for. -/
def withdraw : Option ThreadCall → Option ThreadCall
  | some call => if call.phase = .queued then none else some call
  | none => none

def step (cfg : PortConfig) (s : AudioPort) : PortAction → Option AudioPort
  | .create =>
      some { s with
        pumps := s.pumps ++ [{
          pump := DuplexPump.started cfg.ringCapacity cfg.ringCapacity cfg.positive cfg.positive
          since := s.heard.length }] }
  | .begin i opens =>
      match s.pumps[i]? with
      | some x =>
          if x.pump.pc = .reading ∧ x.call = none then s.readChunk i x opens else none
      | none => none
  | .takeUp i =>
      match s.pumps[i]? with
      | some x =>
          match x.call with
          | some call => if call.phase = .queued then some (s.takenUp i x call) else none
          | none => none
      | none => none
  | .comeBack i result =>
      match s.pumps[i]? with
      | some x =>
          match x.call with
          | some call =>
              if call.phase = .running then
                (came cfg i call.op result).map fun new =>
                  { s.setPump i { x with call := some { call with phase := .finished result } } with
                    heard := s.heard ++ new }
              else none
          | none => none
      | none => none
  | .resume i opens =>
      match s.pumps[i]? with
      | some x =>
          match x.call with
          | some { op := _, handle := handle, phase := .finished result } =>
              if x.pump.Live then s.resumed i x opens handle result else none
          | _ => none
      | none => none
  | .cancel i =>
      match s.pumps[i]? with
      | some x =>
          (x.pump.step .cancel).map fun pump =>
            s.setPump i { x with pump := pump, call := withdraw x.call }
      | none => none
  | .ring i action =>
      match s.pumps[i]? with
      | some x =>
          if action.IsRing then
            (x.pump.step action).map fun pump => s.setPump i { x with pump := pump }
          else none
      | none => none
  | .closeCapture =>
      some { s with
        capture := (s.capture.close s.handles).1, handles := (s.capture.close s.handles).2 }
  | .closePlayback =>
      some { s with
        playback := (s.playback.close s.handles).1, handles := (s.playback.close s.handles).2 }

end AudioPort

end IsalesTelephony.Edge
