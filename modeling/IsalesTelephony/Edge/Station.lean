/-
# Edge.Station -- the edge orchestrator over one SerialATClient

`edge/main.py` builds one `SerialATClient` and hands it to the orchestrator, in modem
mode.  An `at.dial` or `at.hangup` of the orchestrator is a call on the client, made in
the same step; `_on_dial` goes on in the step in which its `dial` returns or raises.

A pump iterates the event stream that its `dial` returned.  Whenever its turn ends in
`async for`, it asks the stream for the next event; the stream may answer at once, or it
waits on its queue (`deliver`).  `CancelledError` in that await is thrown into the
generator first.  A stream no frame refers to any more is finalised at some later moment
(`close`); so it is after the frame of the pump is gone.

When the other commands of the orchestrator (CPCMREG, ATH) are answered is the action's
to choose, and any number of them may be on the line.  The daemon closes the AT client
after `stop`, and nothing cancels a `dial`.
-/
import IsalesTelephony.Edge.Orchestrator
import IsalesTelephony.Modem.Streams

namespace IsalesTelephony.Edge

set_option autoImplicit false

open IsalesTelephony.Modem (SerialAtClient SerialAction StreamPc StreamLog)
open IsalesTelephony.Theory

structure EdgeStation where
  edge : EdgeOrchestrator := {}
  modem : SerialAtClient := {}
  dialling : Option Nat := none
  /-- history: the calls whose accepting ack could not be sent -/
  unacked : List Nat := []
  deriving DecidableEq, Repr

inductive StationAction where
  | edge (action : EdgeAction)
  | deliver (call : Nat)
  | modem (action : SerialAction)
  deriving DecidableEq, Repr

/-- What the AT client decides, not the action. -/
def PumpInput.ofStream : PumpInput → Bool
  | .event _ => true
  | .streamEnd => true
  | .streamRaise => true
  | _ => false

def HandlerInput.ofDial : HandlerInput → Bool
  | .dialReturned _ => true
  | .dialRaised _ => true
  | _ => false

def told : Modem.AtEvent → AtEvent
  | .connected _ => .connected
  | .remoteHangup _ cause => .remoteHangup (some (String.ofList cause))

/-- What `__anext__` gives the pump, where its stream stood and where it stands. -/
def handed : StreamPc → StreamPc → Option PumpInput
  | .single event, _ => some (.event (told event))
  | _, .yielded _ _ event => some (.event (told event))
  | _, .closed => some .streamEnd
  | _, _ => none

namespace EdgeOrchestrator

def unackedBy (s : EdgeOrchestrator) : EdgeAction → List Nat
  | .handler (.sent false) =>
      match s.handler with
      | .acceptAck call => [call]
      | _ => []
  | _ => []

end EdgeOrchestrator

namespace EdgeStation

/-! ## The two sides -/

/-- What the orchestrator asks of the AT client; `dial` raises with another call active. -/
def ask (s : EdgeStation) : LogEntry → EdgeStation
  | .atDial dial =>
      { s with
        modem := s.modem.dial dial.number.toList
        dialling := if s.modem.active.isSome then none else some s.modem.calls.length }
  | .atHangup _ (some number) => { s with modem := s.modem.hangup number }
  | _ => s

/-- A coroutine of the orchestrator goes on, up to what it awaits. -/
def turn (cfg : Config) (s : EdgeStation) (action : EdgeAction) : Option EdgeStation :=
  (s.edge.step cfg action).map fun edge =>
    (edge.log.drop s.edge.log.length).foldl ask
      { s with edge := edge, unacked := s.unacked ++ s.edge.unackedBy action }

/-- `await self._at.dial(...)` goes on once it has returned or raised. -/
def resumeDial (cfg : Config) (s : EdgeStation) : Option EdgeStation :=
  match s.edge.handler, s.dialling with
  | .atDial _, none => s.turn cfg (.handler (.dialRaised "RuntimeError"))
  | .atDial _, some number =>
      if (s.modem.calls[number]?).any fun c => c.dial = .returned then
        { s with dialling := none }.turn cfg (.handler (.dialReturned number))
      else some s
  | _, _ => some s

/-! ## The pumps and their streams -/

def iterated (s : EdgeStation) (call : Nat) : Option Nat :=
  s.edge.contexts[call]?.bind fun ctx => if ctx.pump = .nextEvent then ctx.modemCallId else none

/-- The stream of a pump goes on, and the pump with it if there is something for it. -/
def iterate (cfg : Config) (s : EdgeStation) (call number : Nat) (action : SerialAction) :
    Option EdgeStation :=
  (s.modem.step action).bind fun modem =>
    match handed (StreamLog.stream s.modem number) (StreamLog.stream modem number) with
    | some input => { s with modem := modem }.turn cfg (.pump call input)
    | none => some { s with modem := modem }

/-- `__anext__`, when the pump is in `async for` again. -/
def pull (cfg : Config) (s : EdgeStation) (call : Nat) : Option EdgeStation :=
  match s.iterated call with
  | some number => s.iterate cfg call number (.next number)
  | none => some s

/-- `CancelledError` in `async for` closes the generator before it reaches the pump. -/
def cut (s : EdgeStation) (call : Nat) : PumpInput → Option EdgeStation
  | .cancelled =>
      match s.iterated call with
      | some number => (s.modem.step (.close number)).map fun modem => { s with modem := modem }
      | none => some s
  | _ => some s

def referred (s : EdgeStation) (number : Nat) : Bool :=
  s.dialling = some number ||
    s.edge.contexts.any (fun ctx => ctx.modemCallId = some number && ctx.pump.live) ||
    match s.edge.handler with
    | .acceptAck call => s.edge.contexts[call]?.any fun ctx => ctx.modemCallId = some number
    | _ => false

/-! ## The step function -/

def mayModem (s : EdgeStation) : SerialAction → Bool
  | .query _ => true
  | .serial (.cancel id) => !s.modem.isDial id
  | .serial _ => true
  | .read _ => true
  | .eof => true
  | .urc _ => true
  | .poll _ => true
  | .pollCancelled _ => true
  | .close number => !s.referred number
  | _ => false

def step (cfg : Config) (s : EdgeStation) : StationAction → Option EdgeStation
  | .edge (.pump call input) =>
      if input.ofStream then none
      else
        (s.cut call input).bind fun s =>
          (s.turn cfg (.pump call input)).bind fun s => s.pull cfg call
  | .edge (.handler input) => if input.ofDial then none else s.turn cfg (.handler input)
  | .edge action => (s.turn cfg action).bind fun s => s.resumeDial cfg
  | .deliver call => (s.iterated call).bind fun number => s.iterate cfg call number (.wake number)
  | .modem action =>
      if s.mayModem action then
        (s.modem.step action).bind fun modem => { s with modem := modem }.resumeDial cfg
      else none

end EdgeStation

end IsalesTelephony.Edge
