/-
# Edge.Orchestrator -- the edge orchestrator as a state machine

`EdgeOrchestrator` of `edge/orchestrator.py`, in modem mode and in dev-no-modem
mode.  A coroutine is a program counter at the `await` it is suspended in
(`PumpPc`, `Handler`, `StopPc`); an action resumes one of them with what its
`await` produced and runs the source up to the next `await`.  The event loop may
pick any of them, so every interleaving is a run.

The gRPC client awaits the message callback before it reads the next message
(`_run_one_stream`), so at most one `_on_dial` or `_on_cancel` is in progress.

What the orchestrator does not decide is the action's to choose: the outcome of
`at.dial`, of `grpc.send`, of CPCMREG, of `begin_call`, of the RTC session
factory and of the RTC join, and the AT events of each call.  Whether the bridge
can be built is decided: `AudioBridge` rejects an empty peer uid.

`log` is the history of what the orchestrator did outwards, in order.
-/
import IsalesTelephony.Edge.Frames
import IsalesTelephony.Theory.Dict
import IsalesTelephony.Theory.Transition

namespace IsalesTelephony.Edge

set_option autoImplicit false

open IsalesTelephony.Theory

/-- `ATEvent`, as `_pump_at_events` tells them apart. -/
inductive AtEvent where
  | connected
  | remoteHangup (cause : Option String)
  | other
  deriving DecidableEq, Repr

/-- The await of `_CallContext.teardown`.  Closing the rings does not suspend
once their users are gone. -/
inductive Stage where
  /-- `await task`, for the tasks of the call other than the current one -/
  | tasks
  /-- `await self.bridge.leave()` -/
  | bridgeLeave
  /-- `await self.rtc_session.leave()` -/
  | rtcLeave
  /-- `await self.at_client.cpcmreg_disable()` -/
  | cpcmregDisable
  deriving DecidableEq, Repr

/-- From where the pump ends the call: the remote_hangup branch, the CPCMREG and
join failures of `_handle_connected`, or the finally-block. -/
inductive Via where
  | event | pcmFailed | joinFailed | final
  deriving DecidableEq, Repr

/-- Where `_pump_at_events` is suspended. -/
inductive PumpPc where
  /-- no task: dev-no-modem mode, or the ack has not been sent yet -/
  | absent
  | created
  | nextEvent
  | connectedSend
  | cpcmregEnable
  | alertSend
  | join
  /-- `_handle_remote_hangup`, sending the CallEvent -/
  | hangupSend (via : Via)
  | teardown (via : Via) (stage : Stage)
  /-- `await self._at.hangup(...)` after a CPCMREG failure -/
  | modemHangup
  | done
  deriving DecidableEq, Repr

def PumpPc.live : PumpPc → Bool
  | .absent => false
  | .done => false
  | _ => true

/-- The pump is in `_handle_remote_hangup` or in `teardown`. -/
def PumpPc.ending : PumpPc → Bool
  | .hangupSend _ => true
  | .teardown _ _ => true
  | _ => false

/-- `_CallContext`, with the pump of the call. -/
structure CallContext where
  dial : DialCommand
  modemCallId : Option Nat
  /-- `bridge`, and whether its RTC session is joined -/
  bridge : Option Bool := none
  /-- `rtc_session` of the dev-no-modem path, and whether it is joined -/
  rtcSession : Option Bool := none
  recorder : Bool := false
  cpcmregEnabled : Bool := false
  terminated : Bool := false
  pump : PumpPc := .absent
  pumpCancelled : Bool := false
  /-- capture, playback, duplex, mic and recording tasks not yet finished -/
  audioTasks : Nat := 0
  /-- joined RTC sessions the context no longer refers to -/
  strayRtc : Nat := 0
  /-- history: the AT event stream delivered remote_hangup -/
  hangupDelivered : Bool := false
  /-- history: returns of cpcmreg_enable and calls of cpcmreg_disable -/
  enables : Nat := 0
  disables : Nat := 0
  deriving DecidableEq, Repr

/-- What the orchestrator was constructed with. -/
structure Config where
  devNoModem : Bool := false
  /-- `recorder is not None and max_recordings > 0` -/
  recording : Bool := false
  /-- `sys.platform == "win32"` -/
  windows : Bool := false
  /-- `ISALES_DEV_NO_MIC_CAPTURE != "1"` -/
  micCapture : Bool := true
  deriving DecidableEq, Repr

inductive BeginCall where
  | ok | diskFull | raised
  deriving DecidableEq, Repr

namespace CallContext

def callId (ctx : CallContext) : String := ctx.dial.callId

/-! ### Teardown -/

def tasksDone (ctx : CallContext) (byPump : Bool) : Bool :=
  ctx.audioTasks = 0 && (byPump || !ctx.pump.live)

def afterRtcLeave (ctx : CallContext) : CallContext × Option Stage :=
  if ctx.cpcmregEnabled then
    ({ ctx with rtcSession := none, cpcmregEnabled := false, disables := ctx.disables + 1 },
      some .cpcmregDisable)
  else ({ ctx with rtcSession := none }, none)

def afterBridgeLeave (ctx : CallContext) : CallContext × Option Stage :=
  let ctx := { ctx with bridge := none, recorder := false }
  if ctx.rtcSession.isSome then (ctx, some .rtcLeave) else ctx.afterRtcLeave

def afterTasks (ctx : CallContext) : CallContext × Option Stage :=
  if ctx.bridge.isSome then (ctx, some .bridgeLeave) else ctx.afterBridgeLeave

/-- `task.cancel()` for the tasks of the call other than the current one. -/
def cancelTasks (ctx : CallContext) (byPump : Bool) : CallContext :=
  if byPump then ctx else { ctx with pumpCancelled := ctx.pump.live }

def awaitTasks (ctx : CallContext) (byPump : Bool) : CallContext × Option Stage :=
  if ctx.tasksDone byPump then ctx.afterTasks else (ctx, some .tasks)

/-- `teardown` up to its first await, `none` when it returned. -/
def beginTeardown (ctx : CallContext) (byPump : Bool) : CallContext × Option Stage :=
  (ctx.cancelTasks byPump).awaitTasks byPump

/-- `teardown` from one await to the next; exceptions of the awaited calls are
suppressed. -/
def resumeTeardown (ctx : CallContext) (byPump : Bool) :
    Stage → Option (CallContext × Option Stage)
  | .tasks => if ctx.tasksDone byPump then some ctx.afterTasks else none
  | .bridgeLeave => some ctx.afterBridgeLeave
  | .rtcLeave => some ctx.afterRtcLeave
  | .cpcmregDisable => some (ctx, none)

end CallContext

/-! ## The event pump -/

/-- What the await of the pump produced. -/
inductive PumpInput where
  | start
  | event (event : AtEvent)
  | streamEnd
  | streamRaise
  | sent (ok : Bool)
  /-- `cpcmreg_enable` returned; what begin_call and the RTC factory then do -/
  | enabled (begin_ : BeginCall) (factory : Bool)
  | pcmFailed (detail : String)
  | enableRaised
  | joined
  | joinFailed
  | stageDone
  | hungUp
  /-- `CancelledError` at the current await -/
  | cancelled
  deriving DecidableEq, Repr

/-- What a resumed coroutine does to the orchestrator. -/
inductive Effect where
  | send (emission : Emission)
  | pop
  | atHangup
  deriving DecidableEq, Repr

/-- A pump at its next await, and what it did on the way there. -/
abbrev PumpStep := CallContext × List Effect

namespace CallContext

/-- The pump returns: `finally` pops the call and tears it down if the call id is
still in the map. -/
def exitPump (ctx : CallContext) (inCalls : Bool) : PumpStep :=
  if inCalls then
    match ctx.beginTeardown true with
    | (ctx, some stage) => ({ ctx with pump := .teardown .final stage }, [.pop])
    | (ctx, none) => ({ ctx with pump := .done }, [.pop])
  else ({ ctx with pump := .done }, [])

def afterHangup (ctx : CallContext) (inCalls : Bool) : Via → PumpStep
  | .event => ctx.exitPump inCalls
  | .pcmFailed => ({ ctx with pump := .modemHangup }, [.atHangup])
  | .joinFailed => ({ ctx with pump := .nextEvent }, [])
  | .final => ({ ctx with pump := .done }, [])

/-- `_handle_remote_hangup` up to its first await. -/
def handleRemoteHangup (ctx : CallContext) (inCalls : Bool) (via : Via)
    (cause : Option String) : PumpStep :=
  if ctx.terminated then ctx.afterHangup inCalls via
  else
    ({ ctx with terminated := true, pump := .hangupSend via },
      [.send (sendCallEventRemoteHangup ctx.callId cause)])

def popAndTeardown (ctx : CallContext) (via : Via) : PumpStep :=
  match ctx.beginTeardown true with
  | (ctx, some stage) => ({ ctx with pump := .teardown via stage }, [.pop])
  | (ctx, none) =>
      let (ctx, effects) := ctx.afterHangup false via
      (ctx, .pop :: effects)

/-- Building the audio path raises: begin_call, the RTC factory, or `AudioBridge`
on an empty peer uid. -/
def setupRaises (cfg : Config) (ctx : CallContext) (begin_ : BeginCall) (factory : Bool) : Bool :=
  (cfg.recording && begin_ == .raised) || !factory || ctx.dial.rtcUidEngine == ""

/-- `_handle_connected` after cpcmreg_enable has returned. -/
def buildAudioPath (cfg : Config) (ctx : CallContext) (inCalls : Bool) (begin_ : BeginCall)
    (factory : Bool) : PumpStep :=
  let ctx :=
    { ctx with
      cpcmregEnabled := true
      enables := ctx.enables + 1
      recorder := ctx.recorder || (cfg.recording && begin_ == BeginCall.ok) }
  if ctx.setupRaises cfg begin_ factory then ctx.exitPump inCalls
  else
    ({ ctx with
        bridge := some false
        strayRtc := ctx.strayRtc + if ctx.bridge = some true then 1 else 0
        pump := .join },
      [])

def runPump (cfg : Config) (ctx : CallContext) (inCalls : Bool) :
    PumpPc → PumpInput → Option PumpStep
  | .created, .start => some ({ ctx with pump := .nextEvent }, [])
  | .nextEvent, .event .connected =>
      some ({ ctx with pump := .connectedSend }, [.send (sendCallEventConnected ctx.callId)])
  | .nextEvent, .event (.remoteHangup cause) =>
      some ({ ctx with hangupDelivered := true }.handleRemoteHangup inCalls .event cause)
  | .nextEvent, .event .other => some (ctx, [])
  | .nextEvent, .streamEnd => some (ctx.exitPump inCalls)
  | .nextEvent, .streamRaise => some (ctx.exitPump inCalls)
  | .connectedSend, .sent true => some ({ ctx with pump := .cpcmregEnable }, [])
  | .connectedSend, .sent false => some (ctx.exitPump inCalls)
  | .cpcmregEnable, .enabled begin_ factory => some (ctx.buildAudioPath cfg inCalls begin_ factory)
  | .cpcmregEnable, .pcmFailed detail =>
      some ({ ctx with pump := .alertSend }, [.send (sendHardwareAlertPcmEnableFailed detail)])
  | .cpcmregEnable, .enableRaised => some (ctx.exitPump inCalls)
  | .alertSend, .sent true =>
      some (ctx.handleRemoteHangup inCalls .pcmFailed (some "network_out_of_order"))
  | .alertSend, .sent false => some (ctx.exitPump inCalls)
  | .join, .joined =>
      some
        ({ ctx with
            bridge := some true
            audioTasks := ctx.audioTasks + if cfg.windows then 1 else 2
            pump := .nextEvent },
          [])
  | .join, .joinFailed =>
      some (ctx.handleRemoteHangup inCalls .joinFailed (some "network_out_of_order"))
  | .hangupSend via, .sent true => some (ctx.popAndTeardown via)
  | .hangupSend _, .sent false => some (ctx.exitPump inCalls)
  | .teardown via stage, .stageDone =>
      (ctx.resumeTeardown true stage).map fun
        | (ctx, some stage) => ({ ctx with pump := .teardown via stage }, [])
        | (ctx, none) => ctx.afterHangup inCalls via
  | .modemHangup, .hungUp => some ({ ctx with pump := .nextEvent }, [])
  | _, _ => none

/-- `CancelledError` in the pump.  A task cancelled before it first runs never
enters its `try`; awaiting the call's tasks swallows the error. -/
def cancelPump (ctx : CallContext) (inCalls : Bool) : PumpPc → PumpStep
  | .created => ({ ctx with pump := .done }, [])
  | .teardown via .tasks =>
      match ctx.afterTasks with
      | (ctx, some stage) => ({ ctx with pump := .teardown via stage }, [])
      | (ctx, none) => ctx.afterHangup inCalls via
  | .teardown .final _ => ({ ctx with pump := .done }, [])
  | _ => ctx.exitPump inCalls

/-- One turn of the pump.  A cancelled task gets `CancelledError` at its await,
whatever the await would have produced. -/
def pumpStep (cfg : Config) (ctx : CallContext) (inCalls : Bool) (input : PumpInput) :
    Option PumpStep :=
  match ctx.pump.live, ctx.pumpCancelled, input with
  | true, true, .cancelled => some ({ ctx with pumpCancelled := false }.cancelPump inCalls ctx.pump)
  | true, false, input => ctx.runPump cfg inCalls ctx.pump input
  | _, _, _ => none

end CallContext

/-! ## The orchestrator -/

/-- Where the message callback is suspended. -/
inductive Handler where
  | idle
  | duplicateAck (callId : String)
  | atDial (dial : DialCommand)
  | rejectAck (callId : String)
  /-- acking `accepted=true`, the pump not created yet -/
  | acceptAck (call : Nat)
  | devAck (call : Nat)
  | devConnected (call : Nat)
  | devJoin (call : Nat)
  /-- `_handle_remote_hangup` in dev-no-modem mode: join failure or cancel -/
  | devHangupSend (call : Nat)
  | devTeardown (call : Nat) (stage : Stage)
  | cancelHangup (call : Nat)
  deriving DecidableEq, Repr

def Handler.call? : Handler → Option Nat
  | .acceptAck call => some call
  | .devAck call => some call
  | .devConnected call => some call
  | .devJoin call => some call
  | .devHangupSend call => some call
  | .devTeardown call _ => some call
  | .cancelHangup call => some call
  | _ => none

def Handler.tearingDown (call : Nat) : Option Stage → Handler
  | some stage => .devTeardown call stage
  | none => .idle

inductive HandlerInput where
  | sent (ok : Bool)
  | dialReturned (modemCallId : Nat)
  | dialRaised (exception : String)
  /-- the connected event is sent; whether the RTC factory then returns a session -/
  | sentFactory (factory : Bool)
  | joined (begin_ : BeginCall)
  | joinFailed
  | stageDone
  | hungUp
  deriving DecidableEq, Repr

/-- Where `stop` is suspended. -/
inductive StopPc where
  | notCalled
  | teardown (call : Nat) (stage : Stage) (rest : List String)
  | closing
  | returned
  deriving DecidableEq, Repr

/-- What the orchestrator did outwards. -/
inductive LogEntry where
  | atDial (dial : DialCommand)
  | atHangup (call : Nat) (modemCallId : Option Nat)
  | send (emission : Emission)
  | stopReturned
  deriving DecidableEq, Repr

structure EdgeOrchestrator where
  /-- `on_cloud_message` was called; nothing ever removes the callback -/
  callback : Bool := false
  started : Bool := false
  /-- `_calls`, a context by its index -/
  calls : List (String × Nat) := []
  contexts : List CallContext := []
  handler : Handler := .idle
  stopping : StopPc := .notCalled
  log : List LogEntry := []
  deriving DecidableEq, Repr

inductive Cloud2Edge where
  | dial (dial : DialCommand)
  | cancel (callId : String)
  deriving DecidableEq, Repr

inductive EdgeAction where
  | start
  | message (message : Cloud2Edge)
  | handler (input : HandlerInput)
  | pump (call : Nat) (input : PumpInput)
  | audioEnd (call : Nat)
  | stop
  | stopResume
  deriving DecidableEq, Repr

def Effect.entry (call : Nat) (ctx : CallContext) : Effect → Option LogEntry
  | .send emission => some (.send emission)
  | .atHangup => some (.atHangup call ctx.modemCallId)
  | .pop => none

namespace EdgeOrchestrator

def find (s : EdgeOrchestrator) (callId : String) : Option (Nat × CallContext) :=
  (s.calls.lookup callId).bind fun call => s.contexts[call]?.map fun ctx => (call, ctx)

def inCalls (s : EdgeOrchestrator) (callId : String) : Bool := (s.calls.lookup callId).isSome

def record (s : EdgeOrchestrator) (entry : LogEntry) : EdgeOrchestrator :=
  { s with log := s.log ++ [entry] }

/-- Write the context of a call back and carry out what its coroutine did. -/
def update (s : EdgeOrchestrator) (call : Nat) (ctx : CallContext) (effects : List Effect) :
    EdgeOrchestrator :=
  { s with
    contexts := s.contexts.set call ctx
    calls := if .pop ∈ effects then Dict.erase s.calls ctx.callId else s.calls
    log := s.log ++ effects.filterMap (Effect.entry call ctx) }

def register (s : EdgeOrchestrator) (ctx : CallContext) : EdgeOrchestrator :=
  { s with
    contexts := s.contexts ++ [ctx]
    calls := Dict.put s.calls ctx.callId s.contexts.length }

def accept (s : EdgeOrchestrator) (dial : DialCommand) (modemCallId : Option Nat) :
    EdgeOrchestrator :=
  (s.register { dial := dial, modemCallId := modemCallId }).record
    (.send (sendDialAck dial.callId true ""))

/-! ### The message callback -/

/-- `_handle_remote_hangup` run by the message callback (dev-no-modem mode). -/
def devRemoteHangup (s : EdgeOrchestrator) (call : Nat) (ctx : CallContext)
    (cause : String) : EdgeOrchestrator :=
  if ctx.terminated then { s with handler := .idle }
  else
    { s.update call { ctx with terminated := true }
        [.send (sendCallEventRemoteHangup ctx.callId (some cause))] with
      handler := .devHangupSend call }

/-- `_on_dial` up to its first await. -/
def onDial (cfg : Config) (s : EdgeOrchestrator) (dial : DialCommand) : EdgeOrchestrator :=
  if s.inCalls dial.callId then
    { s.record (.send (sendDialAck dial.callId true "duplicate")) with
      handler := .duplicateAck dial.callId }
  else if cfg.devNoModem then
    { s.accept dial none with handler := .devAck s.contexts.length }
  else { s.record (.atDial dial) with handler := .atDial dial }

def onCancel (cfg : Config) (s : EdgeOrchestrator) (callId : String) : EdgeOrchestrator :=
  match s.find callId with
  | none => s
  | some (call, ctx) =>
      if cfg.devNoModem then s.devRemoteHangup call ctx "manual_hangup"
      else { s.update call ctx [.atHangup] with handler := .cancelHangup call }

/-- Start the recording and microphone tasks of a dev-no-modem call. -/
def devJoined (cfg : Config) (ctx : CallContext) (begin_ : BeginCall) : CallContext :=
  let ctx :=
    match ctx.rtcSession with
    | some _ => { ctx with rtcSession := some true }
    | none => { ctx with strayRtc := ctx.strayRtc + 1 }
  if cfg.recording && begin_ == .raised then ctx
  else
    let recording := cfg.recording && begin_ == .ok
    { ctx with
      recorder := ctx.recorder || recording
      audioTasks := ctx.audioTasks + (if recording then 1 else 0) +
        if cfg.micCapture then 1 else 0 }

/-- The message callback from one await to the next, when it works on a call.
An exception out of it is logged by the gRPC client, which goes on reading. -/
def resumeCall (cfg : Config) (s : EdgeOrchestrator) (call : Nat) (ctx : CallContext) :
    Handler → HandlerInput → Option EdgeOrchestrator
  | .acceptAck _, .sent true =>
      some { s.update call { ctx with pump := .created } [] with handler := .idle }
  | .acceptAck _, .sent false => some { s with handler := .idle }
  | .devAck _, .sent true =>
      some
        { s.update call ctx [.send (sendCallEventConnected ctx.callId)] with
          handler := .devConnected call }
  | .devAck _, .sent false => some { s with handler := .idle }
  | .devConnected _, .sentFactory true =>
      some { s.update call { ctx with rtcSession := some false } [] with handler := .devJoin call }
  | .devConnected _, .sentFactory false => some { s with handler := .idle }
  | .devConnected _, .sent false => some { s with handler := .idle }
  | .devJoin _, .joined begin_ =>
      some { s.update call (devJoined cfg ctx begin_) [] with handler := .idle }
  | .devJoin _, .joinFailed => some (s.devRemoteHangup call ctx "network_out_of_order")
  | .devHangupSend _, .sent true =>
      let (ctx, stage) := ctx.beginTeardown false
      some { s.update call ctx [.pop] with handler := .tearingDown call stage }
  | .devHangupSend _, .sent false => some { s with handler := .idle }
  | .devTeardown _ stage, .stageDone =>
      (ctx.resumeTeardown false stage).map fun (ctx, stage) =>
        { s.update call ctx [] with handler := .tearingDown call stage }
  | .cancelHangup _, .hungUp => some { s with handler := .idle }
  | _, _ => none

def resumeHandler (cfg : Config) (s : EdgeOrchestrator) (input : HandlerInput) :
    Option EdgeOrchestrator :=
  match s.handler.call?, s.handler, input with
  | some call, handler, input =>
      s.contexts[call]?.bind fun ctx => s.resumeCall cfg call ctx handler input
  | none, .duplicateAck _, .sent _ => some { s with handler := .idle }
  | none, .atDial dial, .dialReturned modemCallId =>
      some { s.accept dial (some modemCallId) with handler := .acceptAck s.contexts.length }
  | none, .atDial dial, .dialRaised exception =>
      some
        { s.record (.send (sendDialAck dial.callId false ("at_dial: " ++ exception))) with
          handler := .rejectAck dial.callId }
  | none, .rejectAck _, .sent _ => some { s with handler := .idle }
  | _, _, _ => none

/-! ### stop -/

/-- The loop of `stop` over the rest of its snapshot, up to the next await. -/
def stopNext (s : EdgeOrchestrator) : List String → EdgeOrchestrator
  | [] => { s with stopping := .closing }
  | callId :: rest =>
      match s.find callId with
      | none => stopNext s rest
      | some (call, ctx) =>
          match ctx.beginTeardown false with
          | (ctx, some stage) =>
              { s.update call ctx [.pop] with stopping := .teardown call stage rest }
          | (ctx, none) => stopNext (s.update call ctx [.pop]) rest

def resumeStop (s : EdgeOrchestrator) : Option EdgeOrchestrator :=
  match s.stopping with
  | .teardown call stage rest =>
      s.contexts[call]?.bind fun ctx =>
        (ctx.resumeTeardown false stage).map fun
          | (ctx, some stage) => { s.update call ctx [] with stopping := .teardown call stage rest }
          | (ctx, none) => stopNext (s.update call ctx []) rest
  | .closing => some { s.record .stopReturned with started := false, stopping := .returned }
  | _ => none

/-! ### The step function -/

def resumePump (cfg : Config) (s : EdgeOrchestrator) (call : Nat) (input : PumpInput) :
    Option EdgeOrchestrator :=
  s.contexts[call]?.bind fun ctx =>
    (ctx.pumpStep cfg (s.inCalls ctx.callId) input).map fun
      | (ctx, effects) => s.update call ctx effects

def step (cfg : Config) (s : EdgeOrchestrator) : EdgeAction → Option EdgeOrchestrator
  | .start => if s.started then none else some { s with callback := true, started := true }
  | .message (.dial dial) =>
      if s.callback ∧ s.handler = .idle then some (s.onDial cfg dial) else none
  | .message (.cancel callId) =>
      if s.callback ∧ s.handler = .idle then some (s.onCancel cfg callId) else none
  | .handler input => s.resumeHandler cfg input
  | .pump call input => s.resumePump cfg call input
  | .audioEnd call =>
      s.contexts[call]?.bind fun ctx =>
        if 0 < ctx.audioTasks then
          some (s.update call { ctx with audioTasks := ctx.audioTasks - 1 } [])
        else none
  | .stop =>
      if s.stopping = .notCalled then some (s.stopNext (s.calls.map (·.1))) else none
  | .stopResume => s.resumeStop

end EdgeOrchestrator

end IsalesTelephony.Edge
