/-
# Edge.Daemon -- the orchestrator and the heartbeat loop over the gRPC client

The edge process of `edge/main.py` as far as it sends: what the orchestrator logs
as handed to `grpc.send` is handed to `GrpcClient.send` in the same step, and a
coroutine that awaits its send goes on with what that send did.

The message callback is awaited by the loop that reads the stream
(`_run_one_stream`), so it runs while the stream is up and no stream ends while
it is suspended; `stop` of the client cancels it with the connect loop.  The
event pumps and the heartbeat loop are tasks of their own.

`offline` is history: what was handed to `send` while the client was not
connected.
-/
import IsalesTelephony.Edge.Steps
import IsalesTelephony.Transport.GrpcClient

namespace IsalesTelephony.Edge

set_option autoImplicit false

open IsalesTelephony.Theory IsalesTelephony.Transport

structure EdgeDaemon where
  edge : EdgeOrchestrator := {}
  client : GrpcClient Edge2Cloud
  /-- how the last send of a coroutine ended: a pump by its call, the message
  callback under `none` -/
  sends : List (Option Nat × SendResult) := []
  offline : List (Sent Edge2Cloud) := []

inductive DaemonAction where
  /-- the orchestrator; what the buffer does should the step send -/
  | edge (action : EdgeAction) (fault : Option AppendFault)
  /-- one turn of `grpc_heartbeat_loop` -/
  | heartbeat (deviceId : Nat) (signalStrength : Int) (fault : Option AppendFault)
  /-- the connect loop or the outbound iterator -/
  | client (action : ClientAction Edge2Cloud)
  deriving DecidableEq, Repr

/-! ## Who sends -/

/-- The action runs inside the message callback. -/
def EdgeAction.inCallback : EdgeAction → Bool
  | .message _ => true
  | .handler _ => true
  | _ => false

/-- The coroutine the action resumes, as `sends` names it. -/
def EdgeAction.sender : EdgeAction → Option Nat
  | .pump call _ => some call
  | _ => none

/-- Whether the awaited send returned, when the action resumes one. -/
def EdgeAction.sendReturned : EdgeAction → Option Bool
  | .handler (.sent ok) => some ok
  | .handler (.sentFactory _) => some true
  | .pump _ (.sent ok) => some ok
  | _ => none

/-- The pump is about to report that CPCMREG failed. -/
def EdgeAction.raisesAlert : EdgeAction → Bool
  | .pump _ (.pcmFailed _) => true
  | _ => false

def LogEntry.emission? : LogEntry → Option Emission
  | .send emission => some emission
  | _ => none

namespace EdgeDaemon

/-! ## The step function -/

/-- `_status_provider`. -/
def statusProvider (edge : EdgeOrchestrator) : DeviceStatus :=
  if edge.calls = [] then .idle else .inCall

/-- Hand a frame to `client.send`. -/
def send (d : EdgeDaemon) (emission : Emission) (fault : Option AppendFault) :
    EdgeDaemon × SendResult :=
  let sent := d.client.send emission.frame emission.critical fault
  ({ d with
      client := sent.1
      offline := d.offline ++
        if d.client.connected then []
        else [⟨d.client.nextSend, emission.critical, emission.frame⟩] },
    sent.2)

/-- Hand over what a coroutine of the orchestrator sends. -/
def carry (sender : Option Nat) (fault : Option AppendFault) :
    EdgeDaemon → List Emission → EdgeDaemon
  | d, [] => d
  | d, emission :: rest =>
      let (sent, result) := d.send emission fault
      carry sender fault { sent with sends := Dict.put sent.sends sender result } rest

/-- The coroutine is where it can be resumed with this action. -/
def Resumes (d : EdgeDaemon) (action : EdgeAction) : Prop :=
  (action.inCallback = true → d.client.phase = .streaming) ∧
    ∀ ok ∈ action.sendReturned, (d.sends.lookup action.sender = some .ok ↔ ok = true)

instance (d : EdgeDaemon) (action : EdgeAction) : Decidable (d.Resumes action) :=
  inferInstanceAs (Decidable (_ ∧ _))

/-- What a step of the orchestrator hands to `send`. -/
def sent (before after : EdgeOrchestrator) : List Emission :=
  (after.log.drop before.log.length).filterMap LogEntry.emission?

/-- The client's own moves: it sends nothing, and reads on only once the message
callback has returned. -/
def ClientMoves (d : EdgeDaemon) : ClientAction Edge2Cloud → Prop
  | .send _ _ _ => False
  | .streamEnded => d.edge.handler = .idle
  | _ => True

instance (d : EdgeDaemon) (action : ClientAction Edge2Cloud) : Decidable (d.ClientMoves action) := by
  unfold ClientMoves
  split <;> infer_instance

def step (cfg : Config) (d : EdgeDaemon) : DaemonAction → Option EdgeDaemon
  | .edge action fault =>
      if d.Resumes action then
        (d.edge.step cfg action).map fun edge =>
          carry action.sender fault { d with edge := edge } (sent d.edge edge)
      else none
  | .heartbeat deviceId signalStrength fault =>
      some (d.send (sendHeartbeat deviceId (statusProvider d.edge) signalStrength) fault).1
  | .client action =>
      if d.ClientMoves action then
        (d.client.step action).map fun client => { d with client := client }
      else none

/-- The process before the client's `start`, over a buffer that may still hold
what an earlier process left. -/
def init (pending : Pending (Sent Edge2Cloud)) : EdgeDaemon := { client := .init pending }

end EdgeDaemon

/-! ## What the orchestrator sends -/

/-- What the source says of a frame it sends, by the action that sends it. -/
structure SentBy (action : EdgeAction) (emission : Emission) : Prop where
  /-- what should not be buffered is an ack of the message callback -/
  ack : emission.frame.ShouldBuffer = false → action.inCallback = true
  callEvent : emission.frame.IsCallEvent = true → emission.critical = false
  alert : emission.frame.IsHardwareAlert = true → action.raisesAlert = true

theorem sentBy_ack {action : EdgeAction} (inside : action.inCallback = true) (callId : String)
    (accepted : Bool) (reason : String) : SentBy action (sendDialAck callId accepted reason) :=
  ⟨fun _ => inside, (fun call => by cases call), fun alert => by cases alert⟩

theorem sentBy_connected (action : EdgeAction) (callId : String) :
    SentBy action (sendCallEventConnected callId) :=
  ⟨(fun other => by cases other), fun _ => rfl, fun alert => by cases alert⟩

theorem sentBy_remoteHangup (action : EdgeAction) (callId : String) (cause : Option String) :
    SentBy action (sendCallEventRemoteHangup callId cause) :=
  ⟨(fun other => by cases other), fun _ => rfl, fun alert => by cases alert⟩

theorem sentBy_alert {action : EdgeAction} (raises : action.raisesAlert = true) (detail : String) :
    SentBy action (sendHardwareAlertPcmEnableFailed detail) :=
  ⟨(fun other => by cases other), (fun call => by cases call), fun _ => raises⟩

namespace CallContext

variable {cfg : Config} {ctx : CallContext} {inCalls : Bool} {via : Via} {emission : Emission}

theorem exitPump_silent (ctx : CallContext) : .send emission ∉ (ctx.exitPump inCalls).2 := by
  unfold exitPump
  repeat' split
  all_goals simp

theorem afterHangup_silent (ctx : CallContext) :
    .send emission ∉ (ctx.afterHangup inCalls via).2 := by
  cases via with
  | event => exact ctx.exitPump_silent
  | pcmFailed | joinFailed | final => simp [afterHangup]

theorem popAndTeardown_silent (ctx : CallContext) :
    .send emission ∉ (ctx.popAndTeardown via).2 := by
  unfold popAndTeardown
  split
  · simp
  · rename_i ctx' _
    simpa using ctx'.afterHangup_silent

theorem torn_silent {ctx' : CallContext} {following : Option Stage} :
    .send emission ∉
      (match (ctx', following) with
        | (ctx, some stage) => (({ ctx with pump := .teardown via stage }, []) : PumpStep)
        | (ctx, none) => ctx.afterHangup inCalls via).2 := by
  cases following with
  | some stage => simp
  | none => exact ctx'.afterHangup_silent

theorem handleRemoteHangup_sends {action : EdgeAction} {cause : Option String}
    (sends : .send emission ∈ (ctx.handleRemoteHangup inCalls via cause).2) :
    SentBy action emission := by
  unfold handleRemoteHangup at sends
  split at sends
  · exact absurd sends ctx.afterHangup_silent
  · obtain rfl : emission = _ := by simpa using sends
    exact sentBy_remoteHangup ..

/-- **One turn.**  A pump sends the two CallEvents, and the alert when CPCMREG
failed. -/
theorem pumpStep_sends {call : Nat} {input : PumpInput} {turn : PumpStep}
    (stepped : ctx.pumpStep cfg inCalls input = some turn) (sends : .send emission ∈ turn.2) :
    SentBy (.pump call input) emission := by
  obtain ⟨-, ⟨-, ran⟩ | ⟨-, -, ran⟩⟩ := pumpStep_cases stepped
  · unfold runPump at ran
    split at ran
    case h_2 =>
      obtain rfl := Option.some.inj ran
      obtain rfl : emission = _ := by simpa using sends
      exact sentBy_connected ..
    case h_3 | h_12 | h_15 =>
      obtain rfl := Option.some.inj ran
      exact handleRemoteHangup_sends sends
    case h_9 =>
      obtain rfl := Option.some.inj ran
      unfold buildAudioPath at sends
      dsimp only at sends
      split at sends
      · exact absurd sends (exitPump_silent _)
      · simp at sends
    case h_10 =>
      obtain rfl := Option.some.inj ran
      obtain rfl : emission = _ := by simpa using sends
      exact sentBy_alert rfl _
    case h_16 =>
      obtain rfl := Option.some.inj ran
      exact absurd sends (popAndTeardown_silent _)
    case h_18 =>
      obtain ⟨⟨ctx', following⟩, -, rfl⟩ := Option.map_eq_some_iff.mp ran
      exact absurd sends torn_silent
    case h_20 => cases ran
    all_goals
      obtain rfl := Option.some.inj ran
      first
        | exact absurd sends (exitPump_silent _)
        | simp at sends
  · obtain rfl := ran
    unfold cancelPump at sends
    split at sends
    · simp at sends
    · exact absurd sends torn_silent
    · simp at sends
    · exact absurd sends (exitPump_silent _)

end CallContext

namespace EdgeOrchestrator

variable {cfg : Config} {s t : EdgeOrchestrator}

/-- What an update logs as sent is among its effects. -/
theorem sent_update {call : Nat} {ctx : CallContext} {effects : List Effect} (handler : Handler)
    {emission : Emission}
    (handed : emission ∈ EdgeDaemon.sent s { s.update call ctx effects with handler := handler }) :
    .send emission ∈ effects := by
  simp only [EdgeDaemon.sent, update, List.drop_left] at handed
  obtain ⟨entry, logged, isSend⟩ := List.mem_filterMap.mp handed
  obtain ⟨effect, listed, same⟩ := List.mem_filterMap.mp logged
  cases effect <;> cases same
  · obtain rfl := Option.some.inj isSend
    exact listed
  · cases isSend

/-- **One step.**  The orchestrator sends acks from the message callback only, its
CallEvents are non-critical, and an alert follows a failed CPCMREG. -/
theorem step_sends {action : EdgeAction} (next : step cfg s action = some t) :
    ∀ emission ∈ EdgeDaemon.sent s t, SentBy action emission := by
  intro emission handed
  have silent : t.log = s.log → emission ∉ EdgeDaemon.sent s t := by
    intro same
    simp [EdgeDaemon.sent, same]
  cases step_cases next with
  | start | cancelIgnored | settled => exact absurd handed (silent rfl)
  | duplicate | dialRaised =>
      obtain rfl : emission = _ := by
        simpa [EdgeDaemon.sent, record, LogEntry.emission?] using handed
      exact sentBy_ack rfl ..
  | devDial | dialReturned =>
      obtain rfl : emission = _ := by
        simpa [EdgeDaemon.sent, accept, register, record, LogEntry.emission?] using handed
      exact sentBy_ack rfl ..
  | atDial => simp [EdgeDaemon.sent, record, LogEntry.emission?] at handed
  | devHangup =>
      obtain rfl : emission = _ := by simpa using sent_update _ handed
      exact sentBy_remoteHangup ..
  | devConnected =>
      obtain rfl : emission = _ := by simpa using sent_update _ handed
      exact sentBy_connected ..
  | pump _ turn => exact CallContext.pumpStep_sends turn (sent_update s.handler handed)
  | audioEnd => simpa using sent_update s.handler handed
  | stop => exact absurd handed (silent (stopNext_log _ _))
  | stopCall => exact absurd handed (silent (by rw [stopNext_log]; simp [update]))
  | stopStage => exact absurd handed (silent (by simp [update]))
  | stopReturned => simp [EdgeDaemon.sent, record, LogEntry.emission?] at handed
  | _ => simpa using sent_update _ handed

end EdgeOrchestrator

end IsalesTelephony.Edge
