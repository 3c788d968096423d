/-
# Ui.TrayLink -- the cloud link of the tray and who writes it

`_arun`, `_GrpcClientRestarter` and `_watch_grpc_connection` of `main_windows.py`, and
`ActivationController.process_submission` of `ui/activation.py`, over one
`CloudEdgeGrpcClient`.  All of them run on one event loop; an action is what runs between
two awaits.

A call of `client.start` comes from the daemon or from a submission.  It waits for
`_connected` or `_stop_event` and returns some turns after one was set (`woken`), so the
client can have moved on by then.  Meanwhile the watcher polls the client and writes
`cloud_link` when what it sees is not what it saw last.

`attempts` and `polls` are history, newest first: the streams the connect loop tried to
open and how each went, and what the link was after each poll.  A poll leaves the link in
agreement with the client unless it sees what it saw before and somebody else has moved
the link in between (`poll_agrees_iff`).
-/
import IsalesTelephony.Transport.GrpcClient
import IsalesTelephony.Ui.StateBus

namespace IsalesTelephony.Ui

set_option autoImplicit false

open IsalesTelephony.Transport
open IsalesTelephony.Theory.Transition

universe u

/-- `DEFAULT_CLOUD_ENDPOINT`. -/
def defaultCloudEndpoint : String := "isales.example.com:443"

/-- Who calls `client.start`. -/
inductive Starter where
  /-- `_arun`, with the token of the environment -/
  | daemon
  /-- `process_submission`, through `_GrpcClientRestarter.restart` -/
  | submission
  deriving DecidableEq, Repr

inductive CallPc where
  /-- a submission: before `client.stop()` -/
  | stopping
  /-- a submission: before `client.start(...)` -/
  | restarting
  /-- `asyncio.wait` on `_connected` and `_stop_event`; `woken` once one of them was set -/
  | starting (woken : Bool)
  /-- returned; the error is that of the `ActivationAttempt` -/
  | done (error : Option String)
  deriving DecidableEq, Repr

structure StartCall where
  starter : Starter
  token : String
  endpoint : String
  pc : CallPc
  deriving DecidableEq, Repr

/-- One of the events that `start` waits for is set. -/
def StartCall.wake (call : StartCall) : StartCall :=
  match call.pc with
  | .starting _ => { call with pc := .starting true }
  | _ => call

/-- How a stream, or the attempt to open it, fails. -/
inductive AttemptFailure where
  /-- an `AioRpcError` of another code -/
  | transport
  | unauthenticated
  /-- any other exception -/
  | unexpected
  deriving DecidableEq, Repr

/-- One turn of the connect loop. -/
structure Attempt where
  /-- the call of `start` whose token it uses -/
  call : Nat
  /-- whether, when it was made, the call had returned an error and the bus said so -/
  reported : Bool
  /-- the initial metadata came -/
  established : Bool := false
  failure : Option AttemptFailure := none
  deriving DecidableEq, Repr

/-- Where `_arun` is. -/
inductive DaemonPc where
  | booting
  /-- `await grpc_client.start(...)` -/
  | starting
  /-- the loop around `run_dialog` -/
  | activating
  /-- the task group with the watcher -/
  | running
  | stopped
  deriving DecidableEq, Repr

structure TrayLink (F : Type u) where
  client : GrpcClient F
  /-- `bus.status` -/
  bus : EdgeStatus := {}
  daemon : DaemonPc := .booting
  calls : List StartCall := []
  /-- the call whose `_connect_task` is the client's -/
  owner : Option Nat := none
  /-- `last` of the watcher -/
  last : Option CloudLinkState := none
  /-- history, newest first -/
  attempts : List Attempt := []
  /-- history, newest first: `is_connected` at a poll and the link after it -/
  polls : List (Bool × CloudLinkState) := []

inductive LinkAction (F : Type u) where
  /-- `_arun` has read the environment -/
  | boot (token endpoint : String)
  /-- the user submits the dialog; the fault is the text of what the checks or the
  writing of the env file raise -/
  | submit (token endpoint : String) (fault : Option String)
  /-- `restart` stops the client -/
  | restartStops (call : Nat)
  /-- `restart` starts the client -/
  | restartStarts (call : Nat)
  /-- `start` goes on after its wait -/
  | startReturns (call : Nat)
  /-- the dialog loop ends, with a call that succeeded -/
  | activated (call : Nat)
  | openStream
  | metadataReady (fault : Option FlushFault)
  | attemptFails (failure : AttemptFailure)
  | streamEnds (failure : Option AttemptFailure)
  /-- the client does something else: a send, its iterator, its sleep -/
  | client (action : ClientAction F)
  /-- the watcher polls -/
  | poll
  /-- the user quits -/
  | quit

namespace TrayLink

variable {F : Type u}

/-! ## Calls of start -/

/-- `self._connect_task is not None`. -/
def hasConnectTask (l : TrayLink F) : Bool :=
  l.client.phase ≠ .idle && l.client.phase ≠ .stopped

def setPc (l : TrayLink F) (i : Nat) (pc : CallPc) : TrayLink F :=
  { l with calls := l.calls.modify i fun call => { call with pc := pc } }

/-- `client.start`, up to its wait. -/
def startClient (l : TrayLink F) (i : Nat) : TrayLink F :=
  { l.setPc i (.starting false) with
    client := { l.client with phase := .ready }
    owner := some i }

/-- `client.stop`. -/
def stopClient (l : TrayLink F) (client : GrpcClient F) : TrayLink F :=
  { l with client := client, owner := none, calls := l.calls.map StartCall.wake }

/-- `start` has returned: `restart` and `_arun` write the link. -/
def succeed (l : TrayLink F) (i : Nat) : Starter → TrayLink F
  | .submission =>
      { l.setPc i (.done none) with bus := l.bus.replace { cloudLink := some .connected } }
  | .daemon =>
      { l.setPc i (.done none) with
        bus := l.bus.replace { cloudLink := some .connected }, daemon := .running }

/-- `start` has raised. -/
def reject (l : TrayLink F) (i : Nat) (exc : String) : Starter → TrayLink F
  | .submission =>
      let msg := "云端拒绝激活码: " ++ exc
      { l.setPc i (.done (some msg)) with
        bus := l.bus.replace
          { cloudLink := some .authRejected, lastActivationError := some (some msg) } }
  | .daemon =>
      { l.setPc i (.done (some exc)) with
        bus := l.bus.replace { cloudLink := some .disconnected }, daemon := .running }

/-- `_arun`, up to its first await. -/
def boot (l : TrayLink F) (token endpoint : String) : TrayLink F :=
  if token = "" then
    { l with
      bus := l.bus.replace { cloudLink := some .awaitingActivation }, daemon := .activating }
  else
    startClient
      { l with calls := l.calls ++ [⟨.daemon, token, endpoint, .starting false⟩],
               daemon := .starting }
      l.calls.length

/-- `process_submission`, up to the restart. -/
def submit (l : TrayLink F) (token endpoint : String) (fault : Option String) : TrayLink F :=
  let endpoint := if endpoint = "" then defaultCloudEndpoint else endpoint
  match fault with
  | some error =>
      { l with
        calls := l.calls ++ [⟨.submission, token, endpoint, .done (some error)⟩]
        bus := l.bus.replace { lastActivationError := some (some error) } }
  | none =>
      { l with
        calls := l.calls ++ [⟨.submission, token, endpoint, .stopping⟩]
        bus := l.bus.replace
          { cloudLink := some .disconnected, lastActivationError := some none } }

/-- What `start` does after its wait. -/
def returnStart (l : TrayLink F) (i : Nat) (call : StartCall) : TrayLink F :=
  -- _stop_event is set and _connected is not
  if l.client.phase = .stopped then
    l.reject i ("cloud-edge client stopped before reaching '" ++ call.endpoint ++ "'") call.starter
  else l.succeed i call.starter

/-! ## Attempts -/

/-- The call has returned an error, and the bus shows the rejection. -/
def reported (l : TrayLink F) (i : Nat) : Bool :=
  match l.calls[i]?.map StartCall.pc with
  | some (.done (some _)) => l.bus.cloudLink = .authRejected && l.bus.lastActivationError.isSome
  | _ => false

/-- The attempts with the token of a call, newest first. -/
def attemptsOf (l : TrayLink F) (i : Nat) : List Attempt :=
  l.attempts.filter fun a => a.call = i

/-- A new attempt, with the token of call `i`. -/
def opened (l : TrayLink F) (i : Nat) (client : GrpcClient F) : TrayLink F :=
  { l with
    client := client
    attempts := { call := i, reported := l.reported i } :: l.attempts }

/-- The metadata came; an exception out of the flush ends the attempt. -/
def cameUp (l : TrayLink F) (client : GrpcClient F) : TrayLink F :=
  { l with
    client := client
    calls := l.calls.map StartCall.wake
    attempts := l.attempts.modifyHead fun a =>
      { a with
        established := true
        failure := if client.connected then none else some .unexpected } }

/-- The attempt is over. -/
def ended (l : TrayLink F) (client : GrpcClient F) (failure : Option AttemptFailure) :
    TrayLink F :=
  { l with
    client := client
    attempts := l.attempts.modifyHead fun a => { a with failure := failure } }

/-! ## The watcher -/

/-- `now`. -/
def watched (l : TrayLink F) : CloudLinkState :=
  if l.client.connected then .connected
  else if l.bus.cloudLink = .awaitingActivation ∨ l.bus.cloudLink = .authRejected then
    l.bus.cloudLink
  else .disconnected

/-- One turn of `_watch_grpc_connection`. -/
def watch (l : TrayLink F) : TrayLink F :=
  if some l.watched = l.last then l
  else
    { l with
      bus := l.bus.replace { cloudLink := some l.watched }
      last := some l.watched }

/-! ## The step -/

/-- What the connect loop and the calls of `start` and `stop` leave to others. -/
def Aside : ClientAction F → Bool
  | .send _ _ _ | .backoffElapsed | .take => true
  | _ => false

def step (l : TrayLink F) : LinkAction F → Option (TrayLink F)
  | .boot token endpoint => if l.daemon = .booting then some (l.boot token endpoint) else none
  | .submit token endpoint fault =>
      if l.daemon = .booting ∨ l.daemon = .stopped then none
      else some (l.submit token endpoint fault)
  | .restartStops i =>
      l.calls[i]?.bind fun call =>
        if call.pc = .stopping then
          (l.client.step .stop).map fun c => (l.stopClient c).setPc i .restarting
        else none
  | .restartStarts i =>
      l.calls[i]?.bind fun call =>
        if call.pc = .restarting then
          some (if l.hasConnectTask then l.reject i "client already started" call.starter
            else l.startClient i)
        else none
  | .startReturns i =>
      l.calls[i]?.bind fun call =>
        if call.pc = .starting true then some (l.returnStart i call) else none
  | .activated i =>
      if l.daemon = .activating ∧ l.calls[i]?.map StartCall.pc = some (.done none) then
        some { l with daemon := .running }
      else none
  | .openStream =>
      l.owner.bind fun i =>
        (l.client.step .openStream).map fun c => l.opened i c
  | .metadataReady fault => (l.client.step (.metadataReady fault)).map fun c => l.cameUp c
  | .attemptFails failure =>
      (l.client.step .metadataFailed).map fun c => l.ended c (some failure)
  | .streamEnds failure => (l.client.step .streamEnded).map fun c => l.ended c failure
  | .client action =>
      if Aside action then (l.client.step action).map fun c => { l with client := c } else none
  | .poll =>
      if l.daemon = .running then
        some { l.watch with polls := (l.client.connected, l.watch.bus.cloudLink) :: l.polls }
      else none
  | .quit =>
      match l.daemon with
      | .activating => some { l with daemon := .stopped }
      | .running =>
          (l.client.step .stop).map fun c => { l.stopClient c with daemon := .stopped }
      | _ => none

/-- Before `_arun`. -/
def init (pending : Pending (Sent F)) : TrayLink F := { client := GrpcClient.init pending }

/-! ### What a step can do -/

variable {l m n : TrayLink F} {action : LinkAction F}

inductive Moves (l : TrayLink F) : LinkAction F → TrayLink F → Prop
  | boots {token endpoint : String} (fresh : l.daemon = .booting) :
      Moves l (.boot token endpoint) (l.boot token endpoint)
  | submits {token endpoint : String} {fault : Option String} :
      Moves l (.submit token endpoint fault) (l.submit token endpoint fault)
  | restartStops {i : Nat} {call : StartCall} {c : GrpcClient F} (at_ : l.calls[i]? = some call)
      (pc : call.pc = .stopping) (client : l.client.step .stop = some c) :
      Moves l (.restartStops i) ((l.stopClient c).setPc i .restarting)
  | restartRefused {i : Nat} {call : StartCall} (at_ : l.calls[i]? = some call)
      (pc : call.pc = .restarting) (busy : l.hasConnectTask = true) :
      Moves l (.restartStarts i) (l.reject i "client already started" call.starter)
  | restartStarts {i : Nat} {call : StartCall} (at_ : l.calls[i]? = some call)
      (pc : call.pc = .restarting) (free : l.hasConnectTask = false) :
      Moves l (.restartStarts i) (l.startClient i)
  | startReturns {i : Nat} {call : StartCall} (at_ : l.calls[i]? = some call)
      (pc : call.pc = .starting true) : Moves l (.startReturns i) (l.returnStart i call)
  | activated {i : Nat} : Moves l (.activated i) { l with daemon := .running }
  | opens {i : Nat} {c : GrpcClient F} (owner : l.owner = some i)
      (client : l.client.step .openStream = some c) : Moves l .openStream (l.opened i c)
  | comesUp {fault : Option FlushFault} {c : GrpcClient F}
      (client : l.client.step (.metadataReady fault) = some c) :
      Moves l (.metadataReady fault) (l.cameUp c)
  | fails {failure : AttemptFailure} {c : GrpcClient F}
      (client : l.client.step .metadataFailed = some c) :
      Moves l (.attemptFails failure) (l.ended c (some failure))
  | ends {failure : Option AttemptFailure} {c : GrpcClient F}
      (client : l.client.step .streamEnded = some c) :
      Moves l (.streamEnds failure) (l.ended c failure)
  | aside {a : ClientAction F} {c : GrpcClient F} (aside : Aside a = true)
      (client : l.client.step a = some c) : Moves l (.client a) { l with client := c }
  | polls (running : l.daemon = .running) :
      Moves l .poll
        { l.watch with polls := (l.client.connected, l.watch.bus.cloudLink) :: l.polls }
  | leaves : Moves l .quit { l with daemon := .stopped }
  | quits {c : GrpcClient F} (client : l.client.step .stop = some c) :
      Moves l .quit { l.stopClient c with daemon := .stopped }

theorem step_cases (next : l.step action = some m) : l.Moves action m := by
  cases action with
  | boot token endpoint =>
      simp only [step, Option.ite_none_right_eq_some, Option.some.injEq] at next
      obtain ⟨fresh, rfl⟩ := next
      exact .boots fresh
  | submit token endpoint fault =>
      simp only [step, Option.ite_none_left_eq_some, Option.some.injEq] at next
      obtain ⟨-, rfl⟩ := next
      exact .submits
  | restartStops i =>
      simp only [step, Option.bind_eq_some_iff, Option.ite_none_right_eq_some,
        Option.map_eq_some_iff] at next
      obtain ⟨call, at_, pc, c, client, rfl⟩ := next
      exact .restartStops at_ pc client
  | restartStarts i =>
      simp only [step, Option.bind_eq_some_iff, Option.ite_none_right_eq_some,
        Option.some.injEq] at next
      obtain ⟨call, at_, pc, rfl⟩ := next
      split
      · rename_i busy
        exact .restartRefused at_ pc busy
      · rename_i free
        exact .restartStarts at_ pc (by simpa using free)
  | startReturns i =>
      simp only [step, Option.bind_eq_some_iff, Option.ite_none_right_eq_some,
        Option.some.injEq] at next
      obtain ⟨call, at_, pc, rfl⟩ := next
      exact .startReturns at_ pc
  | activated i =>
      simp only [step, Option.ite_none_right_eq_some, Option.some.injEq] at next
      obtain ⟨-, rfl⟩ := next
      exact .activated
  | openStream =>
      simp only [step, Option.bind_eq_some_iff, Option.map_eq_some_iff] at next
      obtain ⟨i, owner, c, client, rfl⟩ := next
      exact .opens owner client
  | metadataReady fault =>
      obtain ⟨c, client, rfl⟩ := Option.map_eq_some_iff.mp next
      exact .comesUp client
  | attemptFails failure =>
      obtain ⟨c, client, rfl⟩ := Option.map_eq_some_iff.mp next
      exact .fails client
  | streamEnds failure =>
      obtain ⟨c, client, rfl⟩ := Option.map_eq_some_iff.mp next
      exact .ends client
  | client a =>
      simp only [step, Option.ite_none_right_eq_some, Option.map_eq_some_iff] at next
      obtain ⟨aside, c, client, rfl⟩ := next
      exact .aside aside client
  | poll =>
      simp only [step, Option.ite_none_right_eq_some, Option.some.injEq] at next
      obtain ⟨running, rfl⟩ := next
      exact .polls running
  | quit =>
      simp only [step] at next
      split at next
      · obtain rfl := Option.some.inj next
        exact .leaves
      · obtain ⟨c, client, rfl⟩ := Option.map_eq_some_iff.mp next
        exact .quits client
      · cases next

/-! ## The link after a poll -/

/-- After each poll the link is up exactly if the client was connected. -/
def Agreed (l : TrayLink F) : Prop := ∀ p ∈ l.polls, p.2 = .connected ↔ p.1 = true

instance (l : TrayLink F) : Decidable l.Agreed := inferInstanceAs (Decidable (∀ p ∈ l.polls, _))

/-- The client is as the watcher last wrote, and somebody else has moved the link. -/
def Masked (l : TrayLink F) : Prop :=
  l.last = some .connected ∧ l.client.connected = true ∧ l.bus.cloudLink ≠ .connected ∨
    l.last = some .disconnected ∧ l.client.connected = false ∧ l.bus.cloudLink = .connected

instance (l : TrayLink F) : Decidable l.Masked := inferInstanceAs (Decidable (_ ∨ _))

/-- The watcher does not poll while the link is masked. -/
def Unmasked (l : TrayLink F) : LinkAction F → Prop
  | .poll => ¬ l.Masked
  | _ => True

instance (l : TrayLink F) (action : LinkAction F) : Decidable (l.Unmasked action) := by
  unfold Unmasked
  split <;> infer_instance

/-- What the watcher sees is a connection only if there is one. -/
theorem watched_connected_iff : l.watched = .connected ↔ l.client.connected = true := by
  unfold watched
  split
  · rename_i up
    exact ⟨fun _ => up, fun _ => rfl⟩
  · rename_i down
    refine ⟨fun same => ?_, fun up => absurd up down⟩
    split at same
    · rename_i sticky
      rw [same] at sticky
      rcases sticky with other | other <;> cases other
    · cases same

/-- **One poll.** -/
theorem poll_agrees_iff :
    (l.watch.bus.cloudLink = .connected ↔ l.client.connected = true) ↔ ¬ l.Masked := by
  unfold watch
  split
  · rename_i same
    -- the watcher writes nothing, so the link stays what the others made it
    constructor
    · rintro agrees (⟨-, up, moved⟩ | ⟨-, down, moved⟩)
      · exact moved (agrees.mpr up)
      · rw [agrees.mp moved] at down
        cases down
    · intro unmasked
      constructor
      · intro moved
        by_contra down
        refine unmasked (.inr ⟨?_, by simpa using down, moved⟩)
        rw [← same]
        simp [watched, down, moved]
      · intro up
        by_contra moved
        exact unmasked (.inl ⟨by rw [← same, watched_connected_iff.mpr up], up, moved⟩)
  · rename_i differs
    refine ⟨?_, fun _ => watched_connected_iff⟩
    rintro - (⟨before, up, -⟩ | ⟨before, down, moved⟩)
    · exact differs (by rw [before, watched_connected_iff.mpr up])
    · exact differs (by rw [before]; simp [watched, down, moved])

/-- Only a poll adds to the polls. -/
theorem polls_step (next : l.step action = some m) :
    m.polls = l.polls ∨
      action = .poll ∧ m.polls = (l.client.connected, l.watch.bus.cloudLink) :: l.polls := by
  cases step_cases next with
  | polls => exact .inr ⟨rfl, rfl⟩
  | @boots token endpoint =>
      refine .inl ?_
      unfold boot
      split <;> rfl
  | @submits _ _ fault => cases fault <;> exact .inl rfl
  | @restartRefused _ call => cases call with | mk starter => cases starter <;> exact .inl rfl
  | @startReturns _ call =>
      refine .inl ?_
      unfold returnStart
      cases call.starter <;> split <;> rfl
  | _ => exact .inl rfl

theorem agreed_step (agreed : l.Agreed) (unmasked : l.Unmasked action)
    (next : l.step action = some m) : m.Agreed := by
  rcases polls_step next with kept | ⟨rfl, grown⟩
  · exact fun p member => agreed p (kept ▸ member)
  · intro p member
    rw [grown] at member
    rcases List.mem_cons.mp member with rfl | earlier
    · exact poll_agrees_iff.mpr unmasked
    · exact agreed p earlier

theorem not_agreed_of_masked (masked : l.Masked) (next : l.step .poll = some m) : ¬ m.Agreed := by
  intro agreed
  cases step_cases next with
  | polls => exact poll_agrees_iff.mp (agreed _ (List.mem_cons_self ..)) masked

/-- What a poll has found is not undone. -/
theorem agreed_before (next : l.step action = some m) (agreed : m.Agreed) : l.Agreed := by
  rcases polls_step next with kept | ⟨-, grown⟩
  · exact fun p member => agreed p (kept ▸ member)
  · exact fun p member => agreed p (grown ▸ List.mem_cons_of_mem _ member)

/-! ### Main result -/

/-- **The tray's link agrees with the client** after each poll, in every run in which the
link is not masked when the watcher polls; a poll of a masked link leaves it wrong. -/
theorem link_agrees_with_client (pending : Pending (Sent F)) :
    (∀ l : TrayLink F, Reachable step Unmasked (init pending) l → l.Agreed) ∧
      ∀ l m n : TrayLink F, Reachable step Free (init pending) l → l.step .poll = some m →
        l.Masked → Reachable step Free m n → ¬ n.Agreed := by
  refine ⟨fun l run => ?_, fun l m n run next masked later => ?_⟩
  · exact run.invariant (P := Agreed) (fun _ member => by cases member)
      fun _ _ _ agreed unmasked next => agreed_step agreed unmasked next
  · exact later.invariant (P := fun n => ¬ n.Agreed) (not_agreed_of_masked masked next)
      fun _ _ _ wrong _ next agreed => wrong (agreed_before next agreed)

/-! ## Poles -/

/-- Nothing is waiting to be sent. -/
def fresh : TrayLink String := init (.memory 1 Nat.one_pos [])

/-- The daemon starts with a token, the stream comes up, and the watcher polls. -/
def connected : List (LinkAction String) :=
  [.boot "device-token-0001" defaultCloudEndpoint, .openStream, .metadataReady none,
    .startReturns 0, .poll]

/-- Then the user enters another token, so that the submission and the restarter write too, and
the stream they brought up breaks. -/
def tokenChanged : List (LinkAction String) :=
  connected ++
    [.poll, .submit "device-token-0002" "" none, .restartStops 1, .poll, .restartStarts 1,
      .openStream, .metadataReady none, .startReturns 1, .poll, .streamEnds none, .poll]

theorem tokenChanged_runs : (guardedRun step Unmasked fresh tokenChanged).isSome = true := by decide

theorem connected_link_agrees :
    (Option.get _ tokenChanged_runs).Agreed ∧
      (Option.get _ tokenChanged_runs).polls =
        [(false, .disconnected), (true, .connected), (false, .disconnected), (true, .connected),
          (true, .connected)] :=
  ⟨(link_agrees_with_client (.memory 1 Nat.one_pos [])).1 _
      (reachable_guarded_get tokenChanged_runs),
    by decide⟩

/-- The user enters another token.  The watcher polls while the client is stopped; the
stream comes up and is dropped again before `start` goes on. -/
def reactivated : List (LinkAction String) :=
  connected ++
    [.submit "device-token-0002" "" none, .restartStops 1, .poll, .restartStarts 1, .openStream,
      .metadataReady none, .streamEnds (some .unauthenticated), .startReturns 1, .poll]

theorem reactivated_runs : (run step fresh reactivated).isSome = true := by decide

/-- **A stale link.**  The restarter writes that the link is up when it is down again; the
watcher saw it down before and writes nothing. -/
theorem dropped_stream_stays_connected :
    ¬ ∀ (pending : Pending (Sent String)) (l : TrayLink String),
      Reachable step Free (init pending) l → l.Agreed := by
  intro claim
  have wrong : ¬ (Option.get _ reactivated_runs).Agreed := by decide
  exact wrong (claim _ _ (reachable_get reactivated_runs))

end TrayLink

end IsalesTelephony.Ui
