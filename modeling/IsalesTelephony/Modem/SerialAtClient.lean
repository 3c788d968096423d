/-
# Modem.SerialAtClient -- one call slot over the AT command client

`SerialATClient` of `modem_controller/at_client.py`.  A call is named by the
number of its `dial`.  Its coroutines are program counters: `dial` in its ATD,
the CLCC poller, the event generator `_urc_stream` and the tasks in `hangup`.
Each of them awaits a call of `AtClient.send`, and `owners` says whose each send
is; when a send ends, the coroutine that awaits it runs on in the same step
(`settle`), since nothing suspends in between.

The event loop may pick any coroutine next, the URC handler tasks in any order.
What the modem sends is the action's to choose (`read`).

`_active_call_id` and `_call_queue` are set and reset together: `active` is the
call whose id and queue they are.
-/
import IsalesTelephony.Modem.Drivers
import IsalesTelephony.Theory.Transition

namespace IsalesTelephony.Modem

set_option autoImplicit false

/-! ## Calls -/

inductive AtEvent where
  | connected (call : Nat)
  | remoteHangup (call : Nat) (cause : Text)
  deriving DecidableEq, Repr

def AtEvent.IsHangup : AtEvent → Bool
  | .connected _ => false
  | .remoteHangup _ _ => true

/-- Where the event generator of a call is suspended. -/
inductive StreamPc where
  | absent
  /-- `_urc_stream`, never iterated -/
  | unstarted
  /-- `await queue.get()`, on the queue of `source` -/
  | waiting (source : Nat) (connectedSeen : Bool)
  | yielded (source : Nat) (connectedSeen : Bool) (event : AtEvent)
  /-- `_single_event_stream`, never iterated -/
  | single (event : AtEvent)
  | singleYielded
  | closed
  deriving DecidableEq, Repr

/-- The generator is in its `try`: closing it runs the `finally`. -/
def StreamPc.iterating : StreamPc → Bool
  | .waiting _ _ => true
  | .yielded _ _ _ => true
  | _ => false

/-- The generator is `_urc_stream` and has not ended. -/
def StreamPc.isOpen : StreamPc → Bool
  | .unstarted => true
  | stream => stream.iterating

def StreamPc.source? : StreamPc → Option Nat
  | .waiting source _ => some source
  | .yielded source _ _ => some source
  | _ => none

/-- Where `_poll_for_connected` is suspended. -/
inductive PollerPc where
  | absent
  /-- `await asyncio.sleep(...)`, or created and not yet run -/
  | sleeping
  | polling
  | done
  deriving DecidableEq, Repr

inductive DialPc where
  | awaiting
  | returned
  /-- `CancelledError` out of it -/
  | cancelled
  deriving DecidableEq, Repr

structure Call where
  number : Text
  atd : Nat
  dial : DialPc := .awaiting
  /-- its `asyncio.Queue`; `none` is the sentinel of `aclose` -/
  queue : List (Option AtEvent) := []
  stream : StreamPc := .absent
  poller : PollerPc := .absent
  pollerCancelled : Bool := false
  deriving DecidableEq, Repr

/-- The other commands: `get_signal`, `get_iccid`, `get_imei`, CPCMREG. -/
inductive Query where
  | signalStrength | iccid | imei
  | cpcmreg (on : Bool)
  deriving DecidableEq, Repr

def Query.command : Query → Text
  | .signalStrength => "AT+CSQ".toList
  | .iccid => "AT+CCID".toList
  | .imei => "AT+CGSN".toList
  | .cpcmreg true => "AT+CPCMREG=1".toList
  | .cpcmreg false => "AT+CPCMREG=0".toList

inductive Owner where
  | dial (call : Nat) (number : Text)
  | hangup (call : Nat)
  | poll (call : Nat)
  | query (query : Query)
  deriving DecidableEq, Repr

def Owner.command : Owner → Text
  | .dial _ number => ModemDriver.dialCommand number
  | .hangup _ => ModemDriver.hangupCommand
  | .poll _ => "AT+CLCC".toList
  | .query q => q.command

def hangupUrcCause : UrcType → Option Text
  | .noCarrier => hangupCauseMap.lookup "NO CARRIER".toList
  | .busy => hangupCauseMap.lookup "BUSY".toList
  | .noAnswer => hangupCauseMap.lookup "NO ANSWER".toList
  | .noDialtone => hangupCauseMap.lookup "NO DIALTONE".toList
  | _ => none

/-- `line.split(sep)`. -/
def splitText (sep : Char) (line : Text) : List Text :=
  match line with
  | [] => [[]]
  | c :: rest =>
      if c = sep then [] :: splitText sep rest
      else
        match splitText sep rest with
        | [] => [[c]]
        | part :: parts => (c :: part) :: parts

/-- `part.strip()`, for the blanks an AT line can hold. -/
def stripBlanks (part : Text) : Text :=
  let blank (c : Char) : Bool := c = ' ' || c = '\t' || c = '\r' || c = '\n'
  (part.dropWhile blank).rdropWhile blank

def clccHasActiveCall (lines : List Text) : Bool :=
  lines.any fun line =>
    "+CLCC".toList.isPrefixOf line && ':' ∈ line &&
      let payload := (line.dropWhile fun c => c ≠ ':').drop 1
      let parts := (splitText ',' payload).map stripBlanks
      parts[2]? = some ['0']

/-! ## The client -/

structure SerialAtClient where
  /-- `_at`, with `_on_urc` as its only handler -/
  atClient : AtClient := { urcHandlers := 1 }
  /-- `_active_call_id` and `_call_queue` -/
  active : Option Nat := none
  pollerTask : Option Nat := none
  calls : List Call := []
  owners : List Owner := []
  closing : Bool := false
  deriving DecidableEq, Repr

inductive SerialAction where
  | dial (number : Text)
  | hangup (call : Nat)
  | query (query : Query)
  | serial (action : AtAction)
  | read (raw : Text)
  | eof
  | urc (index : Nat)
  | poll (call : Nat)
  /-- `CancelledError` in the poller while it sleeps -/
  | pollCancelled (call : Nat)
  | next (call : Nat)
  | wake (call : Nat)
  /-- the event generator is closed, dropped, or its consumer cancelled -/
  | close (call : Nat)
  /-- `aclose`, up to the poller it awaits -/
  | aclose
  /-- `await self._at.aclose()` -/
  | acloseSerial
  deriving DecidableEq, Repr

namespace SerialAtClient

def modify (s : SerialAtClient) (call : Nat) (f : Call → Call) : SerialAtClient :=
  { s with calls := s.calls.modify call f }

def put (s : SerialAtClient) (call : Nat) (item : Option AtEvent) : SerialAtClient :=
  s.modify call fun c => { c with queue := c.queue ++ [item] }

/-- `task.cancel()` on the poller of a call, unless it is done. -/
def cancelPoller (s : SerialAtClient) : SerialAtClient :=
  match s.pollerTask with
  | some call =>
      s.modify call fun c => if c.poller = .done then c else { c with pollerCancelled := true }
  | none => s

def resetCallState (s : SerialAtClient) : SerialAtClient :=
  { s.cancelPoller with active := none, pollerTask := none }

/-- `dial`, once its ATD has ended. -/
def dialEnded (s : SerialAtClient) (call : Nat) (outcome : SendOutcome) : SerialAtClient :=
  match ModemDriver.dialResult outcome with
  | none => s.modify call fun c => { c with dial := .cancelled }
  | some result =>
      if result.connected then
        { s.modify call fun c =>
            { c with dial := .returned, stream := .unstarted, poller := .sleeping } with
          pollerTask := some call }
      else
        let cause := result.hangupCause.getD "network_out_of_order".toList
        s.resetCallState.modify call fun c =>
          { c with dial := .returned, stream := .single (.remoteHangup call cause) }

def pollAgain (s : SerialAtClient) (call : Nat) : SerialAtClient :=
  s.modify call fun c =>
    { c with poller := if s.active = some call then .sleeping else .done }

/-- `_poll_for_connected`, once its AT+CLCC has ended. -/
def pollEnded (s : SerialAtClient) (call : Nat) : SendOutcome → SerialAtClient
  | .returned response =>
      if clccHasActiveCall response.lines then
        let s := s.modify call fun c => { c with poller := .done }
        match s.active with
        | some active => s.put active (some (.connected call))
        | none => s
      else s.pollAgain call
  | .raised _ => s.pollAgain call
  | .timedOut _ => s.pollAgain call
  | .clientClosed => s.pollAgain call
  -- not an `AtError`, or a cancellation: the task ends
  | .encodeFailed _ => s.modify call fun c => { c with poller := .done }
  | .drainFailed _ => s.modify call fun c => { c with poller := .done }
  | .cancelled => s.modify call fun c => { c with poller := .done }

/-- `hangup`, once its ATH has ended: every exception is logged. -/
def hangupEnded (s : SerialAtClient) (call : Nat) (outcome : SendOutcome) : SerialAtClient :=
  if outcome = .cancelled then s
  else s.put call (some (.remoteHangup call "manual_hangup".toList))

/-- A send has ended: the task that awaits it goes on. -/
def settle (s : SerialAtClient) (ended : Nat × SendOutcome) : SerialAtClient :=
  match s.owners[ended.1]? with
  | some (.dial call _) => s.dialEnded call ended.2
  | some (.hangup call) => s.hangupEnded call ended.2
  | some (.poll call) => s.pollEnded call ended.2
  | _ => s

def moved (s : SerialAtClient) (atClient : AtClient) : SerialAtClient :=
  (atClient.outcomes.drop s.atClient.outcomes.length).foldl settle
    { s with atClient := atClient }

def send (s : SerialAtClient) (owner : Owner) : SerialAtClient :=
  { s with owners := s.owners ++ [owner] }.moved (s.atClient.callSend owner.command)

def taken (s : SerialAtClient) (number : Text) : SerialAtClient :=
  { s with
    active := some s.calls.length
    calls := s.calls ++ [{ number := number, atd := s.atClient.nextSend }] }

/-- `dial`, up to its ATD; with another call active it raises. -/
def dial (s : SerialAtClient) (number : Text) : SerialAtClient :=
  if s.active.isSome then s else (s.taken number).send (.dial s.calls.length number)

def hangup (s : SerialAtClient) (call : Nat) : SerialAtClient :=
  if s.active = some call then s.send (.hangup call) else s

def dropTask (s : SerialAtClient) (index : Nat) : SerialAtClient :=
  { s with atClient := { s.atClient with urcTasks := s.atClient.urcTasks.eraseIdx index } }

def onUrc (s : SerialAtClient) (urc : Urc) : SerialAtClient :=
  match s.active, hangupUrcCause urc.type with
  | some call, some cause => s.put call (some (.remoteHangup call cause))
  | _, _ => s

def wakePoller (s : SerialAtClient) (call : Nat) : SerialAtClient :=
  if s.active = some call then
    (s.modify call fun c => { c with poller := .polling }).send (.poll call)
  else s.modify call fun c => { c with poller := .done }

/-! ### The event generator -/

def setStream (s : SerialAtClient) (call : Nat) (stream : StreamPc) : SerialAtClient :=
  s.modify call fun c => { c with stream := stream }

/-- The `finally` of `_urc_stream`, and its end. -/
def endStream (s : SerialAtClient) (call : Nat) : SerialAtClient :=
  let s := s.setStream call .closed
  if s.active = some call then s.resetCallState else s

def nextEvent (s : SerialAtClient) (call : Nat) : StreamPc → Option SerialAtClient
  | .unstarted =>
      match s.active with
      | some source => some (s.setStream call (.waiting source false))
      | none => some (s.setStream call .closed)
  | .yielded source connectedSeen event =>
      if event.IsHangup then some (s.endStream call)
      else some (s.setStream call (.waiting source connectedSeen))
  | .single _ => some (s.setStream call .singleYielded)
  | .singleYielded => some (s.setStream call .closed)
  | _ => none

/-- `queue.get()` returned `item`. -/
def gotItem (s : SerialAtClient) (call source : Nat) (connectedSeen : Bool) :
    Option AtEvent → SerialAtClient
  | none => s.endStream call
  | some (.connected k) =>
      if connectedSeen then s else s.setStream call (.yielded source true (.connected k))
  | some (.remoteHangup k cause) =>
      s.setStream call (.yielded source connectedSeen (.remoteHangup k cause))

def wakeStream (s : SerialAtClient) (call : Nat) : StreamPc → Option SerialAtClient
  | .waiting source connectedSeen =>
      s.calls[source]?.bind fun from_ =>
        match from_.queue with
        | item :: rest =>
            some ((s.modify source fun c => { c with queue := rest }).gotItem call source
              connectedSeen item)
        | [] => none
  | _ => none

/-- The generator is closed; one that never ran has no `finally` to run. -/
def closeStream (s : SerialAtClient) (call : Nat) : StreamPc → Option SerialAtClient
  | .unstarted => some (s.setStream call .closed)
  | .single _ => some (s.setStream call .closed)
  | .singleYielded => some (s.setStream call .closed)
  | .waiting _ _ => some (s.endStream call)
  | .yielded _ _ _ => some (s.endStream call)
  | _ => none

/-! ### The step function -/

def heldBack (s : SerialAtClient) (id : Nat) : Bool :=
  match s.owners[id]? with
  | some (.poll call) => s.calls[call]?.any fun c => c.pollerCancelled
  | _ => false

def isDial (s : SerialAtClient) (id : Nat) : Bool :=
  match s.owners[id]? with
  | some (.dial _ _) => true
  | _ => false

/-- The poller is cancelled through `task.cancel()` alone. -/
def mayCancel (s : SerialAtClient) (id : Nat) : Bool :=
  match s.owners[id]? with
  | some (.poll _) => s.heldBack id
  | _ => true

/-- A send goes on as its task does: a cancelled poller gets `CancelledError` at
its await, whatever the await would have produced. -/
def mayMove (s : SerialAtClient) : AtAction → Bool
  | .send _ => false
  | .aclose => false
  | .cancel id => s.mayCancel id
  | .acquire => s.atClient.lockWaiters.head?.all fun waiter => !s.heldBack waiter.1
  | _ => s.atClient.holder.all fun holder => !s.heldBack holder.id

def step (s : SerialAtClient) : SerialAction → Option SerialAtClient
  | .dial number => some (s.dial number)
  | .hangup call => some (s.hangup call)
  | .query query => some (s.send (.query query))
  | .serial action => if s.mayMove action then (s.atClient.step action).map s.moved else none
  | .read raw =>
      if s.atClient.readerRunning then some { s with atClient := s.atClient.readLine raw } else none
  | .eof =>
      if s.atClient.readerRunning then some { s with atClient := s.atClient.readEof } else none
  | .urc index => s.atClient.urcTasks[index]?.map fun task => (s.dropTask index).onUrc task.2
  | .poll call =>
      s.calls[call]?.bind fun c =>
        if c.poller = .sleeping ∧ c.pollerCancelled = false then some (s.wakePoller call) else none
  | .pollCancelled call =>
      s.calls[call]?.bind fun c =>
        if c.poller = .sleeping ∧ c.pollerCancelled = true then
          some (s.modify call fun c => { c with poller := .done })
        else none
  | .next call => s.calls[call]?.bind fun c => s.nextEvent call c.stream
  | .wake call => s.calls[call]?.bind fun c => s.wakeStream call c.stream
  | .close call => s.calls[call]?.bind fun c => s.closeStream call c.stream
  | .aclose =>
      let closing : SerialAtClient := { s with closing := true }
      some (match s.active with
        | some call => closing.cancelPoller.put call none
        | none => closing.cancelPoller)
  | .acloseSerial =>
      if s.closing then
        some { s with atClient := { s.atClient with closed := true, readerRunning := false } }
      else none

end SerialAtClient

end IsalesTelephony.Modem
