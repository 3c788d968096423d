/-
# Controller.Handlers -- the IPC handlers of the modem controller

`build_handlers` of `modem_controller/handlers.py` over a `SerialATClient`: any number
of `handle_dial` with their event pumps, of `handle_hangup`, and the other writers of
`Device.status` (`udev_watcher._mark_offline`, `health_monitor.scan_devices`,
`select_device`).

A connection is handled by one task that awaits one handler after the other
(`IPCServer._read_loop`); an exception out of a handler closes it.  A modem-side call
id is a fresh `uuid4`, here the number of its dial, and no message names one that is
not drawn yet.  Each transaction on a device is one step.
-/
import IsalesTelephony.Modem.Streams
import IsalesTelephony.Theory.Dict

namespace IsalesTelephony.Controller

set_option autoImplicit false

open IsalesTelephony.Modem
open IsalesTelephony.Theory

/-! ## Data -/

/-- A session id: given by the caller, or the modem-side call id. -/
inductive SessionId where
  | named (text : Text)
  | call (call : Nat)
  deriving DecidableEq, Repr

def SessionId.truthy : SessionId → Bool
  | .named text => !text.isEmpty
  | .call _ => true

inductive DeviceStatus where
  | unknown | idle | dialing | inCall | offline | flagged
  deriving DecidableEq, Repr

/-- What the controller writes to a connection. -/
inductive Message where
  /-- `{"error": "invalid_request", "detail": "number required"}` -/
  | numberRequired
  | dialAck (session : SessionId)
  | hangupAck (session : Option SessionId)
  | event (event : AtEvent) (session : SessionId) (device : Option Nat)
  deriving DecidableEq, Repr

/-- Where `handle_dial`, and then its `_pump`, is suspended. -/
inductive TaskPc where
  /-- `await _set_device_status(sm, device_id, DIALING)` -/
  | marking
  /-- `await client.dial(number)` -/
  | dialling (call : Nat)
  | raised
  | ready (call : Nat)
  | waiting (call : Nat)
  /-- `await _set_device_status(...)` of the pump -/
  | writing (call : Nat) (event : AtEvent)
  | sending (call : Nat) (event : AtEvent)
  | ended (call : Nat)
  deriving DecidableEq, Repr

def TaskPc.call? : TaskPc → Option Nat
  | .marking => none
  | .dialling call => some call
  | .raised => none
  | .ready call => some call
  | .waiting call => some call
  | .writing call _ => some call
  | .sending call _ => some call
  | .ended call => some call

def TaskPc.inProgress : TaskPc → Bool
  | .marking => true
  | .dialling _ => true
  | _ => false

structure DialTask where
  conn : Nat
  device : Option Nat
  number : Text
  caller : Option SessionId
  pc : TaskPc := .marking
  deriving DecidableEq, Repr

/-- `caller_session_id or modem_call_id`. -/
def DialTask.sessionId (task : DialTask) (call : Nat) : SessionId :=
  (task.caller.filter SessionId.truthy).getD (.call call)

/-- A `handle_hangup` in `await client.hangup(...)`. -/
structure HangupTask where
  conn : Nat
  session : Option SessionId
  ath : Nat
  deriving DecidableEq, Repr

structure StatusWrite where
  device : Nat
  before : DeviceStatus
  after : DeviceStatus
  deriving DecidableEq, Repr

structure Handlers where
  client : SerialAtClient := {}
  sessionToCall : List (SessionId × Nat) := []
  tasks : List DialTask := []
  hangups : List HangupTask := []
  /-- the task in `await client.dial(...)`, and the call it is for -/
  dialler : Option (Nat × Nat) := none
  /-- the connections whose `cancel_event` is set -/
  closed : List Nat := []
  /-- the rows of `Device`; without a sessionmaker there are none -/
  devices : List (Nat × DeviceStatus) := []
  writes : List StatusWrite := []
  hungUp : List Nat := []
  messages : List (Nat × Message) := []
  deriving DecidableEq, Repr

inductive ControlAction where
  /-- a dial message: `device_id`, `number` and `session_id`, each if well typed -/
  | dial (conn : Nat) (device : Option Nat) (number : Option Text) (session : Option SessionId)
  /-- a hangup message: `session_id` and `call_id`, each if it is a string -/
  | hangup (conn : Nat) (session legacy : Option SessionId)
  /-- the peer of a connection closes it, or breaks the framing -/
  | disconnect (conn : Nat)
  /-- the first `_set_device_status` of a dial returns, or raises -/
  | marked (task : Nat) (ok : Bool)
  | pull (task : Nat)
  | deliver (task : Nat)
  /-- `_set_device_status` of the pump returns, or raises -/
  | wrote (task : Nat) (ok : Bool)
  /-- `conn.send` of the pump returns, or raises -/
  | sent (task : Nat) (ok : Bool)
  /-- `client.hangup` returned: the ack -/
  | answer (hangup : Nat)
  | modem (action : SerialAction)
  /-- `_mark_offline` -/
  | remove (device : Nat)
  | flag (device : Nat)
  | select (device : Nat)
  deriving DecidableEq, Repr

namespace Handlers

def modifyTask (l : Handlers) (task : Nat) (pc : TaskPc) : Handlers :=
  { l with tasks := l.tasks.modify task fun t => { t with pc := pc } }

def say (l : Handlers) (conn : Nat) (message : Message) : Handlers :=
  { l with messages := l.messages ++ [(conn, message)] }

def close (l : Handlers) (conn : Nat) : Handlers := { l with closed := conn :: l.closed }

def setDeviceStatus (l : Handlers) (device : Option Nat) (status : DeviceStatus) : Handlers :=
  match device with
  | none => l
  | some d =>
      match l.devices.lookup d with
      | none => l
      | some before =>
          { l with
            devices := Dict.put l.devices d status
            writes := l.writes ++ [⟨d, before, status⟩] }

def setStatus (l : Handlers) (device : Nat) (status : DeviceStatus) : Handlers :=
  { l with devices := Dict.put l.devices device status }

/-- The read loop of the connection awaits a handler. -/
def busy (l : Handlers) (conn : Nat) : Bool :=
  l.tasks.any (fun t => t.conn = conn && t.pc.inProgress) ||
    l.hangups.any fun h => h.conn = conn

def drawn (l : Handlers) : SessionId → Bool
  | .named _ => true
  | .call call => call < l.client.calls.length

/-- The connection is read, and the message names ids that exist. -/
def receives (l : Handlers) (conn : Nat) (ids : List SessionId) : Bool :=
  conn ∉ l.closed && !l.busy conn && ids.all l.drawn

/-! ### `handle_dial` -/

/-- `client.dial` returned: the entry of the session, the pump and the ack. -/
def register (l : Handlers) (task : Nat) (t : DialTask) (call : Nat) : Handlers :=
  { (l.modifyTask task (.ready call)).say t.conn (.dialAck (t.sessionId call)) with
    sessionToCall := Dict.put l.sessionToCall (t.sessionId call) call
    dialler := none }

def resumeDial (l : Handlers) : Handlers :=
  match l.dialler with
  | none => l
  | some (task, call) =>
      match l.tasks[task]? with
      | none => l
      | some t =>
          if (l.client.calls[call]?).any fun c => c.dial = .returned then l.register task t call
          else l

def beginDial (l : Handlers) (task : Nat) (number : Text) : Handlers :=
  { l.modifyTask task (.dialling l.client.calls.length) with
    client := l.client.dial number
    dialler := some (task, l.client.calls.length) }

/-- `client.dial(number)`; with another call active it raises. -/
def callDial (l : Handlers) (task : Nat) (t : DialTask) : Handlers :=
  if l.client.active.isSome then (l.modifyTask task .raised).close t.conn
  else (l.beginDial task t.number).resumeDial

/-! ### `_pump` -/

/-- The pump ends: `session_to_call.pop(session_id, None)`. -/
def exitPump (l : Handlers) (task : Nat) (t : DialTask) (call : Nat) : Handlers :=
  { l.modifyTask task (.ended call) with
    sessionToCall := Dict.erase l.sessionToCall (t.sessionId call) }

def eventStatus : AtEvent → DeviceStatus
  | .connected _ => .inCall
  | .remoteHangup _ _ => .idle

def gotEvent (l : Handlers) (task : Nat) (t : DialTask) (call : Nat) (event : AtEvent) :
    Handlers :=
  if t.conn ∈ l.closed then l.exitPump task t call
  else l.modifyTask task (.writing call event)

/-- What the pump does with its stream where it stands after `__anext__`. -/
def pumped (l : Handlers) (task : Nat) (t : DialTask) (call : Nat) : StreamPc → Handlers
  | .waiting _ _ => l.modifyTask task (.waiting call)
  | .yielded _ _ event => l.gotEvent task t call event
  | .closed => l.exitPump task t call
  | _ => l

/-- `__anext__`; `_single_event_stream` yields its event at once. -/
def pull (l : Handlers) (task : Nat) (t : DialTask) (call : Nat) : Option Handlers :=
  (l.client.step (.next call)).map fun client =>
    match StreamLog.stream l.client call with
    | .single event => ({ l with client := client }).gotEvent task t call event
    | _ => ({ l with client := client }).pumped task t call (StreamLog.stream client call)

def deliver (l : Handlers) (task : Nat) (t : DialTask) (call : Nat) : Option Handlers :=
  (l.client.step (.wake call)).map fun client =>
    ({ l with client := client }).pumped task t call (StreamLog.stream client call)

def wrote (l : Handlers) (task : Nat) (t : DialTask) (call : Nat) (event : AtEvent) :
    Handlers :=
  let l := l.setDeviceStatus t.device (eventStatus event)
  if t.conn ∈ l.closed then l.exitPump task t call else l.modifyTask task (.sending call event)

def delivered (l : Handlers) (task : Nat) (t : DialTask) (call : Nat) (event : AtEvent) :
    Handlers :=
  (l.modifyTask task (.ready call)).say t.conn
    (.event event (t.sessionId call) t.device)

/-! ### `handle_hangup` -/

/-- `session_to_call.get(session_id) if session_id else None`, or `call_id`. -/
def target (l : Handlers) (session legacy : Option SessionId) : Option SessionId :=
  match (session.filter SessionId.truthy).bind fun s => l.sessionToCall.lookup s with
  | some call => some (.call call)
  | none => legacy

/-- `await client.hangup(...)`: it sends an ATH, or returns at once. -/
def handleHangup (l : Handlers) (conn : Nat) (session legacy : Option SessionId) : Handlers :=
  match l.target session legacy with
  | some (.call call) =>
      let called := { l with client := l.client.hangup call, hungUp := l.hungUp ++ [call] }
      if l.client.active = some call then
        { called with hangups := l.hangups ++ [⟨conn, session, l.client.atClient.nextSend⟩] }
      else called.say conn (.hangupAck session)
  | _ => l.say conn (.hangupAck session)

/-! ### The step function -/

/-- What moves the AT client by itself.  Nobody cancels a handler; an abandoned event
stream is closed once its pump has ended. -/
def mayModem (l : Handlers) : SerialAction → Bool
  | .serial (.cancel id) =>
      match l.client.owners[id]? with
      | some (.poll _) => true
      | _ => false
  | .serial _ => true
  | .read _ => true
  | .eof => true
  | .urc _ => true
  | .poll _ => true
  | .pollCancelled _ => true
  | .close call => l.tasks.any fun t => t.pc = .ended call
  | .aclose => true
  | .acloseSerial => true
  | _ => false

def step (l : Handlers) : ControlAction → Option Handlers
  | .dial conn device number session =>
      if l.receives conn session.toList then
        match number with
        | none => some (l.say conn .numberRequired)
        | some number => some { l with tasks := l.tasks ++ [⟨conn, device, number, session, .marking⟩] }
      else none
  | .hangup conn session legacy =>
      if l.receives conn (session.toList ++ legacy.toList) then
        some (l.handleHangup conn session legacy)
      else none
  | .disconnect conn => if l.busy conn then none else some (l.close conn)
  | .marked task ok =>
      l.tasks[task]?.bind fun t =>
        match t.pc with
        | .marking =>
            if ok then some ((l.setDeviceStatus t.device .dialing).callDial task t)
            else some ((l.modifyTask task .raised).close t.conn)
        | _ => none
  | .pull task =>
      l.tasks[task]?.bind fun t =>
        match t.pc with
        | .ready call => l.pull task t call
        | _ => none
  | .deliver task =>
      l.tasks[task]?.bind fun t =>
        match t.pc with
        | .waiting call => l.deliver task t call
        | _ => none
  | .wrote task ok =>
      l.tasks[task]?.bind fun t =>
        match t.pc with
        | .writing call event =>
            if ok then some (l.wrote task t call event) else some (l.exitPump task t call)
        | _ => none
  | .sent task ok =>
      l.tasks[task]?.bind fun t =>
        match t.pc with
        | .sending call event =>
            if ok then some (l.delivered task t call event) else some (l.exitPump task t call)
        | _ => none
  | .answer hangup =>
      l.hangups[hangup]?.bind fun h =>
        if l.client.atClient.outcomes.any fun o => o.1 = h.ath then
          some ({ l with hangups := l.hangups.eraseIdx hangup }.say h.conn (.hangupAck h.session))
        else none
  | .modem action =>
      if l.mayModem action then
        (l.client.step action).map fun client => ({ l with client := client }).resumeDial
      else none
  | .remove device => (l.devices.lookup device).map fun _ => l.setStatus device .offline
  | .flag device => (l.devices.lookup device).map fun _ => l.setStatus device .flagged
  | .select device =>
      if l.devices.lookup device = some .idle then some (l.setStatus device .dialing) else none

end Handlers

end IsalesTelephony.Controller
