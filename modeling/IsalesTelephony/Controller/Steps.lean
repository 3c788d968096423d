/-
# Controller.Steps -- what one step of the controller can do

`Moves` inverts `Handlers.step` once (`step_cases`); what a pump finds in its event
stream is a `Turn`.  `Linked` is what holds of every run: each call of the AT client is
that of one task, whose program counter agrees with the dial and the stream of the call,
and `dialler` is the task whose ATD is in progress.
-/
import IsalesTelephony.Controller.Handlers

namespace IsalesTelephony.Controller

set_option autoImplicit false

open IsalesTelephony.Modem
open IsalesTelephony.Modem.StreamLog (NextMoves WakeMoves)
open IsalesTelephony.Theory

namespace Handlers

/-- `t` is the task numbered `i`. -/
abbrev TaskAt (l : Handlers) (i : Nat) (t : DialTask) : Prop := l.tasks[i]? = some t

/-! ## The inversion -/

/-- The event stream of a task makes a step in its pump. -/
structure Turn (l : Handlers) (i : Nat) (t : DialTask) (call : Nat) (client : SerialAtClient)
    (before after : StreamPc) (action : ControlAction) : Prop where
  streams : ∃ c c', l.client.CallAt call c ∧ client.CallAt call c' ∧ c.stream = before ∧
    c'.stream = after
  moved :
    action = .pull i ∧ t.pc = .ready call ∧ l.client.step (.next call) = some client ∧
      NextMoves before after ∨
    action = .deliver i ∧ t.pc = .waiting call ∧ l.client.step (.wake call) = some client ∧
      WakeMoves before after

/-- The event a stream hands out. -/
def Yields (before after : StreamPc) (event : AtEvent) : Prop :=
  (∃ source seen, after = .yielded source seen event ∧ (event.IsHangup = false → seen = true)) ∨
    before = .single event ∧ after = .singleYielded

/-- What one action can do, guards included. -/
inductive Moves (l : Handlers) : ControlAction → Handlers → Prop
  | numberRequired {conn : Nat} {device : Option Nat} {session : Option SessionId} :
      Moves l (.dial conn device none session) (l.say conn .numberRequired)
  | dial {conn : Nat} {device : Option Nat} {number : Text} {session : Option SessionId}
      (receives : l.receives conn session.toList = true) :
      Moves l (.dial conn device (some number) session)
        { l with tasks := l.tasks ++ [⟨conn, device, number, session, .marking⟩] }
  | hangup {conn : Nat} {session legacy : Option SessionId}
      (receives : l.receives conn (session.toList ++ legacy.toList) = true) :
      Moves l (.hangup conn session legacy) (l.handleHangup conn session legacy)
  | disconnect {conn : Nat} : Moves l (.disconnect conn) (l.close conn)
  | markFailed {i : Nat} {t : DialTask} (at_ : l.TaskAt i t) (pc : t.pc = .marking) :
      Moves l (.marked i false) ((l.modifyTask i .raised).close t.conn)
  | refused {i : Nat} {t : DialTask} (at_ : l.TaskAt i t) (pc : t.pc = .marking)
      (busy : l.client.active.isSome = true) :
      Moves l (.marked i true)
        (((l.setDeviceStatus t.device .dialing).modifyTask i .raised).close t.conn)
  | dialled {i : Nat} {t : DialTask} (at_ : l.TaskAt i t) (pc : t.pc = .marking)
      (free : l.client.active = none) :
      Moves l (.marked i true)
        ((l.setDeviceStatus t.device .dialing).beginDial i t.number).resumeDial
  | waits {action : ControlAction} {i call source : Nat} {t : DialTask} {client : SerialAtClient}
      {before : StreamPc} {seen : Bool} (at_ : l.TaskAt i t)
      (turn : l.Turn i t call client before (.waiting source seen) action) :
      Moves l action ({ l with client := client }.modifyTask i (.waiting call))
  | event {action : ControlAction} {i call : Nat} {t : DialTask} {client : SerialAtClient}
      {before after : StreamPc} {event : AtEvent} (at_ : l.TaskAt i t)
      (turn : l.Turn i t call client before after action) (yields : Yields before after event)
      (open_ : t.conn ∉ l.closed) :
      Moves l action ({ l with client := client }.modifyTask i (.writing call event))
  | breaks {action : ControlAction} {i call : Nat} {t : DialTask} {client : SerialAtClient}
      {before after : StreamPc} {event : AtEvent} (at_ : l.TaskAt i t)
      (turn : l.Turn i t call client before after action) (yields : Yields before after event)
      (closed : t.conn ∈ l.closed) :
      Moves l action ({ l with client := client }.exitPump i t call)
  | exhausted {action : ControlAction} {i call : Nat} {t : DialTask} {client : SerialAtClient}
      {before : StreamPc} (at_ : l.TaskAt i t)
      (turn : l.Turn i t call client before .closed action) :
      Moves l action ({ l with client := client }.exitPump i t call)
  | writeFailed {i call : Nat} {t : DialTask} {event : AtEvent} (at_ : l.TaskAt i t)
      (pc : t.pc = .writing call event) : Moves l (.wrote i false) (l.exitPump i t call)
  | wrote {i call : Nat} {t : DialTask} {event : AtEvent} (at_ : l.TaskAt i t)
      (pc : t.pc = .writing call event) (open_ : t.conn ∉ l.closed) :
      Moves l (.wrote i true)
        ((l.setDeviceStatus t.device (eventStatus event)).modifyTask i (.sending call event))
  | wroteLast {i call : Nat} {t : DialTask} {event : AtEvent} (at_ : l.TaskAt i t)
      (pc : t.pc = .writing call event) (closed : t.conn ∈ l.closed) :
      Moves l (.wrote i true)
        ((l.setDeviceStatus t.device (eventStatus event)).exitPump i t call)
  | sendFailed {i call : Nat} {t : DialTask} {event : AtEvent} (at_ : l.TaskAt i t)
      (pc : t.pc = .sending call event) : Moves l (.sent i false) (l.exitPump i t call)
  | sent {i call : Nat} {t : DialTask} {event : AtEvent} (at_ : l.TaskAt i t)
      (pc : t.pc = .sending call event) : Moves l (.sent i true) (l.delivered i t call event)
  | answer {index : Nat} {h : HangupTask} (at_ : l.hangups[index]? = some h) :
      Moves l (.answer index)
        ({ l with hangups := l.hangups.eraseIdx index }.say h.conn (.hangupAck h.session))
  | modem {action : SerialAction} {client : SerialAtClient} (may : l.mayModem action = true)
      (next : l.client.step action = some client) :
      Moves l (.modem action) ({ l with client := client }.resumeDial)
  | status {action : ControlAction} {device : Nat} {before status : DeviceStatus}
      (row : l.devices.lookup device = some before)
      (by_ : action = .remove device ∧ status = .offline ∨
        action = .flag device ∧ status = .flagged ∨
        action = .select device ∧ before = .idle ∧ status = .dialing) :
      Moves l action (l.setStatus device status)

variable {l m : Handlers} {action : ControlAction} {i call : Nat} {t : DialTask}

@[simp] theorem setDeviceStatus_tasks (l : Handlers) (device : Option Nat) (status : DeviceStatus) :
    (l.setDeviceStatus device status).tasks = l.tasks := by
  unfold setDeviceStatus
  repeat' split
  all_goals rfl

@[simp] theorem setDeviceStatus_client (l : Handlers) (device : Option Nat) (status : DeviceStatus) :
    (l.setDeviceStatus device status).client = l.client := by
  unfold setDeviceStatus
  repeat' split
  all_goals rfl

@[simp] theorem setDeviceStatus_dialler (l : Handlers) (device : Option Nat)
    (status : DeviceStatus) : (l.setDeviceStatus device status).dialler = l.dialler := by
  unfold setDeviceStatus
  repeat' split
  all_goals rfl

@[simp] theorem setDeviceStatus_closed (l : Handlers) (device : Option Nat) (status : DeviceStatus) :
    (l.setDeviceStatus device status).closed = l.closed := by
  unfold setDeviceStatus
  repeat' split
  all_goals rfl

@[simp] theorem setDeviceStatus_sessionToCall (l : Handlers) (device : Option Nat)
    (status : DeviceStatus) : (l.setDeviceStatus device status).sessionToCall = l.sessionToCall := by
  unfold setDeviceStatus
  repeat' split
  all_goals rfl

@[simp] theorem setDeviceStatus_messages (l : Handlers) (device : Option Nat)
    (status : DeviceStatus) : (l.setDeviceStatus device status).messages = l.messages := by
  unfold setDeviceStatus
  repeat' split
  all_goals rfl

@[simp] theorem setDeviceStatus_hangups (l : Handlers) (device : Option Nat)
    (status : DeviceStatus) : (l.setDeviceStatus device status).hangups = l.hangups := by
  unfold setDeviceStatus
  repeat' split
  all_goals rfl

@[simp] theorem setDeviceStatus_hungUp (l : Handlers) (device : Option Nat)
    (status : DeviceStatus) : (l.setDeviceStatus device status).hungUp = l.hungUp := by
  unfold setDeviceStatus
  repeat' split
  all_goals rfl

@[simp] theorem resumeDial_hangups (l : Handlers) : l.resumeDial.hangups = l.hangups := by
  unfold resumeDial
  repeat' split
  all_goals rfl

@[simp] theorem resumeDial_hungUp (l : Handlers) : l.resumeDial.hungUp = l.hungUp := by
  unfold resumeDial
  repeat' split
  all_goals rfl

@[simp] theorem resumeDial_client (l : Handlers) : l.resumeDial.client = l.client := by
  unfold resumeDial
  repeat' split
  all_goals rfl

theorem setDeviceStatus_taskAt {device : Option Nat} {status : DeviceStatus} :
    (l.setDeviceStatus device status).TaskAt i t ↔ l.TaskAt i t := by
  simp [TaskAt]

theorem pull_cases (wired : l.client.Wired) (at_ : l.TaskAt i t) (pc : t.pc = .ready call)
    (next : l.pull i t call = some m) : l.Moves (.pull i) m := by
  obtain ⟨client, stepped, rfl⟩ := Option.map_eq_some_iff.mp next
  obtain ⟨c, c', here, here', -, moves⟩ := StreamLog.next_stream wired stepped
  have turn : l.Turn i t call client c.stream c'.stream (.pull i) :=
    ⟨⟨c, c', here, here', rfl, rfl⟩, .inl ⟨rfl, pc, stepped, moves⟩⟩
  rw [StreamLog.stream_eq here, StreamLog.stream_eq here']
  generalize before : c.stream = old at turn moves
  generalize after : c'.stream = new at turn moves
  cases moves with
  | started | resumed => exact .waits at_ turn
  | shut | ended | singleEnded => exact .exhausted at_ turn
  | single event =>
      simp only [gotEvent]
      split
      · rename_i closed
        exact .breaks at_ turn (.inr ⟨rfl, rfl⟩) closed
      · rename_i open_
        exact .event at_ turn (.inr ⟨rfl, rfl⟩) open_

theorem deliver_cases (wired : l.client.Wired) (at_ : l.TaskAt i t) (pc : t.pc = .waiting call)
    (next : l.deliver i t call = some m) : l.Moves (.deliver i) m := by
  obtain ⟨client, stepped, rfl⟩ := Option.map_eq_some_iff.mp next
  obtain ⟨c, c', here, here', -, moves⟩ := StreamLog.wake_stream wired stepped
  have turn : l.Turn i t call client c.stream c'.stream (.deliver i) :=
    ⟨⟨c, c', here, here', rfl, rfl⟩, .inr ⟨rfl, pc, stepped, moves⟩⟩
  rw [StreamLog.stream_eq here']
  generalize before : c.stream = old at turn moves
  generalize after : c'.stream = new at turn moves
  have yields : ∀ {source seen event}, new = .yielded source seen event →
      (event.IsHangup = false → seen = true) →
      l.Moves (.deliver i) ({ l with client := client }.gotEvent i t call event) := by
    intro source seen event isYielded first
    unfold gotEvent
    split
    · rename_i closed
      exact .breaks at_ turn (.inl ⟨source, seen, isYielded, first⟩) closed
    · rename_i open_
      exact .event at_ turn (.inl ⟨source, seen, isYielded, first⟩) open_
  cases moves with
  | again => exact .waits at_ turn
  | sentinel => exact .exhausted at_ turn
  | connected => exact yields rfl fun _ => rfl
  | hangup => exact yields rfl fun isConnected => by cases isConnected

theorem step_cases (wired : l.client.Wired) (next : l.step action = some m) : l.Moves action m := by
  cases action with
  | dial conn device number session =>
      simp only [step] at next
      split at next
      · rename_i receives
        cases number with
        | none =>
            obtain rfl := Option.some.inj next
            exact .numberRequired
        | some number =>
            obtain rfl := Option.some.inj next
            exact .dial receives
      · cases next
  | hangup conn session legacy =>
      simp only [step] at next
      split at next
      · rename_i receives
        obtain rfl := Option.some.inj next
        exact .hangup receives
      · cases next
  | disconnect conn =>
      simp only [step] at next
      split at next
      · cases next
      · obtain rfl := Option.some.inj next
        exact .disconnect
  | marked i ok =>
      obtain ⟨t, at_, next⟩ := Option.bind_eq_some_iff.mp next
      split at next
      · rename_i pc
        cases ok with
        | false =>
            obtain rfl := Option.some.inj next
            exact .markFailed at_ pc
        | true =>
            obtain rfl := Option.some.inj next
            unfold callDial
            rw [setDeviceStatus_client]
            split
            · rename_i busy
              exact .refused at_ pc busy
            · rename_i free
              exact .dialled at_ pc (by simpa using free)
      · cases next
  | pull i =>
      obtain ⟨t, at_, next⟩ := Option.bind_eq_some_iff.mp next
      split at next
      · rename_i call pc
        exact pull_cases wired at_ pc next
      · cases next
  | deliver i =>
      obtain ⟨t, at_, next⟩ := Option.bind_eq_some_iff.mp next
      split at next
      · rename_i call pc
        exact deliver_cases wired at_ pc next
      · cases next
  | wrote i ok =>
      obtain ⟨t, at_, next⟩ := Option.bind_eq_some_iff.mp next
      split at next
      · rename_i call event pc
        cases ok with
        | false =>
            obtain rfl := Option.some.inj next
            exact .writeFailed at_ pc
        | true =>
            obtain rfl := Option.some.inj next
            simp only [Handlers.wrote, setDeviceStatus_closed]
            split
            · rename_i closed
              exact .wroteLast at_ pc closed
            · rename_i open_
              exact .wrote at_ pc open_
      · cases next
  | sent i ok =>
      obtain ⟨t, at_, next⟩ := Option.bind_eq_some_iff.mp next
      split at next
      · rename_i call event pc
        cases ok with
        | false =>
            obtain rfl := Option.some.inj next
            exact .sendFailed at_ pc
        | true =>
            obtain rfl := Option.some.inj next
            exact .sent at_ pc
      · cases next
  | answer index =>
      obtain ⟨h, at_, next⟩ := Option.bind_eq_some_iff.mp next
      split at next
      · obtain rfl := Option.some.inj next
        exact .answer at_
      · cases next
  | modem action =>
      simp only [step] at next
      split at next
      · rename_i may
        obtain ⟨client, stepped, rfl⟩ := Option.map_eq_some_iff.mp next
        exact .modem may stepped
      · cases next
  | remove device =>
      obtain ⟨before, row, rfl⟩ := Option.map_eq_some_iff.mp next
      exact .status row (.inl ⟨rfl, rfl⟩)
  | flag device =>
      obtain ⟨before, row, rfl⟩ := Option.map_eq_some_iff.mp next
      exact .status row (.inr (.inl ⟨rfl, rfl⟩))
  | select device =>
      simp only [step] at next
      split at next
      · rename_i row
        obtain rfl := Option.some.inj next
        exact .status row (.inr (.inr ⟨rfl, rfl, rfl⟩))
      · cases next

/-! ## What holds of every run -/

/-- Nothing of the stream was handed out yet. -/
def Fresh (stream : StreamPc) : Prop := stream = .unstarted ∨ ∃ event, stream = .single event

/-- The stream has just handed out the event. -/
def Handed (event : AtEvent) (stream : StreamPc) : Prop :=
  stream = .singleYielded ∨
    ∃ source seen, stream = .yielded source seen event ∧ (event.IsHangup = false → seen = true)

/-- How a task stands to its call. -/
def Phase (client : SerialAtClient) : TaskPc → Prop
  | .marking => True
  | .raised => True
  | .dialling call =>
      ∃ c, client.CallAt call c ∧ (c.dial = .awaiting ∨ c.dial = .returned ∧ Fresh c.stream)
  | .ready call => ∃ c, client.CallAt call c ∧ c.dial = .returned
  | .waiting call => ∃ c, client.CallAt call c ∧ c.dial = .returned
  | .writing call event => ∃ c, client.CallAt call c ∧ c.dial = .returned ∧ Handed event c.stream
  | .sending call event => ∃ c, client.CallAt call c ∧ c.dial = .returned ∧ Handed event c.stream
  | .ended call => ∃ c, client.CallAt call c ∧ c.dial = .returned

structure Linked (l : Handlers) : Prop where
  wired : l.client.Wired
  phase : ∀ i t, l.TaskAt i t → Phase l.client t.pc
  unique : ∀ i j t t' call, l.TaskAt i t → l.TaskAt j t' → t.pc.call? = some call →
    t'.pc.call? = some call → i = j
  covered : ∀ call c, l.client.CallAt call c → ∃ i t, l.TaskAt i t ∧ t.pc.call? = some call
  dialler : ∀ i call, l.dialler = some (i, call) ↔ ∃ t, l.TaskAt i t ∧ t.pc = .dialling call
  slot : ∀ i call active, l.dialler = some (i, call) → l.client.active = some active → active = call

/-- The ATD of the dialler is in progress. -/
def Prompt (l : Handlers) : Prop :=
  ∀ i call c, l.dialler = some (i, call) → l.client.CallAt call c → c.dial = .awaiting

section Client

variable {s u : SerialAtClient} {a : SerialAction} {pc : TaskPc}

/-- A step that does not move the stream of the task. -/
theorem phase_other (wired : s.Wired) (next : s.step a = some u)
    (uncut : ∀ id, a = .serial (.cancel id) → s.isDial id = false)
    (other : ∀ k, pc.call? = some k → a.stream? = some k → pc = .ended k) (phase : Phase s pc) :
    Phase u pc := by
  have keeps : ∀ {k : Nat} {c : Call}, a.stream? ≠ some k → s.CallAt k c →
      ∃ c', u.CallAt k c' ∧ (c'.dial = c.dial ∧ c'.stream = c.stream ∨
        c.dial = .awaiting ∧ c'.dial = .returned ∧ Fresh c'.stream) := by
    intro k c still at_
    obtain ⟨c', at', moves⟩ := SerialAtClient.call_other wired next still uncut at_
    refine ⟨c', at', moves.imp_right fun ⟨waits, returned, stream⟩ => ⟨waits, returned, ?_⟩⟩
    exact stream.imp_right fun single => ⟨_, single.1.choose_spec⟩
  cases pc with
  | marking | raised => trivial
  | dialling k =>
      obtain ⟨c, at_, dial⟩ := phase
      have still : a.stream? ≠ some k := fun moves => by cases other k rfl moves
      obtain ⟨c', at', ⟨same, stream⟩ | ⟨-, returned, fresh⟩⟩ := keeps still at_
      · exact ⟨c', at', by rw [same, stream]; exact dial⟩
      · exact ⟨c', at', .inr ⟨returned, fresh⟩⟩
  | ready k | waiting k | ended k =>
      obtain ⟨c, at_, returned⟩ := phase
      exact SerialAtClient.returned_stays wired next at_ returned
  | writing k event | sending k event =>
      obtain ⟨c, at_, returned, handed⟩ := phase
      have still : a.stream? ≠ some k := fun moves => by cases other k rfl moves
      obtain ⟨c', at', ⟨same, stream⟩ | ⟨waits, -⟩⟩ := keeps still at_
      · exact ⟨c', at', same.trans returned, by rw [stream]; exact handed⟩
      · rw [returned] at waits
        cases waits

end Client

/-! ### Parts of a step -/

variable {j : Nat} {t' : DialTask} {pc : TaskPc} {client : SerialAtClient} {a : SerialAction}

theorem modifyTask_taskAt : (l.modifyTask i pc).TaskAt j t' ↔
    ∃ t, l.TaskAt j t ∧ t' = if j = i then { t with pc := pc } else t := by
  simp only [TaskAt, modifyTask, List.getElem?_modify]
  cases l.tasks[j]? with
  | none => simp
  | some t => simp [eq_comm]

/-- Only the tasks, the client and the dialler matter. -/
theorem linked_congr (linked : Linked l) (tasks : m.tasks = l.tasks) (client : m.client = l.client)
    (dialler : m.dialler = l.dialler) : Linked m := by
  obtain ⟨wired, phase, unique, covered, dials, slot⟩ := linked
  constructor
  · rw [client]
    exact wired
  · intro i t at_
    rw [TaskAt, tasks] at at_
    rw [client]
    exact phase i t at_
  · intro i j t t' call at_ at'
    rw [TaskAt, tasks] at at_ at'
    exact unique i j t t' call at_ at'
  · intro call c here
    rw [client] at here
    simp only [TaskAt, tasks]
    exact covered call c here
  · intro i call
    simp only [TaskAt, tasks, dialler]
    exact dials i call
  · intro i call active
    rw [dialler, client]
    exact slot i call active

/-- The AT client moves on, in no stream that a task iterates. -/
theorem linked_client (linked : Linked l) (next : l.client.step a = some client)
    (noDial : ∀ number, a ≠ .dial number)
    (uncut : ∀ id, a = .serial (.cancel id) → l.client.isDial id = false)
    (idle : ∀ i t k, l.TaskAt i t → t.pc.call? = some k → a.stream? = some k → t.pc = .ended k) :
    Linked { l with client := client } where
  wired := SerialAtClient.wired_step linked.wired next
  phase := fun i t at_ =>
    phase_other linked.wired next uncut (fun k => idle i t k at_) (linked.phase i t at_)
  unique := linked.unique
  covered := by
    intro call c' at'
    rcases SerialAtClient.call_step linked.wired next at' with ⟨c, at_, -⟩ | begins
    · exact linked.covered call c at_
    · exact absurd begins.number.choose_spec (noDial _)
  dialler := linked.dialler
  slot := by
    intro i call active dials taken
    rcases SerialAtClient.active_of_step next taken with same | ⟨⟨number, isDial⟩, -⟩
    · exact linked.slot i call active dials same
    · exact absurd isDial (noDial number)

/-- A task whose `handle_dial` is not in its ATD moves on, and perhaps its own stream. -/
theorem linked_task (linked : Linked l) (at_ : l.TaskAt i t)
    (stream : client = l.client ∨
      ∃ a call, l.client.step a = some client ∧ a.stream? = some call ∧ t.pc.call? = some call)
    (own : pc.call? = t.pc.call?) (was : t.pc.inProgress = false ∨ t.pc = .marking)
    (now : ∀ k, pc ≠ .dialling k) (phase : Phase client pc) :
    Linked ({ l with client := client }.modifyTask i pc) := by
  have calls : ∀ {j t'}, ({ l with client := client }.modifyTask i pc).TaskAt j t' →
      ∃ t₀, l.TaskAt j t₀ ∧ t'.pc.call? = t₀.pc.call? ∧ (j ≠ i → t' = t₀) := by
    intro j t' at'
    obtain ⟨t₀, before, rfl⟩ := modifyTask_taskAt.mp at'
    refine ⟨t₀, before, ?_, fun other => if_neg other⟩
    split
    · rename_i here
      subst here
      obtain rfl := Option.some.inj (at_.symm.trans before)
      exact own
    · rfl
  have notDialling : ∀ k, t.pc ≠ .dialling k := by
    intro k dials
    rw [dials] at was
    rcases was with idle | marks
    · cases idle
    · cases marks
  constructor
  · rcases stream with rfl | ⟨a, call, next, -⟩
    · exact linked.wired
    · exact SerialAtClient.wired_step linked.wired next
  · intro j t' at'
    obtain ⟨t₀, before, rfl⟩ := modifyTask_taskAt.mp at'
    split
    · exact phase
    · rename_i other
      have before : l.TaskAt j t₀ := before
      rcases stream with rfl | ⟨a, call, next, moves, mine⟩
      · exact linked.phase j t₀ before
      · refine phase_other linked.wired next (fun id cancels => ?_) (fun k isCall moves' => ?_)
          (linked.phase j t₀ before)
        · rw [cancels] at moves
          cases moves
        · obtain rfl := Option.some.inj (moves.symm.trans moves')
          exact absurd (linked.unique j i t₀ t call before at_ isCall mine) other
  · intro j j' t₁ t₂ call at₁ at₂ isCall isCall'
    obtain ⟨t₁', before, same, -⟩ := calls at₁
    obtain ⟨t₂', before', same', -⟩ := calls at₂
    exact linked.unique j j' t₁' t₂' call before before' (same ▸ isCall) (same' ▸ isCall')
  · intro call c' at'
    have known : ∃ c, l.client.CallAt call c := by
      rcases stream with rfl | ⟨a, k, next, moves, -⟩
      · exact ⟨c', at'⟩
      · rcases SerialAtClient.call_step linked.wired next at' with ⟨c, here, -⟩ | begins
        · exact ⟨c, here⟩
        · obtain ⟨number, rfl⟩ := begins.number
          cases moves
    obtain ⟨c, here⟩ := known
    obtain ⟨j, t₀, before, isCall⟩ := linked.covered call c here
    refine ⟨j, _, modifyTask_taskAt.mpr ⟨t₀, before, rfl⟩, ?_⟩
    split
    · rename_i same
      subst same
      obtain rfl := Option.some.inj (at_.symm.trans before)
      exact own.trans isCall
    · exact isCall
  · intro j call
    refine Iff.trans (linked.dialler j call) ?_
    constructor
    · rintro ⟨t₀, before, dials⟩
      have other : j ≠ i := by
        rintro rfl
        obtain rfl := Option.some.inj (at_.symm.trans before)
        exact notDialling call dials
      exact ⟨t₀, modifyTask_taskAt.mpr ⟨t₀, before, (if_neg other).symm⟩, dials⟩
    · rintro ⟨t', at', dials⟩
      obtain ⟨t₀, before, rfl⟩ := modifyTask_taskAt.mp at'
      split at dials
      · exact absurd dials (now call)
      · exact ⟨t₀, before, dials⟩
  · intro j call active dials taken
    rcases stream with rfl | ⟨a, k, next, moves, -⟩
    · exact linked.slot j call active dials taken
    · rcases SerialAtClient.active_of_step next taken with same | ⟨⟨number, rfl⟩, -⟩
      · exact linked.slot j call active dials same
      · cases moves

/-- `client.dial` returned, or not yet. -/
theorem linked_resumeDial (linked : Linked l) : Linked l.resumeDial ∧ Prompt l.resumeDial := by
  unfold resumeDial
  split
  · rename_i idle
    exact ⟨linked, fun i call c dials => by rw [idle] at dials; cases dials⟩
  · rename_i i call dials
    obtain ⟨t, at_, pc⟩ := (linked.dialler i call).mp dials
    rw [show l.tasks[i]? = some t from at_]
    obtain ⟨c, here, dial⟩ : Phase l.client (.dialling call) := pc ▸ linked.phase i t at_
    dsimp only
    split
    · rename_i returned
      rw [show l.client.calls[call]? = some c from here] at returned
      have returned : c.dial = .returned := by simpa using returned
      refine ⟨?_, fun j k d dials' => by cases dials'⟩
      obtain ⟨wired, phase, unique, covered, dialler, slot⟩ := linked
      have calls : ∀ {j t'}, (l.modifyTask i (.ready call)).TaskAt j t' →
          ∃ t₀, l.TaskAt j t₀ ∧ t'.pc.call? = t₀.pc.call? := by
        intro j t' at'
        obtain ⟨t₀, before, rfl⟩ := modifyTask_taskAt.mp at'
        refine ⟨t₀, before, ?_⟩
        split
        · rename_i same
          subst same
          obtain rfl := Option.some.inj (at_.symm.trans before)
          rw [pc]
          rfl
        · rfl
      refine ⟨wired, fun j t' at' => ?_, fun j j' t₁ t₂ k at₁ at₂ isCall isCall' => ?_,
        fun k d here => ?_, fun j k => ⟨fun dials' => (by cases dials'), ?_⟩,
        fun j k active dials' => (by cases dials')⟩
      · obtain ⟨t₀, before, rfl⟩ := modifyTask_taskAt.mp at'
        split
        · exact ⟨c, here, returned⟩
        · exact phase j t₀ before
      · obtain ⟨t₁', before, same⟩ := calls at₁
        obtain ⟨t₂', before', same'⟩ := calls at₂
        exact unique j j' t₁' t₂' k before before' (same ▸ isCall) (same' ▸ isCall')
      · obtain ⟨j, t₀, before, isCall⟩ := covered k d here
        refine ⟨j, _, modifyTask_taskAt.mpr ⟨t₀, before, rfl⟩, ?_⟩
        split
        · rename_i same
          subst same
          obtain rfl := Option.some.inj (at_.symm.trans before)
          rw [pc] at isCall
          exact isCall
        · exact isCall
      · rintro ⟨t', at', dials'⟩
        obtain ⟨t₀, before, rfl⟩ := modifyTask_taskAt.mp at'
        split at dials'
        · cases dials'
        · rename_i other
          have again := (dialler j k).mpr ⟨t₀, before, dials'⟩
          obtain ⟨rfl, -⟩ := Prod.mk.inj (Option.some.inj (dials.symm.trans again))
          exact absurd rfl other
    · rename_i pending
      rw [show l.client.calls[call]? = some c from here] at pending
      refine ⟨linked, fun j k d dials' here' => ?_⟩
      obtain ⟨rfl, rfl⟩ := Prod.mk.inj (Option.some.inj (dials.symm.trans dials'))
      obtain rfl := Option.some.inj (here.symm.trans here')
      exact dial.resolve_right fun fresh => pending (by simpa using fresh.1)

theorem Linked.known (linked : Linked l) (at_ : l.TaskAt i t) (isCall : t.pc.call? = some call) :
    ∃ c, l.client.CallAt call c := by
  have phase := linked.phase i t at_
  cases pc : t.pc with
  | marking | raised =>
      rw [pc] at isCall
      cases isCall
  | dialling k | ready k | waiting k | writing k event | sending k event | ended k =>
      rw [pc] at isCall phase
      obtain rfl := Option.some.inj isCall
      obtain ⟨c, here, -⟩ := phase
      exact ⟨c, here⟩

/-- A message begins a task. -/
theorem linked_dial (linked : Linked l) (marks : t.pc = .marking) :
    Linked { l with tasks := l.tasks ++ [t] } := by
  have tasks : ∀ {i t'}, ({ l with tasks := l.tasks ++ [t] } : Handlers).TaskAt i t' →
      l.TaskAt i t' ∨ t' = t := by
    intro i t' at'
    have at' : (l.tasks ++ [t])[i]? = some t' := at'
    rw [SerialAtClient.getElem?_snoc] at at'
    split at at'
    · exact .inr (Option.some.inj at').symm
    · exact .inl at'
  have old : ∀ {i t'}, l.TaskAt i t' →
      ({ l with tasks := l.tasks ++ [t] } : Handlers).TaskAt i t' := by
    intro i t' at_
    exact (List.getElem?_append_left (List.getElem?_eq_some_iff.mp at_).1).trans at_
  have called : ∀ {i t' k}, ({ l with tasks := l.tasks ++ [t] } : Handlers).TaskAt i t' →
      t'.pc.call? = some k → l.TaskAt i t' := by
    intro i t' k at' isCall
    refine (tasks at').resolve_right fun new => ?_
    rw [new, marks] at isCall
    cases isCall
  refine ⟨linked.wired, fun i t' at' => ?_, fun i j t₁ t₂ k at₁ at₂ isCall isCall' => ?_,
    fun k c here => ?_, fun i k => ?_, linked.slot⟩
  · rcases tasks at' with before | rfl
    · exact linked.phase i t' before
    · rw [marks]
      trivial
  · exact linked.unique i j t₁ t₂ k (called at₁ isCall) (called at₂ isCall') isCall isCall'
  · obtain ⟨i, t', at_, isCall⟩ := linked.covered k c here
    exact ⟨i, t', old at_, isCall⟩
  · refine Iff.trans (linked.dialler i k) ⟨?_, ?_⟩
    · rintro ⟨t', at_, dials⟩
      exact ⟨t', old at_, dials⟩
    · rintro ⟨t', at', dials⟩
      exact ⟨t', called at' (by rw [dials]; rfl), dials⟩

/-- What holds between two steps. -/
structure Sound (l : Handlers) : Prop where
  linked : Linked l
  prompt : Prompt l

/-- With the slot free, no ATD is in progress. -/
theorem Sound.no_dialler (sound : Sound l) (free : l.client.active = none) : l.dialler = none := by
  cases dials : l.dialler with
  | none => rfl
  | some d =>
      obtain ⟨i, call⟩ := d
      obtain ⟨t, at_, pc⟩ := (sound.linked.dialler i call).mp dials
      obtain ⟨c, here⟩ := sound.linked.known at_ (by rw [pc]; rfl)
      have waits := sound.prompt i call c dials here
      have holds := ((sound.linked.wired.slots here).awaiting waits).1
      rw [free] at holds
      cases holds

/-- `client.dial` on the free slot. -/
theorem linked_beginDial (sound : Sound l) (at_ : l.TaskAt i t) (marks : t.pc = .marking)
    (free : l.client.active = none) (number : Text) : Linked (l.beginDial i number) := by
  have idle := sound.no_dialler free
  obtain ⟨linked, -⟩ := sound
  have next : l.client.step (.dial number) = some (l.client.dial number) := rfl
  obtain ⟨c', here', begins⟩ := SerialAtClient.dial_begins linked.wired free number
  have fresh : ∀ {j t' }, l.TaskAt j t' → t'.pc.call? ≠ some l.client.calls.length := by
    intro j t' before isCall
    obtain ⟨c, here⟩ := linked.known before isCall
    exact Nat.lt_irrefl _ (List.getElem?_eq_some_iff.mp here).1
  have noCall : t.pc.call? = none := by
    rw [marks]
    rfl
  refine ⟨SerialAtClient.wired_step linked.wired next, fun j t' at' => ?_,
    fun j j' t₁ t₂ k at₁ at₂ isCall isCall' => ?_, fun k c here => ?_, fun j k => ⟨?_, ?_⟩,
    fun j k active dials taken => ?_⟩
  · obtain ⟨t₀, before, rfl⟩ := modifyTask_taskAt.mp at'
    split
    · refine ⟨c', here', ?_⟩
      rcases begins.dial with ⟨waits, -⟩ | ⟨returned, ⟨cause, stream⟩, -⟩
      · exact .inl waits
      · exact .inr ⟨returned, .inr ⟨_, stream⟩⟩
    · exact phase_other linked.wired next (fun _ isCancel => by cases isCancel)
        (fun _ _ moves => by cases moves) (linked.phase j t₀ before)
  · obtain ⟨t₁', before, rfl⟩ := modifyTask_taskAt.mp at₁
    obtain ⟨t₂', before', rfl⟩ := modifyTask_taskAt.mp at₂
    split at isCall <;> split at isCall'
    · rename_i here here'
      exact here.trans here'.symm
    · obtain rfl := Option.some.inj isCall
      exact absurd isCall' (fresh before')
    · obtain rfl := Option.some.inj isCall'
      exact absurd isCall (fresh before)
    · exact linked.unique j j' t₁' t₂' k before before' isCall isCall'
  · rcases SerialAtClient.call_step linked.wired next here with ⟨c₀, known, -⟩ | begins
    · obtain ⟨j, t₀, before, isCall⟩ := linked.covered k c₀ known
      have other : j ≠ i := by
        rintro rfl
        obtain rfl := Option.some.inj (at_.symm.trans before)
        rw [noCall] at isCall
        cases isCall
      exact ⟨j, t₀, modifyTask_taskAt.mpr ⟨t₀, before, (if_neg other).symm⟩, isCall⟩
    · refine ⟨i, _, modifyTask_taskAt.mpr ⟨t, at_, rfl⟩, ?_⟩
      rw [if_pos rfl, begins.last]
      rfl
  · rintro dials
    obtain ⟨rfl, rfl⟩ := Prod.mk.inj (Option.some.inj dials)
    refine ⟨_, modifyTask_taskAt.mpr ⟨t, at_, rfl⟩, ?_⟩
    rw [if_pos rfl]
  · rintro ⟨t', at', dials⟩
    obtain ⟨t₀, before, rfl⟩ := modifyTask_taskAt.mp at'
    split at dials
    · rename_i here
      subst here
      obtain rfl := TaskPc.dialling.inj dials
      rfl
    · have again := (linked.dialler j k).mpr ⟨t₀, before, dials⟩
      rw [idle] at again
      cases again
  · obtain ⟨rfl, rfl⟩ := Prod.mk.inj (Option.some.inj dials)
    rcases SerialAtClient.active_of_step next taken with same | ⟨-, -, new⟩
    · rw [free] at same
      cases same
    · exact new

theorem prompt_of (prompt : Prompt l) (dialler : m.dialler = l.dialler)
    (dials : ∀ k c', m.client.CallAt k c' → ∃ c, l.client.CallAt k c ∧ c'.dial = c.dial) :
    Prompt m := by
  intro i call c' isDialler here'
  rw [dialler] at isDialler
  obtain ⟨c, here, dial⟩ := dials call c' here'
  exact dial.trans (prompt i call c isDialler here)

theorem prompt_congr (prompt : Prompt l) (dialler : m.dialler = l.dialler)
    (client : m.client = l.client) : Prompt m :=
  prompt_of prompt dialler fun _ c here => ⟨c, client ▸ here, rfl⟩

theorem sound_congr (sound : Sound l) (tasks : m.tasks = l.tasks) (client : m.client = l.client)
    (dialler : m.dialler = l.dialler) : Sound m :=
  ⟨linked_congr sound.linked tasks client dialler, prompt_congr sound.prompt dialler client⟩

theorem sound_setDeviceStatus (sound : Sound l) (device : Option Nat) (status : DeviceStatus) :
    Sound (l.setDeviceStatus device status) :=
  sound_congr sound (setDeviceStatus_tasks _ _ _) (setDeviceStatus_client _ _ _)
    (setDeviceStatus_dialler _ _ _)

/-- A task moves on by itself. -/
theorem sound_task (pc : TaskPc) (sound : Sound l) (at_ : l.TaskAt i t) (own : pc.call? = t.pc.call?)
    (was : t.pc.inProgress = false ∨ t.pc = .marking) (now : ∀ k, pc ≠ .dialling k)
    (phase : Phase l.client pc) : Sound (l.modifyTask i pc) :=
  ⟨linked_task sound.linked at_ (.inl rfl) own was now phase, prompt_congr sound.prompt rfl rfl⟩

/-- A pump moves on with its stream. -/
theorem sound_turn (pc : TaskPc) {before after : StreamPc} (sound : Sound l) (at_ : l.TaskAt i t)
    (turn : l.Turn i t call client before after action) (own : pc.call? = some call)
    (now : ∀ k, pc ≠ .dialling k)
    (phase : ∀ c', client.CallAt call c' → c'.dial = .returned → c'.stream = after →
      Phase client pc) :
    Sound ({ l with client := client }.modifyTask i pc) := by
  obtain ⟨⟨c, c', here, here', -, stream⟩, moved⟩ := turn
  have step : ∃ a, l.client.step a = some client ∧ a.stream? = some call ∧
      (t.pc = .ready call ∨ t.pc = .waiting call) := by
    rcases moved with ⟨-, pc, next, -⟩ | ⟨-, pc, next, -⟩
    · exact ⟨_, next, rfl, .inl pc⟩
    · exact ⟨_, next, rfl, .inr pc⟩
  obtain ⟨a, next, moves, pcs⟩ := step
  have isCall : t.pc.call? = some call := by rcases pcs with pc | pc <;> rw [pc] <;> rfl
  have idle : t.pc.inProgress = false := by rcases pcs with pc | pc <;> rw [pc] <;> rfl
  have returned : c'.dial = .returned := by
    have known : ∃ c, l.client.CallAt call c ∧ c.dial = .returned := by
      have phase := sound.linked.phase i t at_
      rcases pcs with pc | pc <;> rw [pc] at phase <;> exact phase
    obtain ⟨d, known, dial⟩ := known
    obtain ⟨d', known', dial'⟩ := SerialAtClient.returned_stays sound.linked.wired next known dial
    obtain rfl := Option.some.inj (here'.symm.trans known')
    exact dial'
  refine ⟨linked_task sound.linked at_ (.inr ⟨a, call, next, moves, isCall⟩) (own.trans isCall.symm)
    (.inl idle) now (phase c' here' returned stream), ?_⟩
  exact prompt_of sound.prompt rfl fun _ _ at' =>
    SerialAtClient.stream_keeps_dials next moves at'

theorem handed_of_yields {before after : StreamPc} {event : AtEvent}
    (yields : Yields before after event) : Handed event after :=
  yields.elim .inr fun single => .inl single.2

/-- A pump ends by itself. -/
theorem sound_exitPump (sound : Sound l) (at_ : l.TaskAt i t) (isCall : t.pc.call? = some call)
    (idle : t.pc.inProgress = false) (returned : ∃ c, l.client.CallAt call c ∧ c.dial = .returned) :
    Sound (l.exitPump i t call) :=
  sound_congr (sound_task (.ended call) sound at_ isCall.symm (.inl idle)
    (fun _ isDialling => by cases isDialling) returned) rfl rfl rfl

/-- Nobody cancels an ATD. -/
theorem mayModem_uncut (may : l.mayModem a = true) (id : Nat) (cancels : a = .serial (.cancel id)) :
    l.client.isDial id = false := by
  subst cancels
  simp only [mayModem] at may
  unfold SerialAtClient.isDial
  split at may
  · rename_i poll
    rw [poll]
  · cases may

/-- Only the stream of a pump that has ended is closed for it. -/
theorem mayModem_idle (linked : Linked l) (may : l.mayModem a = true) (at_ : l.TaskAt i t)
    (isCall : t.pc.call? = some call) (moves : a.stream? = some call) : t.pc = .ended call := by
  cases a with
  | close k =>
      obtain rfl := Option.some.inj moves
      obtain ⟨t', listed, ended⟩ := List.any_eq_true.mp may
      have ended : t'.pc = .ended k := of_decide_eq_true ended
      obtain ⟨j, at'⟩ := List.mem_iff_getElem?.mp listed
      obtain rfl := linked.unique i j t t' k at_ at' isCall (by rw [ended]; rfl)
      obtain rfl := Option.some.inj (at_.symm.trans at')
      exact ended
  | next | wake => cases may
  | _ => cases moves

theorem linked_modem (linked : Linked l) (may : l.mayModem a = true)
    (next : l.client.step a = some client) : Linked { l with client := client } := by
  refine linked_client linked next (fun number isDial => ?_) (mayModem_uncut may)
    fun i t k at_ isCall moves => mayModem_idle linked may at_ isCall moves
  rw [isDial] at may
  cases may

/-- **One step.** -/
theorem sound_step (sound : Sound l) (next : l.step action = some m) : Sound m := by
  obtain ⟨linked, prompt⟩ := sound
  have sound : Sound l := ⟨linked, prompt⟩
  cases step_cases linked.wired next with
  | numberRequired | disconnect | answer | status => exact sound_congr sound rfl rfl rfl
  | dial => exact ⟨linked_dial linked rfl, prompt_congr prompt rfl rfl⟩
  | @hangup conn session legacy =>
      unfold handleHangup
      split
      · rename_i call target
        have moved : Sound { l with client := l.client.hangup call } := by
          refine ⟨linked_client linked (a := .hangup call) rfl (fun _ isDial => by cases isDial)
            (fun _ isCancel => by cases isCancel) (fun _ _ _ _ _ moves => by cases moves), ?_⟩
          refine prompt_of prompt rfl fun k c' here' => ?_
          obtain ⟨c, here, dial, -⟩ := SerialAtClient.keeps_hangup linked.wired call k c' here'
          exact ⟨c, here, dial⟩
        dsimp only
        split <;> exact sound_congr moved rfl rfl rfl
      · exact sound_congr sound rfl rfl rfl
  | markFailed at_ pc =>
      refine sound_congr (sound_task .raised sound at_ (by rw [pc]; rfl) (.inr pc)
        (fun _ isDialling => by cases isDialling) trivial) rfl rfl rfl
  | refused at_ pc =>
      refine sound_congr (sound_task .raised (sound_setDeviceStatus sound _ _)
        (setDeviceStatus_taskAt.mpr at_) (by rw [pc]; rfl) (.inr pc)
        (fun _ isDialling => by cases isDialling) trivial) rfl rfl rfl
  | @dialled i t at_ pc free =>
      have begun := linked_beginDial (sound_setDeviceStatus sound t.device .dialing)
        (setDeviceStatus_taskAt.mpr at_) pc (by rw [setDeviceStatus_client]; exact free) t.number
      exact ⟨(linked_resumeDial begun).1, (linked_resumeDial begun).2⟩
  | waits at_ turn =>
      exact sound_turn _ sound at_ turn rfl (fun _ isDialling => by cases isDialling)
        fun c' here returned _ => ⟨c', here, returned⟩
  | event at_ turn yields =>
      exact sound_turn _ sound at_ turn rfl (fun _ isDialling => by cases isDialling)
        fun c' here returned stream => ⟨c', here, returned, by
          rw [stream]
          exact handed_of_yields yields⟩
  | breaks at_ turn =>
      exact sound_congr (sound_turn (.ended _) sound at_ turn rfl
        (fun _ isDialling => by cases isDialling) fun c' here returned _ => ⟨c', here, returned⟩)
        rfl rfl rfl
  | exhausted at_ turn =>
      exact sound_congr (sound_turn (.ended _) sound at_ turn rfl
        (fun _ isDialling => by cases isDialling) fun c' here returned _ => ⟨c', here, returned⟩)
        rfl rfl rfl
  | writeFailed at_ pc | sendFailed at_ pc =>
      have phase := linked.phase _ _ at_
      rw [pc] at phase
      obtain ⟨c, here, returned, -⟩ := phase
      exact sound_exitPump sound at_ (by rw [pc]; rfl) (by rw [pc]; rfl) ⟨c, here, returned⟩
  | wrote at_ pc =>
      have phase := linked.phase _ _ at_
      rw [pc] at phase
      exact sound_task _ (sound_setDeviceStatus sound _ _) (setDeviceStatus_taskAt.mpr at_)
        (by rw [pc]; rfl) (.inl (by rw [pc]; rfl)) (fun _ isDialling => by cases isDialling)
        (by rw [setDeviceStatus_client]; exact phase)
  | wroteLast at_ pc =>
      have phase := linked.phase _ _ at_
      rw [pc] at phase
      obtain ⟨c, here, returned, -⟩ := phase
      exact sound_exitPump (sound_setDeviceStatus sound _ _) (setDeviceStatus_taskAt.mpr at_)
        (by rw [pc]; rfl) (by rw [pc]; rfl) ⟨c, by rw [setDeviceStatus_client]; exact here, returned⟩
  | @sent i call t event at_ pc =>
      have phase := linked.phase _ _ at_
      rw [pc] at phase
      obtain ⟨c, here, returned, -⟩ := phase
      exact sound_congr (sound_task (.ready call) sound at_ (by rw [pc]; rfl)
        (.inl (by rw [pc]; rfl)) (fun _ isDialling => by cases isDialling) ⟨c, here, returned⟩)
        rfl rfl rfl
  | modem may stepped =>
      have moved := linked_modem linked may stepped
      exact ⟨(linked_resumeDial moved).1, (linked_resumeDial moved).2⟩

/-- The AT client makes at most one step. -/
theorem client_step (linked : Linked l) (next : l.step action = some m) :
    m.client = l.client ∨ ∃ a, l.client.step a = some m.client := by
  cases step_cases linked.wired next with
  | hangup =>
      unfold handleHangup
      split
      · rename_i call _
        right
        refine ⟨.hangup call, ?_⟩
        dsimp only
        split <;> rfl
      · exact .inl rfl
  | @dialled i t =>
      rw [resumeDial_client, beginDial, setDeviceStatus_client]
      exact .inr ⟨.dial t.number, rfl⟩
  | waits at_ turn | event at_ turn | breaks at_ turn | exhausted at_ turn =>
      rcases turn.moved with ⟨-, -, stepped, -⟩ | ⟨-, -, stepped, -⟩ <;> exact .inr ⟨_, stepped⟩
  | modem may stepped =>
      rw [resumeDial_client]
      exact .inr ⟨_, stepped⟩
  | refused | wrote | wroteLast => exact .inl (setDeviceStatus_client _ _ _)
  | _ => exact .inl rfl

theorem sound_init (devices : List (Nat × DeviceStatus)) : Sound { devices := devices } where
  linked :=
    { wired := SerialAtClient.wired_init
      phase := fun _ _ at_ => by simp [TaskAt] at at_
      unique := fun _ _ _ _ _ at_ => by simp [TaskAt] at at_
      covered := fun _ _ here => by simp [SerialAtClient.CallAt] at here
      dialler := fun _ _ => ⟨fun dials => (by cases dials), fun dials => by simp [TaskAt] at dials⟩
      slot := fun _ _ _ dials => by cases dials }
  prompt := fun _ _ _ dials => by cases dials

end Handlers

end IsalesTelephony.Controller
