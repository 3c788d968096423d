/-
# Controller.HangupAck -- what a hangup_ack says

The entry of a session in `session_to_call` is written when `client.dial` has returned,
and popped by whichever pump of the session ends first.  A hangup that finds no entry is
acked all the same.

* `hangup_while_dialling_is_acked`: a hangup on another connection while the ATD of the
  session is in progress;
* `ack_tells_the_truth`: in a run in which a hangup arrives with no dial of its session
  in progress, no dial of a session begins while a hangup of it waits, and no pump ends
  while the entry it pops is that of a live call, an ack means that the newest call of
  the session was hung up, or that none is live.
-/
import IsalesTelephony.Controller.Steps

namespace IsalesTelephony.Controller

set_option autoImplicit false

open IsalesTelephony.Modem
open IsalesTelephony.Theory
open IsalesTelephony.Theory.Transition

/-- The session of a dial, as far as it is known. -/
def DialTask.session? (t : DialTask) : Option SessionId :=
  match t.caller.filter SessionId.truthy with
  | some session => some session
  | none => t.pc.call?.map .call

theorem DialTask.session_of_call {t : DialTask} {call : Nat} (isCall : t.pc.call? = some call) :
    t.session? = some (t.sessionId call) := by
  unfold session? sessionId
  cases t.caller.filter SessionId.truthy with
  | none => simp [isCall]
  | some session => rfl

theorem DialTask.truthy_of_session {t : DialTask} {session : SessionId}
    (isSession : t.session? = some session) : session.truthy = true := by
  unfold session? at isSession
  split at isSession
  · rename_i named found
    obtain rfl := Option.some.inj isSession
    exact (Option.filter_eq_some_iff.mp found).2
  · obtain ⟨call, -, rfl⟩ := Option.map_eq_some_iff.mp isSession
    rfl

/-- The task whose pump the action moves. -/
def ControlAction.pump? : ControlAction → Option Nat
  | .pull i => some i
  | .deliver i => some i
  | .wrote i _ => some i
  | .sent i _ => some i
  | _ => none

namespace Handlers

/-! ## The truth of an ack -/

/-- No dial of the session is in progress. -/
def Quiet (l : Handlers) (session : SessionId) : Prop :=
  ∀ t ∈ l.tasks, t.session? = some session → t.pc.inProgress = false

/-- `client.hangup` was called with the newest call of the session. -/
def NewestHungUp (l : Handlers) (session : SessionId) : Prop :=
  ∃ t ∈ l.tasks, t.session? = some session ∧ ∃ call ∈ t.pc.call?, call ∈ l.hungUp ∧
    ∀ t' ∈ l.tasks, t'.session? = some session → ∀ other ∈ t'.pc.call?, other ≤ call

/-- No call of the session is live or in progress. -/
def NoneLive (l : Handlers) (session : SessionId) : Prop :=
  l.Quiet session ∧
    ∀ t ∈ l.tasks, t.session? = some session → ∀ call ∈ t.pc.call?, l.client.active ≠ some call

def Truthful (l : Handlers) (session : SessionId) : Prop :=
  l.NewestHungUp session ∨ l.NoneLive session

instance (l : Handlers) (session : SessionId) : Decidable (l.Quiet session) :=
  inferInstanceAs (Decidable (∀ t ∈ l.tasks, _))

instance (l : Handlers) (session : SessionId) : Decidable (l.Truthful session) := by
  unfold Truthful NewestHungUp NoneLive
  infer_instance

/-- The entry a pump would pop is not that of a live call. -/
def EntryIdle (l : Handlers) (t : DialTask) : Prop :=
  ∀ call ∈ t.pc.call?, ∀ entry ∈ l.sessionToCall.lookup (t.sessionId call),
    l.client.active ≠ some entry

/-- The pump ends in this step, unless its stream runs out on the live call. -/
def endsPump (l : Handlers) (t : DialTask) : ControlAction → Bool
  | .pull _ =>
      match t.pc.call?.map (StreamLog.stream l.client) with
      | some (.single _) => t.conn ∈ l.closed
      | some .singleYielded => true
      | _ => false
  | .deliver _ => t.conn ∈ l.closed
  | .wrote _ ok => !ok || t.conn ∈ l.closed
  | .sent _ ok => !ok
  | _ => false

/-- Hangups and dials of a session take turns, and no pump takes the entry of a live
call with it. -/
def Orderly (l : Handlers) (action : ControlAction) : Prop :=
  (match action with
    | .dial _ _ _ session => ∀ h ∈ l.hangups, h.session = none ∨ h.session ≠ session
    | .hangup _ session _ => ∀ s ∈ session, l.Quiet s
    | _ => True) ∧
  ∀ i ∈ action.pump?, ∀ t ∈ l.tasks[i]?, l.endsPump t action = true → l.EntryIdle t

instance (l : Handlers) (action : ControlAction) : Decidable (l.Orderly action) := by
  unfold Orderly EntryIdle
  induction action using ControlAction.casesOn <;> infer_instance

/-! ## The entries -/

variable {l m : Handlers} {action : ControlAction} {i k call : Nat} {t : DialTask} {pc : TaskPc}
  {client : SerialAtClient} {session : SessionId}

/-- The session of a live call, once its `dial` has returned, has its entry. -/
def Entered (l : Handlers) : Prop :=
  ∀ i t call, l.TaskAt i t → t.pc.call? = some call → t.pc ≠ .dialling call →
    l.client.active = some call → l.sessionToCall.lookup (t.sessionId call) = some call

theorem entered_of (entered : Entered l)
    (tasks : ∀ i t' call, m.TaskAt i t' → t'.pc.call? = some call → t'.pc ≠ .dialling call →
      m.client.active = some call → l.client.active = some call ∧
      ∃ t, l.TaskAt i t ∧ t.pc.call? = some call ∧ t.pc ≠ .dialling call ∧ t.caller = t'.caller)
    (lookup : m.sessionToCall = l.sessionToCall) : Entered m := by
  intro i t' call at' isCall dialled live
  obtain ⟨active, t, at_, same, returned, caller⟩ := tasks i t' call at' isCall dialled live
  have entry := entered i t call at_ same returned active
  rw [DialTask.sessionId, caller] at entry
  rw [lookup]
  exact entry

theorem entered_congr (entered : Entered l) (tasks : m.tasks = l.tasks)
    (active : ∀ call, m.client.active = some call → l.client.active = some call)
    (lookup : m.sessionToCall = l.sessionToCall) : Entered m := by
  refine entered_of entered (fun i t' call at' isCall dialled live =>
    ⟨active call live, t', ?_, isCall, dialled, rfl⟩) lookup
  rw [TaskAt, tasks] at at'
  exact at'

/-- A task that has no ATD in progress moves on. -/
theorem entered_modifyTask (pc : TaskPc) (entered : Entered l) (at_ : l.TaskAt i t)
    (own : pc.call? = t.pc.call?) (returned : ∀ call, t.pc ≠ .dialling call)
    (active : ∀ call, client.active = some call → l.client.active = some call) :
    Entered ({ l with client := client }.modifyTask i pc) := by
  refine entered_of entered (fun j t' call at' isCall dialled live => ?_) rfl
  obtain ⟨t₀, before, rfl⟩ := modifyTask_taskAt.mp at'
  refine ⟨active call live, t₀, before, ?_⟩
  split at isCall
  · rename_i here
    subst here
    obtain rfl := Option.some.inj (at_.symm.trans before)
    rw [if_pos rfl]
    exact ⟨own.symm.trans isCall, returned call, rfl⟩
  · rename_i other
    rw [if_neg other] at dialled ⊢
    exact ⟨isCall, dialled, rfl⟩

/-- A pump ends, and its entry is not that of a live call. -/
theorem entered_exitPump (client : SerialAtClient) (entered : Entered l) (at_ : l.TaskAt i t)
    (isCall : t.pc.call? = some call) (returned : ∀ call, t.pc ≠ .dialling call)
    (active : ∀ call, client.active = some call → l.client.active = some call)
    (idle : ∀ entry, client.active = some entry →
      l.sessionToCall.lookup (t.sessionId call) ≠ some entry) :
    Entered ({ l with client := client }.exitPump i t call) := by
  have moved := entered_modifyTask (.ended call) entered at_ isCall.symm returned active
  intro j t' k at' isCall' dialled live
  have entry : l.sessionToCall.lookup (t'.sessionId k) = some k :=
    moved j t' k at' isCall' dialled live
  have other : t'.sessionId k ≠ t.sessionId call := by
    intro same
    rw [same] at entry
    exact idle k live entry
  exact (Dict.lookup_erase_ne _ other).trans entry

theorem entered_exits (entered : Entered l) (at_ : l.TaskAt i t) (isCall : t.pc.call? = some call)
    (returned : ∀ call, t.pc ≠ .dialling call)
    (idle : ∀ entry, l.client.active = some entry →
      l.sessionToCall.lookup (t.sessionId call) ≠ some entry) : Entered (l.exitPump i t call) :=
  entered_exitPump l.client entered at_ isCall returned (fun _ => id) idle

/-- `client.dial` returns: the entry of its session is written. -/
theorem entered_resumeDial (linked : Linked l) (entered : Entered l) : Entered l.resumeDial := by
  unfold resumeDial
  split
  · exact entered
  · rename_i i call dials
    obtain ⟨t, at_, pc⟩ := (linked.dialler i call).mp dials
    rw [show l.tasks[i]? = some t from at_]
    dsimp only
    split
    · intro j t' k at' isCall dialled live
      have live : l.client.active = some k := live
      -- the slot is that of the dialler, if any
      obtain rfl : k = call := linked.slot i call k dials live
      obtain ⟨t₀, before, rfl⟩ := modifyTask_taskAt.mp at'
      have isCall₀ : t₀.pc.call? = some k := by
        split at isCall
        · rename_i here
          subst here
          obtain rfl := Option.some.inj (at_.symm.trans before)
          rw [pc]
          rfl
        · exact isCall
      obtain rfl : j = i := linked.unique j i t₀ t k before at_ isCall₀ (by rw [pc]; rfl)
      obtain rfl := Option.some.inj (at_.symm.trans before)
      rw [if_pos rfl]
      exact Dict.lookup_put_self _ _ _
    · exact entered

theorem endsPump_of_breaks {before after : StreamPc} {event : AtEvent}
    (turn : l.Turn i t call client before after action) (yields : Yields before after event)
    (closed : t.conn ∈ l.closed) : l.endsPump t action = true := by
  obtain ⟨⟨c, c', here, here', rfl, rfl⟩, moved⟩ := turn
  rcases moved with ⟨rfl, pc, -, moves⟩ | ⟨rfl, pc, -, -⟩
  · have stream : StreamLog.stream l.client call = c.stream := StreamLog.stream_eq here
    rcases yields with ⟨source, seen, isYielded, -⟩ | ⟨single, -⟩
    · rw [isYielded] at moves
      generalize c.stream = stream' at moves
      cases moves
    · simp [endsPump, pc, TaskPc.call?, stream, single, closed]
  · simp [endsPump, closed]

/-- A stream that runs out frees the slot, or ran out on a call that never had it. -/
theorem exhausted_idle {before : StreamPc} (linked : Linked l)
    (turn : l.Turn i t call client before .closed action) :
    client.active = none ∨ l.endsPump t action = true := by
  obtain ⟨⟨c, c', here, here', rfl, closed⟩, moved⟩ := turn
  rcases moved with ⟨rfl, pc, next, moves⟩ | ⟨rfl, pc, next, moves⟩
  · have stream : StreamLog.stream l.client call = c.stream := StreamLog.stream_eq here
    generalize now : c.stream = stream' at moves stream
    cases moves with
    | singleEnded =>
        right
        simp [endsPump, pc, TaskPc.call?, stream]
    | shut | ended =>
        exact .inl (SerialAtClient.closed_frees linked.wired next here (by rw [now]; rfl) here'
          closed rfl (fun isClose => by cases isClose))
  · generalize now : c.stream = stream' at moves
    cases moves
    exact .inl (SerialAtClient.closed_frees linked.wired next here (by rw [now]; rfl) here'
      closed rfl (fun isClose => by cases isClose))

theorem Turn.pump {before after : StreamPc} (turn : l.Turn i t call client before after action) :
    action.pump? = some i ∧ t.pc.call? = some call ∧ (∀ k, t.pc ≠ .dialling k) ∧
      ∀ k, client.active = some k → l.client.active = some k := by
  rcases turn.moved with ⟨rfl, pc, next, -⟩ | ⟨rfl, pc, next, -⟩
  · refine ⟨rfl, by rw [pc]; rfl, by simp [pc], fun k live => ?_⟩
    refine (SerialAtClient.active_of_step next live).resolve_right fun dials => ?_
    cases dials.1.choose_spec
  · refine ⟨rfl, by rw [pc]; rfl, by simp [pc], fun k live => ?_⟩
    refine (SerialAtClient.active_of_step next live).resolve_right fun dials => ?_
    cases dials.1.choose_spec

/-- `client.dial` on the free slot: the call it adds has no entry yet. -/
theorem entered_beginDial (linked : Linked l) (entered : Entered l)
    (free : l.client.active = none) (number : Text) : Entered (l.beginDial i number) := by
  have stepped : l.client.step (.dial number) = some (l.client.dial number) := rfl
  refine entered_of entered (fun j t' k at' isCall dialled live => ?_) rfl
  obtain ⟨t₀, before, rfl⟩ := modifyTask_taskAt.mp at'
  have live : (l.client.dial number).active = some k := live
  rcases SerialAtClient.active_of_step stepped live with same | ⟨-, -, rfl⟩
  · rw [free] at same
    cases same
  · split at isCall
    · rename_i here
      rw [if_pos here] at dialled
      exact absurd rfl dialled
    · obtain ⟨c, known⟩ := linked.known before isCall
      exact absurd (List.getElem?_eq_some_iff.mp known).1 (Nat.lt_irrefl _)

theorem active_of_hangup (live : (l.client.hangup call).active = some k) :
    l.client.active = some k := by
  have stepped : l.client.step (.hangup call) = some (l.client.hangup call) := rfl
  refine (SerialAtClient.active_of_step stepped live).resolve_right fun dials => ?_
  cases dials.1.choose_spec

theorem entered_setDeviceStatus (entered : Entered l) (device : Option Nat)
    (status : DeviceStatus) : Entered (l.setDeviceStatus device status) :=
  entered_congr entered (by simp) (by simp) (by simp)

theorem entered_step (sound : Sound l) (entered : Entered l) (orderly : l.Orderly action)
    (next : l.step action = some m) : Entered m := by
  have idle : ∀ {i t call}, action.pump? = some i → l.TaskAt i t → t.pc.call? = some call →
      l.endsPump t action = true → ∀ entry, l.client.active = some entry →
      l.sessionToCall.lookup (t.sessionId call) ≠ some entry := by
    intro i t call pump at_ isCall ends entry live found
    exact orderly.2 i pump t at_ ends call isCall entry found live
  have same : ∀ call, l.client.active = some call → l.client.active = some call := fun _ => id
  cases step_cases sound.linked.wired next with
  | numberRequired | disconnect | answer | status => exact entered_congr entered rfl same rfl
  | dial =>
      refine entered_of entered (fun i t' call at' isCall dialled live =>
        ⟨live, t', ?_, isCall, dialled, rfl⟩) rfl
      have at' : (l.tasks ++ [_])[i]? = some t' := at'
      rw [SerialAtClient.getElem?_snoc] at at'
      split at at'
      · obtain rfl := Option.some.inj at'
        cases isCall
      · exact at'
  | @hangup conn session legacy =>
      unfold handleHangup
      split
      · rename_i call target
        dsimp only
        split <;> exact entered_congr entered rfl (fun _ => active_of_hangup) rfl
      · exact entered_congr entered rfl same rfl
  | markFailed at_ pc =>
      exact entered_congr (entered_modifyTask .raised entered at_ (by rw [pc]; rfl)
        (by simp [pc]) same) rfl same rfl
  | @refused i t at_ pc =>
      exact entered_congr (entered_modifyTask .raised (entered_setDeviceStatus entered _ _)
        (setDeviceStatus_taskAt.mpr at_) (by rw [pc]; rfl) (by simp [pc]) fun _ => id)
        rfl (fun _ => id) rfl
  | @dialled i t at_ pc free =>
      have sound' := sound_setDeviceStatus sound t.device .dialing
      have at' : (l.setDeviceStatus t.device .dialing).TaskAt i t := setDeviceStatus_taskAt.mpr at_
      have free' : (l.setDeviceStatus t.device .dialing).client.active = none := by simpa using free
      exact entered_resumeDial (linked_beginDial sound' at' pc free' t.number)
        (entered_beginDial sound'.linked (entered_setDeviceStatus entered _ _) free' t.number)
  | waits at_ turn | event at_ turn =>
      obtain ⟨-, isCall, returned, active⟩ := turn.pump
      exact entered_modifyTask _ entered at_ isCall.symm returned active
  | breaks at_ turn yields closed =>
      obtain ⟨pump, isCall, returned, active⟩ := turn.pump
      have ends := endsPump_of_breaks turn yields closed
      exact entered_exitPump _ entered at_ isCall returned active fun entry live =>
        idle pump at_ isCall ends entry (active entry live)
  | exhausted at_ turn =>
      obtain ⟨pump, isCall, returned, active⟩ := turn.pump
      refine entered_exitPump _ entered at_ isCall returned active fun entry live => ?_
      rcases exhausted_idle sound.linked turn with free | ends
      · rw [free] at live
        cases live
      · exact idle pump at_ isCall ends entry (active entry live)
  | writeFailed at_ pc | sendFailed at_ pc =>
      exact entered_exits entered at_ (by rw [pc]; rfl) (by simp [pc])
        fun entry live => idle rfl at_ (by rw [pc]; rfl) rfl entry live
  | wrote at_ pc =>
      exact entered_modifyTask _ (entered_setDeviceStatus entered _ _)
        (setDeviceStatus_taskAt.mpr at_) (by rw [pc]; rfl) (by simp [pc]) fun _ => id
  | wroteLast at_ pc closed =>
      refine entered_exits (entered_setDeviceStatus entered _ _)
        (setDeviceStatus_taskAt.mpr at_) (by rw [pc]; rfl) (by simp [pc]) fun entry live => ?_
      rw [setDeviceStatus_client] at live
      rw [setDeviceStatus_sessionToCall]
      exact idle rfl at_ (by rw [pc]; rfl) (by simp [endsPump, closed]) entry live
  | @sent i call t event at_ pc =>
      exact entered_congr (entered_modifyTask (.ready call) entered at_ (by rw [pc]; rfl)
        (by simp [pc]) same) rfl same rfl
  | @modem a client may stepped =>
      have linked : Linked { l with client := client } := linked_modem sound.linked may stepped
      refine entered_resumeDial linked (entered_congr entered rfl (fun k live => ?_) rfl)
      refine (SerialAtClient.active_of_step stepped live).resolve_right fun dials => ?_
      obtain ⟨number, rfl⟩ := dials.1
      cases may

/-! ## The hangups that wait -/

/-- No dial of the session is in progress, and its live call was hung up. -/
def Heard (l : Handlers) (session : SessionId) : Prop :=
  l.Quiet session ∧ ∀ t ∈ l.tasks, t.session? = some session → ∀ call ∈ t.pc.call?,
    l.client.active = some call → call ∈ l.hungUp

theorem heard_of (heard : Heard l session)
    (tasks : ∀ t' ∈ m.tasks, t'.session? = some session →
      ∃ t ∈ l.tasks, t.session? = some session ∧
        (t.pc.inProgress = false → t'.pc.inProgress = false) ∧
        ∀ k ∈ t'.pc.call?, m.client.active = some k → k ∈ t.pc.call? ∧ l.client.active = some k)
    (hungUp : l.hungUp ⊆ m.hungUp) : Heard m session := by
  refine ⟨fun t' listed isSession => ?_, fun t' listed isSession k isCall live => ?_⟩
  · obtain ⟨t, known, same, idle, -⟩ := tasks t' listed isSession
    exact idle (heard.1 t known same)
  · obtain ⟨t, known, same, -, calls⟩ := tasks t' listed isSession
    obtain ⟨isCall', live'⟩ := calls k isCall live
    exact hungUp (heard.2 t known same k isCall' live')

theorem heard_congr (heard : Heard l session) (tasks : m.tasks = l.tasks)
    (active : ∀ k, m.client.active = some k → l.client.active = some k)
    (hungUp : l.hungUp ⊆ m.hungUp) : Heard m session :=
  heard_of heard (fun t' listed isSession => ⟨t', tasks ▸ listed, isSession, id,
    fun k isCall live => ⟨isCall, active k live⟩⟩) hungUp

theorem heard_modifyTask (client : SerialAtClient) (pc : TaskPc) (heard : Heard l session)
    (at_ : l.TaskAt i t)
    (own : pc.call? = t.pc.call?) (idle : pc.inProgress = false)
    (active : ∀ k, client.active = some k → l.client.active = some k) :
    Heard ({ l with client := client }.modifyTask i pc) session := by
  refine heard_of heard (fun t' listed isSession => ?_) (List.Subset.refl _)
  obtain ⟨j, at'⟩ := List.mem_iff_getElem?.mp listed
  obtain ⟨t₀, before, rfl⟩ := modifyTask_taskAt.mp at'
  refine ⟨t₀, List.mem_iff_getElem?.mpr ⟨j, before⟩, ?_⟩
  split at isSession
  · rename_i here
    subst here
    obtain rfl := Option.some.inj (at_.symm.trans before)
    rw [if_pos rfl]
    refine ⟨?_, fun _ => idle, fun k isCall live => ⟨own ▸ isCall, active k live⟩⟩
    unfold DialTask.session? at isSession ⊢
    rw [← own]
    exact isSession
  · rename_i other
    rw [if_neg other]
    exact ⟨isSession, id, fun k isCall live => ⟨isCall, active k live⟩⟩

/-- A pump ends; it pops an entry, and no task. -/
theorem heard_exitPump (client : SerialAtClient) (heard : Heard l session) (at_ : l.TaskAt i t)
    (isCall : t.pc.call? = some call)
    (active : ∀ k, client.active = some k → l.client.active = some k) :
    Heard ({ l with client := client }.exitPump i t call) session := by
  have moved := heard_modifyTask client (.ended call) heard at_ isCall.symm rfl active
  exact heard_congr moved rfl (fun _ => id) (List.Subset.refl _)

theorem heard_resumeDial (linked : Linked l) (heard : Heard l session) :
    Heard l.resumeDial session := by
  unfold resumeDial
  split
  · exact heard
  · rename_i i call dials
    obtain ⟨t, at_, pc⟩ := (linked.dialler i call).mp dials
    rw [show l.tasks[i]? = some t from at_]
    dsimp only
    split
    · have moved := heard_modifyTask l.client (.ready call) heard at_
        (by rw [pc]; rfl) rfl fun _ => id
      exact heard_congr moved rfl (fun _ => id) (List.Subset.refl _)
    · exact heard

/-- `client.dial` begins for a session that nobody hangs up. -/
theorem heard_beginDial (linked : Linked l) (heard : Heard l session) (at_ : l.TaskAt i t)
    (marks : t.pc = .marking) (drawn : ∀ k, session = .call k → k < l.client.calls.length)
    (number : Text) :
    Heard (l.beginDial i number) session := by
  have stepped : l.client.step (.dial number) = some (l.client.dial number) := rfl
  refine heard_of heard (fun t' listed isSession => ?_) (List.Subset.refl _)
  obtain ⟨j, at'⟩ := List.mem_iff_getElem?.mp listed
  obtain ⟨t₀, before, rfl⟩ := modifyTask_taskAt.mp at'
  have mem : t₀ ∈ l.tasks := List.mem_iff_getElem?.mpr ⟨j, before⟩
  split at isSession
  · rename_i here
    subst here
    obtain rfl := Option.some.inj (at_.symm.trans before)
    exfalso
    unfold DialTask.session? at isSession
    split at isSession
    · rename_i named found
      have idle := heard.1 t mem (by rw [DialTask.session?, found]; exact isSession)
      rw [marks] at idle
      cases idle
    · obtain rfl := Option.some.inj isSession
      exact Nat.lt_irrefl _ (drawn _ rfl)
  · rename_i other
    rw [if_neg other]
    refine ⟨t₀, mem, isSession, id, fun k isCall live => ?_⟩
    have live : (l.client.dial number).active = some k := live
    rcases SerialAtClient.active_of_step stepped live with same | ⟨-, -, rfl⟩
    · exact ⟨isCall, same⟩
    · obtain ⟨c, known⟩ := linked.known before isCall
      exact absurd (List.getElem?_eq_some_iff.mp known).1 (Nat.lt_irrefl _)

theorem heard_setDeviceStatus (heard : Heard l session) (device : Option Nat)
    (status : DeviceStatus) : Heard (l.setDeviceStatus device status) session :=
  heard_congr heard (by simp) (by simp) (by simp)

/-- A hangup with no dial of its session in progress hangs up the live call. -/
theorem heard_handleHangup (entered : Entered l) (quiet : l.Quiet session) (conn : Nat)
    (legacy : Option SessionId) : Heard (l.handleHangup conn (some session) legacy) session := by
  have target : ∀ t ∈ l.tasks, t.session? = some session → ∀ call ∈ t.pc.call?,
      l.client.active = some call → l.target (some session) legacy = some (.call call) := by
    intro t listed isSession call isCall live
    obtain ⟨i, at_⟩ := List.mem_iff_getElem?.mp listed
    have returned : t.pc ≠ .dialling call := by
      intro dials
      have idle := quiet t listed isSession
      rw [dials] at idle
      cases idle
    have entry := entered i t call at_ isCall returned live
    rw [Option.some.inj ((DialTask.session_of_call isCall).symm.trans isSession)] at entry
    simp [Handlers.target, Option.filter, DialTask.truthy_of_session isSession, entry]
  unfold handleHangup
  split
  · rename_i called isTarget
    have heard : Heard { l with
        client := l.client.hangup called
        hungUp := l.hungUp ++ [called] } session := by
      refine ⟨quiet, fun t listed isSession call isCall live => ?_⟩
      have same := target t listed isSession call isCall (active_of_hangup live)
      rw [isTarget] at same
      obtain rfl := SessionId.call.inj (Option.some.inj same)
      exact List.mem_append_right _ (List.mem_singleton_self _)
    dsimp only
    split <;> exact heard_congr heard rfl (fun _ => id) (List.Subset.refl _)
  · rename_i noCall
    refine ⟨quiet, fun t listed isSession call isCall live => ?_⟩
    exact absurd (target t listed isSession call isCall live) (noCall call)

/-- A session that waits for its hangup stays heard. -/
theorem heard_step (sound : Sound l) (heard : Heard l session)
    (drawn : ∀ k, session = .call k → k < l.client.calls.length)
    (waits : ∃ h ∈ l.hangups, h.session = some session) (orderly : l.Orderly action)
    (next : l.step action = some m) : Heard m session := by
  have same : ∀ k, l.client.active = some k → l.client.active = some k := fun _ => id
  have all := List.Subset.refl l.hungUp
  cases step_cases sound.linked.wired next with
  | numberRequired | disconnect | answer | status => exact heard_congr heard rfl same all
  | @dial conn device number caller =>
      refine heard_of heard (fun t' listed isSession => ?_) all
      rcases List.mem_append.mp listed with old | new
      · exact ⟨t', old, isSession, id, fun k isCall live => ⟨isCall, live⟩⟩
      · exfalso
        rw [List.mem_singleton.mp new, DialTask.session?] at isSession
        obtain ⟨h, listed, names⟩ := waits
        have apart := (orderly.1 h listed).resolve_left fun absent => by
          rw [names] at absent
          cases absent
        cases found : caller.filter SessionId.truthy with
        | none =>
            rw [found] at isSession
            cases isSession
        | some named =>
            rw [found] at isSession
            obtain rfl := Option.some.inj isSession
            exact apart (names.trans (Option.filter_eq_some_iff.mp found).1.symm)
  | @hangup conn session' legacy =>
      unfold handleHangup
      split
      · rename_i called _
        dsimp only
        split <;>
          exact heard_congr heard rfl (fun _ => active_of_hangup) (List.subset_append_left _ _)
      · exact heard_congr heard rfl same all
  | markFailed at_ pc =>
      exact heard_congr (heard_modifyTask l.client .raised heard at_
        (by rw [pc]; rfl) rfl same) rfl same all
  | @refused i t at_ pc =>
      exact heard_congr (heard_modifyTask (l.setDeviceStatus t.device .dialing).client .raised
        (heard_setDeviceStatus heard _ _) (setDeviceStatus_taskAt.mpr at_) (by rw [pc]; rfl) rfl
        fun _ => id) rfl (fun _ => id) (List.Subset.refl _)
  | @dialled i t at_ pc free =>
      have sound' := sound_setDeviceStatus sound t.device .dialing
      have at' : (l.setDeviceStatus t.device .dialing).TaskAt i t := setDeviceStatus_taskAt.mpr at_
      have free' : (l.setDeviceStatus t.device .dialing).client.active = none := by simpa using free
      exact heard_resumeDial (linked_beginDial sound' at' pc free' t.number)
        (heard_beginDial sound'.linked (heard_setDeviceStatus heard _ _) at' pc
          (by simpa using drawn) t.number)
  | waits at_ turn | event at_ turn =>
      obtain ⟨-, isCall, -, active⟩ := turn.pump
      exact heard_modifyTask _ _ heard at_ isCall.symm rfl active
  | breaks at_ turn | exhausted at_ turn =>
      obtain ⟨-, isCall, -, active⟩ := turn.pump
      exact heard_exitPump _ heard at_ isCall active
  | writeFailed at_ pc | sendFailed at_ pc =>
      exact heard_exitPump l.client heard at_ (by rw [pc]; rfl) same
  | @wrote i call t event at_ pc =>
      exact heard_modifyTask ((l.setDeviceStatus t.device (eventStatus event)).client) _
        (heard_setDeviceStatus heard _ _) (setDeviceStatus_taskAt.mpr at_) (by rw [pc]; rfl) rfl
        fun _ => id
  | @wroteLast i call t event at_ pc =>
      exact heard_exitPump (l.setDeviceStatus t.device (eventStatus event)).client
        (heard_setDeviceStatus heard _ _) (setDeviceStatus_taskAt.mpr at_) (by rw [pc]; rfl) fun _ => id
  | @sent i call t event at_ pc =>
      exact heard_congr (heard_modifyTask l.client (.ready call) heard at_
        (by rw [pc]; rfl) rfl same) rfl same all
  | @modem a client may stepped =>
      have linked : Linked { l with client := client } := linked_modem sound.linked may stepped
      refine heard_resumeDial linked (heard_congr heard rfl (fun k live => ?_) all)
      refine (SerialAtClient.active_of_step stepped live).resolve_right fun dials => ?_
      obtain ⟨number, rfl⟩ := dials.1
      cases may

/-! ## The run -/

/-- What holds of every orderly run. -/
structure Kept (l : Handlers) : Prop where
  sound : Sound l
  earlier : StreamLog.Earlier l.client
  entered : Entered l
  heard : ∀ h ∈ l.hangups, ∀ s, h.session = some s → Heard l s
  drawn : ∀ h ∈ l.hangups, ∀ call, h.session = some (.call call) → call < l.client.calls.length

theorem kept_init (devices : List (Nat × DeviceStatus)) : Kept { devices := devices } where
  sound := sound_init devices
  earlier := StreamLog.earlier_init
  entered := fun _ _ _ at_ => by simp [TaskAt] at at_
  heard := fun _ listed => by cases listed
  drawn := fun _ listed => by cases listed

/-- A hangup that waits was waiting, or names its session now. -/
theorem hangups_step (linked : Linked l) (next : l.step action = some m) {h : HangupTask}
    (listed : h ∈ m.hangups) : h ∈ l.hangups ∨ ∃ conn legacy,
      action = .hangup conn h.session legacy ∧ m = l.handleHangup conn h.session legacy ∧
        ∀ s, h.session = some s → l.drawn s = true := by
  cases step_cases linked.wired next with
  | @hangup conn session legacy receives =>
      unfold handleHangup at listed ⊢
      have isDrawn : ∀ s, session = some s → l.drawn s = true := by
        rintro s rfl
        have all := (Bool.and_eq_true_iff.mp receives).2
        exact List.all_eq_true.mp all s (by simp)
      split at listed
      · rename_i call isTarget
        dsimp only at listed
        split at listed
        · rename_i active
          rcases List.mem_append.mp listed with old | new
          · exact .inl old
          · obtain rfl := List.mem_singleton.mp new
            refine .inr ⟨conn, legacy, rfl, ?_, isDrawn⟩
            simp [isTarget, active]
        · exact .inl listed
      · exact .inl listed
  | answer => exact .inl (List.mem_of_mem_eraseIdx listed)
  | dialled => exact .inl (by simpa [beginDial, modifyTask] using listed)
  | refused | wrote | wroteLast =>
      exact .inl (by simpa [modifyTask, close, exitPump] using listed)
  | modem => exact .inl (by simpa using listed)
  | _ => exact .inl listed

theorem kept_step (kept : Kept l) (orderly : l.Orderly action) (next : l.step action = some m) :
    Kept m := by
  have linked := kept.sound.linked
  have longer : l.client.calls.length ≤ m.client.calls.length := by
    rcases client_step linked next with same | ⟨a, stepped⟩
    · rw [same]
    · by_contra shorter
      have last : l.client.CallAt m.client.calls.length _ :=
        List.getElem?_eq_getElem (Nat.lt_of_not_le shorter)
      obtain ⟨c', at', -⟩ := SerialAtClient.callAt_stays linked.wired stepped last
      exact Nat.lt_irrefl _ (List.getElem?_eq_some_iff.mp at').1
  refine ⟨sound_step kept.sound next, ?_, entered_step kept.sound kept.entered orderly next,
    fun h listed s names => ?_, fun h listed call names => ?_⟩
  · rcases client_step linked next with same | ⟨a, stepped⟩
    · rw [same]
      exact kept.earlier
    · exact StreamLog.earlier_step linked.wired kept.earlier stepped
  · rcases hangups_step linked next listed with old | ⟨conn, legacy, rfl, rfl, -⟩
    · refine heard_step kept.sound (kept.heard h old s names) (fun call isCall => ?_) ⟨h, old, names⟩
        orderly next
      exact kept.drawn h old call (isCall ▸ names)
    · rw [names] at orderly ⊢
      exact heard_handleHangup kept.entered (orderly.1 s rfl) conn legacy
  · rcases hangups_step linked next listed with old | ⟨conn, legacy, -, -, isDrawn⟩
    · exact Nat.lt_of_lt_of_le (kept.drawn h old call names) longer
    · have known : call < l.client.calls.length := of_decide_eq_true (isDrawn _ names)
      exact Nat.lt_of_lt_of_le known longer

/-- The live call of a session is its newest. -/
theorem truthful_of_heard (linked : Linked l) (earlier : StreamLog.Earlier l.client)
    (heard : Heard l session) : l.Truthful session := by
  by_cases live : ∃ t ∈ l.tasks, t.session? = some session ∧ ∃ call ∈ t.pc.call?,
      l.client.active = some call
  · obtain ⟨t, listed, isSession, call, isCall, active⟩ := live
    refine .inl ⟨t, listed, isSession, call, isCall, heard.2 t listed isSession call isCall active,
      fun t' listed' _ other isOther => ?_⟩
    obtain ⟨i, at_⟩ := List.mem_iff_getElem?.mp listed'
    obtain ⟨c, known⟩ := linked.known at_ isOther
    exact earlier.latest call other c active known
  · exact .inr ⟨heard.1, fun t listed isSession call isCall active =>
      live ⟨t, listed, isSession, call, isCall, active⟩⟩

theorem resumeDial_messages (l : Handlers) : l.resumeDial.messages = l.messages ∨
    ∃ conn session, l.resumeDial.messages = l.messages ++ [(conn, .dialAck session)] := by
  unfold resumeDial
  split
  · exact .inl rfl
  · split
    · exact .inl rfl
    · split
      · exact .inr ⟨_, _, rfl⟩
      · exact .inl rfl

/-- Where an ack of a hangup comes from. -/
theorem hangupAck_step (linked : Linked l) (next : l.step action = some m) {conn : Nat}
    {named : Option SessionId} (acked : m.messages = l.messages ++ [(conn, .hangupAck named)]) :
    (∃ who legacy, action = .hangup who named legacy ∧ m = l.handleHangup who named legacy) ∨
      ∃ h ∈ l.hangups, h.session = named ∧ m.tasks = l.tasks ∧ m.client = l.client ∧
        m.hungUp = l.hungUp := by
  have silent : m.messages ≠ l.messages := by
    intro same
    rw [same] at acked
    simpa using congrArg List.length acked
  have last : ∀ {who : Nat} {message : Message}, m.messages = l.messages ++ [(who, message)] →
      message = .hangupAck named := by
    intro who message spoke
    rw [spoke] at acked
    have same : who = conn ∧ message = .hangupAck named := by
      simpa using List.append_cancel_left acked
    exact same.2
  have resumed : ∀ {r : Handlers}, m.messages = r.resumeDial.messages →
      r.messages = l.messages → False := by
    intro r here spoke
    rcases r.resumeDial_messages with same | ⟨who, session, more⟩
    · exact silent (here.trans (same.trans spoke))
    · cases last (here.trans (more.trans (by rw [spoke])))
  cases step_cases linked.wired next with
  | @hangup who session legacy =>
      left
      refine ⟨who, legacy, ?_⟩
      have spoke : (l.handleHangup who session legacy).messages = l.messages ∨
          (l.handleHangup who session legacy).messages = l.messages ++ [(who, .hangupAck session)] := by
        unfold handleHangup
        split
        · dsimp only
          split
          · exact .inl rfl
          · exact .inr rfl
        · exact .inr rfl
      obtain rfl : session = named :=
        Message.hangupAck.inj (last (spoke.resolve_left silent))
      exact ⟨rfl, rfl⟩
  | @answer index h at_ =>
      exact .inr ⟨h, List.mem_of_getElem? at_, Message.hangupAck.inj (last rfl), rfl, rfl, rfl⟩
  | numberRequired | sent => cases last rfl
  | @dialled i t =>
      exact (resumed (r := (l.setDeviceStatus t.device .dialing).beginDial i t.number) rfl
        (setDeviceStatus_messages _ _ _)).elim
  | @modem a client => exact (resumed (r := { l with client := client }) rfl rfl).elim
  | refused | wrote | wroteLast => exact absurd (setDeviceStatus_messages _ _ _) silent
  | _ => exact absurd rfl silent

/-! ### Main result -/

/-- **An ack tells the truth**, in every orderly run: the newest call of the session it
names was hung up, or no call of it is live or in progress. -/
theorem ack_tells_the_truth (devices : List (Nat × DeviceStatus)) (l m : Handlers)
    (run : Reachable step Orderly { devices := devices } l) (action : ControlAction)
    (orderly : l.Orderly action) (next : l.step action = some m) (conn : Nat) (session : SessionId)
    (acked : m.messages = l.messages ++ [(conn, .hangupAck (some session))]) :
    m.Truthful session := by
  have kept : Kept l := run.invariant (kept_init devices)
    fun _ _ _ kept orderly next => kept_step kept orderly next
  have after := kept_step kept orderly next
  refine truthful_of_heard after.sound.linked after.earlier ?_
  rcases hangupAck_step kept.sound.linked next acked with
    ⟨who, legacy, rfl, rfl⟩ | ⟨h, listed, names, tasks, client, hungUp⟩
  · exact heard_handleHangup kept.entered (orderly.1 session rfl) who legacy
  · exact heard_congr (kept.heard h listed session names) tasks (fun _ live => client ▸ live)
      (hungUp ▸ List.Subset.refl _)

/-! ## Poles -/

/-- A call that is up is hung up, and its ATH ends. -/
def hangupInCall : List ControlAction :=
  [.dial 0 none (some "10086".toList) (some (.named "s".toList)), .marked 0 true,
    .modem (.serial .acquire), .modem (.serial .drained), .modem (.read "OK".toList),
    .modem (.serial .receive), .pull 0, .hangup 1 (some (.named "s".toList)) none,
    .modem (.serial .acquire), .modem (.serial .drained), .modem (.read "OK".toList),
    .modem (.serial .receive)]

theorem hangup_in_call : (guardedRun step Orderly {} hangupInCall).isSome = true := by decide

theorem hangup_in_call_acked :
    ((Option.get _ hangup_in_call).step (.answer 0)).isSome = true := by decide

theorem hangup_in_call_is_truthful : (Option.get _ hangup_in_call_acked).Truthful (.named "s".toList) :=
  ack_tells_the_truth [] _ _ (reachable_guarded_get hangup_in_call) (.answer 0) (by decide)
    (Option.some_get _).symm 1 (.named "s".toList) (by decide)

/-- A dial of a session, its ATD in progress. -/
def dialling : List ControlAction :=
  [.dial 0 none (some "10086".toList) (some (.named "s".toList)), .marked 0 true]

theorem dialling_runs : (run step {} dialling).isSome = true := by decide

/-- A hangup of the session from another connection. -/
def early : ControlAction := .hangup 1 (some (.named "s".toList)) none

theorem early_runs : ((Option.get _ dialling_runs).step early).isSome = true := by decide

/-- **A false ack.**  The session has no entry while its ATD is in progress, and the hangup
is acked without a hangup of the call. -/
theorem hangup_while_dialling_is_acked :
    ¬ ∀ (devices : List (Nat × DeviceStatus)) (l m : Handlers),
      Reachable step Free { devices := devices } l → ∀ action, l.step action = some m →
      ∀ conn session, m.messages = l.messages ++ [(conn, .hangupAck (some session))] →
        m.Truthful session := by
  intro claim
  have false_ : ¬ (Option.get _ early_runs).Truthful (.named "s".toList) := by decide
  exact false_ (claim [] _ _ (reachable_get dialling_runs) early (Option.some_get _).symm 1
    (.named "s".toList) (by decide))

end Handlers

end IsalesTelephony.Controller
