/-
# Controller.DeviceStatus -- who writes the status of a device

`_set_device_status` writes what its call has come to, whatever the watcher or the
health monitor has written since.

* `connected_overwrites_offline`: a device that was removed during the ATD is `in_call`
  once the call is answered;
* `status_follows_machine`: in a run in which no device is removed or flagged, and no
  second dial is made on it, while a call of it has still to write, and a dial finds it
  idle or claimed, the writes for calls follow the documented machine.
-/
import IsalesTelephony.Controller.Steps

namespace IsalesTelephony.Controller

set_option autoImplicit false

open IsalesTelephony.Modem
open IsalesTelephony.Theory
open IsalesTelephony.Theory.Transition

/-! ## The documented machine -/

/-- idle to dialing, dialing to in_call, dialing or in_call to idle, or no change. -/
def Follows (before after : DeviceStatus) : Prop :=
  after = before ∨ before = .idle ∧ after = .dialing ∨ before = .dialing ∧ after = .inCall ∨
    (before = .dialing ∨ before = .inCall) ∧ after = .idle

instance (before after : DeviceStatus) : Decidable (Follows before after) := by
  unfold Follows
  infer_instance

namespace Handlers

/-- The writes for calls follow the machine, and none takes a device out of offline or
flagged. -/
def StatusFollows (l : Handlers) : Prop :=
  ∀ w ∈ l.writes, Follows w.before w.after ∧
    (w.before = .offline ∨ w.before = .flagged → w.after = w.before)

instance (l : Handlers) : Decidable l.StatusFollows :=
  inferInstanceAs (Decidable (∀ w ∈ l.writes, _))

/-- The status that the next write of a task is made from; `none` when it has no write
left to make. -/
def due (client : SerialAtClient) : TaskPc → Option (List DeviceStatus)
  | .marking => some [.idle, .dialing]
  | .dialling _ => some [.dialing]
  | .ready call => dueOf (StreamLog.stream client call)
  | .waiting call => dueOf (StreamLog.stream client call)
  | .writing _ (.connected _) => some [.dialing]
  | .writing _ (.remoteHangup _ _) => some [.dialing, .inCall]
  | .sending _ (.connected _) => some [.inCall]
  | .sending _ (.remoteHangup _ _) => none
  | .raised => none
  | .ended _ => none
where
  dueOf : StreamPc → Option (List DeviceStatus)
    | .unstarted => some [.dialing]
    | .single _ => some [.dialing]
    | .waiting _ connectedSeen => some [if connectedSeen then .inCall else .dialing]
    | .yielded _ connectedSeen (.connected _) => some [if connectedSeen then .inCall else .dialing]
    | _ => none

/-- No call of the device has still to write its status. -/
def Settled (l : Handlers) (device : Nat) : Prop :=
  ∀ t ∈ l.tasks, t.device = some device → due l.client t.pc = none

/-- A call has its device to itself from its dial to its last write. -/
def Undisturbed (l : Handlers) : ControlAction → Prop
  | .dial _ device (some _) _ => ∀ d ∈ device, l.Settled d ∧
      ∀ status ∈ l.devices.lookup d, status = .idle ∨ status = .dialing
  | .remove device => l.Settled device
  | .flag device => l.Settled device
  | _ => True

instance (l : Handlers) (device : Nat) : Decidable (l.Settled device) :=
  inferInstanceAs (Decidable (∀ t ∈ l.tasks, _))

instance (l : Handlers) (action : ControlAction) : Decidable (l.Undisturbed action) := by
  unfold Undisturbed
  split <;> infer_instance

/-! ## Who has still to write -/

/-- Less is left to write, or the same from no other status. -/
def Later (before after : Option (List DeviceStatus)) : Prop :=
  ∀ allowed', after = some allowed' → ∃ allowed, before = some allowed ∧ allowed ⊆ allowed'

theorem Later.refl (before : Option (List DeviceStatus)) : Later before before :=
  fun allowed same => ⟨allowed, same, List.Subset.refl _⟩

theorem later_none (before : Option (List DeviceStatus)) : Later before none :=
  fun _ absent => by cases absent

variable {l m : Handlers} {action : ControlAction} {i j k call : Nat} {t t' : DialTask} {pc : TaskPc}
  {client : SerialAtClient} {a : SerialAction} {device : Nat}

/-- A step that does not move the stream of the task. -/
theorem later_other {s u : SerialAtClient} (wired : s.Wired) (next : s.step a = some u)
    (uncut : ∀ id, a = .serial (.cancel id) → s.isDial id = false)
    (other : ∀ k, pc.call? = some k → a.stream? = some k → pc = .ended k) (phase : Phase s pc) :
    Later (due s pc) (due u pc) := by
  cases pc with
  | ready k | waiting k =>
      obtain ⟨c, at_, returned⟩ := phase
      have still : a.stream? ≠ some k := fun moves => by cases other k rfl moves
      obtain ⟨c', at', ⟨-, stream⟩ | ⟨waits, -⟩⟩ :=
        SerialAtClient.call_other wired next still uncut at_
      · simp only [due, StreamLog.stream_eq at_, StreamLog.stream_eq at', stream]
        exact Later.refl _
      · rw [returned] at waits
        cases waits
  | writing k event | sending k event => cases event <;> exact Later.refl _
  | marking | raised | dialling | ended => exact Later.refl _

/-- What holds of every run that leaves a call its device. -/
structure Machine (l : Handlers) : Prop where
  alone : ∀ i j t t' d, l.TaskAt i t → l.TaskAt j t' → t.device = some d → t'.device = some d →
    due l.client t.pc ≠ none → due l.client t'.pc ≠ none → i = j
  expects : ∀ i t d allowed status, l.TaskAt i t → t.device = some d →
    due l.client t.pc = some allowed → l.devices.lookup d = some status → status ∈ allowed
  follows : l.StatusFollows

theorem machine_init (devices : List (Nat × DeviceStatus)) : Machine { devices := devices } where
  alone := fun _ _ _ _ _ at_ => by simp [TaskAt] at at_
  expects := fun _ _ _ _ _ at_ => by simp [TaskAt] at at_
  follows := fun _ listed => by cases listed

/-- The tasks move on and write nothing. -/
theorem machine_of (machine : Machine l)
    (tasks : ∀ i t', m.TaskAt i t' → ∃ t, l.TaskAt i t ∧ t.device = t'.device ∧
      Later (due l.client t.pc) (due m.client t'.pc))
    (devices : m.devices = l.devices) (writes : m.writes = l.writes) : Machine m := by
  constructor
  · intro i j t₁ t₂ d at₁ at₂ here here' owes owes'
    obtain ⟨t, before, device, later⟩ := tasks i t₁ at₁
    obtain ⟨t', before', device', later'⟩ := tasks j t₂ at₂
    obtain ⟨allowed, now⟩ := Option.ne_none_iff_exists'.mp owes
    obtain ⟨allowed', now'⟩ := Option.ne_none_iff_exists'.mp owes'
    obtain ⟨_, was, -⟩ := later allowed now
    obtain ⟨_, was', -⟩ := later' allowed' now'
    exact machine.alone i j t t' d before before' (device.trans here) (device'.trans here')
      (by rw [was]; simp) (by rw [was']; simp)
  · intro i t₁ d allowed' status at₁ here now row
    obtain ⟨t, before, device, later⟩ := tasks i t₁ at₁
    obtain ⟨allowed, was, fewer⟩ := later allowed' now
    rw [devices] at row
    exact fewer (machine.expects i t d allowed status before (device.trans here) was row)
  · intro w listed
    rw [writes] at listed
    exact machine.follows w listed

theorem machine_congr (machine : Machine l) (tasks : m.tasks = l.tasks)
    (client : m.client = l.client) (devices : m.devices = l.devices) (writes : m.writes = l.writes) :
    Machine m := by
  refine machine_of machine (fun i t' at' => ⟨t', ?_, rfl, ?_⟩) devices writes
  · rw [TaskAt, tasks] at at'
    exact at'
  · rw [client]
    exact Later.refl _

/-- The AT client moves on, in no stream that a task iterates. -/
theorem machine_client (linked : Linked l) (machine : Machine l) (next : l.client.step a = some client)
    (uncut : ∀ id, a = .serial (.cancel id) → l.client.isDial id = false)
    (idle : ∀ i t k, l.TaskAt i t → t.pc.call? = some k → a.stream? = some k → t.pc = .ended k) :
    Machine { l with client := client } :=
  machine_of machine (fun i t at_ => ⟨t, at_, rfl, later_other linked.wired next uncut
    (fun k => idle i t k at_) (linked.phase i t at_)⟩) rfl rfl

/-- A task moves on without a write, and perhaps its own stream. -/
theorem machine_task (client : SerialAtClient) (pc : TaskPc) (linked : Linked l)
    (machine : Machine l) (at_ : l.TaskAt i t)
    (stream : client = l.client ∨
      ∃ a call, l.client.step a = some client ∧ a.stream? = some call ∧ t.pc.call? = some call)
    (later : Later (due l.client t.pc) (due client pc)) :
    Machine ({ l with client := client }.modifyTask i pc) := by
  refine machine_of machine (fun j t' at' => ?_) rfl rfl
  obtain ⟨t₀, before, rfl⟩ := modifyTask_taskAt.mp at'
  refine ⟨t₀, before, by split <;> rfl, ?_⟩
  split
  · rename_i here
    subst here
    obtain rfl := Option.some.inj (at_.symm.trans before)
    exact later
  · rename_i other
    rcases stream with rfl | ⟨a, call, next, moves, mine⟩
    · exact Later.refl _
    · refine later_other linked.wired next (fun id cancels => ?_) (fun k isCall moves' => ?_)
        (linked.phase j t₀ before)
      · rw [cancels] at moves
        cases moves
      · obtain rfl := Option.some.inj (moves.symm.trans moves')
        exact absurd (linked.unique j i t₀ t call before at_ isCall mine) other

/-- `client.dial` returned: the pump has the same to write. -/
theorem machine_resumeDial (linked : Linked l) (machine : Machine l) : Machine l.resumeDial := by
  unfold resumeDial
  split
  · exact machine
  · rename_i i call dials
    obtain ⟨t, at_, pc⟩ := (linked.dialler i call).mp dials
    obtain ⟨c, here, dial⟩ : Phase l.client (.dialling call) := pc ▸ linked.phase i t at_
    rw [show l.tasks[i]? = some t from at_, show l.client.calls[call]? = some c from here]
    dsimp only
    split
    · rename_i returned
      have returned : c.dial = .returned := by simpa using returned
      have fresh : Fresh c.stream := by
        rcases dial with waits | ⟨-, fresh⟩
        · rw [returned] at waits
          cases waits
        · exact fresh
      have later : Later (due l.client t.pc) (due l.client (.ready call)) := by
        rw [pc]
        simp only [due, StreamLog.stream_eq here]
        rcases fresh with unstarted | ⟨event, single⟩
        · rw [unstarted]
          exact Later.refl _
        · rw [single]
          exact Later.refl _
      exact machine_congr (machine_task _ _ linked machine at_ (.inl rfl) later) rfl rfl rfl rfl
    · exact machine

/-- A row is the one just written, or another. -/
theorem setDeviceStatus_row {row : Option Nat} {d : Nat} {status old : DeviceStatus}
    (found : (l.setDeviceStatus row status).devices.lookup d = some old) :
    row = some d ∧ old = status ∨ row ≠ some d ∧ l.devices.lookup d = some old := by
  unfold setDeviceStatus at found
  split at found
  · exact .inr ⟨by simp, found⟩
  · rename_i written
    by_cases here : d = written
    · subst here
      split at found
      · rename_i absent
        rw [absent] at found
        cases found
      · rw [Dict.lookup_put_self] at found
        exact .inl ⟨rfl, (Option.some.inj found).symm⟩
    · refine .inr ⟨fun same => here (Option.some.inj same).symm, ?_⟩
      split at found
      · exact found
      · rw [Dict.lookup_put_ne _ _ here] at found
        exact found

theorem setDeviceStatus_writes {row : Option Nat} {status : DeviceStatus} {w : StatusWrite}
    (listed : w ∈ (l.setDeviceStatus row status).writes) :
    w ∈ l.writes ∨ ∃ d before, row = some d ∧ l.devices.lookup d = some before ∧
      w = ⟨d, before, status⟩ := by
  unfold setDeviceStatus at listed
  split at listed
  · exact .inl listed
  · split at listed
    · exact .inl listed
    · rename_i before found
      refine (List.mem_append.mp listed).imp_right fun new => ?_
      exact ⟨_, before, rfl, found, List.mem_singleton.mp new⟩

/-- A task writes a status that is due, and moves on. -/
theorem machine_write (pc : TaskPc) (machine : Machine l) {allowed : List DeviceStatus}
    {status : DeviceStatus} (at_ : l.TaskAt i t) (owed : due l.client t.pc = some allowed)
    (lawful : ∀ before ∈ allowed, Follows before status ∧
      (before = .offline ∨ before = .flagged → status = before))
    (now : ∀ allowed', due l.client pc = some allowed' → status ∈ allowed') :
    Machine ((l.setDeviceStatus t.device status).modifyTask i pc) := by
  have client := setDeviceStatus_client l t.device status
  have owes : due l.client t.pc ≠ none := by rw [owed]; simp
  have tasks : ∀ {j t'}, ((l.setDeviceStatus t.device status).modifyTask i pc).TaskAt j t' →
      ∃ t₀, l.TaskAt j t₀ ∧ t'.device = t₀.device ∧ (due l.client t'.pc ≠ none →
        due l.client t₀.pc ≠ none) ∧ (j = i ∧ t₀ = t ∧ t'.pc = pc ∨ j ≠ i ∧ t' = t₀) := by
    intro j t' at'
    obtain ⟨t₀, before, rfl⟩ := modifyTask_taskAt.mp at'
    refine ⟨t₀, setDeviceStatus_taskAt.mp before, by split <;> rfl, ?_⟩
    split
    · rename_i here
      subst here
      obtain rfl := Option.some.inj (at_.symm.trans (setDeviceStatus_taskAt.mp before))
      exact ⟨fun _ => owes, .inl ⟨rfl, rfl, rfl⟩⟩
    · rename_i other
      exact ⟨id, .inr ⟨other, rfl⟩⟩
  constructor
  · intro j j' t₁ t₂ d at₁ at₂ here here' owes₁ owes₂
    rw [show ((l.setDeviceStatus t.device status).modifyTask i pc).client = l.client from client]
      at owes₁ owes₂
    obtain ⟨t₁', before, device, was, -⟩ := tasks at₁
    obtain ⟨t₂', before', device', was', -⟩ := tasks at₂
    exact machine.alone j j' t₁' t₂' d before before' (device ▸ here) (device' ▸ here')
      (was owes₁) (was' owes₂)
  · intro j t' d allowed' old at' here' due' row
    rw [show ((l.setDeviceStatus t.device status).modifyTask i pc).client = l.client from client]
      at due'
    obtain ⟨t₀, before, device, was, moved⟩ := tasks at'
    have row : (l.setDeviceStatus t.device status).devices.lookup d = some old := row
    rcases setDeviceStatus_row row with ⟨own, rfl⟩ | ⟨other, same⟩
    · -- the row of the device is the one just written
      rcases moved with ⟨-, -, isPc⟩ | ⟨other, rfl⟩
      · exact now allowed' (isPc ▸ due')
      · exact absurd (machine.alone j i t' t d before at_ here' own (by rw [due']; simp) owes) other
    · rcases moved with ⟨-, rfl, -⟩ | ⟨-, rfl⟩
      · exact absurd (device.symm.trans here') other
      · exact machine.expects j t' d allowed' old before here' due' same
  · intro w listed
    rcases setDeviceStatus_writes listed with known | ⟨d, before, own, row, rfl⟩
    · exact machine.follows w known
    · exact lawful before (machine.expects i t d allowed before at_ own owed row)

/-- Another writer finds no call that has still to write. -/
theorem machine_status {status : DeviceStatus} (machine : Machine l)
    (allowed : ∀ i t allowed before, l.TaskAt i t → t.device = some device →
      due l.client t.pc = some allowed → l.devices.lookup device = some before → status ∈ allowed)
    (row : ∃ before, l.devices.lookup device = some before) : Machine (l.setStatus device status) := by
  refine ⟨machine.alone, fun i t d owed old at_ here isDue found => ?_, machine.follows⟩
  have now : (Dict.put l.devices device status).lookup d = some old := found
  rw [Dict.lookup_put] at now
  split at now
  · rename_i same
    subst same
    obtain rfl := Option.some.inj now
    obtain ⟨before, row⟩ := row
    exact allowed i t owed before at_ here isDue row
  · exact machine.expects i t d owed old at_ here isDue now

/-- A dial on a device that no call has still to write. -/
theorem machine_dial (machine : Machine l) {conn : Nat} {row : Option Nat} {number : Text}
    {caller : Option SessionId}
    (free : ∀ d ∈ row, l.Settled d ∧
      ∀ status ∈ l.devices.lookup d, status = .idle ∨ status = .dialing) :
    Machine { l with tasks := l.tasks ++ [⟨conn, row, number, caller, .marking⟩] } := by
  have tasks : ∀ {i t'}, ({ l with tasks := l.tasks ++ [⟨conn, row, number, caller, .marking⟩] } :
      Handlers).TaskAt i t' →
        l.TaskAt i t' ∨ i = l.tasks.length ∧ t' = ⟨conn, row, number, caller, .marking⟩ := by
    intro i t' at'
    have at' : (l.tasks ++ [_])[i]? = some t' := at'
    rw [SerialAtClient.getElem?_snoc] at at'
    split at at'
    · rename_i here
      exact .inr ⟨here, (Option.some.inj at').symm⟩
    · exact .inl at'
  have settled : ∀ {i t' d}, l.TaskAt i t' → t'.device = some d → row = some d →
      due l.client t'.pc = none := fun at_ here own =>
    (free _ own).1 _ (List.mem_of_getElem? at_) here
  constructor
  · intro i j t₁ t₂ d at₁ at₂ here here' owes owes'
    rcases tasks at₁ with before | ⟨new, rfl⟩ <;> rcases tasks at₂ with before' | ⟨new', rfl⟩
    · exact machine.alone i j t₁ t₂ d before before' here here' owes owes'
    · exact absurd (settled before here here') owes
    · exact absurd (settled before' here' here) owes'
    · exact new.trans new'.symm
  · intro i t' d allowed status at' here isDue found
    rcases tasks at' with before | ⟨-, rfl⟩
    · exact machine.expects i t' d allowed status before here isDue found
    · obtain rfl := Option.some.inj isDue
      rcases (free d here).2 status found with rfl | rfl <;> simp
  · exact machine.follows

/-- What a pump is due to write is read off its stream. -/
theorem Turn.due_eq {before after : StreamPc} (turn : l.Turn i t call client before after action) :
    due l.client t.pc = due.dueOf before ∧ due client (.waiting call) = due.dueOf after := by
  obtain ⟨⟨c, c', here, here', rfl, rfl⟩, moved⟩ := turn
  refine ⟨?_, by simp only [due, StreamLog.stream_eq here']⟩
  rcases moved with ⟨-, pc, -⟩ | ⟨-, pc, -⟩ <;>
    rw [pc] <;> simp only [due, StreamLog.stream_eq here]

theorem later_waits {before : StreamPc} {source : Nat} {seen : Bool}
    (turn : l.Turn i t call client before (.waiting source seen) action) :
    Later (due l.client t.pc) (due client (.waiting call)) := by
  rw [turn.due_eq.1, turn.due_eq.2]
  rcases turn.moved with ⟨-, -, -, moves⟩ | ⟨-, -, -, moves⟩ <;> cases moves <;> exact Later.refl _

/-- The connected event comes before any other, and remote_hangup last. -/
theorem later_event {before after : StreamPc} {event : AtEvent}
    (turn : l.Turn i t call client before after action) (yields : Yields before after event) :
    Later (due l.client t.pc) (due client (.writing call event)) := by
  have hangup : ∀ seen : Bool,
      [if seen then DeviceStatus.inCall else .dialing] ⊆ [.dialing, .inCall] := by decide
  rw [turn.due_eq.1]
  rcases yields with ⟨source, seen, rfl, -⟩ | ⟨rfl, -⟩
  · rcases turn.moved with ⟨-, -, -, moves⟩ | ⟨-, -, -, moves⟩
    · cases moves
    · cases moves with
      | connected => exact Later.refl _
      | hangup =>
          rintro allowed' isDue
          obtain rfl := Option.some.inj isDue
          exact ⟨_, rfl, hangup seen⟩
  · cases event with
    | connected => exact Later.refl _
    | remoteHangup =>
        rintro allowed' isDue
        obtain rfl := Option.some.inj isDue
        exact ⟨_, rfl, hangup false⟩

/-- A pump that ends writes nothing more. -/
theorem machine_exitPump (client : SerialAtClient) (linked : Linked l) (machine : Machine l)
    (at_ : l.TaskAt i t)
    (stream : client = l.client ∨
      ∃ a call, l.client.step a = some client ∧ a.stream? = some call ∧ t.pc.call? = some call) :
    Machine ({ l with client := client }.exitPump i t call) :=
  machine_congr (machine_task _ (.ended call) linked machine at_ stream (later_none _))
    rfl rfl rfl rfl

theorem Turn.stream {before after : StreamPc} (turn : l.Turn i t call client before after action) :
    client = l.client ∨
      ∃ a call, l.client.step a = some client ∧ a.stream? = some call ∧ t.pc.call? = some call := by
  rcases turn.moved with ⟨-, pc, next, -⟩ | ⟨-, pc, next, -⟩ <;>
    exact .inr ⟨_, call, next, rfl, by rw [pc]; rfl⟩

/-- What a dial may find. -/
theorem follows_dialing : ∀ before ∈ [DeviceStatus.idle, .dialing], Follows before .dialing ∧
    (before = .offline ∨ before = .flagged → DeviceStatus.dialing = before) := by decide

/-- What an event may find. -/
theorem follows_event {event : AtEvent} {allowed : List DeviceStatus}
    (owed : due l.client (.writing call event) = some allowed) : ∀ before ∈ allowed,
      Follows before (eventStatus event) ∧
        (before = .offline ∨ before = .flagged → eventStatus event = before) := by
  cases event with
  | connected =>
      obtain rfl := Option.some.inj owed
      simp only [eventStatus]
      decide
  | remoteHangup =>
      obtain rfl := Option.some.inj owed
      simp only [eventStatus]
      decide

theorem due_writing (client : SerialAtClient) (call : Nat) (event : AtEvent) :
    ∃ allowed, due client (.writing call event) = some allowed := by
  cases event <;> exact ⟨_, rfl⟩

/-- Only a dial that has not claimed its device finds it idle. -/
theorem claimed_due {allowed : List DeviceStatus} (isDue : due client pc = some allowed)
    (idle : .idle ∈ allowed) : .dialing ∈ allowed := by
  have of_stream : ∀ {stream}, due.dueOf stream = some allowed → .dialing ∈ allowed := by
    intro stream isDue
    have once : ∀ seen : Bool, ¬ .idle ∈ [if seen then DeviceStatus.inCall else .dialing] := by decide
    unfold due.dueOf at isDue
    split at isDue
    · obtain rfl := Option.some.inj isDue
      simp
    · obtain rfl := Option.some.inj isDue
      simp
    · obtain rfl := Option.some.inj isDue
      exact absurd idle (once _)
    · obtain rfl := Option.some.inj isDue
      exact absurd idle (once _)
    · cases isDue
  cases pc with
  | marking | dialling =>
      obtain rfl := Option.some.inj isDue
      simp
  | ready k | waiting k => exact of_stream isDue
  | writing k event | sending k event =>
      cases event <;> cases isDue <;> simp at idle
  | raised | ended => cases isDue

/-- **One step.** -/
theorem machine_step (sound : Sound l) (machine : Machine l) (undisturbed : l.Undisturbed action)
    (next : l.step action = some m) : Machine m := by
  have linked := sound.linked
  cases step_cases linked.wired next with
  | numberRequired | disconnect | answer => exact machine_congr machine rfl rfl rfl rfl
  | dial => exact machine_dial machine undisturbed
  | @hangup conn session legacy =>
      unfold handleHangup
      split
      · rename_i called _
        have moved : Machine { l with client := l.client.hangup called } :=
          machine_client linked machine (a := .hangup called) rfl (fun _ isCancel => by cases isCancel)
            fun _ _ _ _ _ moves => by cases moves
        dsimp only
        split <;> exact machine_congr moved rfl rfl rfl rfl
      · exact machine_congr machine rfl rfl rfl rfl
  | markFailed at_ pc =>
      exact machine_congr (machine_task _ .raised linked machine at_ (.inl rfl) (later_none _))
        rfl rfl rfl rfl
  | refused at_ pc =>
      exact machine_congr (machine_write .raised machine at_ (by rw [pc]; rfl)
        follows_dialing fun _ isDue => by cases isDue) rfl rfl rfl rfl
  | @dialled i t at_ pc free =>
      have written := machine_write (.dialling l.client.calls.length) machine at_
        (by rw [pc]; rfl) follows_dialing fun allowed' isDue => by
          obtain rfl := Option.some.inj isDue
          simp
      have sound' := sound_setDeviceStatus sound t.device .dialing
      have begun := linked_beginDial sound' (setDeviceStatus_taskAt.mpr at_) pc
        (by rw [setDeviceStatus_client]; exact free) t.number
      refine machine_resumeDial begun (machine_of written (fun j t' at' => ?_) rfl rfl)
      rw [beginDial, setDeviceStatus_client] at at'
      refine ⟨t', at', rfl, ?_⟩
      obtain ⟨t₀, before, rfl⟩ := modifyTask_taskAt.mp at'
      have known := linked.phase j t₀ (setDeviceStatus_taskAt.mp before)
      have dials : l.client.step (.dial t.number) = some (l.client.dial t.number) := rfl
      rw [show ((l.setDeviceStatus t.device .dialing).modifyTask i _).client = l.client from
        setDeviceStatus_client _ _ _, beginDial, setDeviceStatus_client]
      split
      · exact Later.refl _
      · exact later_other linked.wired dials (fun _ isCancel => by cases isCancel)
          (fun _ _ moves => by cases moves) known
  | waits at_ turn => exact machine_task _ _ linked machine at_ turn.stream (later_waits turn)
  | event at_ turn yields =>
      exact machine_task _ _ linked machine at_ turn.stream (later_event turn yields)
  | breaks at_ turn | exhausted at_ turn => exact machine_exitPump _ linked machine at_ turn.stream
  | writeFailed at_ pc | sendFailed at_ pc =>
      exact machine_exitPump l.client linked machine at_ (.inl rfl)
  | @wrote i call t event at_ pc =>
      obtain ⟨allowed, owed⟩ := due_writing l.client call event
      refine machine_write _ machine at_ (by rw [pc]; exact owed) (follows_event owed)
        fun allowed' isDue => ?_
      cases event with
      | connected =>
          obtain rfl := Option.some.inj isDue
          exact List.mem_singleton_self _
      | remoteHangup => cases isDue
  | @wroteLast i call t event at_ pc closed =>
      obtain ⟨allowed, owed⟩ := due_writing l.client call event
      exact machine_congr (machine_write (.ended call) machine at_ (by rw [pc]; exact owed)
        (follows_event owed) fun _ isDue => by cases isDue) rfl rfl rfl rfl
  | @sent i call t event at_ pc =>
      refine machine_congr (machine_task l.client (.ready call) linked machine at_
        (.inl rfl) ?_) rfl rfl rfl rfl
      obtain ⟨c, here, -, handed⟩ : Phase l.client (.sending call event) := pc ▸ linked.phase i t at_
      rw [pc]
      simp only [due, StreamLog.stream_eq here]
      rcases handed with single | ⟨source, seen, yielded, first⟩
      · rw [single]
        exact later_none _
      · rw [yielded]
        cases event with
        | connected =>
            obtain rfl := first rfl
            exact Later.refl _
        | remoteHangup => exact later_none _
  | @modem a client may stepped =>
      exact machine_resumeDial (linked_modem linked may stepped)
        (machine_client linked machine stepped (mayModem_uncut may)
          fun i t k at_ isCall moves => mayModem_idle linked may at_ isCall moves)
  | @status _ device before status row by_ =>
      refine machine_status machine (fun i t allowed old at_ here isDue found => ?_) ⟨before, row⟩
      have listed := List.mem_of_getElem? at_
      rcases by_ with ⟨rfl, -⟩ | ⟨rfl, -⟩ | ⟨-, rfl, rfl⟩
      · rw [undisturbed t listed here] at isDue
        cases isDue
      · rw [undisturbed t listed here] at isDue
        cases isDue
      · exact claimed_due isDue (machine.expects i t device allowed .idle at_ here isDue row)

/-! ### Main result -/

/-- **The status follows its machine**, in every run in which a call has its device to
itself from its dial to its last write. -/
theorem status_follows_machine (devices : List (Nat × DeviceStatus)) (l : Handlers)
    (run : Reachable step Undisturbed { devices := devices } l) : l.StatusFollows :=
  (run.invariant (P := fun l => Sound l ∧ Machine l) ⟨sound_init devices, machine_init devices⟩
    fun _ _ _ ⟨sound, machine⟩ undisturbed next =>
      ⟨sound_step sound next, machine_step sound machine undisturbed next⟩).2.follows

/-! ## Poles -/

/-- A call is dialled on device 7. -/
def dialledOn : List ControlAction :=
  [.dial 0 (some 7) (some "10086".toList) none, .marked 0 true]

/-- It is answered. -/
def answeredOn : List ControlAction :=
  [.modem (.serial .acquire), .modem (.serial .drained), .modem (.read "OK".toList),
    .modem (.serial .receive), .pull 0, .modem (.poll 0), .modem (.serial .acquire),
    .modem (.serial .drained), .modem (.read "+CLCC: 1,0,0,0,0".toList), .modem (.read "OK".toList),
    .modem (.serial .receive), .deliver 0, .wrote 0 true]

/-- It ends, and only then the device is removed. -/
def endedOn : List ControlAction :=
  [.sent 0 true, .pull 0, .modem (.read "NO CARRIER".toList), .modem (.urc 0), .deliver 0,
    .wrote 0 true, .remove 7]

theorem ended_on :
    (guardedRun step Undisturbed { devices := [(7, .idle)] } (dialledOn ++ answeredOn ++ endedOn)).isSome
      = true := by decide

theorem ended_call_follows :
    (Option.get _ ended_on).writes =
        [⟨7, .idle, .dialing⟩, ⟨7, .dialing, .inCall⟩, ⟨7, .inCall, .idle⟩] ∧
      (Option.get _ ended_on).StatusFollows :=
  ⟨by decide, status_follows_machine [(7, .idle)] _ (reachable_guarded_get ended_on)⟩

/-- The device is removed while its call is dialled. -/
theorem removed_on :
    (run step { devices := [(7, .idle)] } (dialledOn ++ [.remove 7] ++ answeredOn)).isSome = true := by
  decide

/-- **A lost write.**  The removed device is in_call once its call is answered. -/
theorem connected_overwrites_offline :
    ¬ ∀ (devices : List (Nat × DeviceStatus)) (l : Handlers),
      Reachable step Free { devices := devices } l → l.StatusFollows := by
  intro claim
  have lost : ¬ (Option.get _ removed_on).StatusFollows := by decide
  exact lost (claim _ _ (reachable_get removed_on))

end Handlers

end IsalesTelephony.Controller
