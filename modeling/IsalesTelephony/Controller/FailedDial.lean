/-
# Controller.FailedDial -- what a dial leaves behind when it fails

`handle_dial` writes `dialing` before it awaits `client.dial`, and nothing catches what
that raises: the exception leaves `handle_dial` and `_read_loop`, and `_on_connect` closes
the connection for every session on it.  `SerialATClient.dial` turns what goes wrong with
its ATD into an event stream, so "another call is active" is what it can raise.

A failed dial is exactly the step `fails_step`.  From it are read off

* `status_kept_iff`: the device keeps its status only if it is not in the table or was
  `dialing` already;
* `others_pump_iff`: the other pumps go on only if none of them is on the connection;
* `others_registered`: their sessions are in the map until their pumps end;
* `closed_stays`: the connection stays closed, so nobody on it is told.

Hence no failed dial is atomic, and this is all that it leaves (`failed_dial_never_atomic`).
-/
import IsalesTelephony.Controller.Steps

namespace IsalesTelephony.Controller

set_option autoImplicit false

open IsalesTelephony.Modem
open IsalesTelephony.Theory
open IsalesTelephony.Theory.Transition

/-- The pump of a call is running. -/
def TaskPc.pumping : TaskPc → Bool
  | .ready _ => true
  | .waiting _ => true
  | .writing _ _ => true
  | .sending _ _ => true
  | _ => false

namespace Handlers

variable {l m : Handlers} {action : ControlAction} {i call : Nat} {t : DialTask}

/-! ## The failing step -/

/-- `client.dial` of the task is called, and raises. -/
structure Fails (l : Handlers) (i : Nat) (t : DialTask) : Prop where
  at_ : l.TaskAt i t
  pc : t.pc = .marking
  busy : l.client.active.isSome = true

/-- What a failed dial does. -/
def afterFailure (l : Handlers) (i : Nat) (t : DialTask) : Handlers :=
  ((l.setDeviceStatus t.device .dialing).modifyTask i .raised).close t.conn

theorem fails_step (fails : Fails l i t) : l.step (.marked i true) = some (l.afterFailure i t) := by
  obtain ⟨at_, pc, busy⟩ := fails
  have found : l.tasks[i]? = some t := at_
  simp [step, found, pc, callDial, busy, afterFailure]

/-! ## The status of the device -/

theorem afterFailure_devices (l : Handlers) (i : Nat) (t : DialTask) :
    (l.afterFailure i t).devices = (l.setDeviceStatus t.device .dialing).devices := rfl

theorem lookup_setDeviceStatus (l : Handlers) (d : Nat) (status : DeviceStatus) :
    (l.setDeviceStatus (some d) status).devices.lookup d =
      (l.devices.lookup d).map fun _ => status := by
  simp only [setDeviceStatus]
  split
  · rename_i absent
    rw [absent]
    rfl
  · rename_i before present
    rw [present]
    exact Dict.lookup_put_self _ _ _

/-- The write of `dialing` is taken back by nobody. -/
theorem status_kept_iff (l : Handlers) (i : Nat) (t : DialTask) :
    (∀ d, t.device = some d → (l.afterFailure i t).devices.lookup d = l.devices.lookup d) ↔
      ∀ d, t.device = some d → ∀ status, l.devices.lookup d = some status → status = .dialing := by
  rw [afterFailure_devices]
  refine forall₂_congr fun d known => ?_
  rw [known, lookup_setDeviceStatus]
  cases l.devices.lookup d with
  | none => simp
  | some status => simp [eq_comm]

/-! ## The other sessions -/

/-- The pumps of the other tasks still handle their events: a pump whose connection is
closed breaks at the next one. -/
def OthersPump (l m : Handlers) (i : Nat) : Prop :=
  ∀ j u, j ≠ i → l.TaskAt j u → u.pc.pumping = true → u.conn ∉ l.closed →
    m.TaskAt j u ∧ u.conn ∉ m.closed

/-- The other sessions are still registered. -/
def OthersRegistered (l m : Handlers) (i : Nat) : Prop :=
  ∀ j u call, j ≠ i → l.TaskAt j u → u.pc.call? = some call →
    m.sessionToCall.lookup (u.sessionId call) = l.sessionToCall.lookup (u.sessionId call)

theorem afterFailure_taskAt_other {j : Nat} {u : DialTask} (other : j ≠ i) :
    (l.afterFailure i t).TaskAt j u ↔ l.TaskAt j u := by
  refine Iff.trans modifyTask_taskAt ⟨?_, fun at_ => ⟨u, setDeviceStatus_taskAt.mpr at_, ?_⟩⟩
  · rintro ⟨u₀, before, rfl⟩
    rw [if_neg other]
    exact setDeviceStatus_taskAt.mp before
  · rw [if_neg other]

theorem mem_afterFailure_closed {conn : Nat} :
    conn ∈ (l.afterFailure i t).closed ↔ conn = t.conn ∨ conn ∈ l.closed := by
  simp [afterFailure, close, modifyTask]

/-- The pumps that go under are those on the connection of the failed dial. -/
theorem others_pump_iff (l : Handlers) (i : Nat) (t : DialTask) :
    OthersPump l (l.afterFailure i t) i ↔
      ∀ j u, j ≠ i → l.TaskAt j u → u.pc.pumping = true → u.conn ∉ l.closed →
        u.conn ≠ t.conn := by
  constructor
  · intro pump j u other at_ pumping isOpen same
    exact (pump j u other at_ pumping isOpen).2 (mem_afterFailure_closed.mpr (.inl same))
  · intro elsewhere j u other at_ pumping isOpen
    refine ⟨(afterFailure_taskAt_other other).mpr at_, fun closed => ?_⟩
    rcases mem_afterFailure_closed.mp closed with same | closed
    · exact elsewhere j u other at_ pumping isOpen same
    · exact isOpen closed

theorem others_registered (l : Handlers) (i : Nat) (t : DialTask) :
    OthersRegistered l (l.afterFailure i t) i := by
  intro j u call _ _ _
  rw [show (l.afterFailure i t).sessionToCall = l.sessionToCall from
    setDeviceStatus_sessionToCall _ _ _]

/-! ## The connection -/

@[simp] theorem resumeDial_closed (l : Handlers) : l.resumeDial.closed = l.closed := by
  unfold resumeDial
  split
  · rfl
  · split
    · rfl
    · split <;> rfl

/-- A closed connection is not opened again. -/
theorem closed_step {conn : Nat} (sound : Sound l) (closed : conn ∈ l.closed)
    (next : l.step action = some m) : conn ∈ m.closed := by
  cases step_cases sound.linked.wired next with
  | hangup =>
      unfold handleHangup
      split
      · dsimp only
        split <;> exact closed
      · exact closed
  | disconnect => exact List.mem_cons_of_mem _ closed
  | markFailed => exact List.mem_cons_of_mem _ closed
  | @refused i t => exact mem_afterFailure_closed (l := l) (i := i) |>.mpr (.inr closed)
  | dialled =>
      rw [resumeDial_closed]
      exact (setDeviceStatus_closed l _ _).symm ▸ closed
  | wrote | wroteLast => exact (setDeviceStatus_closed l _ _).symm ▸ closed
  | modem =>
      rw [resumeDial_closed]
      exact closed
  | _ => exact closed

theorem closed_stays {conn : Nat} (sound : Sound l) (closed : conn ∈ l.closed)
    (run : Reachable step Free l m) : conn ∈ m.closed :=
  (run.invariant (P := fun l => Sound l ∧ conn ∈ l.closed) ⟨sound, closed⟩
    fun _ _ _ ⟨sound, closed⟩ _ next =>
      ⟨sound_step sound next, closed_step sound closed next⟩).2

/-! ### Main result -/

/-- The dial of task `i` failed without a trace but the answer to its caller: `l` before
the failing step and `m` after it. -/
structure AtomicFailure (l m : Handlers) (i : Nat) (t : DialTask) : Prop where
  status : ∀ d, t.device = some d → m.devices.lookup d = l.devices.lookup d
  registered : OthersRegistered l m i
  pump : OthersPump l m i
  /-- the caller is told, now or later, on the connection it asked on -/
  told : ∃ later message, Reachable step Free m later ∧ t.conn ∉ later.closed ∧
    (t.conn, message) ∈ later.messages.drop m.messages.length

/-- **No failed dial is atomic**: whatever the rest of the controller is in, the caller
loses its connection and is told nothing.  At once the other sessions are still registered,
the status is the old one only if it was `dialing`, and the other pumps go on only if none
of them is on the connection. -/
theorem failed_dial_never_atomic (devices : List (Nat × DeviceStatus)) (l m : Handlers) (i : Nat)
    (t : DialTask) (run : Reachable step Free { devices := devices } l) (fails : Fails l i t)
    (next : l.step (.marked i true) = some m) :
    ¬ AtomicFailure l m i t ∧ OthersRegistered l m i ∧
      ((∀ d, t.device = some d → m.devices.lookup d = l.devices.lookup d) ↔
        ∀ d, t.device = some d → ∀ status, l.devices.lookup d = some status →
          status = .dialing) ∧
      (OthersPump l m i ↔
        ∀ j u, j ≠ i → l.TaskAt j u → u.pc.pumping = true → u.conn ∉ l.closed →
          u.conn ≠ t.conn) := by
  have sound : Sound l := run.invariant (P := Sound) (sound_init devices)
    fun _ _ _ sound _ next => sound_step sound next
  obtain rfl := Option.some.inj ((fails_step fails).symm.trans next)
  refine ⟨fun atomic => ?_, others_registered l i t, status_kept_iff l i t,
    others_pump_iff l i t⟩
  obtain ⟨later, message, after, isOpen, -⟩ := atomic.told
  have dropped : t.conn ∈ (l.afterFailure i t).closed :=
    mem_afterFailure_closed.mpr (.inl rfl)
  exact isOpen (closed_stays (sound_step sound next) dropped after)

/-! ## Poles -/

/-- A call is dialled for device 7; its ATD is accepted and its pump waits. -/
def firstDial : List ControlAction :=
  [.dial 0 (some 7) (some "10086".toList) none, .marked 0 true, .modem (.serial .acquire),
    .modem (.serial .drained), .modem (.read "OK".toList), .modem (.serial .receive), .pull 0]

/-- On the same connection, a second call is asked for on device 8. -/
def secondDial : List ControlAction := [.dial 0 (some 8) (some "10010".toList) none]

theorem second_asked :
    (run step { devices := [(7, .idle), (8, .idle)] } (firstDial ++ secondDial)).isSome = true := by
  decide

/-- `handle_dial` of the second call. -/
def secondTask : DialTask := ⟨0, some 8, "10010".toList, none, .marking⟩

theorem second_fails : Fails (Option.get _ second_asked) 1 secondTask where
  at_ := by decide
  pc := rfl
  busy := by decide

theorem second_refused : ((Option.get _ second_asked).step (.marked 1 true)).isSome = true := by
  decide

theorem second_dial_not_atomic :
    ¬ AtomicFailure (Option.get _ second_asked) (Option.get _ second_refused) 1 secondTask :=
  (failed_dial_never_atomic _ _ _ 1 secondTask (reachable_get second_asked) second_fails
    (Option.some_get second_refused).symm).1

/-- **A device left in dialing.**  Device 8 was idle; the dial that the modem never saw
leaves it in dialing. -/
theorem refused_dial_leaves_dialing :
    ¬ ∀ (devices : List (Nat × DeviceStatus)) (l m : Handlers) (i : Nat) (t : DialTask),
      Reachable step Free { devices := devices } l → Fails l i t →
        l.step (.marked i true) = some m → AtomicFailure l m i t := by
  intro claim
  have kept := (claim _ _ _ _ _ (reachable_get second_asked) second_fails
    (Option.some_get second_refused).symm).status 8 rfl
  exact absurd kept (by decide)

end Handlers

end IsalesTelephony.Controller
