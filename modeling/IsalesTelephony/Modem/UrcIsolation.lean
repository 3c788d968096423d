/-
# Modem.UrcIsolation -- which call a hangup URC is charged to

A URC is charged when its handler task runs, to the call in the slot, and not when
its line was read.  `UrcLog` keeps the moment of the reading: a stamp beside each
handler task, how many commands were on the wire when its line was read, then beside
each item of a queue, and at last beside what a stream yields.

* `stale_urc_ends_next_call`: a NO CARRIER of the call before is read, the next call
  takes the slot, the task runs, and the next call is told that it has ended;
* `urcs_stay_with_their_call`: in a run in which no such task runs while the slot is
  held by a call whose ATD was not yet written when the line was read, no call is told
  of a URC from before its ATD.
-/
import IsalesTelephony.Modem.Attended
import IsalesTelephony.Modem.CallSlot

namespace IsalesTelephony.Modem

set_option autoImplicit false

open IsalesTelephony.Theory.Transition

/-! ## When a line was read -/

structure UrcLog where
  client : SerialAtClient := {}
  /-- beside each URC handler task: the commands on the wire when its line was read -/
  stamps : List Nat := []
  /-- beside each item on the queue of a call: the stamp of the URC it is for -/
  queued : List (Nat × Option Nat) := []
  /-- the URCs a stream yielded an event for, by their stamps -/
  delivered : List (Nat × Nat) := []
  deriving DecidableEq, Repr

namespace UrcLog

def queueLength (s : SerialAtClient) (call : Nat) : Nat :=
  (s.calls[call]?.map (·.queue.length)).getD 0

/-- The calls a step puts an item on the queue of. -/
def puts (before after : SerialAtClient) : List Nat :=
  (List.range after.calls.length).filter fun call => queueLength before call < queueLength after call

/-- The call whose queue the event stream of a call reads. -/
def source (s : SerialAtClient) (call : Nat) : Option Nat :=
  s.calls[call]?.bind (·.stream.source?)

/-- The stamp of the URC that a step handles. -/
def origin (l : UrcLog) : SerialAction → Option Nat
  | .urc index => l.stamps[index]?
  | _ => none

/-- The first item on the queue that a stream reads, with its stamp. -/
def first (l : UrcLog) (call : Nat) : Option (Nat × Option Nat) :=
  (source l.client call).bind fun from_ => l.queued.find? fun item => item.1 = from_

def stampsAfter (l : UrcLog) (client : SerialAtClient) : SerialAction → List Nat
  | .read _ =>
      l.stamps ++ List.replicate
        (client.atClient.urcTasks.length - l.client.atClient.urcTasks.length)
        l.client.atClient.written.length
  | .urc index => l.stamps.eraseIdx index
  | _ => l.stamps

def queuedAfter (l : UrcLog) (client : SerialAtClient) : SerialAction → List (Nat × Option Nat)
  | .wake call =>
      match l.first call with
      | some item => l.queued.erase item
      | none => l.queued
  | action => l.queued ++ (puts l.client client).map fun call => (call, l.origin action)

def deliveredAfter (l : UrcLog) : SerialAction → List (Nat × Nat)
  | .wake call =>
      l.delivered ++ (((l.first call).bind (·.2)).map fun stamp => (call, stamp)).toList
  | _ => l.delivered

def step (l : UrcLog) (action : SerialAction) : Option UrcLog :=
  (l.client.step action).map fun client =>
    { client := client
      stamps := l.stampsAfter client action
      queued := l.queuedAfter client action
      delivered := l.deliveredAfter action }

/-- The ATD of the call was among the first commands on the wire. -/
def Dialled (s : SerialAtClient) (call stamp : Nat) : Prop :=
  ∃ c ∈ s.calls[call]?, ∃ w ∈ s.atClient.written.take stamp, w.1 = c.atd

instance (s : SerialAtClient) (call stamp : Nat) : Decidable (Dialled s call stamp) :=
  inferInstanceAs (Decidable (∃ c ∈ s.calls[call]?, _))

/-- A handler task of a hangup URC runs while the slot is free, or held by a call
whose ATD was on the wire when the line was read. -/
def Charges (l : UrcLog) : SerialAction → Prop
  | .urc index =>
      ∀ task ∈ l.client.atClient.urcTasks[index]?, ∀ stamp ∈ l.stamps[index]?,
        ∀ call ∈ l.client.active, hangupUrcCause task.2.type ≠ none → Dialled l.client call stamp
  | _ => True

instance (l : UrcLog) (action : SerialAction) : Decidable (l.Charges action) := by
  unfold Charges
  induction action using SerialAction.casesOn <;> infer_instance

/-- No call is told of a URC whose line was read before its ATD was written. -/
def Isolated (l : UrcLog) : Prop :=
  ∀ d ∈ l.delivered, Dialled l.client d.1 d.2

/-! ## What a step puts on a queue -/

section Puts

variable {s t : SerialAtClient} {call k stamp : Nat} {action : SerialAction}

theorem queueLength_put (s : SerialAtClient) (item : Option AtEvent)
    (longer : queueLength s k < queueLength (s.put call item) k) : k = call := by
  by_contra other
  refine Nat.lt_irrefl _ (Nat.lt_of_lt_of_eq longer ?_)
  simp [queueLength, SerialAtClient.put, SerialAtClient.modify, Ne.symm other]

/-- A handler task puts on the queue of the call in the slot, for a hangup URC. -/
theorem puts_urc {index : Nat} (next : s.step (.urc index) = some t) (listed : k ∈ puts s t) :
    s.active = some k ∧ ∃ task ∈ s.atClient.urcTasks[index]?, hangupUrcCause task.2.type ≠ none := by
  obtain ⟨-, longer⟩ := List.mem_filter.mp listed
  have longer : queueLength s k < queueLength t k := of_decide_eq_true longer
  obtain ⟨task, ready, rfl⟩ := Option.map_eq_some_iff.mp next
  have same : queueLength (s.dropTask index) k = queueLength s k := rfl
  unfold SerialAtClient.onUrc at longer
  split at longer
  · rename_i call cause active hangup
    rw [← same] at longer
    obtain rfl := queueLength_put _ _ longer
    exact ⟨active, task, ready, by simp [hangup]⟩
  · exact absurd longer (Nat.lt_irrefl _)

/-- What was dialled stays dialled. -/
theorem Dialled.step (wired : s.Wired) (next : s.step action = some t)
    (dialled : Dialled s call stamp) : Dialled t call stamp := by
  obtain ⟨c, at_, w, wrote, atd⟩ := dialled
  obtain ⟨c', at', same⟩ := SerialAtClient.callAt_stays wired next at_
  have longer := (SerialAtClient.written_prefix next).take stamp
  exact ⟨c', at', w, longer.subset wrote, atd.trans same.symm⟩

end Puts

/-! ## The run -/

variable {l m : UrcLog} {action : SerialAction}

/-- What holds of every run whose URCs are charged as they should be. -/
structure Sound (l : UrcLog) : Prop where
  wired : l.client.Wired
  queued : ∀ item ∈ l.queued, ∀ stamp ∈ item.2, Dialled l.client item.1 stamp
  isolated : Isolated l

theorem sound_init : Sound {} where
  wired := SerialAtClient.wired_init
  queued := fun _ listed => by cases listed
  isolated := fun _ listed => by cases listed

/-- An item is queued for a URC from after the ATD of the call. -/
theorem queued_step (sound : Sound l) (charges : l.Charges action) (next : l.step action = some m) :
    ∀ item ∈ m.queued, ∀ stamp ∈ item.2, Dialled m.client item.1 stamp := by
  obtain ⟨client, stepped, rfl⟩ := Option.map_eq_some_iff.mp next
  have kept : ∀ item ∈ l.queued, ∀ stamp ∈ item.2, Dialled client item.1 stamp :=
    fun item listed stamp isStamp =>
      (sound.queued item listed stamp isStamp).step sound.wired stepped
  have more : ∀ item ∈ l.queued ++ (puts l.client client).map fun call => (call, l.origin action),
      ∀ stamp ∈ item.2, Dialled client item.1 stamp := by
    intro item listed stamp isStamp
    rcases List.mem_append.mp listed with old | new
    · exact kept item old stamp isStamp
    · obtain ⟨call, isPut, rfl⟩ := List.mem_map.mp new
      cases action with
      | urc index =>
          obtain ⟨active, task, ready, hangup⟩ := puts_urc stepped isPut
          exact (charges task ready stamp isStamp call active hangup).step sound.wired stepped
      | _ => cases isStamp
  cases action with
  | wake call =>
      intro item listed
      refine kept item ?_
      simp only [queuedAfter] at listed
      split at listed
      · exact List.mem_of_mem_erase listed
      · exact listed
  | _ => exact more

/-- A stream yields what is queued for its own call. -/
theorem isolated_step (sound : Sound l) (next : l.step action = some m) : Isolated m := by
  obtain ⟨client, stepped, rfl⟩ := Option.map_eq_some_iff.mp next
  have kept : ∀ d ∈ l.delivered, Dialled client d.1 d.2 := fun d listed =>
    (sound.isolated d listed).step sound.wired stepped
  cases action with
  | wake call =>
      intro d listed
      rcases List.mem_append.mp listed with old | new
      · exact kept d old
      · obtain ⟨stamp, isStamp, rfl⟩ := Option.map_eq_some_iff.mp (Option.mem_toList.mp new)
        obtain ⟨item, isFirst, isStamp⟩ := Option.bind_eq_some_iff.mp isStamp
        obtain ⟨from_, reads, found⟩ := Option.bind_eq_some_iff.mp isFirst
        obtain ⟨c, at_, isSource⟩ := Option.bind_eq_some_iff.mp reads
        have mine : from_ = call := (sound.wired.slots at_).source from_ isSource
        have same : item.1 = from_ := by simpa using List.find?_some found
        have dialled := sound.queued item (List.mem_of_find?_eq_some found) stamp isStamp
        rw [same, mine] at dialled
        exact dialled.step sound.wired stepped
  | _ => exact kept

/-- **One step.** -/
theorem sound_step (sound : Sound l) (charges : l.Charges action) (next : l.step action = some m) :
    Sound m := by
  refine ⟨?_, queued_step sound charges next, isolated_step sound next⟩
  obtain ⟨client, stepped, rfl⟩ := Option.map_eq_some_iff.mp next
  exact SerialAtClient.wired_step sound.wired stepped

/-! ### Main result -/

/-- **URCs stay with their call**, in every run in which no handler task of a hangup URC
is charged to a call whose ATD was not yet written when the line was read. -/
theorem urcs_stay_with_their_call (l : UrcLog) (run : Reachable step Charges {} l) : Isolated l :=
  (run.invariant sound_init fun _ _ _ sound charges next => sound_step sound charges next).isolated

/-! ## Poles -/

/-- A NO CARRIER is read while its call is up. -/
def heard : List SerialAction :=
  [.dial "10086".toList, .serial .acquire, .serial .drained, .read "OK".toList, .serial .receive,
    .next 0, .read "NO CARRIER".toList, .urc 0, .wake 0]

theorem heard_runs : (guardedRun step Charges {} heard).isSome = true := by decide

theorem heard_urc_is_isolated :
    (Option.get _ heard_runs).delivered = [(0, 1)] ∧ Isolated (Option.get _ heard_runs) :=
  ⟨by decide, urcs_stay_with_their_call _ (reachable_guarded_get heard_runs)⟩

/-- A NO CARRIER is read with no call in the slot; before its task runs, a call is
dialled. -/
def stale : List SerialAction :=
  [.read "NO CARRIER".toList, .dial "10086".toList, .urc 0, .serial .acquire, .serial .drained,
    .read "OK".toList, .serial .receive, .next 0, .wake 0]

theorem stale_runs : (run step {} stale).isSome = true := by decide

/-- **A stale URC.**  The call is told that it has ended by a URC from before its ATD. -/
theorem stale_urc_ends_next_call :
    ¬ ∀ l : UrcLog, Reachable step Free {} l → Isolated l := by
  intro claim
  have told : (0, 0) ∈ (Option.get _ stale_runs).delivered := by decide
  have late : ¬ Dialled (Option.get _ stale_runs).client 0 0 := by decide
  exact late (claim _ (reachable_get stale_runs) (0, 0) told)

end UrcLog

end IsalesTelephony.Modem
