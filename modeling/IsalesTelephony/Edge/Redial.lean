/-
# Edge.Redial -- at most one dial for an accepted call id

`_on_dial` recognises a repeated DialCommand by the active-call map alone, and a
call leaves the map when it ends.  Nothing remembers it afterwards, so a retry
that arrives late is dialed again (`ended_call_redialed`).

`RepeatsInTime` is the condition: a command for an accepted call id reaches
`_on_dial` while the call is active.  Then `at.dial` is invoked at most once for
it (`dialed_at_most_once`), whatever the calls, the sends and `stop` do.
-/
import IsalesTelephony.Edge.Steps

namespace IsalesTelephony.Edge

set_option autoImplicit false

open IsalesTelephony.Theory IsalesTelephony.Theory.Transition

/-- The entry acknowledges a DialCommand for `callId` with `accepted=true`. -/
def LogEntry.Accepts (callId : String) : LogEntry → Prop
  | .send emission => emission.frame.Accepts callId
  | _ => False

instance (callId : String) (entry : LogEntry) : Decidable (entry.Accepts callId) := by
  unfold LogEntry.Accepts
  split <;> infer_instance

/-- After an accepting ack for a call id, `at.dial` is not invoked for it. -/
def AtMostOnce (log : List LogEntry) : Prop :=
  log.Pairwise fun earlier later => ∀ dial, later = .atDial dial → ¬ earlier.Accepts dial.callId

namespace EdgeOrchestrator

variable {cfg : Config} {s t : EdgeOrchestrator}

/-- A command for a call id already accepted finds that call active. -/
def RepeatsInTime (s : EdgeOrchestrator) : EdgeAction → Prop
  | .message (.dial dial) =>
      (∃ entry ∈ s.log, entry.Accepts dial.callId) → s.inCalls dial.callId = true
  | _ => True

instance (s : EdgeOrchestrator) (action : EdgeAction) : Decidable (s.RepeatsInTime action) := by
  unfold RepeatsInTime
  induction action using EdgeAction.casesOn with
  | message message => induction message using Cloud2Edge.casesOn <;> infer_instance
  | _ => infer_instance

/-- **One step.**  The only step that dials does so for a call id that is not
active, hence under the guard one that was never accepted. -/
theorem atMostOnce_step {action : EdgeAction} (once : AtMostOnce s.log)
    (inTime : s.RepeatsInTime action) (next : step cfg s action = some t) : AtMostOnce t.log := by
  obtain ⟨more, grown, dials⟩ := step_log next
  rw [AtMostOnce, grown, List.pairwise_append]
  refine ⟨once, ?_, fun earlier logged later new dial dialed accepts => ?_⟩
  · refine List.pairwise_of_forall_mem_list fun earlier first later new dial dialed accepts => ?_
    subst dialed
    obtain ⟨alone, -⟩ := dials dial new
    rw [alone, List.mem_singleton] at first
    rw [first] at accepts
    exact accepts
  · subst dialed
    obtain ⟨-, rfl, fresh, -⟩ := dials dial new
    have active := inTime ⟨earlier, logged, accepts⟩
    rw [fresh] at active
    cases active

/-- **At most once.**  When every repeated DialCommand finds its call active,
`at.dial` is never invoked for a call id that has been accepted. -/
theorem dialed_at_most_once (cfg : Config) (s : EdgeOrchestrator)
    (run : Reachable (step cfg) RepeatsInTime {} s) : AtMostOnce s.log :=
  run.invariant (P := fun s : EdgeOrchestrator => AtMostOnce s.log) List.Pairwise.nil
    fun _ _ _ once inTime next => atMostOnce_step once inTime next

/-! ## Poles -/

/-- The retry arrives while the call is active and is acked as a duplicate. -/
def retryInTime : List EdgeAction :=
  [.start, .message (.dial { callId := "a" }), .handler (.dialReturned 0), .handler (.sent true),
    .pump 0 .start, .message (.dial { callId := "a" }), .handler (.sent true),
    .message (.dial { callId := "b" }), .handler (.dialRaised "RuntimeError"),
    .handler (.sent true)]

theorem retry_in_time : (guardedRun (step {}) RepeatsInTime {} retryInTime).isSome = true := by
  decide

theorem retry_not_redialed :
    AtMostOnce (Option.get _ retry_in_time).log ∧
      .send (sendDialAck "a" true "duplicate") ∈ (Option.get _ retry_in_time).log :=
  ⟨dialed_at_most_once {} _ (reachable_guarded_get retry_in_time), by decide⟩

/-- The far end hangs up, then the retry of the same DialCommand arrives. -/
def lateRetry : List EdgeAction :=
  [.start, .message (.dial { callId := "a" }), .handler (.dialReturned 0), .handler (.sent true),
    .pump 0 .start, .pump 0 (.event (.remoteHangup (some "user_busy"))), .pump 0 (.sent true),
    .message (.dial { callId := "a" })]

theorem late_retry_runs : (run (step {}) {} lateRetry).isSome = true := by decide

/-- **The customer is phoned twice.**  A retry that arrives after the call has
ended is dialed again, although the call id was accepted. -/
theorem ended_call_redialed :
    ¬ ∀ (cfg : Config) (s : EdgeOrchestrator), cfg.devNoModem = false →
      Reachable (step cfg) Free {} s → AtMostOnce s.log := by
  intro claim
  have once := claim {} _ rfl (reachable_get late_retry_runs)
  have log : (Option.get _ late_retry_runs).log =
      [.atDial { callId := "a" }, .send (sendDialAck "a" true ""),
        .send (sendCallEventRemoteHangup "a" (some "user_busy")), .atDial { callId := "a" }] := by
    decide
  rw [AtMostOnce, log] at once
  simp [LogEntry.Accepts, sendDialAck, Edge2Cloud.Accepts] at once

end EdgeOrchestrator

end IsalesTelephony.Edge
