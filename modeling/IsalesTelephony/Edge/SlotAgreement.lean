/-
# Edge.SlotAgreement -- an idle orchestrator and a free modem

The orchestrator is idle when its map of calls is empty, the AT client when its slot is
free.  The two are set and cleared at different awaits, so they differ in between: from
the `at.dial` of a command to its registration (`dial_in_progress_is_not_idle`), and from
the pop of a call to the end of its pump and the finalisation of its event stream.

`Seated` says who may be in the slot: a call being dialled, or the call of a context whose
stream is open or is still to be handed to its pump.  A pump that has run has started its
stream, so a stream that is abandoned runs its `finally`.  Hence outside these windows an
idle orchestrator means a free slot (`free_when_settled`).
-/
import IsalesTelephony.Edge.StationSteps

namespace IsalesTelephony.Edge

set_option autoImplicit false

open IsalesTelephony.Modem (SerialAtClient SerialAction StreamPc StreamLog Call)
open IsalesTelephony.Theory IsalesTelephony.Theory.Transition

namespace EdgeStation

/-- No window is open. -/
structure Settled (s : EdgeStation) : Prop where
  /-- no `at.dial` is awaited -/
  dial : ∀ dial, s.edge.handler ≠ .atDial dial
  /-- the pump of a call that is out of the map has run to its end -/
  pumps : ∀ call ctx, s.edge.At call ctx → s.edge.calls.lookup ctx.callId ≠ some call →
    ctx.pump = .done
  /-- and its stream, abandoned half-way, is finalised -/
  streams : ∀ call ctx number c, s.edge.At call ctx → ctx.modemCallId = some number →
    s.modem.CallAt number c → ctx.pump = .done → c.stream.iterating = false

/-- The call a pump starts for. -/
def starter : EdgeAction → Option Nat
  | .pump call .start => some call
  | _ => none

variable {cfg : Config} {s t : EdgeStation} {action : EdgeAction} {call number : Nat}
  {ctx ctx' : CallContext} {c : Call} {m : SerialAtClient} {asking : Option Nat}

/-- No frame refers to the stream of a context: neither its pump nor `_on_dial`. -/
theorem not_referred (unreferred : s.referred number = false) (at_ : s.edge.At call ctx)
    (own : ctx.modemCallId = some number) :
    ctx.pump.live = false ∧ s.edge.handler ≠ .acceptAck call := by
  simp only [referred, Bool.or_eq_false_iff, List.any_eq_false] at unreferred
  obtain ⟨⟨-, pumps⟩, acks⟩ := unreferred
  refine ⟨?_, fun accepting => ?_⟩
  · simpa [own] using pumps ctx (List.mem_of_getElem? at_)
  · rw [accepting] at acks
    simp [show s.edge.contexts[call]? = some ctx from at_, own] at acks

/-- A stream that was asked for an event has been started. -/
theorem started {action : SerialAction} (wired : s.modem.Wired)
    (asks : action = .next number ∨ action = .wake number) (next : s.modem.step action = some m)
    (known : m.CallAt number c) : c.stream ≠ .unstarted := by
  rcases asks with rfl | rfl
  · obtain ⟨c₀, c', -, known', -, moves⟩ := StreamLog.next_stream wired next
    obtain rfl := Option.some.inj (known.symm.trans known')
    intro unstarted
    generalize c₀.stream = before at moves
    rw [unstarted] at moves
    cases moves
  · obtain ⟨c₀, c', -, known', -, moves⟩ := StreamLog.wake_stream wired next
    obtain rfl := Option.some.inj (known.symm.trans known')
    intro unstarted
    generalize c₀.stream = before at moves
    rw [unstarted] at moves
    cases moves

/-- A call is answered, its far end hangs up, and everything about it comes to an end. -/
def answeredActions : List StationAction :=
  [.edge .start, .edge (.message (.dial { callId := "x", rtcUidEngine := "engine" })),
    .modem (.serial .acquire), .modem (.serial .drained), .modem (.read "OK".toList),
    .modem (.serial .receive), .edge (.handler (.sent true)), .edge (.pump 0 .start),
    .modem (.read "NO CARRIER".toList), .modem (.urc 0), .deliver 0, .edge (.pump 0 (.sent true)),
    .modem (.close 0)]

theorem answered_runs : (guardedRun (step {}) NoStop {} answeredActions).isSome = true := by decide

end EdgeStation

end IsalesTelephony.Edge
