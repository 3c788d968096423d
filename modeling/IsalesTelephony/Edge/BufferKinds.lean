/-
# Edge.BufferKinds -- which frames wait for a reconnect

The pending buffer is documented for CallEvents and HardwareAlerts; a Heartbeat
or a DialAck that is late is worthless.  Which frames it gets is decided in three
places: the criticality each emitter picks, the connectivity at the time of the
send, and who runs when.

An ack never meets a stream that is down, although it is sent non-critical: the
message callback runs inside the loop that reads the stream.  The heartbeat loop
and the event pumps are tasks of their own.  A heartbeat is non-critical too and
is buffered like a CallEvent (`heartbeat_buffered`), so its own
`except EdgeNotConnected` never runs; the HardwareAlert is critical and is
refused.  `InStream` asks that these two are sent while connected; then the buffer
holds what it is documented for (`buffer_holds_its_kinds`).
-/
import IsalesTelephony.Edge.Daemon
import IsalesTelephony.Transport.ClientSteps

namespace IsalesTelephony.Edge

set_option autoImplicit false

open IsalesTelephony.Theory.Transition IsalesTelephony.Transport

/-! ## The process -/

namespace EdgeDaemon

/-- The buffer holds and replays only what it is documented for, a CallEvent sent
while disconnected was buffered (unless the buffer raised), and no HardwareAlert
was refused because the stream is down. -/
structure KindsKept (d : EdgeDaemon) : Prop where
  only : ∀ m, d.client.Waits m → m.frame.ShouldBuffer = true
  callEvents : ∀ m ∈ d.offline, m.frame.IsCallEvent = true → d.client.Buffered m
  alerts : ∀ m, (m, .notConnected) ∈ d.client.refused → m.frame.IsHardwareAlert = false

/-- A heartbeat, and the alert of a failed CPCMREG, are sent while connected. -/
def InStream (d : EdgeDaemon) : DaemonAction → Prop
  | .heartbeat _ _ _ => d.client.connected = true
  | .edge action _ => action.raisesAlert = true → d.client.connected = true
  | .client _ => True

instance (d : EdgeDaemon) (action : DaemonAction) : Decidable (d.InStream action) := by
  unfold InStream
  split <;> infer_instance

/-- Everything that is kept. -/
structure Sound (d : EdgeDaemon) : Prop where
  up : d.client.connected = true ↔ d.client.phase = .streaming
  kinds : KindsKept d

variable {cfg : Config} {d d' : EdgeDaemon}

/-- What may be handed to `send` while disconnected. -/
def Fits (emission : Emission) : Prop :=
  emission.frame.ShouldBuffer = true ∧
    (emission.frame.IsCallEvent = true → emission.critical = false) ∧
      emission.frame.IsHardwareAlert = false

theorem sound_send (sound : Sound d) {emission : Emission} (fault : Option AppendFault)
    (fits : d.client.connected = false → Fits emission) :
    Sound (d.send emission fault).1 := by
  obtain ⟨up, only, callEvents, alerts⟩ := sound
  have sends := d.client.send_sends emission.frame emission.critical fault
  refine ⟨?_, fun m waits => ?_, fun m handed call => ?_, fun m refused => ?_⟩
  · have connected : (d.send emission fault).1.client.connected = _ := sends.connected
    have phase : (d.send emission fault).1.client.phase = _ := sends.phase
    rw [connected, phase]
    exact up
  · rcases sends.waits m waits with old | ⟨rfl, down⟩
    · exact only m old
    · exact (fits down).1
  · rcases List.mem_append.mp handed with old | new
    · exact sends.buffered m (callEvents m old call)
    · split at new
      · cases new
      · rename_i down
        replace down : d.client.connected = false := by simpa using down
        obtain rfl := List.mem_singleton.mp new
        exact sends.offline down ((fits down).2.1 call)
  · rcases sends.refused m refused with old | ⟨rfl, down⟩
    · exact alerts m old
    · exact (fits down).2.2

/-- Handing over frames neither connects nor disconnects. -/
theorem send_connected (d : EdgeDaemon) (emission : Emission) (fault : Option AppendFault) :
    (d.send emission fault).1.client.connected = d.client.connected :=
  (d.client.send_sends emission.frame emission.critical fault).connected

theorem sound_carry {sender : Option Nat} {fault : Option AppendFault} (sound : Sound d)
    {emissions : List Emission}
    (fits : d.client.connected = false → ∀ emission ∈ emissions, Fits emission) :
    Sound (carry sender fault d emissions) := by
  induction emissions generalizing d with
  | nil => exact sound
  | cons emission rest ih =>
      obtain ⟨up, only, callEvents, alerts⟩ :=
        sound_send sound fault fun down => fits down emission (List.mem_cons_self ..)
      refine ih ⟨up, only, callEvents, alerts⟩ fun down other listed => ?_
      refine fits ?_ other (List.mem_cons_of_mem _ listed)
      rw [← d.send_connected emission fault]
      exact down

/-- **One step.**  A step in the stream keeps the kinds. -/
theorem sound_step {action : DaemonAction} (sound : Sound d) (inStream : d.InStream action)
    (next : step cfg d action = some d') : Sound d' := by
  cases action with
  | edge action fault =>
      simp only [step] at next
      split at next
      · rename_i resumes
        obtain ⟨edge, stepped, rfl⟩ := Option.map_eq_some_iff.mp next
        obtain ⟨up, only, callEvents, alerts⟩ := sound
        have before : Sound { d with edge := edge } := ⟨up, only, callEvents, alerts⟩
        refine sound_carry before fun down emission handed => ?_
        replace down : d.client.connected = false := down
        have sentBy := EdgeOrchestrator.step_sends stepped emission handed
        refine ⟨?_, sentBy.callEvent, ?_⟩
        · by_contra other
          -- an ack is sent by the message callback, hence while the stream is up
          have inside := sentBy.ack (by simpa using other)
          rw [up.mpr (resumes.1 inside)] at down
          cases down
        · by_contra alert
          rw [inStream (sentBy.alert (by simpa using alert))] at down
          cases down
      · cases next
  | heartbeat deviceId signalStrength fault =>
      obtain rfl := Option.some.inj next
      refine sound_send sound _ fun down => ?_
      rw [show d.client.connected = true from inStream] at down
      cases down
  | client action =>
      simp only [step] at next
      split at next
      · rename_i own
        obtain ⟨client, stepped, rfl⟩ := Option.map_eq_some_iff.mp next
        have moves := GrpcClient.moves_of_step (by rintro frame critical fault rfl; exact own) stepped
        obtain ⟨up, only, callEvents, alerts⟩ := sound
        refine ⟨moves.up up, fun m waits => only m ((moves.waits m).mp waits),
          fun m handed call => moves.buffered (callEvents m handed call), fun m refused => ?_⟩
        rw [show client.refused = _ from moves.refused] at refused
        exact alerts m refused
      · cases next

/-- **The buffer holds its kinds.**  When the heartbeats and the alerts are sent
while connected, no Heartbeat and no DialAck is ever pending or replayed, every
CallEvent sent while disconnected is buffered, and no HardwareAlert is refused
because the stream is down. -/
theorem buffer_holds_its_kinds (cfg : Config) (pending : Pending (Sent Edge2Cloud))
    (left : ∀ m ∈ pending.frames, m.frame.ShouldBuffer = true) (d : EdgeDaemon)
    (run : Reachable (step cfg) InStream (init pending) d) : d.KindsKept := by
  have start : Sound (init pending) := by
    refine ⟨by simp [init, GrpcClient.init], fun m waits => ?_, by simp [init],
      by simp [init, GrpcClient.init]⟩
    rcases waits with pending | replayed
    · exact left m pending
    · cases replayed
  exact (run.invariant start fun _ _ _ sound inStream next => sound_step sound inStream next).kinds

/-! ## Poles -/

/-- A process with an empty buffer in memory. -/
def fresh : EdgeDaemon := init (.memory 3 smallLimit_pos [])

/-- The far end hangs up while the stream is down; the client reconnects. -/
def hangupOffline : List DaemonAction :=
  [.client .start, .client .openStream, .client (.metadataReady none), .edge .start none,
    .edge (.message (.dial { callId := "a" })) none, .heartbeat 4 20 none,
    .edge (.handler (.dialReturned 7)) none, .edge (.handler (.sent true)) none,
    .client .streamEnded, .edge (.pump 0 .start) none,
    .edge (.pump 0 (.event (.remoteHangup (some "user_busy")))) none,
    .edge (.pump 0 (.sent true)) none, .client .backoffElapsed, .client .openStream,
    .client (.metadataReady none)]

theorem hangup_offline : (guardedRun (step {}) InStream fresh hangupOffline).isSome = true := by
  decide

theorem hangup_replayed :
    (Option.get _ hangup_offline).KindsKept ∧
      (Option.get _ hangup_offline).client.replayed.map Sent.frame =
        [(sendCallEventRemoteHangup "a" (some "user_busy")).frame] :=
  ⟨buffer_holds_its_kinds {} (.memory 3 (by decide) []) (by decide) _
    (reachable_guarded_get hangup_offline), by decide⟩

/-- The heartbeat loop takes a turn while the stream is down. -/
def heartbeatOffline : List DaemonAction :=
  [.client .start, .client .openStream, .client (.metadataReady none), .client .streamEnded,
    .heartbeat 4 20 none, .client .backoffElapsed, .client .openStream,
    .client (.metadataReady none)]

theorem heartbeat_offline : (run (step {}) fresh heartbeatOffline).isSome = true := by decide

/-- **A stale heartbeat is replayed.**  It is buffered while the stream is down
and put on the queue of the next stream. -/
theorem heartbeat_buffered :
    ¬ ∀ (cfg : Config) (pending : Pending (Sent Edge2Cloud)) (d : EdgeDaemon),
      (∀ m ∈ pending.frames, m.frame.ShouldBuffer = true) →
        Reachable (step cfg) Free (init pending) d → d.KindsKept := by
  intro claim
  have kinds := claim {} (.memory 3 (by decide) []) _ (by decide) (reachable_get heartbeat_offline)
  have stale := kinds.only ⟨0, false, .heartbeat 4 .idle 20⟩ (by decide)
  exact absurd stale (by decide)

end EdgeDaemon

end IsalesTelephony.Edge
