/-
# Edge.Frames -- the frames the edge sends and how it sends them

The `Edge2Cloud` frames of `edge/orchestrator.py` and `edge/grpc_heartbeat.py`
(timestamps left out), and for each emitter the criticality it passes to
`CloudEdgeClient.send`.  A critical frame is refused while the stream is down,
any other goes to the pending buffer.
-/
import Mathlib.Data.List.Basic

namespace IsalesTelephony.Edge

set_option autoImplicit false

/-- `pb.HangupCause`, the members the edge maps to. -/
inductive HangupCause where
  | unspecified | noAnswer | userBusy | networkOutOfOrder | normalClearing | callRejected
  deriving DecidableEq, Repr

inductive DeviceStatus where
  | idle | inCall
  deriving DecidableEq, Repr

structure DialCommand where
  callId : String
  number : String := ""
  rtcChannel : String := ""
  rtcToken : String := ""
  rtcUidEdge : String := ""
  rtcUidEngine : String := ""
  deriving DecidableEq, Repr

/-- `Edge2Cloud`, one constructor per payload (`call_event` by its kind). -/
inductive Edge2Cloud where
  | heartbeat (deviceId : Nat) (status : DeviceStatus) (signalStrength : Int)
  | dialAck (callId : String) (accepted : Bool) (reason : String)
  | connected (callId : String)
  | remoteHangup (callId : String) (cause : HangupCause) (vendorRaw : String)
  | modemInitFailed (stage detail : String)
  deriving DecidableEq, Repr

/-- A frame and the `critical` argument it is sent with. -/
structure Emission where
  frame : Edge2Cloud
  critical : Bool
  deriving DecidableEq, Repr

def hangupCauseToProto : List (String × HangupCause) :=
  [("no_answer", .noAnswer), ("user_busy", .userBusy),
    ("network_out_of_order", .networkOutOfOrder), ("normal_clearing", .normalClearing),
    ("call_rejected", .callRejected), ("user_hangup", .normalClearing),
    ("manual_hangup", .normalClearing)]

def pcmEnableFailedStage : String := "CPCMREG_ENABLE"

def sendDialAck (callId : String) (accepted : Bool) (reason : String) : Emission :=
  ⟨.dialAck callId accepted reason, false⟩

def sendCallEventConnected (callId : String) : Emission := ⟨.connected callId, false⟩

def sendHardwareAlertPcmEnableFailed (detail : String) : Emission :=
  ⟨.modemInitFailed pcmEnableFailedStage detail, true⟩

def sendCallEventRemoteHangup (callId : String) (cause : Option String) : Emission :=
  ⟨.remoteHangup callId ((hangupCauseToProto.lookup (cause.getD "")).getD .unspecified)
    (cause.getD ""), false⟩

/-- One turn of `grpc_heartbeat_loop`. -/
def sendHeartbeat (deviceId : Nat) (status : DeviceStatus) (signalStrength : Int) : Emission :=
  ⟨.heartbeat deviceId status signalStrength, false⟩

namespace Edge2Cloud

def Accepts (callId : String) : Edge2Cloud → Prop
  | .dialAck c accepted _ => c = callId ∧ accepted = true
  | _ => False

instance (callId : String) (frame : Edge2Cloud) : Decidable (frame.Accepts callId) := by
  cases frame <;> unfold Accepts <;> infer_instance

def IsCallEvent : Edge2Cloud → Bool
  | .connected _ => true
  | .remoteHangup _ _ _ => true
  | _ => false

def IsHardwareAlert : Edge2Cloud → Bool
  | .modemInitFailed _ _ => true
  | _ => false

/-- The frame kinds the reconnect buffer is documented for. -/
def ShouldBuffer (frame : Edge2Cloud) : Bool := frame.IsCallEvent || frame.IsHardwareAlert

def IsRemoteHangup : Edge2Cloud → Bool
  | .remoteHangup _ _ _ => true
  | _ => false

end Edge2Cloud

end IsalesTelephony.Edge
