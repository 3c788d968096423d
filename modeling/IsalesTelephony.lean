import IsalesTelephony.Theory.Transition
import IsalesTelephony.Theory.SeqLog
import IsalesTelephony.Theory.Dict
import IsalesTelephony.Theory.Lines
import IsalesTelephony.Theory.Framing
import IsalesTelephony.Theory.History
import IsalesTelephony.Modem.SerialProtocol
import IsalesTelephony.Modem.AtPairing
import IsalesTelephony.Modem.Demux
import IsalesTelephony.Transport.SqliteBuffer
import IsalesTelephony.Transport.GrpcClient
import IsalesTelephony.Transport.FrameConservation
import IsalesTelephony.Transport.Channels
import IsalesTelephony.Transport.ReplayOrder
import IsalesTelephony.Transport.ClientSteps
import IsalesTelephony.Edge.Frames
import IsalesTelephony.Edge.Orchestrator
import IsalesTelephony.Edge.Steps
import IsalesTelephony.Edge.TerminalEvent
import IsalesTelephony.Edge.Redial
import IsalesTelephony.Edge.OffHook
import IsalesTelephony.Edge.StopFinal
import IsalesTelephony.Edge.PcmPairing
import IsalesTelephony.Edge.Station
import IsalesTelephony.Edge.StationSteps
import IsalesTelephony.Edge.SlotAgreement
import IsalesTelephony.Edge.AudioOwnership
import IsalesTelephony.Edge.FailedAck
import IsalesTelephony.Edge.Daemon
import IsalesTelephony.Edge.BufferKinds
import IsalesTelephony.Edge.PlaybackPump
import IsalesTelephony.Edge.DuplexPump
import IsalesTelephony.Edge.DuplexBacklog
import IsalesTelephony.Edge.StartUp
import IsalesTelephony.Modem.Drivers
import IsalesTelephony.Modem.SerialAtClient
import IsalesTelephony.Modem.SendOrder
import IsalesTelephony.Modem.SerialSteps
import IsalesTelephony.Modem.Attended
import IsalesTelephony.Modem.FreeSlot
import IsalesTelephony.Modem.CallSlot
import IsalesTelephony.Modem.CallQueue
import IsalesTelephony.Modem.Streams
import IsalesTelephony.Modem.UrcIsolation
import IsalesTelephony.Controller.Handlers
import IsalesTelephony.Controller.Steps
import IsalesTelephony.Controller.HangupAck
import IsalesTelephony.Controller.DeviceStatus
import IsalesTelephony.Controller.FailedDial
import IsalesTelephony.Controller.IpcServer
import IsalesTelephony.Controller.IpcFraming
import IsalesTelephony.Ui.StateBus
import IsalesTelephony.Ui.LogFanOut
import IsalesTelephony.Ui.TrayLink
import IsalesTelephony.Ui.Activation
import IsalesTelephony.Theory.Strip
import IsalesTelephony.Ui.EnvWriter
import IsalesTelephony.Modem.AtProbe
import IsalesTelephony.Modem.ProbeLimit
import IsalesTelephony.Theory.Hex
import IsalesTelephony.Modem.UsbWatcher
import IsalesTelephony.Modem.ThreadedSerial
import IsalesTelephony.Theory.Belt
import IsalesTelephony.Theory.Broadcast
import IsalesTelephony.Theory.HalfEven
import IsalesTelephony.Audio.Pcm
import IsalesTelephony.Audio.Recorder
import IsalesTelephony.Audio.RecordingTaps
import IsalesTelephony.Audio.RingBuffer
import IsalesTelephony.Audio.Resampler
import IsalesTelephony.Audio.Upstream
import IsalesTelephony.Audio.Downstream
import IsalesTelephony.Audio.PushAudio
import IsalesTelephony.Audio.InboundPath
import IsalesTelephony.Audio.InboundQueue
import IsalesTelephony.Audio.LoopbackChannel
import IsalesTelephony.Audio.LoopbackDrain
import IsalesTelephony.Audio.StereoRecording
import IsalesTelephony.Api.SelectDevice
import IsalesTelephony.Transport.BufferHistory
import IsalesTelephony.Transport.AtomicAppend
import IsalesTelephony.Transport.PendingIterator
import IsalesTelephony.Theory.Decimal
import IsalesTelephony.Modem.DialCause
import IsalesTelephony.Modem.NumberLeak
import IsalesTelephony.Modem.QueuedHangups
import IsalesTelephony.Modem.HangupLog
import IsalesTelephony.Modem.FirstHangup
import IsalesTelephony.Theory.Circular
import IsalesTelephony.Theory.BoundedFifo
import IsalesTelephony.Audio.FrameRingBuffer
import IsalesTelephony.Theory.CappedGrowth
import IsalesTelephony.Transport.Backoff
import IsalesTelephony.Modem.PortDiscovery
import IsalesTelephony.Edge.Downlink
import IsalesTelephony.Theory.FileTable
import IsalesTelephony.Modem.TtyExclusive
import IsalesTelephony.Audio.EngineOwnership
import IsalesTelephony.Edge.CloudReport
import IsalesTelephony.Audio.Uplink
import IsalesTelephony.Edge.SharedPort
import IsalesTelephony.Audio.RecordingDir
import IsalesTelephony.Ui.QuitPath
