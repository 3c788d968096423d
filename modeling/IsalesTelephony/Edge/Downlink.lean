/-
# Edge.Downlink -- a remote user's voice, from the SDK's thread to the modem

The parts of the way down on Windows, composed: the observer and its ring, the drainer and
its queue (`Audio.InboundPath`), the bridge's loop that filters and converts
(`Audio.Downstream`), the downstream ring, and the pump that drives both directions of the
modem and cuts what it takes from there into frames (`Edge.DuplexPump`).  The bridge and the
pump share the downstream ring; every task, the SDK's thread, the capture and the teardown
move in any order.

Each part drops its oldest and none reorders or repeats, so the bytes handed to the modem are
those of the conversions of frames the peer was heard to say, in the order they were said, with whole
frames of silence between them (`downlink_plays`).
-/
import IsalesTelephony.Audio.Downstream
import IsalesTelephony.Audio.InboundPath
import IsalesTelephony.Edge.DuplexPump

namespace IsalesTelephony.Edge

set_option autoImplicit false

open IsalesTelephony.Audio
open IsalesTelephony.Theory
open IsalesTelephony.Theory.Transition

structure Downlink where
  path : InboundPath
  /-- its log is the pump's, of the ring downstream -/
  bridge : Downstream
  pump : DuplexPump

inductive DownlinkAction where
  /-- the SDK's thread -/
  | callback (callback : Idingrtc.Callback)
  | drain
  /-- `audio_frames()` gives the bridge's loop its next item -/
  | consume
  /-- of the session -/
  | leave
  | drainerEnded
  | cancelBridge
  /-- the pump, its backend, its cancellation, or the ring upstream -/
  | pump (action : DuplexAction)
  /-- of the downstream ring -/
  | close

namespace Downlink

def withPath (s : Downlink) (path : InboundPath) : Downlink := { s with path := path }

/-- The bridge has moved, and the ring with it. -/
def withBridge (s : Downlink) (bridge : Downstream) : Downlink :=
  { s with bridge := bridge, pump := { s.pump with downstream := bridge.log } }

/-- The pump has moved, and the ring with it. -/
def withPump (s : Downlink) (pump : DuplexPump) : Downlink :=
  { s with pump := pump, bridge := { s.bridge with log := pump.downstream } }

/-- `_downstream_loop` with the next item: it ends at the sentinel. -/
def receive (np : Numpy) (peerUid : String) (s : Downlink) : Item → Downlink
  | .frame frame => s.withBridge (s.bridge.receive np peerUid frame)
  | .sentinel => s

def step (np : Numpy) (peerUid : String) (s : Downlink) : DownlinkAction → Option Downlink
  | .callback callback => (s.path.step (.callback callback)).map s.withPath
  | .drain => (s.path.step .drain).map s.withPath
  | .leave => (s.path.step .leave).map s.withPath
  | .drainerEnded => (s.path.step .drainerEnded).map s.withPath
  | .consume =>
      if s.bridge.ended = none then
        (s.path.step .consume).bind fun path =>
          s.path.link.queue.head?.map fun item => (s.withPath path).receive np peerUid item
      else none
  | .cancelBridge => (s.bridge.step np peerUid .cancel).map s.withBridge
  -- only the bridge puts
  | .pump (.put _) => none
  | .pump action => (s.pump.step action).map s.withPump
  | .close => (s.pump.step .close).map s.withPump

/-- What the callbacks make the drainer convert is well formed. -/
def HearsOk (s : Downlink) : DownlinkAction → Prop
  | .callback callback =>
      ∀ frame ∈ Idingrtc.observed s.path.expectedRemoteUid callback, (pcmFrame frame).WellFormed
  | _ => True

/-- What the peer was heard to say. -/
def said (peerUid : String) (s : Downlink) : List PcmFrame := s.path.heard.filter (Accepts peerUid)

/-- Nothing was dropped on the way. -/
structure Lossless (s : Downlink) : Prop where
  sdkRing : s.path.pushed.left .dropped = []
  queue : s.path.posted.left .dropped = []
  downstreamRing : s.pump.downstream.ring.droppedChunks = 0

/-- Nothing is on the way, but for what the pump keeps back. -/
structure Idle (s : Downlink) : Prop where
  path : s.path.waiting = []
  ring : s.pump.downstream.ring.chunks = []

/-- What the modem is given. -/
structure Plays (peerUid : String) (s : Downlink) : Prop where
  frames : ∀ frame ∈ s.pump.written, frame.bytes.length = duplexFrame
  /-- apart from silence, the bytes of the chunks taken, but for those pending -/
  bytes : s.pump.voice ++ s.pump.pending = s.pump.downstream.delivered.flatten
  /-- those chunks are conversions of some of what was said, in order -/
  inOrder : List.SublistForall₂ (fun chunk frame => IsConversion frame chunk)
    s.pump.downstream.delivered (s.said peerUid)
  /-- and of all of it once it has come through without loss -/
  whole : s.Lossless → s.Idle → s.pump.downstream.ring.closed = false →
    List.Forall₂ IsConversion (s.said peerUid) s.pump.downstream.delivered

/-! ## The shared ring -/

variable {np : Numpy} {peerUid : String} {s t : Downlink} {action : DownlinkAction}

/-- The ring after a step that offers it nothing. -/
structure Unoffered (log after : Traffic) : Prop where
  accounts : after.Accounts
  offers : after.offers = log.offers
  closed : log.ring.closed = true → after.ring.closed = true

theorem offers_nowait (log : Traffic) : (DuplexPump.nowait log).offers = log.offers := rfl

theorem closed_nowait (log : Traffic) :
    (DuplexPump.nowait log).ring.closed = log.ring.closed := by
  show log.ring.getNowait.1.closed = log.ring.closed
  unfold PcmRingBuffer.getNowait
  split <;> rfl

/-- The pump takes from the ring and offers it nothing. -/
theorem kept_drain : ∀ (queued : List Pcm) (log : Traffic) (pending : Pcm),
    (DuplexPump.drain queued log pending).1.offers = log.offers ∧
      (DuplexPump.drain queued log pending).1.ring.closed = log.ring.closed
  | [], log, _ => ⟨offers_nowait log, closed_nowait log⟩
  | _ :: rest, log, pending => by
      rw [DuplexPump.drain]
      split
      · rename_i out got
        obtain ⟨offers, closed⟩ := kept_drain rest (DuplexPump.nowait log) (pending ++ out)
        exact ⟨offers, closed.trans (closed_nowait log)⟩
      · exact ⟨offers_nowait log, closed_nowait log⟩

theorem downstream_write (pump : DuplexPump) : pump.write.downstream = pump.downstream := by
  rw [DuplexPump.write_eq]

theorem kept_read (pump : DuplexPump) (chunk : Pcm) :
    (pump.read chunk).downstream.offers = pump.downstream.offers ∧
      (pump.read chunk).downstream.ring.closed = pump.downstream.ring.closed := by
  unfold DuplexPump.read
  split
  · exact ⟨rfl, rfl⟩
  · dsimp only
    split
    · exact ⟨rfl, rfl⟩
    · rw [downstream_write]
      exact kept_drain _ _ _

theorem unoffered_pump {pump after : DuplexPump} {action : DuplexAction} (sound : pump.Sound)
    (ran : pump.step action = some after) (aside : ∀ chunk, action ≠ .put chunk) :
    Unoffered pump.downstream after.downstream := by
  have accounts := (DuplexPump.sound_step sound ran).down
  cases action with
  | put chunk => exact absurd rfl (aside chunk)
  | close =>
      obtain rfl := Option.some.inj ran
      exact ⟨accounts, rfl, fun _ => rfl⟩
  | upstream action =>
      have ran : (pump.upstream.step action).map (fun log => { pump with upstream := log }) =
          some after := by
        cases action with
        | put chunk => cases ran
        | _ => exact ran
      obtain ⟨log, -, rfl⟩ := Option.map_eq_some_iff.mp ran
      exact ⟨accounts, rfl, id⟩
  | read chunk =>
      simp only [DuplexPump.step] at ran
      split at ran
      · obtain rfl := Option.some.inj ran
        obtain ⟨offers, closed⟩ := kept_read pump chunk
        exact ⟨accounts, offers, closed.trans⟩
      · cases ran
  | wrote =>
      simp only [DuplexPump.step] at ran
      split at ran
      · obtain rfl := Option.some.inj ran
        exact ⟨accounts, rfl, id⟩
      · cases ran
  | raises =>
      simp only [DuplexPump.step] at ran
      split at ran
      · cases ran
      · obtain rfl := Option.some.inj ran
        exact ⟨accounts, rfl, id⟩
  | cancel =>
      simp only [DuplexPump.step] at ran
      split at ran
      · cases ran
      · obtain rfl := Option.some.inj ran
        exact ⟨accounts, rfl, id⟩

/-- The ring moves under the bridge. -/
theorem sound_unoffered {bridge : Downstream} {log : Traffic}
    (sound : Downstream.Sound np peerUid bridge) (moved : Unoffered bridge.log log) :
    Downstream.Sound np peerUid { bridge with log := log } := by
  refine ⟨moved.accounts, sound.wellFormed, fun isOpen => ?_⟩
  have offers := sound.offers (Bool.eq_false_of_not_eq_true fun closed =>
    absurd ((moved.closed closed).symm.trans isOpen) nofun)
  refine ⟨?_, offers.filtered, offers.goesOn⟩
  show _ = (log.offeredOpen).map some
  rw [Traffic.offeredOpen, moved.offers]
  exact offers.offered

/-! ## One step -/

/-- What the ring was offered while open is the conversions of a front of what the bridge
accepted. -/
def Prefixed (np : Numpy) (peerUid : String) (bridge : Downstream) : Prop :=
  bridge.log.offeredOpen.map some <+: (bridge.frames.filter (Accepts peerUid)).map (toModem np)

/-- What holds in every state. -/
structure Sound (np : Numpy) (peerUid : String) (s : Downlink) : Prop where
  path : s.path.Sound
  bridge : s.bridge.Sound np peerUid
  pump : s.pump.Sound
  shared : s.bridge.log = s.pump.downstream
  received : s.bridge.frames = s.path.link.yielded
  wellFormed : ∀ frame ∈ s.path.heard, frame.WellFormed
  prefixed : Prefixed np peerUid s.bridge

/-- A frame that is accepted is put on the ring, converted. -/
theorem receive_accepted (bridge : Downstream) {frame : PcmFrame} {chunk : Pcm}
    (accepted : Accepts peerUid frame) (converts : toModem np frame = some chunk) :
    (bridge.receive np peerUid frame).log = bridge.log.put chunk ∧
      (bridge.receive np peerUid frame).frames = bridge.frames ++ [frame] := by
  have notOther : ¬ (frame.senderUid ≠ "" ∧ frame.senderUid ≠ peerUid) := fun other =>
    Downstream.not_accepts.mp other accepted
  rw [Downstream.receive, if_neg notOther]
  simp only [converts]
  split
  · exact ⟨rfl, rfl⟩
  · exact ⟨rfl, rfl⟩

theorem frames_receive (bridge : Downstream) {frame : PcmFrame} (wellFormed : frame.WellFormed) :
    (bridge.receive np peerUid frame).frames = bridge.frames ++ [frame] := by
  obtain ⟨chunk, converts, -⟩ := converted_toModem np wellFormed
  by_cases accepted : Accepts peerUid frame
  · exact (receive_accepted bridge accepted converts).2
  · rw [Downstream.receive_other accepted]

/-- A frame grows what the bridge accepted, and its conversion what the ring was offered while
it is open. -/
theorem prefixed_receive {bridge : Downstream} {frame : PcmFrame} (wellFormed : frame.WellFormed)
    (sound : bridge.Sound np peerUid) (pref : Prefixed np peerUid bridge) :
    Prefixed np peerUid (bridge.receive np peerUid frame) := by
  by_cases accepted : Accepts peerUid frame
  · obtain ⟨chunk, converts, -⟩ := converted_toModem np wellFormed
    obtain ⟨log, frames⟩ := receive_accepted bridge accepted converts
    unfold Prefixed
    rw [log, frames, Downstream.filter_snoc (decide_eq_true accepted), List.map_append]
    have offers := Traffic.offers_put (s := bridge.log) chunk
    by_cases closed : bridge.log.ring.closed = true
    · have same : (bridge.log.put chunk).offeredOpen = bridge.log.offeredOpen := by
        unfold Traffic.offeredOpen
        rw [offers, closed, List.filter_append, List.map_append]
        exact List.append_nil _
      rw [same]
      exact pref.trans (List.prefix_append _ _)
    · have isOpen := Bool.eq_false_of_not_eq_true closed
      have grown : (bridge.log.put chunk).offeredOpen = bridge.log.offeredOpen ++ [chunk] :=
        Traffic.offered_open chunk (by rw [offers, isOpen])
      rw [grown, List.map_append, (sound.offers isOpen).offered, List.map_singleton,
        List.map_singleton, converts]
  · rw [Downstream.receive_other accepted]
    unfold Prefixed
    rw [Downstream.filter_snoc_of_not (decide_eq_false accepted)]
    exact pref

/-- The bridge's put, as the pump sees it. -/
theorem sound_pump_receive {pump : DuplexPump} {bridge : Downstream} {frame : PcmFrame}
    (wellFormed : frame.WellFormed) (sound : pump.Sound) (shared : bridge.log = pump.downstream) :
    DuplexPump.Sound { pump with downstream := (bridge.receive np peerUid frame).log } := by
  by_cases accepted : Accepts peerUid frame
  · obtain ⟨chunk, converts, -⟩ := converted_toModem np wellFormed
    rw [(receive_accepted bridge accepted converts).1, shared]
    have puts : pump.step (.put chunk) =
        some { pump with downstream := pump.downstream.put chunk } := rfl
    exact DuplexPump.sound_step sound puts
  · rw [Downstream.receive_other accepted]
    show DuplexPump.Sound { pump with downstream := bridge.log }
    rw [shared]
    exact sound

/-- The ring moves and nothing else does. -/
theorem prefixed_unoffered {bridge : Downstream} {log : Traffic} (pref : Prefixed np peerUid bridge)
    (moved : Unoffered bridge.log log) : Prefixed np peerUid { bridge with log := log } := by
  unfold Prefixed Traffic.offeredOpen
  rw [moved.offers]
  exact pref

theorem sound_withPump {pump : DuplexPump} (sound : Sound np peerUid s) (kept : pump.Sound)
    (moved : Unoffered s.pump.downstream pump.downstream) : Sound np peerUid (s.withPump pump) where
  path := sound.path
  bridge := sound_unoffered sound.bridge (sound.shared ▸ moved)
  pump := kept
  shared := rfl
  received := sound.received
  wellFormed := sound.wellFormed
  prefixed := prefixed_unoffered sound.prefixed (sound.shared ▸ moved)

/-- Inside the path neither end moves. -/
theorem sound_between {path : InboundPath} (sound : Sound np peerUid s) (kept : path.Sound)
    (between : InboundPath.Between s.path path) : Sound np peerUid (s.withPath path) where
  path := kept
  bridge := sound.bridge
  pump := sound.pump
  shared := sound.shared
  received := sound.received.trans between.yielded.symm
  wellFormed := fun frame member => sound.wellFormed frame (between.heard ▸ member)
  prefixed := sound.prefixed

theorem sound_callback {callback : Idingrtc.Callback} (sound : Sound np peerUid s)
    (ok : s.HearsOk (.callback callback)) :
    Sound np peerUid (s.withPath (s.path.observe callback)) := by
  have heard := InboundPath.heard_observe (s := s.path) callback
  refine ⟨InboundPath.sound_observe sound.path callback, sound.bridge, sound.pump, sound.shared,
    sound.received.trans (InboundPath.yielded_observe callback).symm, ?_, sound.prefixed⟩
  intro frame member
  rcases List.mem_append.mp (heard ▸ member) with old | new
  · exact sound.wellFormed frame old
  · obtain ⟨raw, observed, rfl⟩ := Option.map_eq_some_iff.mp (Option.mem_toList.mp new)
    exact ok raw observed

theorem sound_consume {path : InboundPath} {item : Item} (sound : Sound np peerUid s)
    (running : s.bridge.ended = none) (ran : s.path.step .consume = some path)
    (head : s.path.link.queue.head? = some item) :
    Sound np peerUid ((s.withPath path).receive np peerUid item) := by
  have kept : path.Sound := InboundPath.sound_step sound.path ran
  cases InboundPath.takes_consume ran with
  | frame frame rest queue yielded heard =>
      obtain rfl : Item.frame frame = item := by
        rw [queue] at head
        exact Option.some.inj head
      -- the frame was heard, so it is well formed
      have member : frame ∈ path.link.yielded := by
        rw [yielded]
        exact List.mem_append_right _ List.mem_cons_self
      have inHeard : frame ∈ s.path.heard := by
        rw [← heard]
        exact (InboundPath.conveys_of_sound kept).inOrder.subset (List.mem_append_left _ member)
      have wellFormed := sound.wellFormed frame inHeard
      refine ⟨kept, Downstream.sound_receive sound.bridge running wellFormed,
        sound_pump_receive wellFormed sound.pump sound.shared, rfl, ?_, ?_,
        prefixed_receive wellFormed sound.bridge sound.prefixed⟩
      · exact (frames_receive s.bridge wellFormed).trans (by rw [sound.received, ← yielded]; rfl)
      · intro other inOther
        exact sound.wellFormed other (heard ▸ inOther)
  | sentinel rest queue between =>
      obtain rfl : Item.sentinel = item := by
        rw [queue] at head
        exact Option.some.inj head
      exact sound_between sound kept between

/-- **One step.** -/
theorem sound_step (sound : Sound np peerUid s) (ok : s.HearsOk action)
    (ran : s.step np peerUid action = some t) : Sound np peerUid t := by
  have inside : ∀ {action : PathAction} {path : InboundPath}, s.path.step action = some path →
      (∀ callback, action ≠ .callback callback) → action ≠ .consume →
        Sound np peerUid (s.withPath path) := fun moved notHeard unread =>
    sound_between sound (InboundPath.sound_step sound.path moved)
      (InboundPath.between_step moved notHeard unread)
  cases action with
  | callback callback =>
      obtain rfl := Option.some.inj ran
      exact sound_callback sound ok
  | drain =>
      obtain ⟨path, moved, rfl⟩ := Option.map_eq_some_iff.mp ran
      exact inside moved (by simp) (by simp)
  | leave =>
      obtain ⟨path, moved, rfl⟩ := Option.map_eq_some_iff.mp ran
      exact inside moved (by simp) (by simp)
  | drainerEnded =>
      obtain ⟨path, moved, rfl⟩ := Option.map_eq_some_iff.mp ran
      exact inside moved (by simp) (by simp)
  | consume =>
      simp only [step] at ran
      split at ran
      · rename_i running
        obtain ⟨path, moved, ran⟩ := Option.bind_eq_some_iff.mp ran
        obtain ⟨item, head, rfl⟩ := Option.map_eq_some_iff.mp ran
        exact sound_consume sound running moved head
      · cases ran
  | cancelBridge =>
      obtain ⟨bridge, moved, rfl⟩ := Option.map_eq_some_iff.mp ran
      have cancels : s.bridge.FrameOk .cancel := trivial
      have kept := Downstream.sound_step sound.bridge cancels moved
      simp only [Downstream.step] at moved
      split at moved
      · obtain rfl := Option.some.inj moved
        refine ⟨sound.path, kept, ?_, rfl, sound.received, sound.wellFormed, sound.prefixed⟩
        show DuplexPump.Sound { s.pump with downstream := s.bridge.log }
        rw [sound.shared]
        exact sound.pump
      · cases moved
  | pump action =>
      have aside : ∀ chunk, action ≠ .put chunk := by
        rintro chunk rfl
        cases ran
      have ran : (s.pump.step action).map s.withPump = some t := by
        cases action with
        | put chunk => exact absurd rfl (aside chunk)
        | _ => exact ran
      obtain ⟨pump, moved, rfl⟩ := Option.map_eq_some_iff.mp ran
      exact sound_withPump sound (DuplexPump.sound_step sound.pump moved)
        (unoffered_pump sound.pump moved aside)
  | close =>
      have ran : (s.pump.step .close).map s.withPump = some t := ran
      obtain ⟨pump, moved, rfl⟩ := Option.map_eq_some_iff.mp ran
      exact sound_withPump sound (DuplexPump.sound_step sound.pump moved)
        (unoffered_pump sound.pump moved (by simp))

/-! ### Main result -/

theorem delivered_sublist {log : Traffic} (accounts : log.Accounts) :
    log.delivered.Sublist log.offeredOpen := by
  rw [accounts.delivered]
  refine (log.belt.left_sublist .taken).trans ?_
  rw [accounts.accepted]
  exact List.filter_sublist

/-- Chunks that came through are conversions of what was said. -/
theorem inOrder_of_sound (sound : Sound np peerUid s) :
    List.SublistForall₂ (fun chunk frame => IsConversion frame chunk) s.pump.downstream.delivered
      (s.said peerUid) := by
  have taken : s.pump.downstream.delivered.Sublist s.bridge.log.offeredOpen := by
    rw [sound.shared]
    exact delivered_sublist sound.pump.down
  -- the chunks offered are the conversions of the first frames that were accepted
  have offered := sound.prefixed
  rw [Prefixed, List.prefix_iff_eq_take, ← List.map_take, List.length_map] at offered
  have front := List.take_sublist s.bridge.log.offeredOpen.length
    (s.bridge.frames.filter (Accepts peerUid))
  generalize (s.bridge.frames.filter (Accepts peerUid)).take _ = converted at offered front
  have conversions : List.Forall₂ IsConversion converted s.bridge.log.offeredOpen :=
    Downstream.forall₂_converted np (fun frame member =>
      sound.bridge.wellFormed frame (List.mem_filter.mp (front.subset member)).1) offered.symm
  have said : converted.Sublist (s.said peerUid) := by
    refine front.trans (List.Sublist.filter _ ?_)
    rw [sound.received]
    exact (List.sublist_append_left _ _).trans (InboundPath.conveys_of_sound sound.path).inOrder
  exact Belt.sublistForall₂_of_part conversions taken said

theorem whole_of_sound (sound : Sound np peerUid s) (lossless : s.Lossless) (idle : s.Idle)
    (isOpen : s.pump.downstream.ring.closed = false) :
    List.Forall₂ IsConversion (s.said peerUid) s.pump.downstream.delivered := by
  have offered := (Downstream.downlinks_of_sound sound.bridge (sound.shared ▸ isOpen)).offered
  have heard := (InboundPath.conveys_of_sound sound.path).whole lossless.sdkRing lossless.queue
  rw [idle.path, List.append_nil, ← sound.received] at heard
  have accounts := sound.pump.down
  have count := accounts.conservedChunks
  rw [lossless.downstreamRing, idle.ring, List.length_nil] at count
  have all := (delivered_sublist accounts).eq_of_length count.symm
  rw [said, ← heard, all, ← sound.shared]
  exact offered

theorem plays_of_sound (sound : Sound np peerUid s) : s.Plays peerUid where
  frames := sound.pump.whole
  bytes := sound.pump.split
  inOrder := inOrder_of_sound sound
  whole := whole_of_sound sound

section
variable (peerUid : String) (recordCallId : Option String) (r : Recorder) {up down : Nat}
  (upPositive : 0 < up) (downPositive : 0 < down) (inboundCapacity : UInt64)
  (room : 0 < inboundCapacity)

/-- A call whose session has joined, with its bridge and its pump about to run. -/
def started : Downlink where
  path := .started "" inboundCapacity room
  bridge := .started down downPositive "modem_downstream" r recordCallId
  pump := .started up down upPositive downPositive

theorem sound_started (np : Numpy) :
    Sound np peerUid (started recordCallId r upPositive downPositive inboundCapacity room) where
  path := InboundPath.sound_started "" room
  bridge := Downstream.sound_started down downPositive "modem_downstream" r recordCallId
  pump := DuplexPump.sound_started
  shared := rfl
  received := rfl
  wellFormed := nofun
  prefixed := List.nil_prefix

/-- **The way down.**  In every run of a call, with the SDK's thread, the drainer, the bridge,
the pump and the teardown in any order, the modem is given whole frames of the conversions of
some of what the peer was heard to say, in that order, and of all of it where nothing was
dropped and nothing is on the way. -/
theorem downlink_plays (np : Numpy) :
    ∀ s, Reachable (step np peerUid) HearsOk
        (started recordCallId r upPositive downPositive inboundCapacity room) s →
      s.Plays peerUid := by
  intro s run
  exact plays_of_sound <| run.invariant (P := Sound np peerUid)
    (sound_started peerUid recordCallId r upPositive downPositive inboundCapacity room np)
    fun _ _ _ sound ok ran => sound_step sound ok ran

end

/-! ## Poles -/

instance (s : Downlink) (action : DownlinkAction) : Decidable (s.HearsOk action) := by
  cases action <;> unfold HearsOk <;> infer_instance

/-- 15 ms of 16 kHz mono, all one sample. -/
def syllable (low : UInt8) : Idingrtc.RtcEngineAudioFrame where
  buffer := some (List.replicate 480 low)
  samples := 240
  bytesPerSample := 2
  channels := 1
  samplesPerSec := 16000
  enough := fun data held => by
    obtain rfl := Option.some.inj held
    rw [List.length_replicate]

/-- The engine speaks twice, somebody else once; the pump writes silence for want of a frame,
then the frame that the two chunks make; and the session is left. -/
def conversation : List DownlinkAction :=
  [.callback (.remoteUserAudioFrame (some "engine") (syllable 1)),
    .callback (.remoteUserAudioFrame (some "visitor") (syllable 2)), .drain, .consume, .consume,
    .pump (.read [7, 7]), .callback (.remoteUserAudioFrame (some "engine") (syllable 3)),
    .pump .wrote, .drain, .consume, .pump (.read [8, 8]), .leave, .drainerEnded, .consume,
    .pump .wrote, .close]

theorem ringCapacity_pos : 0 < 16384 := by decide

theorem inboundCapacity_pos : (0 : UInt64) < 64 := by decide

def idle : Downlink := started none {} ringCapacity_pos ringCapacity_pos 64 inboundCapacity_pos

theorem conversation_runs :
    (guardedRun (step held "engine") HearsOk idle conversation).isSome = true := by
  decide +kernel

theorem conversation_plays :
    let s := (guardedRun (step held "engine") HearsOk idle conversation).get conversation_runs
    s.Plays "engine" ∧ s.path.heard.length = 3 ∧ s.pump.downstream.delivered.length = 2 ∧
      s.pump.written.map (decide <| · = .silence) = [true, false] ∧ s.pump.pending.length = 160 :=
  ⟨downlink_plays "engine" none {} _ _ 64 (by decide) held _
      (reachable_guarded_get conversation_runs),
    by decide +kernel, by decide +kernel, by decide +kernel, by decide +kernel⟩

end Downlink

end IsalesTelephony.Edge
