/-
# Audio.InboundPath -- a remote user's audio, from the SDK's thread to the bridge

On Windows the SDK calls `AudioObserver` on a thread of its own.  The observer copies the
frame into the `FrameRingBuffer`; the drainer takes up to eight frames at a time out of it,
makes a `PcmFrame` of each and puts it on the bounded queue that `audio_frames()` iterates.
Both stages make room by dropping their oldest frame, and only the ring counts it.

Each stage is a belt, and the second is fed by the first.  So in every run the consumer gets
what was heard in order and none of it twice, what is missing was dropped by one of the two,
and what waits is bounded (`inbound_path_conveys`).
-/
import IsalesTelephony.Audio.FrameRingBuffer
import IsalesTelephony.Audio.InboundQueue
import IsalesTelephony.Theory.Belt

namespace IsalesTelephony.Audio

set_option autoImplicit false

open IsalesTelephony.Theory
open IsalesTelephony.Theory.Transition

/-! ## The observer -/

namespace Idingrtc

/-- `RtcEngineAudioFrame`, as the SDK hands it over. -/
structure RtcEngineAudioFrame where
  /-- `none` is the null pointer -/
  buffer : Option (List UInt8)
  samples : Nat
  bytesPerSample : Nat
  channels : Nat
  samplesPerSec : Nat
  timestamp : Int := 0
  /-- the buffer holds what `memcpy` reads -/
  enough : ∀ data, buffer = some data → samples * bytesPerSample * channels ≤ data.length

namespace RtcEngineAudioFrame

/-- `total_bytes` -/
def totalBytes (raw : RtcEngineAudioFrame) : Nat :=
  raw.samples * raw.bytesPerSample * raw.channels

end RtcEngineAudioFrame

/-- `to_pcm_frame` -/
def toPcmFrame (raw : RtcEngineAudioFrame) (uid : Option String) : PcmFrame where
  pcm := (raw.buffer.getD []).take raw.totalBytes
  sampleRate := raw.samplesPerSec
  channels := raw.channels
  bytesPerSample := raw.bytesPerSample
  numSamples := raw.samples
  remoteUid := uid.getD ""
  timestamp := raw.timestamp

/-- A callback of the SDK. -/
inductive Callback where
  | playbackAudioFrame (frame : RtcEngineAudioFrame)
  | remoteUserAudioFrame (uid : Option String) (frame : RtcEngineAudioFrame)

/-- `AudioObserver`: the frame it pushes, if any. -/
def observed (expectedRemoteUid : String) : Callback → Option PcmFrame
  | .playbackAudioFrame frame => some (toPcmFrame frame none)
  | .remoteUserAudioFrame uid frame =>
      if expectedRemoteUid ≠ "" ∧ uid ≠ some expectedRemoteUid then none
      else some (toPcmFrame frame uid)

end Idingrtc

/-! ## The path -/

/-- `_DRAIN_BATCH_SIZE` -/
def drainBatchSize : UInt64 := 8

/-- `_DEFAULT_SAMPLE_RATE` -/
def defaultSampleRate : Nat := 16000

/-- `_DEFAULT_CHANNELS` -/
def defaultChannels : Nat := 1

/-- The frame that `_drain_loop` makes of one of the ring's. -/
def pcmFrame (raw : Idingrtc.PcmFrame) : PcmFrame where
  senderUid := raw.remoteUid
  pcm := raw.pcm
  sampleRate := if raw.sampleRate = 0 then defaultSampleRate else raw.sampleRate.toNat
  channels := if raw.channels = 0 then defaultChannels else raw.channels.toNat

/-- The frame on the queue, unless it is the sentinel. -/
def Item.frame? : Item → Option PcmFrame
  | .frame onQueue => some onQueue
  | .sentinel => none

structure InboundPath where
  expectedRemoteUid : String := ""
  ring : FrameRingBuffer Idingrtc.PcmFrame
  link : InboundQueue
  /-- history: the SDK's callbacks -/
  callbacks : List Idingrtc.Callback := []
  /-- history: the frames pushed on the ring and where they went -/
  pushed : Belt Idingrtc.PcmFrame := {}
  /-- history: the frames put on the queue and where they went -/
  posted : Belt PcmFrame := {}

inductive PathAction where
  /-- the SDK's thread -/
  | callback (callback : Idingrtc.Callback)
  /-- the drainer's loop goes round with what the ring has -/
  | drain
  | leave
  | drainerEnded
  | consume

namespace InboundPath

/-- `FrameRingBuffer::push` by the observer. -/
def push (s : InboundPath) (frame : Idingrtc.PcmFrame) : InboundPath :=
  let after := s.ring.push frame
  { s with
    ring := after.1
    pushed := (if after.2 then s.pushed else s.pushed.leave .dropped 1).join frame }

def observe (s : InboundPath) (callback : Idingrtc.Callback) : InboundPath :=
  let s := { s with callbacks := s.callbacks ++ [callback] }
  match Idingrtc.observed s.expectedRemoteUid callback with
  | some frame => s.push frame
  | none => s

/-- The drainer puts a frame on the queue. -/
def post (s : InboundPath) (frame : PcmFrame) : InboundPath :=
  { s with
    link := WindowsDingRtcSession.drainLoop s.link frame
    posted := (if s.link.Full then s.posted.leave .dropped 1 else s.posted).join frame }

/-- `buf.drain(_DRAIN_BATCH_SIZE)` -/
def takeBatch (s : InboundPath) : InboundPath :=
  let drained := s.ring.drain [] drainBatchSize
  { s with ring := drained.1, pushed := s.pushed.leave .taken drained.2.2.toNat }

/-- `_drain_loop`, from `buf.drain` to its next `sleep` or `buf.drain`. -/
def drain (s : InboundPath) : InboundPath :=
  ((s.ring.drain [] drainBatchSize).2.1.map pcmFrame).foldl post s.takeBatch

/-- The consumer takes an item. -/
def consume (s : InboundPath) : Option InboundPath :=
  (s.link.step .windows .consume).map fun link =>
    { s with
      link := link
      posted := match s.link.queue with
        | .frame _ :: _ => s.posted.leave .taken 1
        | _ => s.posted }

def step (s : InboundPath) : PathAction → Option InboundPath
  | .callback callback => some (s.observe callback)
  -- nothing drains the ring once `leave` has cancelled the drainer
  | .drain => if s.link.leave = .joined then some s.drain else none
  | .leave => (s.link.step .windows .leave).map fun link => { s with link := link }
  | .drainerEnded => (s.link.step .windows .drainerEnded).map fun link => { s with link := link }
  | .consume => s.consume

/-- What the session was told, as the bridge is to hear it. -/
def heard (s : InboundPath) : List PcmFrame :=
  (s.callbacks.filterMap (Idingrtc.observed s.expectedRemoteUid)).map pcmFrame

/-- What is on its way to the consumer, oldest first. -/
def waiting (s : InboundPath) : List PcmFrame :=
  s.link.queue.filterMap Item.frame? ++ s.ring.frames.map pcmFrame

/-- What the path promises. -/
structure Conveys (s : InboundPath) : Prop where
  /-- what was heard, in order, some of it missing -/
  inOrder : (s.link.yielded ++ s.waiting).Sublist s.heard
  /-- each frame missing was dropped by the ring or from the queue -/
  accounted : s.heard.length = s.link.yielded.length + s.waiting.length +
    (s.pushed.left .dropped).length + (s.posted.left .dropped).length
  /-- the ring counts its own -/
  counted : s.ring.dropped.toNat = (s.pushed.left .dropped).length % 2 ^ 64
  whole : s.pushed.left .dropped = [] → s.posted.left .dropped = [] →
    s.link.yielded ++ s.waiting = s.heard
  /-- what the ring holds is the last that was heard -/
  newest : s.ring.frames.map pcmFrame <:+ s.heard
  bounded : s.ring.frames.length ≤ s.ring.capacity.toNat ∧ s.link.queue.length ≤ s.link.maxsize

/-! ## One step -/

variable {s t : InboundPath} {action : PathAction}

/-- The queue is that of its belt, apart from the sentinel. -/
structure Queues (link : InboundQueue) (posted : Belt PcmFrame) : Prop where
  sound : link.Sound
  fits : link.queue.length ≤ link.maxsize
  queued : posted.queued = link.queue.filterMap Item.frame?
  yielded : posted.left .taken = link.yielded

/-- What holds in every state. -/
structure Sound (s : InboundPath) : Prop where
  queues : Queues s.link s.posted
  /-- the ring is the queue of its belt -/
  ring : ∃ (limit : Nat) (fifo : BoundedFifo Idingrtc.PcmFrame limit), Holds s.ring fifo ∧
    fifo.items = s.pushed.queued ∧ fifo.overwritten = s.pushed.left .dropped
  observed : s.pushed.joined = s.callbacks.filterMap (Idingrtc.observed s.expectedRemoteUid)
  feeds : Belt.Feeds (some ∘ pcmFrame) s.pushed s.posted

/-- A belt of a queue that makes room by dropping its first item. -/
theorem drops_first {α : Type} {belt : Belt α} {limit : Nat} {fifo : BoundedFifo α limit}
    (positive : 0 < limit) (items : fifo.items = belt.queued)
    (overwritten : fifo.overwritten = belt.left .dropped) (x : α) :
    let after := (if fifo.items.length < limit then belt else belt.leave .dropped 1).join x
    (fifo.push x).items = after.queued ∧ (fifo.push x).overwritten = after.left .dropped := by
  by_cases room : fifo.items.length < limit
  · obtain ⟨kept, lost⟩ := keepNewest_room (x := x) room
    simp only [if_pos room, BoundedFifo.push, kept, lost, List.append_nil]
    exact ⟨congrArg (· ++ [x]) items, overwritten⟩
  · have full : fifo.items.length = limit := Nat.le_antisymm fifo.within (Nat.not_lt.mp room)
    simp only [if_neg room, BoundedFifo.push]
    cases queued : fifo.items with
    | nil =>
        rw [queued, List.length_nil] at full
        omega
    | cons oldest rest =>
        obtain ⟨kept, lost⟩ := keepNewest_full (x := x) (queued ▸ full)
        rw [kept, lost, overwritten, Belt.queued_join, Belt.queued_leave, Belt.left_join,
          Belt.left_leave, ← items, queued]
        exact ⟨rfl, rfl⟩

theorem sound_push (sound : Sound s) (frame : Idingrtc.PcmFrame)
    {callbacks : List Idingrtc.Callback}
    (observed : callbacks.filterMap (Idingrtc.observed s.expectedRemoteUid) =
      s.pushed.joined ++ [frame]) :
    Sound (push { s with callbacks := callbacks } frame) := by
  obtain ⟨limit, fifo, holds, items, overwritten⟩ := sound.ring
  obtain ⟨after, accepted⟩ := holds_push holds frame
  have belt : (push { s with callbacks := callbacks } frame).pushed =
      (if fifo.items.length < limit then s.pushed else s.pushed.leave .dropped 1).join frame := by
    simp only [push, accepted, decide_eq_true_eq]
  obtain ⟨items', overwritten'⟩ :=
    drops_first (Nat.zero_lt_of_lt holds.tail) items overwritten frame
  refine ⟨sound.queues, ?_, ?_, ?_⟩
  · rw [belt]
    exact ⟨limit, fifo.push frame, after, items', overwritten'⟩
  · rw [belt]
    refine Eq.trans ?_ observed.symm
    split <;> rfl
  · have taken : (push { s with callbacks := callbacks } frame).pushed.left .taken =
        s.pushed.left .taken := by
      rw [belt, Belt.left_join]
      split
      · rfl
      · exact Belt.left_leave_of_ne _ _ _ _ nofun
    show s.posted.joined = _
    rw [taken]
    exact sound.feeds

theorem sound_observe (sound : Sound s) (callback : Idingrtc.Callback) :
    Sound (s.observe callback) := by
  have snoc : (s.callbacks ++ [callback]).filterMap (Idingrtc.observed s.expectedRemoteUid) =
      s.pushed.joined ++ (Idingrtc.observed s.expectedRemoteUid callback).toList := by
    rw [List.filterMap_append, sound.observed, List.filterMap_cons, List.filterMap_nil]
    cases Idingrtc.observed s.expectedRemoteUid callback <;> rfl
  unfold observe
  cases pushes : Idingrtc.observed s.expectedRemoteUid callback with
  | none =>
      rw [pushes] at snoc
      simp only [pushes]
      refine ⟨sound.queues, sound.ring, ?_, sound.feeds⟩
      exact (List.append_nil _).symm.trans snoc.symm
  | some frame =>
      rw [pushes] at snoc
      simp only [pushes]
      exact sound_push sound frame snoc

/-! ### The drainer -/

section
variable {link : InboundQueue} {posted : Belt PcmFrame}

/-- Before `leave` is over the queue holds frames only. -/
theorem Queues.first (queues : Queues link posted) (joined : link.leave = .joined) {item : Item}
    {rest : List Item} (queue : link.queue = item :: rest) : ∃ frame, item = .frame frame := by
  have absent := (queues.sound.before (by rw [joined]; nofun)).1
  rw [queue] at absent
  cases item with
  | frame frame => exact ⟨frame, rfl⟩
  | sentinel => exact absurd List.mem_cons_self absent

theorem queues_post (queues : Queues link posted) (joined : link.leave = .joined)
    (frame : PcmFrame) :
    Queues (WindowsDingRtcSession.drainLoop link frame)
        ((if link.Full then posted.leave .dropped 1 else posted).join frame) ∧
      (WindowsDingRtcSession.drainLoop link frame).leave = .joined := by
  have posts : link.step .windows (.post frame) =
      some (WindowsDingRtcSession.drainLoop link frame) := rfl
  have sound := InboundQueue.sound_step queues.sound posts
  have looped : WindowsDingRtcSession.drainLoop link frame = link.putDropOldest frame :=
    if_pos joined
  rw [looped] at sound ⊢
  unfold InboundQueue.putDropOldest at sound ⊢
  rcases link.putNowait_cases (.frame frame) with ⟨full, became⟩ | ⟨room, became⟩ <;>
    rw [became] at sound ⊢
  · rw [if_pos full]
    have more : 0 < link.queue.length := Nat.lt_of_lt_of_le link.positive full
    cases queue : link.queue with
    | nil => rw [queue] at more; cases more
    | cons item rest =>
        obtain ⟨oldest, rfl⟩ := queues.first joined queue
        have queued := queues.queued
        have fits := queues.fits
        rw [queue] at queued sound fits
        refine ⟨⟨sound, ?_, ?_, ?_⟩, joined⟩
        · rw [List.length_append]
          exact fits
        · rw [Belt.queued_join, Belt.queued_leave, queued, List.tail_cons, List.filterMap_append]
          rfl
        · exact (Belt.left_leave_of_ne posted .dropped .taken 1 nofun).trans queues.yielded
  · rw [if_neg room]
    refine ⟨⟨sound, ?_, ?_, queues.yielded⟩, joined⟩
    · rw [List.length_append]
      exact Nat.not_le.mp room
    · rw [Belt.queued_join, queues.queued, List.filterMap_append]
      rfl

end

/-- What a batch of puts does. -/
structure Posted (s : InboundPath) (frames : List PcmFrame) (t : InboundPath) : Prop where
  queues : Queues t.link t.posted
  joined : t.posted.joined = s.posted.joined ++ frames
  same : t = { s with link := t.link, posted := t.posted }

theorem posted_foldl {frames : List PcmFrame} (queues : Queues s.link s.posted)
    (joined : s.link.leave = .joined) : Posted s frames (frames.foldl post s) := by
  induction frames generalizing s with
  | nil => exact ⟨queues, (List.append_nil _).symm, rfl⟩
  | cons frame rest ih =>
      obtain ⟨queues', joined'⟩ := queues_post queues joined frame
      have later : Posted (s.post frame) rest (rest.foldl post (s.post frame)) := ih queues' joined'
      have first : (s.post frame).posted.joined = s.posted.joined ++ [frame] := by
        unfold post
        split <;> rfl
      refine ⟨later.queues, ?_, ?_⟩
      · rw [List.foldl_cons, later.joined, first, List.append_assoc]
        rfl
      · exact later.same

theorem sound_drain (sound : Sound s) (joined : s.link.leave = .joined) : Sound s.drain := by
  obtain ⟨limit, fifo, holds, items, overwritten⟩ := sound.ring
  obtain ⟨after, out, count⟩ := holds_drain holds [] drainBatchSize
  rw [List.nil_append, items] at out
  rw [items, List.length_take] at count
  have pushed : s.takeBatch.pushed =
      s.pushed.leave .taken (s.ring.drain [] drainBatchSize).2.2.toNat := rfl
  have posted : Posted s.takeBatch ((s.ring.drain [] drainBatchSize).2.1.map pcmFrame) s.drain :=
    posted_foldl sound.queues joined
  have same := posted.same
  generalize s.drain = t at posted same ⊢
  refine ⟨posted.queues, ⟨limit, fifo.drop drainBatchSize.toNat, ?_, ?_, ?_⟩, ?_, ?_⟩
  · rw [same]
    exact after
  · rw [same, pushed, Belt.queued_leave, count, ← List.drop_eq_drop_min, ← items]
    rfl
  · rw [same, pushed]
    exact overwritten.trans (Belt.left_leave_of_ne s.pushed .taken .dropped _ nofun).symm
  · rw [same]
    exact sound.observed
  · have feeds : s.posted.joined = (s.pushed.left .taken).filterMap (some ∘ pcmFrame) := sound.feeds
    have before : s.takeBatch.posted = s.posted := rfl
    have now : t.pushed = s.takeBatch.pushed := by rw [same]
    rw [Belt.Feeds, posted.joined, now, pushed, Belt.left_leave, count, ← List.take_eq_take_min,
      List.filterMap_append, before, feeds, out, List.filterMap_eq_map]

/-! ### The queue's other end -/

theorem sound_consume (sound : Sound s) (ran : s.consume = some t) : Sound t := by
  obtain ⟨link, moved, rfl⟩ := Option.map_eq_some_iff.mp ran
  have kept : link.Sound := InboundQueue.sound_step sound.queues.sound moved
  have queues := sound.queues
  simp only [InboundQueue.step] at moved
  split at moved
  · cases moved
  · split at moved
    · cases moved
    · rename_i item rest queue
      obtain rfl := Option.some.inj moved
      have queued := queues.queued
      have fits := queues.fits
      rw [queue] at queued fits
      cases item with
      | frame frame =>
          refine ⟨⟨kept, Nat.le_of_succ_le fits, ?_, ?_⟩, sound.ring, sound.observed, ?_⟩
          · rw [queue, Belt.queued_leave, queued]
            rfl
          · rw [queue, Belt.left_leave, queued, queues.yielded]
            rfl
          · rw [queue]
            exact sound.feeds
      | sentinel =>
          refine ⟨⟨kept, Nat.le_of_succ_le fits, ?_, ?_⟩, sound.ring, sound.observed, ?_⟩
          · rw [queue]
            exact queued
          · rw [queue]
            exact queues.yielded
          · rw [queue]
            exact sound.feeds

theorem queues_leave {link after : InboundQueue} {posted : Belt PcmFrame}
    (queues : Queues link posted) (moved : link.step .windows .leave = some after) :
    Queues after posted := by
  have kept : after.Sound := InboundQueue.sound_step queues.sound moved
  simp only [InboundQueue.step] at moved
  split at moved
  · obtain rfl := Option.some.inj moved
    exact ⟨kept, queues.fits, queues.queued, queues.yielded⟩
  · obtain rfl := Option.some.inj moved
    exact queues
  · cases moved

theorem queues_drainerEnded {link after : InboundQueue} {posted : Belt PcmFrame}
    (queues : Queues link posted) (moved : link.step .windows .drainerEnded = some after) :
    Queues after posted := by
  have kept : after.Sound := InboundQueue.sound_step queues.sound moved
  simp only [InboundQueue.step] at moved
  split at moved
  · obtain rfl := Option.some.inj moved
    unfold WindowsDingRtcSession.teardownPartial InboundQueue.putSentinel at kept ⊢
    rcases link.putNowait_cases .sentinel with ⟨full, became⟩ | ⟨room, became⟩ <;>
      rw [became] at kept ⊢
    · exact ⟨kept, queues.fits, queues.queued, queues.yielded⟩
    · refine ⟨kept, ?_, ?_, queues.yielded⟩
      · show (link.queue ++ [Item.sentinel]).length ≤ link.maxsize
        rw [List.length_append]
        exact Nat.not_le.mp room
      · show posted.queued = (link.queue ++ [Item.sentinel]).filterMap Item.frame?
        rw [List.filterMap_append, queues.queued]
        exact (List.append_nil _).symm
  · cases moved

/-- **One step.** -/
theorem sound_step (sound : Sound s) (ran : s.step action = some t) : Sound t := by
  cases action with
  | callback callback =>
      obtain rfl := Option.some.inj ran
      exact sound_observe sound callback
  | drain =>
      simp only [step] at ran
      split at ran
      · rename_i joined
        obtain rfl := Option.some.inj ran
        exact sound_drain sound joined
      · cases ran
  | leave =>
      obtain ⟨link, moved, rfl⟩ := Option.map_eq_some_iff.mp ran
      exact ⟨queues_leave sound.queues moved, sound.ring, sound.observed, sound.feeds⟩
  | drainerEnded =>
      obtain ⟨link, moved, rfl⟩ := Option.map_eq_some_iff.mp ran
      exact ⟨queues_drainerEnded sound.queues moved, sound.ring, sound.observed, sound.feeds⟩
  | consume => exact sound_consume sound ran

/-! ### Main result -/

theorem conveys_of_sound (sound : Sound s) : Conveys s := by
  obtain ⟨limit, fifo, holds, items, overwritten⟩ := sound.ring
  have frames : s.ring.frames = s.pushed.queued := holds.frames.trans items
  have heard : s.heard = s.pushed.joined.filterMap (some ∘ pcmFrame) := by
    rw [heard, ← sound.observed, List.filterMap_eq_map]
  have waiting : s.waiting = s.posted.queued ++ s.pushed.queued.filterMap (some ∘ pcmFrame) := by
    rw [waiting, ← sound.queues.queued, frames, List.filterMap_eq_map]
  have along : s.link.yielded ++ s.waiting =
      s.posted.left .taken ++ s.posted.queued ++ s.pushed.queued.filterMap (some ∘ pcmFrame) := by
    rw [waiting, ← sound.queues.yielded, List.append_assoc]
  constructor
  · rw [along, heard]
    exact sound.feeds.sublist
  · have first := s.pushed.length_joined
    have second := s.posted.length_joined
    have fed : s.posted.joined.length = (s.pushed.left .taken).length := by
      rw [show s.posted.joined = _ from sound.feeds, List.filterMap_eq_map, List.length_map]
    rw [heard, waiting, ← sound.queues.yielded]
    simp only [List.filterMap_eq_map, List.length_map, List.length_append]
    omega
  · rw [holds.dropped, overwritten]
  · intro keptRing keptQueue
    rw [along, heard]
    exact sound.feeds.whole keptRing keptQueue
  · rw [heard, frames, List.filterMap_eq_map, ← s.pushed.inOrder, List.map_append]
    exact List.suffix_append _ _
  · refine ⟨?_, sound.queues.fits⟩
    rw [holds.frames, holds.capacity]
    exact fifo.within

/-- `join` of a session with the given `inbound_capacity`. -/
def started (expectedRemoteUid : String) (inboundCapacity : UInt64) (positive : 0 < inboundCapacity) :
    InboundPath where
  expectedRemoteUid := expectedRemoteUid
  ring := .init inboundCapacity
  link := .joined (inboundCapacity.toNat * 2)
    (Nat.mul_pos (UInt64.lt_iff_toNat_lt.mp positive) (by decide))

theorem sound_started (expectedRemoteUid : String) {inboundCapacity : UInt64}
    (positive : 0 < inboundCapacity) : Sound (started expectedRemoteUid inboundCapacity positive) where
  queues := ⟨⟨fun _ => ⟨nofun, rfl⟩, Nat.zero_le _, nofun⟩, Nat.zero_le _, rfl, rfl⟩
  ring := ⟨_, {}, holds_init positive, rfl, rfl⟩
  observed := rfl
  feeds := rfl

theorem sound_of_reachable {expectedRemoteUid : String} {inboundCapacity : UInt64}
    {positive : 0 < inboundCapacity}
    (run : Reachable step Free (started expectedRemoteUid inboundCapacity positive) s) : Sound s :=
  run.invariant (P := Sound) (sound_started expectedRemoteUid positive)
    fun _ _ _ sound _ ran => sound_step sound ran

/-- **The inbound path.**  In every run of callbacks, drains, `leave` and a consumer, what the
consumer was given and what waits are what was heard, in order and each once, but for the
frames that the ring or the queue dropped; the ring's counter is the number of its own. -/
theorem inbound_path_conveys (expectedRemoteUid : String) (inboundCapacity : UInt64)
    (positive : 0 < inboundCapacity) :
    ∀ s, Reachable step Free (started expectedRemoteUid inboundCapacity positive) s → Conveys s :=
  fun _ run => conveys_of_sound (sound_of_reachable run)

/-! ## Between the ends -/

/-- Neither end of the path moves. -/
structure Between (s t : InboundPath) : Prop where
  expectedRemoteUid : t.expectedRemoteUid = s.expectedRemoteUid
  callbacks : t.callbacks = s.callbacks
  yielded : t.link.yielded = s.link.yielded

theorem Between.heard (between : Between s t) : t.heard = s.heard := by
  unfold InboundPath.heard
  rw [between.callbacks, between.expectedRemoteUid]

theorem yielded_link {link after : InboundQueue} {action : InboundAction}
    (moved : link.step .windows action = some after) (aside : action ≠ .consume) :
    after.yielded = link.yielded := by
  cases InboundQueue.step_cases moved with
  | takes => exact absurd rfl aside
  | _ => rfl

theorem between_foldl (frames : List PcmFrame) : Between s (frames.foldl post s) := by
  induction frames generalizing s with
  | nil => exact ⟨rfl, rfl, rfl⟩
  | cons frame rest ih =>
      have later : Between (s.post frame) (rest.foldl post (s.post frame)) := ih
      have posts : s.link.step .windows (.post frame) = some (s.post frame).link := rfl
      have first : (s.post frame).link.yielded = s.link.yielded := yielded_link posts nofun
      exact ⟨later.expectedRemoteUid, later.callbacks, later.yielded.trans first⟩

/-- Only callbacks and the consumer move an end. -/
theorem between_step (ran : s.step action = some t) (inside : ∀ callback, action ≠ .callback callback)
    (unread : action ≠ .consume) : Between s t := by
  cases action with
  | callback callback => exact absurd rfl (inside callback)
  | drain =>
      simp only [step] at ran
      split at ran
      · obtain rfl := Option.some.inj ran
        have batch : Between s.takeBatch s.drain := between_foldl _
        exact ⟨batch.expectedRemoteUid, batch.callbacks, batch.yielded⟩
      · cases ran
  | leave =>
      obtain ⟨link, moved, rfl⟩ := Option.map_eq_some_iff.mp ran
      exact ⟨rfl, rfl, yielded_link moved nofun⟩
  | drainerEnded =>
      obtain ⟨link, moved, rfl⟩ := Option.map_eq_some_iff.mp ran
      exact ⟨rfl, rfl, yielded_link moved nofun⟩
  | consume => exact absurd rfl unread

/-- A callback is heard if the observer lets it through. -/
theorem heard_observe (callback : Idingrtc.Callback) :
    (s.observe callback).heard =
      s.heard ++ ((Idingrtc.observed s.expectedRemoteUid callback).map pcmFrame).toList := by
  unfold observe
  cases pushes : Idingrtc.observed s.expectedRemoteUid callback with
  | none => simp [heard, pushes]
  | some frame => simp [heard, push, pushes]

theorem yielded_observe (callback : Idingrtc.Callback) :
    (s.observe callback).link.yielded = s.link.yielded := by
  unfold observe
  cases pushes : Idingrtc.observed s.expectedRemoteUid callback with
  | none => simp only [pushes]
  | some frame =>
      simp only [pushes]
      rfl

/-- What the consumer takes. -/
inductive Takes (s t : InboundPath) : Prop
  | frame (frame : PcmFrame) (rest : List Item) (queue : s.link.queue = .frame frame :: rest)
      (yielded : t.link.yielded = s.link.yielded ++ [frame]) (heard : t.heard = s.heard)
  | sentinel (rest : List Item) (queue : s.link.queue = .sentinel :: rest) (between : Between s t)

theorem takes_consume (ran : s.consume = some t) : Takes s t := by
  obtain ⟨link, moved, rfl⟩ := Option.map_eq_some_iff.mp ran
  simp only [InboundQueue.step] at moved
  split at moved
  · cases moved
  · split at moved
    · cases moved
    · rename_i item rest queue
      obtain rfl := Option.some.inj moved
      cases item with
      | frame frame => exact .frame frame rest queue rfl rfl
      | sentinel => exact .sentinel rest queue ⟨rfl, rfl, rfl⟩

/-! ## Poles -/

/-- Two samples of 16 kHz mono. -/
def spoken (low : UInt8) : Idingrtc.RtcEngineAudioFrame where
  buffer := some [low, 0, low, 0, 9]
  samples := 2
  bytesPerSample := 2
  channels := 1
  samplesPerSec := 16000
  enough := fun data held => by
    obtain rfl := Option.some.inj held
    exact Nat.le_succ 4

/-- A ring of one frame and a queue of two: a frame is overwritten in the ring, one of another
user is not heard, one is dropped from the queue for a later, and `leave` finds room. -/
def crowded : List PathAction :=
  [.callback (.remoteUserAudioFrame (some "engine") (spoken 1)),
    .callback (.remoteUserAudioFrame (some "engine") (spoken 2)), .drain,
    .callback (.remoteUserAudioFrame none (spoken 3)),
    .callback (.playbackAudioFrame (spoken 4)), .drain, .callback (.playbackAudioFrame (spoken 5)),
    .drain, .consume, .callback (.playbackAudioFrame (spoken 6)), .leave, .drainerEnded, .consume,
    .consume]

theorem crowded_runs : (run step (started "engine" 1 (by decide)) crowded).isSome = true := by
  decide

theorem crowded_conveys :
    let s := (run step (started "engine" 1 (by decide)) crowded).get crowded_runs
    Conveys s ∧ s.heard.length = 5 ∧ s.link.yielded.map (·.pcm) = [[4, 0, 4, 0], [5, 0, 5, 0]] ∧
      s.link.ended = true ∧ s.waiting.map (·.pcm) = [[6, 0, 6, 0]] :=
  ⟨inbound_path_conveys "engine" 1 (by decide) _ (reachable_get crowded_runs), by decide, by decide,
    by decide, by decide⟩

end InboundPath

end IsalesTelephony.Audio
