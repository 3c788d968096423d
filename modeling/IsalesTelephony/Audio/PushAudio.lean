/-
# Audio.PushAudio -- the audio pushed to the channel in frames of 10 ms

`WindowsDingRtcSession.push_audio` cuts what it is given into frames of a hundredth of the
sample rate, hands them to the SDK one by one and sleeps between two.  The SDK may refuse a
frame and the call may be cancelled in a sleep; the frames after that are not handed over.

The last frame of a call is filled up with zeros, so what the SDK is given are the inputs of
the calls, each with its padding (`flatten_handed`), and not the inputs one after the other
(`padded_between_calls`).
-/
import IsalesTelephony.Audio.Pcm
import IsalesTelephony.Theory.Framing

namespace IsalesTelephony.Audio

set_option autoImplicit false

open IsalesTelephony.Theory

/-- `_DEFAULT_BYTES_PER_SAMPLE`. -/
def bytesPerSample : Nat := 2

/-- `_PUSH_FRAME_GRID_MS`. -/
def pushFrameGridMs : Nat := 10

/-- How the SDK takes a frame. -/
inductive Reply where
  | accepted
  /-- `DingRtcError` -/
  | refused
  /-- accepted, and the call is cancelled in the sleep that follows, if any -/
  | cancelled
  deriving DecidableEq

/-- How `push_audio` ended. -/
inductive PushEnd where
  | pushed
  /-- `RtcNotJoined` -/
  | notJoined
  /-- `ValueError` of `range` -/
  | noGrid
  /-- `RtcError` for what the SDK raised -/
  | refused
  | cancelled
  deriving DecidableEq

/-- A call of `push_external_audio`. -/
structure Handed where
  pcm : Pcm
  sampleRate : Int
  channels : Int
  timestamp : Int
  deriving DecidableEq

structure PushCall where
  pcm : Pcm
  timestampMs : Int
  /-- how the SDK takes the frames of the call -/
  reply : Nat → Reply

structure DingRtcSession where
  joined : Bool := true
  /-- `self._engine is not None` -/
  engine : Bool := true
  sendSampleRate : Int := 16000
  sendChannels : Int := 1

namespace DingRtcSession

def frameSize (s : DingRtcSession) : Nat :=
  (s.sendSampleRate / 100 * s.sendChannels * bytesPerSample).toNat

/-- Pad the last frame to a full SDK frame. -/
def pad (size : Nat) (frame : Pcm) : Pcm :=
  if frame.length < size then frame ++ List.replicate (size - frame.length) 0 else frame

/-- The loop of `push_audio`, over the offsets: the frames handed over and how it ended. -/
def pushFrames (s : DingRtcSession) (call : PushCall) :
    List Nat → Nat → Int → List Handed × PushEnd
  | [], _, _ => ([], .pushed)
  | off :: rest, i, ts =>
      let frame : Handed :=
        { pcm := pad s.frameSize ((call.pcm.drop off).take s.frameSize)
          sampleRate := s.sendSampleRate
          channels := s.sendChannels
          timestamp := ts }
      match call.reply i with
      | .refused => ([frame], .refused)
      | reply =>
          if reply = .cancelled ∧ off + s.frameSize < call.pcm.length then ([frame], .cancelled)
          else
            let later := pushFrames s call rest (i + 1) (ts + pushFrameGridMs)
            (frame :: later.1, later.2)

/-- `range(0, n, size)`, for `size` not 0. -/
def offsets (n size : Nat) : List Nat := List.range' 0 ((n + size - 1) / size) size

/-- `push_audio`: the frames handed to the SDK and how it ended. -/
def pushAudio (s : DingRtcSession) (call : PushCall) : List Handed × PushEnd :=
  if s.joined = false ∨ s.engine = false then ([], .notJoined)
  else if s.sendSampleRate ≤ 0 ∨ s.sendChannels ≤ 0 then ([], .notJoined)
  else if call.pcm = [] then ([], .pushed)
  else if s.frameSize = 0 then ([], .noGrid)
  else s.pushFrames call (offsets call.pcm.length s.frameSize) 0 call.timestampMs

/-- The frames of a sequence of calls. -/
def handed (s : DingRtcSession) (calls : List PushCall) : List Handed :=
  calls.flatMap fun call => (s.pushAudio call).1

/-- Joined, at a rate that has samples in 10 ms. -/
structure Ready (s : DingRtcSession) : Prop where
  joined : s.joined = true
  engine : s.engine = true
  rate : 100 ≤ s.sendSampleRate
  channels : 0 < s.sendChannels

/-- The zeros that complete the last frame of a call. -/
def padding (size : Nat) (pcm : Pcm) : Pcm :=
  List.replicate ((size - pcm.length % size) % size) 0

variable {s : DingRtcSession} {call : PushCall}

/-! ## One call -/

theorem length_pad {size : Nat} {frame : Pcm} (fits : frame.length ≤ size) :
    (pad size frame).length = size := by
  unfold pad
  split
  · rw [List.length_append, List.length_replicate]
    omega
  · omega

theorem length_pushFrames : ∀ (offs : List Nat) (i : Nat) (ts : Int),
    ∀ frame ∈ (s.pushFrames call offs i ts).1, frame.pcm.length = s.frameSize
  | [], _, _, _, member => by cases member
  | off :: rest, i, ts, frame, member => by
      have whole : (pad s.frameSize ((call.pcm.drop off).take s.frameSize)).length = s.frameSize :=
        length_pad (List.length_take_le _ _)
      simp only [pushFrames] at member
      split at member
      · rw [List.mem_singleton.mp member]
        exact whole
      · split at member
        · rw [List.mem_singleton.mp member]
          exact whole
        · rcases List.mem_cons.mp member with rfl | later
          · exact whole
          · exact length_pushFrames rest _ _ frame later

/-- The timestamps go up by 10. -/
theorem timestamp_pushFrames : ∀ (offs : List Nat) (i : Nat) (ts : Int) (k : Nat) (frame : Handed),
    (s.pushFrames call offs i ts).1[k]? = some frame → frame.timestamp = ts + 10 * k
  | [], _, _, _, _, at_ => by cases at_
  | off :: rest, i, ts, k, frame, at_ => by
      simp only [pushFrames] at at_
      cases k with
      | zero =>
          split at at_
          · obtain rfl := Option.some.inj at_
            simp
          · split at at_ <;>
            · obtain rfl := Option.some.inj at_
              simp
      | succ k =>
          split at at_
          · cases at_
          · split at at_
            · cases at_
            · rw [List.getElem?_cons_succ] at at_
              rw [timestamp_pushFrames rest _ _ k frame at_, pushFrameGridMs]
              omega

/-- A frame and the rest with its padding are the whole with its padding. -/
theorem pad_take_append {size : Nat} {pcm : Pcm} (some_ : 0 < pcm.length) :
    pad size (pcm.take size) ++ (pcm.drop size ++ padding size (pcm.drop size)) =
      pcm ++ padding size pcm := by
  by_cases full : size ≤ pcm.length
  · have notShort : ¬ (pcm.take size).length < size := by
      rw [List.length_take]
      omega
    have same : padding size (pcm.drop size) = padding size pcm := by
      rw [padding, padding, List.length_drop, ← Nat.mod_eq_sub_mod full]
    rw [pad, if_neg notShort, same, ← List.append_assoc, List.take_append_drop]
  · have short : pcm.length < size := Nat.not_le.mp full
    have none_left : pcm.drop size = [] := List.drop_eq_nil_of_le short.le
    have zeros : (size - pcm.length) % size = size - pcm.length := Nat.mod_eq_of_lt (by omega)
    rw [none_left, List.take_of_length_le short.le, pad, if_pos short, padding, padding,
      List.length_nil, Nat.zero_mod, Nat.sub_zero, Nat.mod_self, Nat.mod_eq_of_lt short, zeros]
    simp

/-- The frames from an offset on are the input from there on and its padding. -/
theorem flatten_pushFrames (accepted : ∀ i, call.reply i = .accepted) (pos : 0 < s.frameSize) :
    ∀ (m off i : Nat) (ts : Int),
      m = (call.pcm.length - off + s.frameSize - 1) / s.frameSize →
      let pushed := s.pushFrames call (List.range' off m s.frameSize) i ts
      pushed.2 = .pushed ∧
        (pushed.1.map (·.pcm)).flatten = call.pcm.drop off ++ padding s.frameSize (call.pcm.drop off)
  | 0, off, i, ts, count => by
      have few := (Nat.div_eq_zero_iff_lt pos).mp count.symm
      have none_left : call.pcm.drop off = [] := List.drop_eq_nil_of_le (by omega)
      refine ⟨rfl, ?_⟩
      rw [none_left, padding, List.length_nil, Nat.zero_mod, Nat.sub_zero, Nat.mod_self]
      rfl
  | m + 1, off, i, ts, count => by
      obtain ⟨some_, after⟩ := slices_after pos count
      rw [Nat.sub_sub] at after
      obtain ⟨returned, later⟩ := flatten_pushFrames accepted pos m (off + s.frameSize) (i + 1)
        (ts + pushFrameGridMs) after
      have reply : call.reply i = .accepted := accepted i
      rw [List.range'_succ]
      simp only [pushFrames, reply, reduceCtorEq, false_and, if_false, List.map_cons,
        List.flatten_cons]
      refine ⟨returned, ?_⟩
      rw [later, ← List.drop_drop]
      exact pad_take_append (by rw [List.length_drop]; exact some_)

/-! ## All calls -/

theorem Ready.frameSize_pos (ready : s.Ready) : 0 < s.frameSize := by
  have samples : 1 ≤ s.sendSampleRate / 100 := Int.le_ediv_of_mul_le (by decide) ready.rate
  have positive : 0 < s.sendSampleRate / 100 * s.sendChannels :=
    Int.mul_pos (by omega) ready.channels
  unfold frameSize bytesPerSample
  omega

theorem pushAudio_ready (ready : s.Ready) (accepted : ∀ i, call.reply i = .accepted) :
    (s.pushAudio call).2 = .pushed ∧
      ((s.pushAudio call).1.map (·.pcm)).flatten = call.pcm ++ padding s.frameSize call.pcm := by
  have pos := ready.frameSize_pos
  have rate := ready.rate
  have channels := ready.channels
  unfold pushAudio
  rw [if_neg (by simp [ready.joined, ready.engine]), if_neg (by omega)]
  split
  · rename_i empty
    rw [empty, padding, List.length_nil, Nat.zero_mod, Nat.sub_zero, Nat.mod_self]
    exact ⟨rfl, rfl⟩
  · rw [if_neg (by omega)]
    exact flatten_pushFrames accepted pos _ 0 0 call.timestampMs rfl

/-- The frames of a call are whole and follow each other by 10 ms. -/
theorem pushAudio_grid (s : DingRtcSession) (call : PushCall) :
    (∀ frame ∈ (s.pushAudio call).1, frame.pcm.length = s.frameSize ∧
        0 < s.sendSampleRate ∧ 0 < s.sendChannels) ∧
      ∀ (k : Nat) (frame : Handed), (s.pushAudio call).1[k]? = some frame →
        frame.timestamp = call.timestampMs + 10 * k := by
  unfold pushAudio
  split_ifs with absent unset
  · exact ⟨nofun, nofun⟩
  · exact ⟨nofun, nofun⟩
  · exact ⟨nofun, nofun⟩
  · exact ⟨nofun, nofun⟩
  · exact ⟨fun frame member => ⟨length_pushFrames _ _ _ frame member, by omega, by omega⟩,
      timestamp_pushFrames _ _ _⟩

/-- A hundredth of the rate is 10 ms if there is one. -/
theorem frameSize_exact (rate : 100 ∣ s.sendSampleRate) (positive : 0 < s.sendSampleRate)
    (channels : 0 < s.sendChannels) :
    100 * (s.frameSize : Int) = s.sendSampleRate * s.sendChannels * bytesPerSample := by
  obtain ⟨samples, rate⟩ := rate
  have pos : 0 ≤ samples * s.sendChannels := Int.mul_nonneg (by omega) channels.le
  have mul : 100 * samples * s.sendChannels = 100 * (samples * s.sendChannels) := Int.mul_assoc _ _ _
  unfold frameSize bytesPerSample
  rw [rate, Int.mul_ediv_cancel_left _ (by decide), mul]
  omega

theorem flatten_handed {calls : List PushCall} (ready : s.Ready)
    (accepted : ∀ call ∈ calls, ∀ i, call.reply i = .accepted) :
    ((s.handed calls).map (·.pcm)).flatten =
      calls.flatMap fun call => call.pcm ++ padding s.frameSize call.pcm := by
  induction calls with
  | nil => rfl
  | cons call rest ih =>
      obtain ⟨first, later⟩ := List.forall_mem_cons.mp accepted
      rw [handed, List.flatMap_cons, List.map_append, List.flatten_append,
        (pushAudio_ready ready first).2, List.flatMap_cons]
      exact congrArg (call.pcm ++ padding s.frameSize call.pcm ++ ·) (ih later)

/-! ### Main result -/

/-- **Pushing.**  For every sequence of calls and however the SDK takes the frames, they are
of 10 ms and go up by 10 ms within a call; if it accepts all of them, they are the inputs,
each with the zeros that complete its last frame. -/
theorem push_audio_frames (s : DingRtcSession) (calls : List PushCall) :
    (∀ frame ∈ s.handed calls, frame.pcm.length = s.frameSize ∧ (100 ∣ s.sendSampleRate →
      100 * (frame.pcm.length : Int) = s.sendSampleRate * s.sendChannels * bytesPerSample)) ∧
    (∀ call ∈ calls, ∀ (k : Nat) (frame : Handed), (s.pushAudio call).1[k]? = some frame →
      frame.timestamp = call.timestampMs + 10 * k) ∧
    (s.Ready → (∀ call ∈ calls, ∀ i, call.reply i = .accepted) →
      (∀ call ∈ calls, (s.pushAudio call).2 = .pushed) ∧
      ((s.handed calls).map (·.pcm)).flatten =
        calls.flatMap fun call => call.pcm ++ padding s.frameSize call.pcm) := by
  refine ⟨fun frame member => ?_, fun call _ => (s.pushAudio_grid call).2,
    fun ready accepted => ⟨fun call member => (pushAudio_ready ready (accepted call member)).1,
      flatten_handed ready accepted⟩⟩
  obtain ⟨call, -, ofCall⟩ := List.mem_flatMap.mp member
  obtain ⟨length, rate, channels⟩ := (s.pushAudio_grid call).1 frame ofCall
  exact ⟨length, fun divides => by rw [length]; exact frameSize_exact divides rate channels⟩

/-- Two calls of a sample each, as a partial read gives them. -/
def twoSamples : List PushCall :=
  [⟨[1, 2], 0, fun _ => .accepted⟩, ⟨[3, 4], 20, fun _ => .accepted⟩]

theorem ready_default : Ready {} := ⟨rfl, rfl, by decide, by decide⟩

theorem accepted_twoSamples : ∀ call ∈ twoSamples, ∀ i, call.reply i = .accepted := by
  intro call member i
  simp only [twoSamples, List.mem_cons, List.not_mem_nil, or_false] at member
  rcases member with rfl | rfl
  · rfl
  · rfl

theorem twoSamples_pushed :
    (({} : DingRtcSession).handed twoSamples).length = 2 ∧
      ((({} : DingRtcSession).handed twoSamples).map (·.pcm)).flatten =
        twoSamples.flatMap fun call => call.pcm ++ padding 320 call.pcm :=
  ⟨by decide +kernel,
    ((push_audio_frames {} twoSamples).2.2 ready_default accepted_twoSamples).2⟩

/-- **Silence between the calls**, at 16 kHz; and at 11025 Hz a frame is not 10 ms. -/
theorem padded_between_calls :
    (¬ ∀ calls : List PushCall,
        (∀ call ∈ calls, 2 ∣ call.pcm.length ∧ ∀ i, call.reply i = .accepted) →
        ∃ n, ((({} : DingRtcSession).handed calls).map (·.pcm)).flatten =
          calls.flatMap (·.pcm) ++ List.replicate n 0) ∧
      ¬ ∀ (s : DingRtcSession) (call : PushCall), s.Ready → ∀ frame ∈ (s.pushAudio call).1,
        100 * (frame.pcm.length : Int) = s.sendSampleRate * s.sendChannels * bytesPerSample := by
  constructor
  · intro claim
    obtain ⟨n, same⟩ := claim twoSamples fun call member => by
      refine ⟨?_, accepted_twoSamples call member⟩
      simp only [twoSamples, List.mem_cons, List.not_mem_nil, or_false] at member
      rcases member with rfl | rfl
      · decide
      · decide
    -- the third byte is a zero of the padding, not the second call's
    have third := congrArg (fun pcm : Pcm => pcm[2]?) same
    have zero : ((((({} : DingRtcSession).handed twoSamples).map (·.pcm)).flatten : Pcm))[2]? =
        some 0 := by decide +kernel
    have three : (twoSamples.flatMap (·.pcm) ++ List.replicate n 0)[2]? = some 3 := rfl
    rw [zero, three] at third
    exact absurd third (by decide)
  · intro claim
    have cd : Ready { sendSampleRate := 11025 } := ⟨rfl, rfl, by decide, by decide⟩
    have frame := claim { sendSampleRate := 11025 } ⟨[1, 2], 0, fun _ => .accepted⟩ cd _
      List.mem_cons_self
    exact absurd frame (by decide +kernel)

end DingRtcSession

end IsalesTelephony.Audio
