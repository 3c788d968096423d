/-
# Audio.RecordingTaps -- the AI track on the two paths

With a modem, `AudioBridge._downstream_loop` appends each accepted frame to the AI track as
it came and then converts it for the modem.  Without one,
`_dev_no_modem_ai_recording_pump` converts each frame to 16 kHz mono and appends that.
Either loop ends at the first frame that its conversion cannot take.

The recorder plays both tracks at 16 kHz mono.  The dev path appends two bytes for each
16 kHz sample of a frame, the modem path as many as came, so the two agree exactly if each
frame is empty or came at 16 kHz mono (`taps_agree_iff`).
-/
import IsalesTelephony.Audio.Recorder
import Mathlib.Algebra.Order.BigOperators.Group.List

namespace IsalesTelephony.Audio

set_option autoImplicit false

open IsalesTelephony.Theory

/-! ## The modem path -/

/-- A stereo frame: the mean of the channels, rounded down. -/
def average (left right : Int) : Int := (left + right) / 2

/-- `astype(np.int16)` of a number in range: towards zero. -/
def truncate (q : ℚ) : Int := q.num.tdiv q.den

/-- What `_downstream_loop` makes of a frame for the modem, or `none` when it raises. -/
def toModem (np : Numpy) (frame : PcmFrame) : Option Pcm :=
  (frombuffer frame.pcm).bind fun pcmArr =>
    (if frame.channels = 2 then broadcast average (strideFrom 2 0 pcmArr) (strideFrom 2 1 pcmArr)
      else some pcmArr).bind fun mono =>
      let srcRate := if frame.sampleRate = 0 then 8000 else frame.sampleRate
      if srcRate = 8000 then some (tobytes mono)
      else if srcRate % 8000 = 0 then some (tobytes (strideFrom (srcRate / 8000) 0 mono))
      else if mono = [] then none
      else
        let nOut := mono.length * 8000 / srcRate
        let points : List ℚ := (List.range nOut).map fun i => (i : ℚ) * srcRate / 8000
        some (tobytes ((np.interp points (mono.map fun s : Int => (s : ℚ))).map truncate))

/-- `_downstream_loop` over the frames of a session, while the modem's ring is open: the
recorder, and what was put on the ring. -/
def downstreamLoop (np : Numpy) (peerUid callId : String) :
    Recorder → List PcmFrame → Recorder × List Pcm
  | r, [] => (r, [])
  | r, frame :: rest =>
      if frame.senderUid ≠ "" ∧ frame.senderUid ≠ peerUid then
        downstreamLoop np peerUid callId r rest
      else
        -- the tap comes before the conversion, so a frame that ends the loop is recorded
        match toModem np frame with
        | none => (r.appendAi callId frame.pcm, [])
        | some resampled =>
            let later := downstreamLoop np peerUid callId (r.appendAi callId frame.pcm) rest
            (later.1, resampled :: later.2)

/-! ## The path without a modem -/

/-- `_downmix_playback_to_engine_mono`. -/
def downmixPlaybackToEngineMono (np : Numpy) (pcm : Pcm) (srcRate srcChannels : Nat) : Option Pcm :=
  if pcm = [] then some []
  else
    (frombuffer pcm).map fun raw =>
      let samples : List ℚ := raw.map fun s : Int => (s : ℚ)
      let samples := if 1 < srcChannels then (reshape srcChannels samples).map mean else samples
      let nOut := (halfEven ((samples.length * engineSampleRate : ℚ) / srcRate)).toNat
      let samples :=
        if srcRate ≠ 0 ∧ srcRate ≠ engineSampleRate ∧ samples ≠ [] ∧ 0 < nOut then
          np.interp (linspace samples.length nOut) samples
        else samples
      tobytes (samples.map fun s => clip (halfEven s))

/-- `_dev_no_modem_ai_recording_pump`, until the call is torn down. -/
def devNoModemAiRecordingPump (np : Numpy) (callId : String) : Recorder → List PcmFrame → Recorder
  | r, [] => r
  | r, frame :: rest =>
      match downmixPlaybackToEngineMono np frame.pcm frame.sampleRate frame.channels with
      | none => r
      | some mono16k =>
          devNoModemAiRecordingPump np callId
            (if mono16k = [] then r else r.appendAi callId mono16k) rest

/-! ## Agreement -/

/-- The bridge accepts the frame, its rate is a multiple of the engine's, and it holds whole
samples of one or two channels. -/
structure Inbound (peerUid : String) (frame : PcmFrame) : Prop where
  accepted : frame.senderUid = "" ∨ frame.senderUid = peerUid
  rate_pos : 0 < frame.sampleRate
  rate : engineSampleRate ∣ frame.sampleRate
  channels : frame.channels = 1 ∨ frame.channels = 2
  whole : 2 * frame.channels ∣ frame.pcm.length

namespace PcmFrame

/-- How many samples each channel has. -/
def samplesPerChannel (frame : PcmFrame) : Nat := frame.pcm.length / (2 * frame.channels)

/-- The bytes it lasts for at 16 kHz mono. -/
def engineBytes (frame : PcmFrame) : Nat :=
  2 * (halfEven ((frame.samplesPerChannel * engineSampleRate : ℚ) / frame.sampleRate)).toNat

/-- How long it lasts, in seconds. -/
def duration (frame : PcmFrame) : ℚ := frame.samplesPerChannel / frame.sampleRate

/-- It came as the recorder plays it. -/
def EngineMono (frame : PcmFrame) : Prop :=
  frame.sampleRate = engineSampleRate ∧ frame.channels = 1

instance (frame : PcmFrame) : Decidable frame.EngineMono := inferInstanceAs (Decidable (_ ∧ _))

end PcmFrame

/-- The AI tracks of the two paths agree on the timing of the frames. -/
structure TapsAgree (modem dev : Pcm) (frames : List PcmFrame) : Prop where
  sameLength : modem.length = dev.length
  timed : dev.length = (frames.map PcmFrame.engineBytes).sum
  sameBytes : (∀ frame ∈ frames, frame.EngineMono) → modem = dev
  /-- in the recorder's file, up to the rounding of each frame -/
  lasts : |(modem.length : ℚ) / (2 * engineSampleRate) - (frames.map PcmFrame.duration).sum| ≤
    frames.length / (2 * engineSampleRate)

/-! ## What the loops append -/

variable {np : Numpy} {peerUid callId : String} {frame : PcmFrame} {frames : List PcmFrame}

theorem Inbound.even (inbound : Inbound peerUid frame) : 2 ∣ frame.pcm.length :=
  (Nat.dvd_mul_right 2 frame.channels).trans inbound.whole

/-- The bridge can convert what it accepts. -/
theorem toModem_inbound (np : Numpy) (inbound : Inbound peerUid frame) :
    ∃ resampled, toModem np frame = some resampled := by
  obtain ⟨pcmArr, read⟩ := frombuffer_even inbound.even
  obtain ⟨mono, mixed⟩ : ∃ mono, (if frame.channels = 2 then
      broadcast average (strideFrom 2 0 pcmArr) (strideFrom 2 1 pcmArr)
      else some pcmArr) = some mono := by
    split
    · rename_i stereo
      have whole := inbound.whole
      rw [stereo, frombuffer_length read] at whole
      exact broadcast_of_length (length_channels (by omega))
    · exact ⟨pcmArr, rfl⟩
  have rate : frame.sampleRate % 8000 = 0 := by
    obtain ⟨k, rate⟩ := inbound.rate
    unfold engineSampleRate at rate
    omega
  simp only [toModem, read, Option.bind_some, mixed, if_neg inbound.rate_pos.ne', rate, if_true]
  split <;> exact ⟨_, rfl⟩

/-- **The modem path** appends the frames as they came. -/
theorem aiTrack_downstreamLoop {r : Recorder} (records : r.Records callId)
    (inbound : ∀ frame ∈ frames, Inbound peerUid frame) :
    (downstreamLoop np peerUid callId r frames).1.aiTrack callId =
      r.aiTrack callId ++ frames.flatMap PcmFrame.pcm := by
  induction frames generalizing r with
  | nil => simp [downstreamLoop]
  | cons frame rest ih =>
      obtain ⟨first, later⟩ := List.forall_mem_cons.mp inbound
      obtain ⟨resampled, converted⟩ := toModem_inbound np first
      have accepted : ¬ (frame.senderUid ≠ "" ∧ frame.senderUid ≠ peerUid) := by
        have accepted := first.accepted
        tauto
      rw [downstreamLoop, if_neg accepted, converted, List.flatMap_cons, ← List.append_assoc,
        ← Recorder.aiTrack_appendAi records]
      exact ih (Recorder.records_appendAi records _) later

/-- What the dev path appends for a frame. -/
def devBytes (np : Numpy) (frame : PcmFrame) : Pcm :=
  (downmixPlaybackToEngineMono np frame.pcm frame.sampleRate frame.channels).getD []

theorem downmix_inbound (np : Numpy) (inbound : Inbound peerUid frame) :
    downmixPlaybackToEngineMono np frame.pcm frame.sampleRate frame.channels =
      some (devBytes np frame) := by
  obtain ⟨raw, read⟩ := frombuffer_even inbound.even
  unfold devBytes downmixPlaybackToEngineMono
  rw [read]
  split <;> rfl

/-- **The dev path** appends the frames as it converts them. -/
theorem aiTrack_pump {r : Recorder} (records : r.Records callId)
    (inbound : ∀ frame ∈ frames, Inbound peerUid frame) :
    (devNoModemAiRecordingPump np callId r frames).aiTrack callId =
      r.aiTrack callId ++ frames.flatMap (devBytes np) := by
  induction frames generalizing r with
  | nil => simp [devNoModemAiRecordingPump]
  | cons frame rest ih =>
      obtain ⟨first, later⟩ := List.forall_mem_cons.mp inbound
      rw [devNoModemAiRecordingPump, downmix_inbound np first,
        List.flatMap_cons, ← List.append_assoc]
      dsimp only
      by_cases empty : devBytes np frame = []
      · rw [if_pos empty, ih records later, empty, List.append_nil]
      · rw [if_neg empty, ih (Recorder.records_appendAi records _) later,
          Recorder.aiTrack_appendAi records]

/-! ## Counting -/

/-- A frame that came at a multiple of the engine's rate. -/
theorem Inbound.rates (inbound : Inbound peerUid frame) :
    ∃ k : Nat, 0 < k ∧ frame.sampleRate = engineSampleRate * k ∧
      ((frame.samplesPerChannel * engineSampleRate : ℚ) / frame.sampleRate) =
        (frame.samplesPerChannel : ℚ) / k := by
  obtain ⟨k, rate⟩ := inbound.rate
  have pos : 0 < k := by
    rcases Nat.eq_zero_or_pos k with rfl | pos
    · exact absurd inbound.rate_pos (by rw [rate]; decide)
    · exact pos
  refine ⟨k, pos, rate, ?_⟩
  rw [rate]
  push_cast
  rw [mul_comm (engineSampleRate : ℚ) k]
  exact mul_div_mul_right _ _ (by simp [engineSampleRate])

theorem Inbound.length (inbound : Inbound peerUid frame) :
    frame.pcm.length = 2 * frame.channels * frame.samplesPerChannel :=
  (Nat.mul_div_cancel' inbound.whole).symm

/-- A slower rate has fewer samples. -/
theorem halfEven_div_lt {n k : Nat} (some_ : 0 < n) (faster : 2 ≤ k) :
    halfEven ((n : ℚ) / k) < n := by
  have two : (2 : ℚ) ≤ k := by exact_mod_cast faster
  by_cases one : n = 1
  · subst one
    have half : ((1 : Nat) : ℚ) / k ≤ 1 / 2 := by
      rw [Nat.cast_one]
      exact one_div_le_one_div_of_le (by norm_num) two
    rw [halfEven_eq_zero (by positivity) half]
    exact Int.one_pos
  · have many : (2 : ℚ) ≤ n := by exact_mod_cast (by omega : 2 ≤ n)
    have half : (n : ℚ) / k ≤ n / 2 := div_le_div_of_nonneg_left (by positivity) (by norm_num) two
    have below := halfEven_le ((n : ℚ) / k)
    have : (halfEven ((n : ℚ) / k) : ℚ) < n := by linarith
    exact_mod_cast this

/-- A frame does not shrink only if it is empty or came as the recorder plays it. -/
theorem engineBytes_lt (inbound : Inbound peerUid frame) (some_ : frame.pcm ≠ [])
    (other : ¬ frame.EngineMono) : frame.engineBytes < frame.pcm.length := by
  obtain ⟨k, pos, rate, quotient⟩ := inbound.rates
  have length := inbound.length
  have samples : 0 < frame.samplesPerChannel := by
    rcases Nat.eq_zero_or_pos frame.samplesPerChannel with none_ | samples
    · rw [none_] at length
      exact absurd (List.eq_nil_of_length_eq_zero length) some_
    · exact samples
  unfold PcmFrame.engineBytes
  rw [quotient, length]
  by_cases slow : k = 1
  · subst slow
    have stereo : frame.channels = 2 :=
      inbound.channels.resolve_left fun mono => other ⟨by rw [rate, Nat.mul_one], mono⟩
    rw [stereo, Nat.cast_one, div_one, halfEven_natCast, Int.toNat_natCast]
    omega
  · have fewer := halfEven_div_lt samples (by omega : 2 ≤ k)
    have wide : 2 * frame.samplesPerChannel ≤ 2 * frame.channels * frame.samplesPerChannel := by
      rcases inbound.channels with mono | stereo
      · rw [mono]
      · rw [stereo]
        omega
    omega

theorem engineBytes_nil (empty : frame.pcm = []) : frame.engineBytes = 0 := by
  simp [PcmFrame.engineBytes, PcmFrame.samplesPerChannel, empty, halfEven_eq_zero]

theorem engineBytes_engineMono (inbound : Inbound peerUid frame) (mono : frame.EngineMono) :
    frame.engineBytes = frame.pcm.length := by
  have rate : (engineSampleRate : ℚ) ≠ 0 := by simp [engineSampleRate]
  rw [inbound.length, mono.2, PcmFrame.engineBytes, mono.1, mul_div_assoc, div_self rate, mul_one,
    halfEven_natCast, Int.toNat_natCast]

/-- The dev path writes back what it need not convert. -/
theorem devBytes_engineMono (inbound : Inbound peerUid frame)
    (plain : frame.pcm = [] ∨ frame.EngineMono) : devBytes np frame = frame.pcm := by
  unfold devBytes downmixPlaybackToEngineMono
  by_cases empty : frame.pcm = []
  · rw [if_pos empty, empty, Option.getD_some]
  · obtain ⟨rate, channels⟩ := plain.resolve_left empty
    obtain ⟨raw, read⟩ := frombuffer_even inbound.even
    have samples : raw.map (clip ∘ halfEven ∘ fun s : Int => (s : ℚ)) = raw.map clip :=
      List.map_congr_left fun s _ => by simp
    simp only [if_neg empty, read, rate, channels, Option.map_some, Option.getD_some, ne_eq,
      not_true_eq_false, false_and, and_false, if_false, lt_irrefl, List.map_map]
    exact (congrArg tobytes samples).trans (tobytes_frombuffer read)

theorem engineBytes_plain (inbound : Inbound peerUid frame)
    (plain : frame.pcm = [] ∨ frame.EngineMono) : frame.engineBytes = frame.pcm.length := by
  rcases plain with empty | mono
  · rw [engineBytes_nil empty, empty, List.length_nil]
  · exact engineBytes_engineMono inbound mono

theorem duration_plain (inbound : Inbound peerUid frame)
    (plain : frame.pcm = [] ∨ frame.EngineMono) :
    frame.duration = (frame.pcm.length : ℚ) / (2 * engineSampleRate) := by
  rcases plain with empty | mono
  · simp [PcmFrame.duration, PcmFrame.samplesPerChannel, empty]
  · rw [PcmFrame.duration, inbound.length, mono.1, mono.2]
    push_cast
    rw [mul_div_mul_left _ _ two_ne_zero]

theorem seconds_plain (inbound : ∀ frame ∈ frames, Inbound peerUid frame)
    (plain : ∀ frame ∈ frames, frame.pcm = [] ∨ frame.EngineMono) :
    ((frames.flatMap PcmFrame.pcm).length : ℚ) / (2 * engineSampleRate) =
      (frames.map PcmFrame.duration).sum := by
  induction frames with
  | nil => simp
  | cons frame rest ih =>
      obtain ⟨first, later⟩ := List.forall_mem_cons.mp inbound
      obtain ⟨plainFirst, plainLater⟩ := List.forall_mem_cons.mp plain
      rw [List.flatMap_cons, List.length_append, Nat.cast_add, add_div, ih later plainLater,
        List.map_cons, List.sum_cons, duration_plain first plainFirst]

/-! ### Main result -/

/-- **When the taps agree.**  For every sequence of frames that the bridge accepts, the AI
tracks of the two paths agree if and only if each frame is empty or came at 16 kHz mono. -/
theorem taps_agree_iff (np : Numpy) (peerUid callId : String) (r : Recorder)
    (frames : List PcmFrame) (inbound : ∀ frame ∈ frames, Inbound peerUid frame) :
    TapsAgree
        ((downstreamLoop np peerUid callId (r.beginCall callId) frames).1.aiTrack callId)
        ((devNoModemAiRecordingPump np callId (r.beginCall callId) frames).aiTrack callId) frames ↔
      ∀ frame ∈ frames, frame.pcm = [] ∨ frame.EngineMono := by
  have records := r.records_beginCall callId
  rw [aiTrack_downstreamLoop records inbound, aiTrack_pump records inbound, r.aiTrack_beginCall,
    List.nil_append, List.nil_append]
  constructor
  · intro agrees frame member
    by_contra other
    obtain ⟨some_, shrinks⟩ := not_or.mp other
    have fewer : (frames.map PcmFrame.engineBytes).sum <
        (frames.map fun f => f.pcm.length).sum := by
      refine List.sum_lt_sum _ _ (fun f listed => ?_)
        ⟨frame, member, engineBytes_lt (inbound frame member) some_ shrinks⟩
      by_cases plain : f.pcm = [] ∨ f.EngineMono
      · exact (engineBytes_plain (inbound f listed) plain).le
      · obtain ⟨present, slower⟩ := not_or.mp plain
        exact (engineBytes_lt (inbound f listed) present slower).le
    have same := agrees.sameLength.trans agrees.timed
    rw [List.length_flatMap] at same
    exact fewer.ne' same
  · intro plain
    have same : frames.flatMap (devBytes np) = frames.flatMap PcmFrame.pcm :=
      List.flatMap_congr fun f member => devBytes_engineMono (inbound f member) (plain f member)
    rw [same]
    refine ⟨rfl, ?_, fun _ => rfl, ?_⟩
    · rw [List.length_flatMap]
      exact congrArg List.sum (List.map_congr_left fun f member =>
        (engineBytes_plain (inbound f member) (plain f member)).symm)
    · rw [seconds_plain inbound plain, sub_self, abs_zero]
      positivity

/-! ## Poles -/

/-- An interpolation that holds the first sample. -/
def held : Numpy where
  interp := fun points samples => points.map fun _ => samples.headD 0
  length_interp := fun _ _ => List.length_map _

/-- Two samples, 1000 and 3000, as the engine sends them. -/
def engineFrame : PcmFrame :=
  { senderUid := "engine", pcm := [232, 3, 184, 11], sampleRate := 16000, channels := 1 }

theorem engine_frame_agrees :
    TapsAgree
      ((downstreamLoop held "engine" "call" (({} : Recorder).beginCall "call")
        [engineFrame]).1.aiTrack "call")
      ((devNoModemAiRecordingPump held "call" (({} : Recorder).beginCall "call")
        [engineFrame]).aiTrack "call") [engineFrame] := by
  refine (taps_agree_iff held "engine" "call" {} [engineFrame] fun f member => ?_).mpr
    fun f member => ?_
  · obtain rfl := List.mem_singleton.mp member
    exact ⟨.inr rfl, by decide, by decide, .inl rfl, by decide⟩
  · obtain rfl := List.mem_singleton.mp member
    exact .inr ⟨rfl, rfl⟩

/-- Three samples of both channels at 48 kHz, as the SDK delivers them. -/
def playbackFrame : PcmFrame :=
  { senderUid := "", pcm := [0, 0, 232, 3, 0, 0, 232, 3, 0, 0, 232, 3], sampleRate := 48000,
    channels := 2 }

/-- **A track six times too long.**  The modem path appends all twelve bytes for one sample
at 16 kHz. -/
theorem playback_frame_disagrees :
    ¬ ∀ (np : Numpy) (peerUid callId : String) (r : Recorder) (frames : List PcmFrame),
      (∀ frame ∈ frames, Inbound peerUid frame) →
        TapsAgree
          ((downstreamLoop np peerUid callId (r.beginCall callId) frames).1.aiTrack callId)
          ((devNoModemAiRecordingPump np callId (r.beginCall callId) frames).aiTrack callId)
          frames := by
  intro claim
  have all : ∀ frame ∈ [playbackFrame], Inbound "engine" frame := fun f member => by
    obtain rfl := List.mem_singleton.mp member
    exact ⟨.inl rfl, by decide, by decide, .inr rfl, by decide⟩
  have agrees := claim held "engine" "call" {} [playbackFrame] all
  have counted := agrees.sameLength.trans agrees.timed
  rw [aiTrack_downstreamLoop (Recorder.records_beginCall _ _) all, Recorder.aiTrack_beginCall,
    List.nil_append, List.flatMap_singleton, List.map_singleton, List.sum_singleton] at counted
  have shorter : playbackFrame.engineBytes < playbackFrame.pcm.length :=
    engineBytes_lt (all _ (List.mem_singleton_self _)) (by decide) (by decide)
  exact shorter.ne' counted

end IsalesTelephony.Audio
