/-
# Audio.Downstream -- the channel's audio on its way to the modem

`AudioBridge._downstream_loop` frame by frame: it drops the frames of other users, taps the
rest into the recording, converts them to 8 kHz mono and puts them on the downstream ring,
from which the playback takes them meanwhile.

`toModem` is the conversion.  Of a frame at a multiple of 8 kHz it keeps every so many-th
sample, the mean of the channels if there are two (`converted_toModem`), so as long as the
ring is open it is offered the conversions of the frames accepted (`downstream_converts`).
-/
import IsalesTelephony.Audio.RecordingTaps
import IsalesTelephony.Audio.RingBuffer
import Mathlib.Data.List.Forall2

namespace IsalesTelephony.Audio

set_option autoImplicit false

open IsalesTelephony.Theory
open IsalesTelephony.Theory.Transition

/-! ## The loop -/

/-- Why `_downstream_loop` ended. -/
inductive DownEnd where
  /-- `put` raised -/
  | ringClosed
  | cancelled
  /-- the conversion raised, which is logged -/
  | unexpected
  deriving DecidableEq

structure Downstream where
  log : Traffic
  ended : Option DownEnd := none
  recorder : Recorder := {}
  recordCallId : Option String := none
  downstreamUidFiltered : Nat := 0
  downstreamChunks : Nat := 0
  downstreamBytes : Nat := 0
  /-- history: the frames received -/
  frames : List PcmFrame := []

inductive DownAction where
  | frame (frame : PcmFrame)
  /-- another task uses the ring -/
  | ring (action : RingAction)
  | cancel

/-- `frame.sender_uid` is empty or the peer's. -/
def Accepts (peerUid : String) (frame : PcmFrame) : Prop :=
  frame.senderUid = "" ∨ frame.senderUid = peerUid

instance (peerUid : String) (frame : PcmFrame) : Decidable (Accepts peerUid frame) :=
  inferInstanceAs (Decidable (_ ∨ _))

namespace Downstream

/-- The body of the loop. -/
def receive (np : Numpy) (peerUid : String) (s : Downstream) (frame : PcmFrame) : Downstream :=
  let s := { s with frames := s.frames ++ [frame] }
  if frame.senderUid ≠ "" ∧ frame.senderUid ≠ peerUid then
    { s with downstreamUidFiltered := s.downstreamUidFiltered + 1 }
  else
    let s := { s with recorder := match s.recordCallId with
                        | some callId => s.recorder.appendAi callId frame.pcm
                        | none => s.recorder }
    match toModem np frame with
    | none => { s with ended := some .unexpected }
    | some resampled =>
        let s := { s with log := s.log.put resampled }
        if s.log.ring.closed then { s with ended := some .ringClosed }
        else
          { s with
            downstreamChunks := s.downstreamChunks + 1
            downstreamBytes := s.downstreamBytes + resampled.length }

def step (np : Numpy) (peerUid : String) (s : Downstream) : DownAction → Option Downstream
  | .frame frame => if s.ended = none then some (s.receive np peerUid frame) else none
  -- only the loop puts
  | .ring (.put _) => none
  | .ring action => (s.log.step action).map fun log => { s with log := log }
  | .cancel => if s.ended = none then some { s with ended := some .cancelled } else none

end Downstream

/-! ## What a frame is converted to -/

namespace PcmFrame

/-- Its rate is a multiple of the modem's, and it holds whole samples of one or two channels. -/
structure WellFormed (frame : PcmFrame) : Prop where
  rate_pos : 0 < frame.sampleRate
  rate : 8000 ∣ frame.sampleRate
  channels : frame.channels = 1 ∨ frame.channels = 2
  whole : 2 * frame.channels ∣ frame.pcm.length

/-- The sample at an index, channels interleaved. -/
def sampleAt (frame : PcmFrame) (i : Nat) : Int :=
  sample (frame.pcm.getD (2 * i) 0) (frame.pcm.getD (2 * i + 1) 0)

/-- The mono sample, or the mean of left and right rounded down. -/
def monoAt (frame : PcmFrame) (i : Nat) : Int :=
  if frame.channels = 2 then (frame.sampleAt (2 * i) + frame.sampleAt (2 * i + 1)) / 2
  else frame.sampleAt i

/-- One sample out of how many is kept. -/
def factor (frame : PcmFrame) : Nat := frame.sampleRate / 8000

end PcmFrame

/-- The chunk holds every `factor`-th sample of the frame. -/
structure Converted (frame : PcmFrame) (chunk : Pcm) (samples : List Int) : Prop where
  read : frombuffer chunk = some samples
  length : samples.length = ⌈(frame.samplesPerChannel : ℚ) / frame.factor⌉₊
  values : ∀ i < samples.length, samples[i]? = some (frame.monoAt (i * frame.factor))
  fits : ∀ s ∈ samples, -32768 ≤ s ∧ s ≤ 32767

/-- A chunk is the conversion of a frame. -/
def IsConversion (frame : PcmFrame) (chunk : Pcm) : Prop := ∃ samples, Converted frame chunk samples

/-- What the ring is offered and what is counted, of the frames received. -/
structure Downlinks (peerUid : String) (s : Downstream) : Prop where
  offered : List.Forall₂ IsConversion (s.frames.filter (Accepts peerUid)) s.log.offeredOpen
  filtered : s.downstreamUidFiltered = (s.frames.filter fun f => ¬ Accepts peerUid f).length
  /-- no frame ends the loop -/
  goesOn : s.ended = none ∨ s.ended = some .cancelled

variable {np : Numpy} {frame : PcmFrame} {peerUid : String}

theorem lt_length_strideFrom {step : Nat} (pos : 0 < step) {skip i : Nat} {xs : List Int} :
    i < (strideFrom step skip xs).length ↔ skip + i * step < xs.length := by
  rw [← Nat.not_le, ← Nat.not_le, ← List.getElem?_eq_none_iff, ← List.getElem?_eq_none_iff,
    getElem?_strideFrom pos]

/-- A frame's samples before the stride. -/
structure Mono (frame : PcmFrame) (mono : List Int) : Prop where
  length : mono.length = frame.samplesPerChannel
  values : ∀ i < mono.length, mono[i]? = some (frame.monoAt i)
  fits : ∀ s ∈ mono, -32768 ≤ s ∧ s ≤ 32767

theorem mono_one {pcmArr : List Int} (read : frombuffer frame.pcm = some pcmArr)
    (one : frame.channels = 1) : Mono frame pcmArr := by
  refine ⟨?_, fun i inside => ?_, frombuffer_bounds read⟩
  · rw [PcmFrame.samplesPerChannel, one, frombuffer_length read]
    omega
  · rw [getElem?_frombuffer read i inside, PcmFrame.monoAt, if_neg (by omega)]
    rfl

/-- Left and right have as many samples as the frame has for each channel. -/
theorem length_channel {pcmArr : List Int} (read : frombuffer frame.pcm = some pcmArr)
    (stereo : frame.channels = 2) (whole : 2 * frame.channels ∣ frame.pcm.length)
    (channel : Nat) (isChannel : channel < 2) :
    (strideFrom 2 channel pcmArr).length = frame.samplesPerChannel := by
  have length := frombuffer_length read
  rw [stereo] at whole
  refine eq_of_forall_lt_iff fun i => ?_
  rw [lt_length_strideFrom (by decide), PcmFrame.samplesPerChannel, stereo]
  omega

theorem average_fits {left right : Int} (fitsLeft : -32768 ≤ left ∧ left ≤ 32767)
    (fitsRight : -32768 ≤ right ∧ right ≤ 32767) :
    -32768 ≤ average left right ∧ average left right ≤ 32767 := by
  unfold average
  omega

theorem mono_two {pcmArr : List Int} (read : frombuffer frame.pcm = some pcmArr)
    (stereo : frame.channels = 2) (whole : 2 * frame.channels ∣ frame.pcm.length) :
    Mono frame (List.zipWith average (strideFrom 2 0 pcmArr) (strideFrom 2 1 pcmArr)) := by
  have left := length_channel read stereo whole 0 (by decide)
  have right := length_channel read stereo whole 1 (by decide)
  have both : (List.zipWith average (strideFrom 2 0 pcmArr) (strideFrom 2 1 pcmArr)).length =
      frame.samplesPerChannel := by
    rw [List.length_zipWith, left, right, Nat.min_self]
  refine ⟨both, fun i inside => ?_, fun s member => ?_⟩
  · rw [both] at inside
    have inLeft := (lt_length_strideFrom (by decide)).mp (left ▸ inside)
    have inRight := (lt_length_strideFrom (by decide)).mp (right ▸ inside)
    have first : 0 + i * 2 = 2 * i := by omega
    have second : 1 + i * 2 = 2 * i + 1 := by omega
    rw [first] at inLeft
    rw [second] at inRight
    rw [List.getElem?_zipWith, getElem?_strideFrom (by decide), getElem?_strideFrom (by decide),
      first, second, getElem?_frombuffer read _ inLeft, getElem?_frombuffer read _ inRight,
      PcmFrame.monoAt, if_pos stereo]
    rfl
  · obtain ⟨i, at_⟩ := List.mem_iff_getElem?.mp member
    rw [List.getElem?_zipWith] at at_
    split at at_
    · rename_i l r atLeft atRight
      obtain rfl := Option.some.inj at_
      have fits := frombuffer_bounds read
      exact average_fits
        (fits l (mem_of_mem_strideFrom (by decide) (List.mem_of_getElem? atLeft)))
        (fits r (mem_of_mem_strideFrom (by decide) (List.mem_of_getElem? atRight)))
    · cases at_

/-- A stride over the mono samples is the conversion. -/
theorem converted_of_mono {mono : List Int} (wellFormed : frame.WellFormed)
    (isMono : Mono frame mono) {chunk : Pcm}
    (written : chunk = tobytes (strideFrom frame.factor 0 mono)) :
    Converted frame chunk (strideFrom frame.factor 0 mono) := by
  have pos : 0 < frame.factor := by
    obtain ⟨k, rate⟩ := wellFormed.rate
    have := wellFormed.rate_pos
    unfold PcmFrame.factor
    omega
  have fits : ∀ s ∈ strideFrom frame.factor 0 mono, -32768 ≤ s ∧ s ≤ 32767 :=
    fun s member => isMono.fits s (mem_of_mem_strideFrom pos member)
  refine ⟨written ▸ frombuffer_tobytes fits, ?_, fun i inside => ?_, fits⟩
  · refine eq_of_forall_lt_iff fun i => ?_
    have rational : (0 : ℚ) < frame.factor := Nat.cast_pos.mpr pos
    rw [lt_length_strideFrom pos, Nat.lt_ceil, lt_div_iff₀ rational, isMono.length, Nat.zero_add]
    exact_mod_cast Iff.rfl
  · have inside := (lt_length_strideFrom pos).mp inside
    rw [Nat.zero_add] at inside
    rw [getElem?_strideFrom pos, Nat.zero_add]
    exact isMono.values _ inside

theorem strideFrom_one : ∀ xs : List Int, strideFrom 1 0 xs = xs
  | [] => rfl
  | x :: rest => by rw [strideFrom, strideFrom_one rest]

/-- **The conversion.** -/
theorem converted_toModem (np : Numpy) (wellFormed : frame.WellFormed) :
    ∃ chunk, toModem np frame = some chunk ∧ IsConversion frame chunk := by
  have even : 2 ∣ frame.pcm.length := (Nat.dvd_mul_right 2 frame.channels).trans wellFormed.whole
  obtain ⟨pcmArr, read⟩ := frombuffer_even even
  obtain ⟨mono, mixed, isMono⟩ : ∃ mono, (if frame.channels = 2 then
      broadcast average (strideFrom 2 0 pcmArr) (strideFrom 2 1 pcmArr)
      else some pcmArr) = some mono ∧ Mono frame mono := by
    rcases wellFormed.channels with one | stereo
    · exact ⟨pcmArr, if_neg (by omega), mono_one read one⟩
    · refine ⟨_, ?_, mono_two read stereo wellFormed.whole⟩
      rw [if_pos stereo]
      exact broadcast_zipWith ((length_channel read stereo wellFormed.whole 0 (by decide)).trans
        (length_channel read stereo wellFormed.whole 1 (by decide)).symm)
  refine ⟨tobytes (strideFrom frame.factor 0 mono), ?_, _, converted_of_mono wellFormed isMono rfl⟩
  have rate : frame.sampleRate % 8000 = 0 := Nat.mod_eq_zero_of_dvd wellFormed.rate
  simp only [toModem, read, Option.bind_some, mixed, if_neg wellFormed.rate_pos.ne', rate, if_true]
  by_cases same : frame.sampleRate = 8000
  · rw [if_pos same, PcmFrame.factor, same]
    exact congrArg (fun samples => some (tobytes samples)) (strideFrom_one mono).symm
  · rw [if_neg same]
    rfl

/-! ## One step -/

namespace Downstream

variable {s t : Downstream} {action : DownAction}

/-- The frames from the channel are well formed. -/
def FrameOk (_ : Downstream) : DownAction → Prop
  | .frame frame => frame.WellFormed
  | _ => True

/-- What holds of a ring that is open: the loop has put what the accepted frames make. -/
structure Offers (np : Numpy) (peerUid : String) (s : Downstream) : Prop where
  offered : (s.frames.filter (Accepts peerUid)).map (toModem np) = s.log.offeredOpen.map some
  filtered : s.downstreamUidFiltered = (s.frames.filter fun f => ¬ Accepts peerUid f).length
  goesOn : s.ended = none ∨ s.ended = some .cancelled

/-- What holds in every state. -/
structure Sound (np : Numpy) (peerUid : String) (s : Downstream) : Prop where
  accounts : Traffic.Accounts s.log
  wellFormed : ∀ f ∈ s.frames, f.WellFormed
  offers : s.log.ring.closed = false → Offers np peerUid s

theorem not_accepts : (frame.senderUid ≠ "" ∧ frame.senderUid ≠ peerUid) ↔ ¬ Accepts peerUid frame := by
  unfold Accepts
  tauto

theorem filter_snoc_of_not {accepts : PcmFrame → Bool} {frames : List PcmFrame}
    (not : accepts frame = false) :
    (frames ++ [frame]).filter accepts = frames.filter accepts := by
  rw [List.filter_append, List.filter_singleton, not]
  exact List.append_nil _

theorem filter_snoc {accepts : PcmFrame → Bool} {frames : List PcmFrame}
    (accepted : accepts frame = true) :
    (frames ++ [frame]).filter accepts = frames.filter accepts ++ [frame] := by
  rw [List.filter_append, List.filter_singleton, accepted]
  rfl

/-- A frame of another user. -/
theorem receive_other (other : ¬ Accepts peerUid frame) :
    s.receive np peerUid frame =
      { s with frames := s.frames ++ [frame],
               downstreamUidFiltered := s.downstreamUidFiltered + 1 } := by
  rw [receive, if_pos (not_accepts.mpr other)]

theorem sound_receive (sound : Sound np peerUid s) (running : s.ended = none)
    (wellFormed : frame.WellFormed) : Sound np peerUid (s.receive np peerUid frame) := by
  have all : ∀ f ∈ s.frames ++ [frame], f.WellFormed := fun f member => by
    rcases List.mem_append.mp member with old | new
    · exact sound.wellFormed f old
    · rw [List.mem_singleton.mp new]
      exact wellFormed
  by_cases accepted : Accepts peerUid frame
  · obtain ⟨chunk, converts, -⟩ := converted_toModem np wellFormed
    have closes := Traffic.closed_moves (Traffic.moves_put sound.accounts.counted chunk)
    have accounts := Traffic.accounts_moves sound.accounts
      (Traffic.moves_put sound.accounts.counted chunk)
    have notOther : ¬ (frame.senderUid ≠ "" ∧ frame.senderUid ≠ peerUid) := fun other =>
      not_accepts.mp other accepted
    rw [receive, if_neg notOther]
    simp only [converts]
    split
    · rename_i closed
      exact ⟨accounts, all, fun isOpen => absurd (closed.symm.trans isOpen) nofun⟩
    · rename_i isOpen
      have wasOpen : s.log.ring.closed = false :=
        Bool.eq_false_of_not_eq_true fun closed => isOpen (closes closed)
      have offers := sound.offers wasOpen
      refine ⟨accounts, all, fun _ => ⟨?_, ?_, .inl running⟩⟩
      · have offered : (s.log.put chunk).offeredOpen = s.log.offeredOpen ++ [chunk] :=
          Traffic.offered_open chunk (by rw [Traffic.offers_put, wasOpen])
        rw [offered, filter_snoc (decide_eq_true accepted), List.map_append, List.map_append,
          offers.offered]
        exact congrArg (fun form => s.log.offeredOpen.map some ++ [form]) converts
      · rw [filter_snoc_of_not (by simp [accepted])]
        exact offers.filtered
  · rw [receive_other accepted]
    refine ⟨sound.accounts, all, fun isOpen => ?_⟩
    have offers := sound.offers isOpen
    refine ⟨?_, ?_, offers.goesOn⟩
    · rw [filter_snoc_of_not (decide_eq_false accepted)]
      exact offers.offered
    · rw [filter_snoc (by simp [accepted]), List.length_append, offers.filtered]
      rfl

theorem sound_step (sound : Sound np peerUid s) (ok : s.FrameOk action)
    (ran : s.step np peerUid action = some t) : Sound np peerUid t := by
  cases action with
  | frame frame =>
      simp only [step] at ran
      split at ran
      · rename_i running
        obtain rfl := Option.some.inj ran
        exact sound_receive sound running ok
      · cases ran
  | ring action =>
      have aside : ∀ chunk, action ≠ .put chunk := by
        rintro chunk rfl
        cases ran
      have ran : (s.log.step action).map (fun log => { s with log := log }) = some t := by
        cases action with
        | put chunk => exact absurd rfl (aside chunk)
        | _ => exact ran
      obtain ⟨log, moved, rfl⟩ := Option.map_eq_some_iff.mp ran
      have moves := Traffic.step_cases sound.accounts.counted moved
      refine ⟨Traffic.accounts_moves sound.accounts moves, sound.wellFormed, fun isOpen => ?_⟩
      have offers := sound.offers (Bool.eq_false_of_not_eq_true fun closed =>
        absurd ((Traffic.closed_moves moves closed).symm.trans isOpen) nofun)
      have same : log.offeredOpen = s.log.offeredOpen := by
        rw [Traffic.offeredOpen, Traffic.offers_moves moves aside]
        rfl
      exact ⟨by rw [same]; exact offers.offered, offers.filtered, offers.goesOn⟩
  | cancel =>
      simp only [step] at ran
      split at ran
      · obtain rfl := Option.some.inj ran
        exact ⟨sound.accounts, sound.wellFormed, fun isOpen =>
          ⟨(sound.offers isOpen).offered, (sound.offers isOpen).filtered, .inr rfl⟩⟩
      · cases ran

/-! ### Main result -/

theorem forall₂_converted (np : Numpy) : ∀ {frames : List PcmFrame} {chunks : List Pcm},
    (∀ f ∈ frames, f.WellFormed) → frames.map (toModem np) = chunks.map some →
      List.Forall₂ IsConversion frames chunks
  | [], chunks, _, same => by
      obtain rfl := List.map_eq_nil_iff.mp same.symm
      exact .nil
  | frame :: rest, [], _, same => by cases same
  | frame :: rest, chunk :: chunks, wellFormed, same => by
      obtain ⟨first, later⟩ := List.forall_mem_cons.mp wellFormed
      obtain ⟨here, there⟩ := List.cons.inj same
      obtain ⟨other, converts, conversion⟩ := converted_toModem np first
      obtain rfl := Option.some.inj (converts.symm.trans here)
      exact .cons conversion (forall₂_converted np later there)

theorem downlinks_of_sound (sound : Sound np peerUid s) (isOpen : s.log.ring.closed = false) :
    Downlinks peerUid s := by
  have offers := sound.offers isOpen
  refine ⟨forall₂_converted np (fun f member => ?_) offers.offered, offers.filtered, offers.goesOn⟩
  exact sound.wellFormed f (List.mem_filter.mp member).1

/-- The frames that `downstreamLoop` converts are those accepted. -/
theorem map_downstreamLoop (callId : String) : ∀ {frames : List PcmFrame} (r : Recorder),
    (∀ f ∈ frames, f.WellFormed) →
      (downstreamLoop np peerUid callId r frames).2.map some =
        (frames.filter (Accepts peerUid)).map (toModem np)
  | [], _, _ => rfl
  | frame :: rest, r, wellFormed => by
      obtain ⟨first, later⟩ := List.forall_mem_cons.mp wellFormed
      by_cases accepted : Accepts peerUid frame
      · have notOther : ¬ (frame.senderUid ≠ "" ∧ frame.senderUid ≠ peerUid) := fun other =>
          not_accepts.mp other accepted
        obtain ⟨chunk, converts, -⟩ := converted_toModem np first
        rw [downstreamLoop, if_neg notOther, List.filter_cons, if_pos (decide_eq_true accepted),
          List.map_cons, converts, ← map_downstreamLoop callId _ later]
        rfl
      · rw [downstreamLoop, if_pos (not_accepts.mpr accepted), List.filter_cons,
          if_neg (by simp [accepted]), map_downstreamLoop callId r later]

variable (capacity : Nat) (positive : 0 < capacity) (name : String) (r : Recorder)

/-- The bridge of a call, about to run. -/
def started (recordCallId : Option String) : Downstream where
  log := { ring := { capacity := capacity, positive := positive, name := name } }
  recorder := r
  recordCallId := recordCallId

theorem sound_started (recordCallId : Option String) :
    Sound np peerUid (started capacity positive name r recordCallId) :=
  ⟨Traffic.accounts_init capacity positive name, (fun _ member => by cases member),
    fun _ => ⟨rfl, rfl, .inl rfl⟩⟩

/-- **Downstream.**  In every run of well-formed frames, while the ring is open it has been
offered the conversions of the frames accepted, in order, and the others are counted. -/
theorem downstream_converts (np : Numpy) (peerUid : String) (recordCallId : Option String) :
    ∀ s, Reachable (step np peerUid) FrameOk
        (started capacity positive name r recordCallId) s →
      s.log.ring.closed = false → Downlinks peerUid s := by
  intro s run isOpen
  have sound := run.invariant (P := Sound np peerUid)
    (sound_started capacity positive name r recordCallId)
    fun _ _ _ sound ok ran => sound_step sound ok ran
  exact downlinks_of_sound sound isOpen

/-- The loop run at once gives the ring the same. -/
theorem offered_eq_downstreamLoop (callId : String) {recordCallId : Option String}
    (run : Reachable (step np peerUid) FrameOk (started capacity positive name r recordCallId) s)
    (isOpen : s.log.ring.closed = false) :
    s.log.offeredOpen = (downstreamLoop np peerUid callId r s.frames).2 := by
  have sound := run.invariant (P := Sound np peerUid)
    (sound_started capacity positive name r recordCallId)
    fun _ _ _ sound ok ran => sound_step sound ok ran
  have same := (map_downstreamLoop callId r sound.wellFormed).trans (sound.offers isOpen).offered
  exact (List.map_injective_iff.mpr (Option.some_injective _) same).symm

instance (frame : PcmFrame) : Decidable frame.WellFormed :=
  decidable_of_iff (0 < frame.sampleRate ∧ 8000 ∣ frame.sampleRate ∧
      (frame.channels = 1 ∨ frame.channels = 2) ∧ 2 * frame.channels ∣ frame.pcm.length)
    ⟨fun ⟨pos, rate, channels, whole⟩ => ⟨pos, rate, channels, whole⟩,
      fun ⟨pos, rate, channels, whole⟩ => ⟨pos, rate, channels, whole⟩⟩

instance (s : Downstream) (action : DownAction) : Decidable (s.FrameOk action) := by
  cases action <;> unfold FrameOk <;> infer_instance

/-- A frame of the SDK, one of another user, and one as the engine sends it, while the
playback takes what is there. -/
def session : List DownAction :=
  [.ring (.get 0), .frame playbackFrame, .ring (.wake 0),
    .frame { engineFrame with senderUid := "eavesdropper" }, .frame engineFrame]

theorem session_runs :
    (guardedRun (step held "engine") FrameOk
      (started 16384 (by decide) "modem_downstream" {} none) session).isSome = true := by decide

theorem session_converts :
    let s := (guardedRun (step held "engine") FrameOk _ session).get session_runs
    Downlinks "engine" s ∧ s.downstreamUidFiltered = 1 ∧
      s.log.offeredOpen = [[244, 1], [232, 3]] :=
  ⟨downstream_converts 16384 (by decide) "modem_downstream" {} held "engine" none _
      (reachable_guarded_get session_runs) (by decide), by decide, by decide⟩

end Downstream

end IsalesTelephony.Audio
