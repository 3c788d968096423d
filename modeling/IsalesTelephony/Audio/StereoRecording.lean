/-
# Audio.StereoRecording -- the calls of a recorder and the files they leave

`Recorder.finalize` and `_write_stereo_wav` of `modem_controller/recorder.py`, and a recorder
whose methods are called in any order and for any calls.

The tracks of a call are what was appended for it since it began, whatever happens to the
other calls meanwhile (`recorded_of_reachable`).  The two channels of its file are the two
tracks, the shorter one followed by silence (`stereoWav_channels`).  The lengths in the
header of a WAV file have 32 bits, and longer tracks are lost.
-/
import IsalesTelephony.Audio.Recorder
import IsalesTelephony.Theory.History
import IsalesTelephony.Theory.Transition

namespace IsalesTelephony.Audio

set_option autoImplicit false

open IsalesTelephony.Theory IsalesTelephony.Theory.Transition

/-! ## The file -/

/-- A file of the `wave` module. -/
structure WavFile where
  nchannels : Nat
  sampwidth : Nat
  framerate : Nat
  frames : Pcm
  deriving DecidableEq, Repr

/-- What `_write_stereo_wav` raises: numpy's `ValueError` for half a sample, and the
`struct.error` for a length that the header does not hold. -/
inductive WavError where
  | valueError
  | structError
  deriving DecidableEq, Repr

/-- `interleaved[0::2] = left` and `interleaved[1::2] = right`. -/
def interleave : List Int → List Int → List Int
  | l :: left, r :: right => l :: r :: interleave left right
  | _, _ => []

/-- `wav.writeframes`, with the header it packs first. -/
def writeframes (frames : Pcm) : Except WavError WavFile :=
  if 36 + frames.length < 2 ^ 32 then .ok ⟨2, 2, engineSampleRate, frames⟩ else .error .structError

/-- The file that `_write_stereo_wav` writes. -/
def stereoWav (leftChunks rightChunks : List Pcm) : Except WavError WavFile :=
  let left := leftChunks.flatten
  let right := rightChunks.flatten
  let silence (n : Nat) : Pcm := List.replicate n 0
  let padded :=
    if left.length < right.length then (left ++ silence (right.length - left.length), right)
    else if right.length < left.length then (left, right ++ silence (left.length - right.length))
    else (left, right)
  match frombuffer padded.1, frombuffer padded.2 with
  | some leftArr, some rightArr => writeframes (tobytes (interleave leftArr rightArr))
  | _, _ => .error .valueError

/-- The files of the output directory, by name. -/
abbrev Disk := List (String × WavFile)

/-- What `finalize` comes back with. -/
inductive Finalized where
  | none
  | path (path : String)
  | raised (error : WavError)
  deriving DecidableEq, Repr

def Recorder.finalize (r : Recorder) (disk : Disk) (callId : String) : Recorder × Disk × Finalized :=
  match r.tracks.lookup callId with
  | none => (r, disk, .none)
  | some track =>
      let r : Recorder := { r with tracks := Dict.erase r.tracks callId }
      let path := callId ++ ".wav"
      match stereoWav track.userChunks track.aiChunks with
      | .ok file => (r, Dict.put disk path file, .path path)
      | .error .valueError => (r, disk, .raised .valueError)
      -- the file has been opened for writing by the time the header is packed
      | .error .structError => (r, Dict.erase disk path, .raised .structError)

/-! ## Its channels -/

theorem strideFrom_interleave_left : ∀ {left right : List Int}, left.length = right.length →
    strideFrom 2 0 (interleave left right) = left
  | [], _, _ => rfl
  | _ :: _, [], same => by cases same
  | _ :: _, _ :: _, same => by
      simp [interleave, strideFrom, strideFrom_interleave_left (Nat.succ.inj same)]

theorem strideFrom_interleave_right : ∀ {left right : List Int}, left.length = right.length →
    strideFrom 2 1 (interleave left right) = right
  | [], [], _ => rfl
  | [], _ :: _, same => by cases same
  | _ :: _, [], same => by cases same
  | _ :: _, _ :: _, same => by
      simp [interleave, strideFrom, strideFrom_interleave_right (Nat.succ.inj same)]

theorem mem_interleave {x : Int} : ∀ {left right : List Int}, x ∈ interleave left right →
    x ∈ left ∨ x ∈ right
  | [], _, member => by cases member
  | _ :: _, [], member => by cases member
  | l :: left, r :: right, member => by
      rcases List.mem_cons.mp member with rfl | member
      · exact .inl List.mem_cons_self
      rcases List.mem_cons.mp member with rfl | member
      · exact .inr List.mem_cons_self
      · exact (mem_interleave member).imp (List.mem_cons_of_mem _) (List.mem_cons_of_mem _)

theorem length_interleave : ∀ {left right : List Int}, left.length = right.length →
    (interleave left right).length = 2 * left.length
  | [], _, _ => rfl
  | _ :: _, [], same => by cases same
  | _ :: _, _ :: _, same => by
      simp [interleave, length_interleave (Nat.succ.inj same), Nat.mul_succ]

/-- Zero bytes are zero samples. -/
theorem frombuffer_silence : ∀ {pcm : Pcm} {samples : List Int}, frombuffer pcm = some samples →
    ∀ n, frombuffer (pcm ++ List.replicate (2 * n) 0) = some (samples ++ List.replicate n 0)
  | [], samples, read, n => by
      obtain rfl := Option.some.inj read
      induction n with
      | zero => rfl
      | succ n ih =>
          have two : 2 * (n + 1) = 2 * n + 1 + 1 := by omega
          rw [List.nil_append, List.nil_append] at ih ⊢
          rw [two, List.replicate_succ, List.replicate_succ, frombuffer, ih]
          rfl
  | [_], samples, read, n => by cases read
  | lo :: hi :: rest, samples, read, n => by
      obtain ⟨later, readRest, rfl⟩ := Option.map_eq_some_iff.mp read
      rw [List.cons_append, List.cons_append, frombuffer, frombuffer_silence readRest n]
      rfl

/-- A 16 kHz stereo file of 16-bit samples, with its two channels. -/
structure WavFile.Plays (file : WavFile) (left right : List Int) : Prop where
  nchannels : file.nchannels = 2
  sampwidth : file.sampwidth = 2
  framerate : file.framerate = engineSampleRate
  channels : ∃ samples, frombuffer file.frames = some samples ∧
    strideFrom 2 0 samples = left ∧ strideFrom 2 1 samples = right

/-- The samples followed by silence, up to a length. -/
def padTo (n : Nat) (samples : List Int) : List Int :=
  samples ++ List.replicate (n - samples.length) 0

theorem length_padTo (n : Nat) (samples : List Int) :
    (padTo n samples).length = max n samples.length := by
  simp only [padTo, List.length_append, List.length_replicate]
  omega

theorem padTo_self (samples : List Int) : padTo samples.length samples = samples := by
  simp [padTo]

theorem plays_interleave {left right : List Int} (same : left.length = right.length)
    (leftFits : ∀ s ∈ left, -32768 ≤ s ∧ s ≤ 32767) (rightFits : ∀ s ∈ right, -32768 ≤ s ∧ s ≤ 32767) :
    WavFile.Plays ⟨2, 2, engineSampleRate, tobytes (interleave left right)⟩ left right where
  nchannels := rfl
  sampwidth := rfl
  framerate := rfl
  channels := by
    refine ⟨_, frombuffer_tobytes fun s member => ?_, strideFrom_interleave_left same,
      strideFrom_interleave_right same⟩
    exact (mem_interleave member).elim (leftFits s) (rightFits s)

/-- What the two arrays of `_write_stereo_wav` hold. -/
theorem stereoWav_arrays {leftChunks rightChunks : List Pcm} {left right : List Int}
    (readLeft : frombuffer leftChunks.flatten = some left)
    (readRight : frombuffer rightChunks.flatten = some right) :
    stereoWav leftChunks rightChunks =
      writeframes (tobytes (interleave (padTo right.length left) (padTo left.length right))) := by
  have leftBytes := frombuffer_length readLeft
  have rightBytes := frombuffer_length readRight
  unfold stereoWav
  rcases Nat.lt_trichotomy left.length right.length with shorter | same | longer
  · have bytes : leftChunks.flatten.length < rightChunks.flatten.length := by omega
    have gap : rightChunks.flatten.length - leftChunks.flatten.length =
        2 * (right.length - left.length) := by omega
    have whole : padTo left.length right = right := by
      simp [padTo, Nat.sub_eq_zero_of_le (Nat.le_of_lt shorter)]
    simp only [if_pos bytes, gap, frombuffer_silence readLeft, readRight, whole]
    rfl
  · have bytes : ¬leftChunks.flatten.length < rightChunks.flatten.length := by omega
    have bytes' : ¬rightChunks.flatten.length < leftChunks.flatten.length := by omega
    simp only [if_neg bytes, if_neg bytes', readLeft, readRight]
    rw [← same, padTo_self, same, padTo_self]
  · have bytes : ¬leftChunks.flatten.length < rightChunks.flatten.length := by omega
    have bytes' : rightChunks.flatten.length < leftChunks.flatten.length := by omega
    have gap : leftChunks.flatten.length - rightChunks.flatten.length =
        2 * (left.length - right.length) := by omega
    have whole : padTo right.length left = left := by
      simp [padTo, Nat.sub_eq_zero_of_le (Nat.le_of_lt longer)]
    simp only [if_neg bytes, if_pos bytes', gap, frombuffer_silence readRight, readLeft, whole]
    rfl

theorem fits_padTo {pcm : Pcm} {samples : List Int} (read : frombuffer pcm = some samples) (n : Nat) :
    ∀ s ∈ padTo n samples, -32768 ≤ s ∧ s ≤ 32767 := by
  intro s member
  rcases List.mem_append.mp member with read' | silent
  · exact frombuffer_bounds read s read'
  · obtain rfl := List.eq_of_mem_replicate silent
    decide

/-- Both channels are as long as the longer track. -/
theorem length_tobytes_padded (left right : List Int) :
    (tobytes (interleave (padTo right.length left) (padTo left.length right))).length =
      4 * max left.length right.length := by
  have same : (padTo right.length left).length = (padTo left.length right).length := by
    simp only [length_padTo, Nat.max_comm]
  rw [length_tobytes, length_interleave same, length_padTo]
  omega

/-- **A recording.**  The channels of the file are the two tracks, the shorter padded with
silence to the longer. -/
theorem stereoWav_channels {leftChunks rightChunks : List Pcm} {left right : List Int}
    (readLeft : frombuffer leftChunks.flatten = some left)
    (readRight : frombuffer rightChunks.flatten = some right)
    (fits : 36 + 4 * max left.length right.length < 2 ^ 32) :
    ∃ file, stereoWav leftChunks rightChunks = .ok file ∧
      file.Plays (padTo right.length left) (padTo left.length right) := by
  have same : (padTo right.length left).length = (padTo left.length right).length := by
    simp only [length_padTo, Nat.max_comm]
  refine ⟨_, ?_, plays_interleave same (fits_padTo readLeft _) (fits_padTo readRight _)⟩
  rw [stereoWav_arrays readLeft readRight, writeframes, length_tobytes_padded, if_pos fits]

/-- Tracks that are too long for the header are not written. -/
theorem stereoWav_oversize {leftChunks rightChunks : List Pcm} {left right : List Int}
    (readLeft : frombuffer leftChunks.flatten = some left)
    (readRight : frombuffer rightChunks.flatten = some right)
    (beyond : 2 ^ 32 ≤ 36 + 4 * max left.length right.length) :
    stereoWav leftChunks rightChunks = .error .structError := by
  rw [stereoWav_arrays readLeft readRight, writeframes, length_tobytes_padded,
    if_neg (Nat.not_lt.mpr beyond)]

/-! ## One call among others -/

/-- What a method did, of those that returned. -/
inductive RecorderEvent where
  | began (callId : String)
  | user (callId : String) (pcm : Pcm)
  | ai (callId : String) (pcm : Pcm)
  | finalized (callId : String)
  deriving DecidableEq, Repr

def RecorderEvent.callId : RecorderEvent → String
  | .began callId | .user callId _ | .ai callId _ | .finalized callId => callId

/-- `append_user` for one call, oldest first. -/
def userAppends (callId : String) (events : List RecorderEvent) : List Pcm :=
  events.filterMap fun
    | .user c pcm => if c = callId then some pcm else none
    | _ => none

/-- `append_ai` for one call, oldest first. -/
def aiAppends (callId : String) (events : List RecorderEvent) : List Pcm :=
  events.filterMap fun
    | .ai c pcm => if c = callId then some pcm else none
    | _ => none

/-- The call has begun and is not finalized, and `later` is what has happened since. -/
def Since (callId : String) (events later : List RecorderEvent) : Prop :=
  LastSince (fun e => e = .began callId ∨ e = .finalized callId) events (.began callId) later

/-- The tracks that the events since the call began make up. -/
def Told (callId : String) (events : List RecorderEvent) (track : CallTracks) : Prop :=
  ∃ later, Since callId events later ∧ track = ⟨userAppends callId later, aiAppends callId later⟩

section
variable {callId : String} {events later : List RecorderEvent} {e : RecorderEvent} {track : CallTracks}

theorem since_snoc (began : e ≠ .began callId) (finalized : e ≠ .finalized callId) :
    Since callId (events ++ [e]) later ↔ ∃ front, later = front ++ [e] ∧ Since callId events front := by
  rw [Since, lastSince_snoc]
  constructor
  · rintro (⟨same, -⟩ | ⟨-, snoc⟩)
    · exact absurd same began
    · exact snoc
  · exact fun snoc => .inr ⟨not_or.mpr ⟨began, finalized⟩, snoc⟩

theorem told_began : Told callId (events ++ [.began callId]) track ↔ track = {} := by
  constructor
  · rintro ⟨later, since, rfl⟩
    rcases lastSince_snoc.mp since with ⟨-, rfl⟩ | ⟨other, -⟩
    · rfl
    · exact absurd (.inl rfl) other
  · rintro rfl
    exact ⟨[], lastSince_snoc.mpr (.inl ⟨rfl, rfl⟩), rfl⟩

theorem not_told_finalized : ¬Told callId (events ++ [.finalized callId]) track := by
  rintro ⟨later, since, -⟩
  rcases lastSince_snoc.mp since with ⟨began, -⟩ | ⟨other, -⟩
  · cases began
  · exact other (.inr rfl)

/-- What an event adds to the tracks of the call. -/
theorem told_snoc (began : e ≠ .began callId) (finalized : e ≠ .finalized callId) :
    Told callId (events ++ [e]) track ↔ ∃ before, Told callId events before ∧
      track = ⟨before.userChunks ++ userAppends callId [e], before.aiChunks ++ aiAppends callId [e]⟩ := by
  simp only [Told, since_snoc began finalized]
  constructor
  · rintro ⟨_, ⟨front, rfl, since⟩, rfl⟩
    exact ⟨_, ⟨front, since, rfl⟩, by simp [userAppends, aiAppends]⟩
  · rintro ⟨_, ⟨front, since, rfl⟩, rfl⟩
    exact ⟨_, ⟨front, rfl, since⟩, by simp [userAppends, aiAppends]⟩

/-- What happens to another call adds nothing. -/
theorem told_other (other : e.callId ≠ callId) :
    Told callId (events ++ [e]) track ↔ Told callId events track := by
  have began : e ≠ .began callId := by
    rintro rfl
    exact other rfl
  have finalized : e ≠ .finalized callId := by
    rintro rfl
    exact other rfl
  have nothing : userAppends callId [e] = [] ∧ aiAppends callId [e] = [] := by
    cases e <;> simp_all [userAppends, aiAppends, RecorderEvent.callId]
  rw [told_snoc began finalized, nothing.1, nothing.2]
  simp

end

/-! ## The recorder -/

/-- A call of one of the recorder's methods; `free` is what `shutil.disk_usage` says. -/
inductive RecorderCall where
  | beginCall (callId : String) (free : Nat)
  | appendUser (callId : String) (pcm : Pcm)
  | appendAi (callId : String) (pcm : Pcm)
  | finalize (callId : String)
  deriving DecidableEq, Repr

structure Recordings where
  recorder : Recorder := {}
  disk : Disk := []
  /-- What the methods did, oldest first. -/
  events : List RecorderEvent := []
  deriving DecidableEq, Repr

namespace Recordings

/-- One method after another: none of them suspends. -/
def step (minFreeBytes : Nat) (s : Recordings) : RecorderCall → Option Recordings
  | .beginCall callId free =>
      -- `DiskFullError`
      if free < minFreeBytes then some s
      else some { s with
        recorder := s.recorder.beginCall callId, events := s.events ++ [.began callId] }
  | .appendUser callId pcm => some { s with
      recorder := s.recorder.appendUser callId pcm, events := s.events ++ [.user callId pcm] }
  | .appendAi callId pcm => some { s with
      recorder := s.recorder.appendAi callId pcm, events := s.events ++ [.ai callId pcm] }
  | .finalize callId =>
      let after := s.recorder.finalize s.disk callId
      some { recorder := after.1, disk := after.2.1, events := s.events ++ [.finalized callId] }

end Recordings

theorem Recorder.tracks_finalize (r : Recorder) (disk : Disk) (callId other : String) :
    (r.finalize disk callId).1.tracks.lookup other =
      if other = callId then none else r.tracks.lookup other := by
  unfold finalize
  split
  · rename_i absent
    split
    · rename_i same
      rw [same, absent]
    · rfl
  · split <;> exact Dict.lookup_erase _ _ _

/-- What `append` does to the tracks of each call. -/
theorem Recorder.lookup_append (r : Recorder) (callId other : String)
    (chunk : CallTracks → CallTracks) :
    (r.append callId chunk).tracks.lookup other =
      if other = callId then (r.tracks.lookup callId).map chunk else r.tracks.lookup other := by
  unfold append
  split
  · rename_i track found
    rw [Dict.lookup_put, found]
    rfl
  · rename_i absent
    split
    · rename_i same
      rw [same, absent]
      rfl
    · rfl

namespace Recordings

/-- The tracks kept for each call are those that the events tell of. -/
def Sound (s : Recordings) : Prop :=
  ∀ callId track, s.recorder.tracks.lookup callId = some track ↔ Told callId s.events track

variable {minFreeBytes : Nat} {s t : Recordings} {action : RecorderCall}

/-- An append adds its chunk to the call's track, if the call has begun. -/
theorem sound_append (sound : s.Sound) {e : RecorderEvent} {chunk : CallTracks → CallTracks}
    (began : e ≠ .began e.callId) (finalized : e ≠ .finalized e.callId)
    (adds : ∀ track, chunk track =
      ⟨track.userChunks ++ userAppends e.callId [e], track.aiChunks ++ aiAppends e.callId [e]⟩) :
    Sound { s with recorder := s.recorder.append e.callId chunk, events := s.events ++ [e] } := by
  intro callId track
  rw [Recorder.lookup_append]
  by_cases same : callId = e.callId
  · subst same
    rw [if_pos rfl, Option.map_eq_some_iff, told_snoc began finalized]
    constructor
    · rintro ⟨before, found, rfl⟩
      exact ⟨before, (sound _ before).mp found, adds before⟩
    · rintro ⟨before, told, rfl⟩
      exact ⟨before, (sound _ before).mpr told, adds before⟩
  · rw [if_neg same, told_other (Ne.symm same)]
    exact sound callId track

theorem sound_step (sound : s.Sound) (ran : step minFreeBytes s action = some t) : t.Sound := by
  cases action with
  | beginCall begun free =>
      simp only [step] at ran
      split at ran
      · obtain rfl := Option.some.inj ran
        exact sound
      · obtain rfl := Option.some.inj ran
        intro callId track
        rw [Recorder.beginCall, Dict.lookup_put]
        by_cases same : callId = begun
        · subst same
          rw [if_pos rfl, told_began, Option.some.injEq, eq_comm]
        · rw [if_neg same, told_other (Ne.symm same)]
          exact sound callId track
  | appendUser heard pcm =>
      obtain rfl := Option.some.inj ran
      exact sound_append (e := .user heard pcm) sound (by simp) (by simp) fun track => by
        simp [userAppends, aiAppends, RecorderEvent.callId]
  | appendAi heard pcm =>
      obtain rfl := Option.some.inj ran
      exact sound_append (e := .ai heard pcm) sound (by simp) (by simp) fun track => by
        simp [userAppends, aiAppends, RecorderEvent.callId]
  | finalize ended =>
      obtain rfl := Option.some.inj ran
      intro callId track
      rw [Recorder.tracks_finalize]
      by_cases same : callId = ended
      · subst same
        simp only [if_true, not_told_finalized, reduceCtorEq]
      · rw [if_neg same, told_other (Ne.symm same)]
        exact sound callId track

theorem recorded_of_reachable (run : Reachable (step minFreeBytes) Free {} s) : s.Sound := by
  refine run.invariant (P := Sound) ?_ fun _ _ _ sound _ ran => sound_step sound ran
  intro callId track
  constructor
  · nofun
  · rintro ⟨_, since, -⟩
    exact absurd since not_lastSince_nil

/-- Nothing is kept for a call that has not begun or is finalized. -/
theorem absent_of_sound (sound : s.Sound) {callId : String}
    (unbegun : ∀ later, ¬Since callId s.events later) : s.recorder.tracks.lookup callId = none := by
  cases found : s.recorder.tracks.lookup callId with
  | none => rfl
  | some track =>
      obtain ⟨later, since, -⟩ := (sound callId track).mp found
      exact absurd since (unbegun later)

end Recordings

namespace Recorder

variable {r : Recorder} {callId : String}

/-- A call that is not being recorded is not there for any method. -/
theorem unchanged_of_absent (absent : r.tracks.lookup callId = none) :
    (∀ pcm, r.appendUser callId pcm = r) ∧ (∀ pcm, r.appendAi callId pcm = r) ∧
      ∀ disk, r.finalize disk callId = (r, disk, .none) := by
  refine ⟨fun pcm => ?_, fun pcm => ?_, fun disk => ?_⟩
  · simp only [appendUser, append, absent]
  · simp only [appendAi, append, absent]
  · simp only [finalize, absent]

/-- What `finalize` does once the file is written. -/
theorem finalize_written {track : CallTracks} (disk : Disk) {file : WavFile}
    (found : r.tracks.lookup callId = some track)
    (written : stereoWav track.userChunks track.aiChunks = .ok file) :
    r.finalize disk callId = ({ r with tracks := Dict.erase r.tracks callId },
      Dict.put disk (callId ++ ".wav") file, .path (callId ++ ".wav")) := by
  simp only [finalize, found, written]

end Recorder

namespace Recordings

variable {minFreeBytes : Nat} {s : Recordings}

/-- **Calls apart.**  Whatever methods ran for whatever calls, `finalize` of a call that has
begun, and whose tracks are whole samples that a WAV file holds, writes what was appended for
it since; other calls are as before, and a call that has not begun or is finalized is not
there. -/
theorem finalize_recorded (run : Reachable (step minFreeBytes) Free {} s) (callId : String) :
    (∀ later, Since callId s.events later →
      2 ∣ (userAppends callId later).flatten.length → 2 ∣ (aiAppends callId later).flatten.length →
      36 + 2 * max (userAppends callId later).flatten.length
        (aiAppends callId later).flatten.length < 2 ^ 32 →
      ∃ user ai file,
        frombuffer (userAppends callId later).flatten = some user ∧
        frombuffer (aiAppends callId later).flatten = some ai ∧
        file.Plays (padTo ai.length user) (padTo user.length ai) ∧
        (s.recorder.finalize s.disk callId).2 =
          (Dict.put s.disk (callId ++ ".wav") file, .path (callId ++ ".wav"))) ∧
    (∀ other, other ≠ callId →
      (s.recorder.finalize s.disk callId).1.tracks.lookup other = s.recorder.tracks.lookup other) ∧
    ((∀ later, ¬Since callId s.events later) →
      (∀ pcm, s.recorder.appendUser callId pcm = s.recorder) ∧
      (∀ pcm, s.recorder.appendAi callId pcm = s.recorder) ∧
      s.recorder.finalize s.disk callId = (s.recorder, s.disk, .none)) ∧
    ∀ disk, (s.recorder.finalize s.disk callId).1.finalize disk callId =
      ((s.recorder.finalize s.disk callId).1, disk, .none) := by
  have sound := recorded_of_reachable run
  refine ⟨fun later since evenUser evenAi fits => ?_, fun other ne => ?_, fun unbegun => ?_,
    fun disk => ?_⟩
  · have found := (sound callId _).mpr ⟨later, since, rfl⟩
    obtain ⟨user, readUser⟩ := frombuffer_even evenUser
    obtain ⟨ai, readAi⟩ := frombuffer_even evenAi
    rw [frombuffer_length readUser, frombuffer_length readAi] at fits
    obtain ⟨file, written, plays⟩ := stereoWav_channels readUser readAi (by omega)
    refine ⟨user, ai, file, readUser, readAi, plays, ?_⟩
    rw [Recorder.finalize_written s.disk found written]
  · rw [Recorder.tracks_finalize, if_neg ne]
  · obtain ⟨user, ai, finalize⟩ := Recorder.unchanged_of_absent (absent_of_sound sound unbegun)
    exact ⟨user, ai, finalize s.disk⟩
  · have gone : (s.recorder.finalize s.disk callId).1.tracks.lookup callId = none := by
      rw [Recorder.tracks_finalize, if_pos rfl]
    exact (Recorder.unchanged_of_absent gone).2.2 disk

/-- Two calls at once: a frame for each, then one more for the first, which is finalized
before a late one. -/
def crossed : List RecorderCall :=
  [.beginCall "a" 5, .beginCall "b" 4, .beginCall "c" 3, .appendUser "a" [1, 0],
    .appendAi "b" [2, 0], .appendAi "a" [3, 0], .appendAi "a" [4, 0], .appendUser "c" [9, 9]]

/-- The first call's file, with half of its user track silent. -/
theorem crossed_recorded : ∃ s, Reachable (step 4) Free {} s ∧
    ∃ user ai file, frombuffer [1, 0] = some user ∧ frombuffer [3, 0, 4, 0] = some ai ∧
      file.Plays (padTo ai.length user) (padTo user.length ai) ∧
      (s.recorder.finalize s.disk "a").2 = (Dict.put s.disk "a.wav" file, .path "a.wav") := by
  have ran : (Transition.run (step 4) {} crossed).isSome = true := by decide
  have run := reachable_get ran
  refine ⟨_, run, (finalize_recorded run "a").1
    [.began "b", .user "a" [1, 0], .ai "b" [2, 0], .ai "a" [3, 0], .ai "a" [4, 0], .user "c" [9, 9]]
    ⟨[], rfl, by decide⟩ (by decide) (by decide) (by decide)⟩

/-- A track that is too long for the header ends without a file. -/
theorem lost_of_length (minFreeBytes : Nat) {pcm : Pcm} (whole : 2 ∣ pcm.length)
    (beyond : 2 ^ 32 ≤ 36 + 2 * pcm.length) :
    ∃ s, Reachable (step minFreeBytes) Free {} s ∧
      ∃ later, Since "call" s.events later ∧
        2 ∣ (userAppends "call" later).flatten.length ∧ 2 ∣ (aiAppends "call" later).flatten.length ∧
        (s.recorder.finalize s.disk "call").2 = ([], .raised .structError) := by
  let begun : Recordings :=
    { recorder := ({} : Recorder).beginCall "call"
      events := [.began "call"] }
  let heard : Recordings :=
    { recorder := begun.recorder.appendUser "call" pcm
      events := [.began "call", .user "call" pcm] }
  have room : step minFreeBytes {} (.beginCall "call" minFreeBytes) = some begun :=
    if_neg (Nat.lt_irrefl _)
  have run : Reachable (step minFreeBytes) Free {} heard :=
    ((Reachable.refl _).snoc trivial room).snoc (a := .appendUser "call" pcm) trivial rfl
  have since : Since "call" heard.events [.user "call" pcm] := ⟨[], rfl, by simp⟩
  have users : userAppends "call" [.user "call" pcm] = [pcm] := by simp [userAppends]
  have ais : aiAppends "call" [.user "call" pcm] = [] := by simp [aiAppends]
  refine ⟨heard, run, _, since, ?_, ?_, ?_⟩
  · rwa [users, List.flatten_singleton]
  · rw [ais]
    exact Nat.dvd_zero _
  · have found := (recorded_of_reachable run "call" _).mpr ⟨_, since, rfl⟩
    rw [users, ais] at found
    obtain ⟨user, readUser⟩ := frombuffer_even whole
    have lengths := frombuffer_length readUser
    have readAi : frombuffer ([] : List Pcm).flatten = some [] := rfl
    have lost : stereoWav [pcm] [] = .error .structError :=
      stereoWav_oversize (by rw [List.flatten_singleton, readUser]) readAi (by
        rw [List.length_nil]
        omega)
    simp only [Recorder.finalize, found, lost]
    rfl

/-- Nineteen hours of one track and nothing of the other, and no file. -/
theorem long_recording_lost : ∃ s, Reachable (step 0) Free {} s ∧
    ∃ later, Since "call" s.events later ∧
      2 ∣ (userAppends "call" later).flatten.length ∧ 2 ∣ (aiAppends "call" later).flatten.length ∧
      (s.recorder.finalize s.disk "call").2 = ([], .raised .structError) := by
  have size : (List.replicate (2 * 2 ^ 30) (0 : UInt8)).length = 2 * 2 ^ 30 := List.length_replicate
  exact lost_of_length 0 (by rw [size]; exact Nat.dvd_mul_right ..) (by rw [size]; omega)

end Recordings

end IsalesTelephony.Audio
