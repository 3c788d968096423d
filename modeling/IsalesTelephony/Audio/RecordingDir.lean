/-
# Audio.RecordingDir -- the recordings that stay on the disk

When a recorded call is torn down the recorder writes its file and then deletes the oldest of
the directory, `Recorder.finalize` and `Recorder.prune` of `modem_controller/recorder.py`.
`prune` sees the files in the order in which the directory is listed and ranks them by their
`mtime`; a file that cannot be deleted stays, and its turn comes again.

While the clock goes forward the newest `MAX_RECORDINGS` files are there, and none else but
those that could not be deleted (`newest_recordings_stay`).  A clock that is set back costs the
call that was just recorded (`clock_back_loses_newest`).
-/
import IsalesTelephony.Audio.StereoRecording
import IsalesTelephony.Theory.Newest

namespace IsalesTelephony.Audio

set_option autoImplicit false

open IsalesTelephony.Theory IsalesTelephony.Theory.Transition
open IsalesTelephony.Theory.Newest

/-- A file of the output directory. -/
structure StoredWav where
  mtime : Nat
  /-- `none` when its header could not be packed -/
  wav : Option WavFile
  deriving DecidableEq, Repr

/-- The output directory, by name. -/
abbrev WavDir := List (String × StoredWav)

/-- `p.stat().st_mtime`. -/
def stMtime (file : String × StoredWav) : Nat := file.2.mtime

/-- `Recorder.prune`: `scan` is the directory as it is listed, and `stays` names the files whose
deletion raises `OSError`. -/
def Recorder.prune (keep : Int) (dir scan : WavDir) (stays : List String) : WavDir :=
  if keep ≤ 0 then dir
  else
    let old := (newestFirst stMtime scan).drop keep.toNat
    dir.filter fun file => stays.contains file.1 || !(old.map Prod.fst).contains file.1

structure RecordingDir where
  recorder : Recorder := {}
  dir : WavDir := []
  /-- history: the files that were written, newest first, each name once -/
  log : WavDir := []
  /-- history: the files that the last prune could not delete -/
  stuck : List String := []
  deriving DecidableEq, Repr

inductive DirAction where
  /-- a call begins, or a chunk of it is recorded -/
  | call (call : RecorderCall)
  /-- a recorded call is torn down -/
  | teardown (callId : String) (now : Nat) (scan : WavDir) (stays : List String)
  deriving DecidableEq, Repr

namespace RecordingDir

def store (s : RecordingDir) (path : String) (file : StoredWav) : RecordingDir :=
  { s with dir := Dict.put s.dir path file, log := push s.log path file }

/-- `finalize`, and what it leaves in the directory. -/
def finalize (s : RecordingDir) (callId : String) (now : Nat) : RecordingDir :=
  let after := s.recorder.finalize [] callId
  let s := { s with recorder := after.1 }
  match after.2.2 with
  | .path path => s.store path { mtime := now, wav := after.2.1.lookup path }
  -- the file has been opened for writing
  | .raised .structError => s.store (callId ++ ".wav") { mtime := now, wav := none }
  | .none | .raised .valueError => s

/-- `prune`, of what `finalize` has left. -/
def prune (s : RecordingDir) (keep : Int) (scan : WavDir) (stays : List String) : RecordingDir :=
  { s with dir := Recorder.prune keep s.dir scan stays, stuck := stays }

def step (minFreeBytes : Nat) (maxRecordings : Int) (s : RecordingDir) :
    DirAction → Option RecordingDir
  | .call (.finalize _) => none
  | .call call =>
      (Recordings.step minFreeBytes { recorder := s.recorder } call).map fun after =>
        { s with recorder := after.recorder }
  | .teardown callId now scan stays =>
      let written := s.finalize callId now
      if scan.Perm written.dir then some (written.prune maxRecordings scan stays) else none

/-- The clock goes forward from one recording to the next. -/
def Ticks (s : RecordingDir) : DirAction → Prop
  | .teardown _ now _ _ => ∀ file ∈ s.log, file.2.mtime < now
  | .call _ => True

instance (s : RecordingDir) (action : DirAction) : Decidable (s.Ticks action) := by
  unfold Ticks
  split <;> infer_instance

/-! ## One step -/

variable {minFreeBytes n : Nat} {maxRecordings : Int} {s t : RecordingDir} {action : DirAction}

/-- The directory is a part of the log that has its first `n` files. -/
structure Holds (n : Nat) (s : RecordingDir) : Prop where
  distinct : Dict.Distinct s.log
  descending : Descending stMtime s.log
  apart : Dict.Distinct s.dir
  kept : ∃ l, s.dir.Perm l ∧ Keeps n s.log l

theorem holds_store {path : String} {file : StoredWav} (holds : Holds (n + 1) s)
    (later : ∀ old ∈ s.log, old.2.mtime < file.mtime) : Holds (n + 1) (s.store path file) := by
  obtain ⟨distinct, descending, apart, l, same, keeps⟩ := holds
  refine ⟨distinct_push distinct path file, ?_, Dict.distinct_put apart path file, push l path file,
    (perm_put apart path file).trans (perm_push same path file), keeps_push distinct keeps path file⟩
  refine List.pairwise_cons.mpr ⟨fun old member => ?_, descending.filter _⟩
  exact later old (List.mem_of_mem_filter member)

/-- What `finalize` does to the directory. -/
theorem finalize_cases (s : RecordingDir) (callId : String) (now : Nat) :
    (∃ recorder, s.finalize callId now = { s with recorder := recorder }) ∨
      ∃ recorder path wav,
        s.finalize callId now = { s with recorder := recorder }.store path { mtime := now, wav := wav } := by
  unfold finalize
  dsimp only
  split
  · exact .inr ⟨_, _, _, rfl⟩
  · exact .inr ⟨_, _, _, rfl⟩
  · exact .inl ⟨_, rfl⟩
  · exact .inl ⟨_, rfl⟩

theorem holds_finalize (callId : String) {now : Nat} (holds : Holds (n + 1) s)
    (later : ∀ old ∈ s.log, old.2.mtime < now) : Holds (n + 1) (s.finalize callId now) := by
  rcases finalize_cases s callId now with ⟨recorder, same⟩ | ⟨recorder, path, wav, same⟩
  · rw [same]
    exact ⟨holds.distinct, holds.descending, holds.apart, holds.kept⟩
  · rw [same]
    exact holds_store ⟨holds.distinct, holds.descending, holds.apart, holds.kept⟩ later

/-- `prune` trims the directory, in whatever order it is listed. -/
theorem prune_trims {scan l : WavDir} (stays : List String) (positive : 0 < maxRecordings)
    (listed : scan.Perm s.dir) (same : s.dir.Perm l) (apart : Dict.Distinct s.dir)
    (descending : Descending stMtime l) :
    (s.prune maxRecordings scan stays).dir.Perm
      (trim maxRecordings.toNat l fun file => stays.contains file.1) := by
  have distinct : Dict.Distinct l := (same.map Prod.fst).nodup_iff.mp apart
  show (Recorder.prune maxRecordings s.dir scan stays).Perm _
  unfold Recorder.prune
  rw [if_neg (by omega), newestFirst_eq stMtime (listed.trans same) descending,
    ← filter_eq_trim distinct]
  exact same.filter _

/-- What stays on the disk, of `n` recordings to be kept. -/
structure Retains (n : Nat) (s : RecordingDir) : Prop where
  /-- the newest are there -/
  newest : ∀ file ∈ s.log.take n, file ∈ s.dir
  /-- each as it was last written -/
  written : ∀ file ∈ s.dir, file ∈ s.log
  /-- what else is there could not be deleted -/
  rest : ∀ file ∈ s.dir, file ∈ s.log.take n ∨ file.1 ∈ s.stuck
  apart : Dict.Distinct s.dir

/-- What holds in every state. -/
structure Sound (n : Nat) (s : RecordingDir) : Prop where
  holds : Holds n s
  rest : ∀ file ∈ s.dir, file ∈ s.log.take n ∨ file.1 ∈ s.stuck

theorem sound_prune {scan : WavDir} {stays : List String} (positive : 0 < maxRecordings)
    (holds : Holds maxRecordings.toNat s) (listed : scan.Perm s.dir) :
    Sound maxRecordings.toNat (s.prune maxRecordings scan stays) := by
  obtain ⟨distinct, descending, apart, l, same, keeps⟩ := holds
  have trimmed := prune_trims stays positive listed same apart
    (descending.sublist keeps.sub)
  have kept := keeps_trim keeps fun file => stays.contains file.1
  refine ⟨⟨distinct, descending, ?_, _, trimmed, kept⟩, fun file member => ?_⟩
  · show Dict.Distinct (Recorder.prune maxRecordings s.dir scan stays)
    unfold Recorder.prune
    rw [if_neg (by omega)]
    exact apart.sublist (List.filter_sublist.map _)
  · rcases List.mem_append.mp (trimmed.mem_iff.mp member) with first | left
    · rw [keeps.take] at first
      exact .inl first
    · exact .inr (List.contains_iff_mem.mp (List.mem_filter.mp left).2)

/-- **One step.** -/
theorem sound_step (positive : 0 < maxRecordings) (sound : Sound maxRecordings.toNat s)
    (ticks : s.Ticks action) (ran : s.step minFreeBytes maxRecordings action = some t) :
    Sound maxRecordings.toNat t := by
  obtain ⟨n, isSucc⟩ : ∃ n, maxRecordings.toNat = n + 1 := ⟨maxRecordings.toNat - 1, by omega⟩
  cases action with
  | call call =>
      have same : t.dir = s.dir ∧ t.log = s.log ∧ t.stuck = s.stuck := by
        cases call with
        | finalize => cases ran
        | _ =>
            simp only [step] at ran
            obtain ⟨after, -, rfl⟩ := Option.map_eq_some_iff.mp ran
            exact ⟨rfl, rfl, rfl⟩
      obtain ⟨dir, log, stuck⟩ := same
      obtain ⟨⟨distinct, descending, apart, kept⟩, rest⟩ := sound
      rw [← dir, ← log] at kept
      rw [← dir, ← log, ← stuck] at rest
      exact ⟨⟨log ▸ distinct, log ▸ descending, dir ▸ apart, kept⟩, rest⟩
  | teardown callId now scan stays =>
      simp only [step] at ran
      split at ran
      · rename_i listed
        obtain rfl := Option.some.inj ran
        have holds := sound.holds
        rw [isSucc] at holds
        have written := holds_finalize callId holds ticks
        rw [← isSucc] at written
        exact sound_prune positive written listed
      · cases ran

theorem sound_of_reachable (positive : 0 < maxRecordings)
    (run : Reachable (step minFreeBytes maxRecordings) Ticks {} s) :
    Sound maxRecordings.toNat s := by
  refine run.invariant (P := Sound maxRecordings.toNat) ⟨?_, nofun⟩ fun _ _ _ sound ticks ran =>
    sound_step positive sound ticks ran
  exact ⟨List.nodup_nil, List.Pairwise.nil, List.nodup_nil, [], .refl _, keeps_refl _ _⟩

/-- **The newest recordings stay.**  In every run of the recorded calls while the clock goes
forward, in whatever order the directory is listed and whichever files resist deletion: the
newest `maxRecordings` files are there as they were written, and each other file there could
not be deleted when the last call was torn down. -/
theorem newest_recordings_stay (minFreeBytes : Nat) (maxRecordings : Int) (s : RecordingDir)
    (positive : 0 < maxRecordings)
    (run : Reachable (step minFreeBytes maxRecordings) Ticks {} s) :
    s.Retains maxRecordings.toNat := by
  obtain ⟨⟨-, -, apart, l, same, keeps⟩, rest⟩ := sound_of_reachable positive run
  constructor
  case newest => exact fun file first => same.mem_iff.mpr (keeps.first.subset first)
  case written => exact fun file member => keeps.sub.subset (same.mem_iff.mp member)
  case rest => exact rest
  case apart => exact apart

/-! ## Poles -/

/-- A call that is recorded and torn down. -/
def recordedCall (callId : String) (now : Nat) (scan : WavDir) (stays : List String) :
    List DirAction :=
  [.call (.beginCall callId 0), .teardown callId now scan stays]

/-- The file of a call in which nothing was said. -/
def silentWav (now : Nat) : StoredWav := { mtime := now, wav := some ⟨2, 2, 16000, []⟩ }

/-- Two recordings are kept of three, and the oldest resists once. -/
def threeCalls : List DirAction :=
  recordedCall "a" 1 [("a.wav", silentWav 1)] [] ++
    recordedCall "b" 2 [("b.wav", silentWav 2), ("a.wav", silentWav 1)] [] ++
    recordedCall "c" 3 [("b.wav", silentWav 2), ("a.wav", silentWav 1), ("c.wav", silentWav 3)]
      ["a.wav"]

theorem threeCalls_runs : (guardedRun (step 0 2) Ticks {} threeCalls).isSome = true := by
  decide +kernel

theorem threeCalls_retain :
    Retains 2 (Option.get _ threeCalls_runs) ∧
      (Option.get _ threeCalls_runs).dir.map Prod.fst = ["a.wav", "b.wav", "c.wav"] ∧
        (Option.get _ threeCalls_runs).stuck = ["a.wav"] :=
  ⟨newest_recordings_stay 0 2 _ (by decide) (reachable_guarded_get threeCalls_runs),
    by decide +kernel, by decide +kernel⟩

/-- The clock is set back between two calls. -/
theorem setBack_runs : (run (step 0 1) {} (recordedCall "a" 5 [("a.wav", silentWav 5)] [] ++
    recordedCall "b" 3 [("a.wav", silentWav 5), ("b.wav", silentWav 3)] [])).isSome = true := by
  decide +kernel

/-- **A clock set back** costs the call just recorded, and the older one stays. -/
theorem clock_back_loses_newest : ∃ s, Reachable (step 0 1) Free {} s ∧
    s.log.map Prod.fst = ["b.wav", "a.wav"] ∧ s.dir.map Prod.fst = ["a.wav"] :=
  ⟨_, reachable_get setBack_runs, by decide +kernel, by decide +kernel⟩

end RecordingDir

end IsalesTelephony.Audio
