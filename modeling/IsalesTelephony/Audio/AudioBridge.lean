/-
# Audio.AudioBridge -- the bridge of a call over a Windows session

`AudioBridge.join` awaits the session's `join` and starts the loops; `leave` sets the stop
event, leaves the session if it is joined, and cancels the loops.  The upstream loop
(`Audio.Upstream`) awaits the session's `push_audio` for each chunk (`Audio.WindowsSession`), so
here the loop and the session are one system, and what `push_audio` raises is decided by the
engine.  The orchestrator awaits `join` before it calls `leave`, or cancels it.

On Windows an SDK that refuses a frame makes `push_audio` raise `RtcError`, which is neither of
the two exceptions that the loop handles: it ends the loop.
-/
import IsalesTelephony.Audio.EngineOwnership
import IsalesTelephony.Audio.Upstream

namespace IsalesTelephony.Audio

set_option autoImplicit false

open IsalesTelephony.Theory
open IsalesTelephony.Theory.Transition

/-- Where the bridge is between `join` and `leave`. -/
inductive BridgePc where
  | idle
  /-- `await self._rtc.join(...)`, a call of the session -/
  | joining (i : Nat)
  /-- the loops run -/
  | joined
  /-- `join` raised, or was cancelled -/
  | notJoined
  /-- `await self._rtc.leave()` -/
  | leaving (i : Nat)
  | left
  deriving DecidableEq

structure AudioBridge where
  bridge : BridgePc := .idle
  session : WindowsSession := {}
  /-- the upstream loop, its ring and its recorder -/
  up : Upstream
  /-- the call of `push_audio` that the loop awaits -/
  push : Option Nat := none
  /-- history: `join` was cancelled -/
  cancelled : Bool := false
  /-- history: what the SDK returned for the frame it refused -/
  refused : Option Int := none

inductive BridgeAction where
  | join (call : JoinCall)
  /-- the SDK calls back, the loop runs what it scheduled, or the time of `wait_for` is over -/
  | callback (a : Nat) (event : JoinEvent)
  | runCallback
  | timeout
  /-- the session's `join` goes on -/
  | joinResumes
  | cancelJoin
  /-- the capture, other producers, the end of the ring and the downstream loop's taps -/
  | read (chunk : Pcm)
  | put (chunk : Pcm)
  | close
  | tapAi (pcm : Pcm)
  /-- the loop goes round, or its `get` goes on; the time and the SDK's reply, should it push -/
  | turn (timestampMs rc : Int)
  | wake (timestampMs rc : Int)
  /-- `push_audio` goes on after a sleep -/
  | pushResumes (rc : Int)
  | leave (rc : Int)
  /-- the session has left; what a cancelled `get` does with its wake-up -/
  | sessionLeft (passesOn : Bool)

namespace AudioBridge

/-- `_rtc_rate` -/
def rtcRate : Int := 16000

/-- The loops were started and not yet cancelled. -/
def looping (s : AudioBridge) : Bool :=
  match s.bridge with
  | .joined | .leaving _ => true
  | _ => false

/-- `AudioBridge.join`, once the session's `join` has gone on. -/
def settleJoin (s : AudioBridge) (i : Nat) : AudioBridge :=
  match s.session.tasks[i]? with
  | some (.joined _) => { s with bridge := .joined, up := { s.up with stopEvent := false } }
  | some (.raised _) | some (.failed _ _) => { s with bridge := .notJoined }
  | _ => { s with bridge := .joining i }

/-- The loop, once its `push_audio` has gone on; `rc` is what the SDK returned last. -/
def settlePush (s : AudioBridge) (n : Nat) (rc : Int) : AudioBridge :=
  match s.session.tasks[n]?, s.up.pc with
  | some .pushed, .pushing chunk resampled =>
      { s with push := none, up := s.up.pushDone chunk resampled }
  | some (.raised .notJoined), .pushing chunk _ =>
      { s with push := none, up := { s.up with pc := .ended .notJoined (some chunk) } }
  | some (.raised _), .pushing chunk _ | some .valueError, .pushing chunk _ =>
      -- logged as unexpected
      { s with
        push := none
        up := { s.up with pc := .ended .pushFailed (some chunk) }
        refused := some rc }
  | _, _ => { s with push := some n }

/-- The loop calls `push_audio` if it has taken a chunk. -/
def beginPush (s : AudioBridge) (timestampMs rc : Int) : AudioBridge :=
  match s.up.pc with
  | .pushing _ resampled =>
      { s with session := s.session.push resampled timestampMs rc }.settlePush
        s.session.tasks.length rc
  | _ => s

/-- What follows the session's `leave` in `leave`: the loops are cancelled and awaited. -/
def finishLeave (config : WindowsSessionConfig) (sp : Scipy) (s : AudioBridge) (passesOn : Bool) :
    AudioBridge :=
  let session := match s.push with
    | some n => (s.session.step config (.cancel n)).getD s.session
    | none => s.session
  { s with
    bridge := .left
    session := session
    up := if s.looping then (s.up.step sp (.cancel passesOn)).getD s.up else s.up
    push := none }

def step (config : WindowsSessionConfig) (sp : Scipy) (s : AudioBridge) :
    BridgeAction → Option AudioBridge
  | .join call =>
      if s.bridge = .idle then
        let session := s.session.join config { call with sendSampleRate := rtcRate, sendChannels := 1 }
        some ({ s with session := session }.settleJoin s.session.tasks.length)
      else none
  | .callback a event =>
      (s.session.step config (.callback a event)).map fun session => { s with session := session }
  | .runCallback =>
      (s.session.step config .runCallback).map fun session => { s with session := session }
  | .timeout =>
      match s.bridge with
      | .joining i =>
          (s.session.step config (.timeout i)).map fun session => { s with session := session }
      | _ => none
  | .joinResumes =>
      match s.bridge with
      | .joining i =>
          (s.session.step config (.resumes i)).map fun session =>
            { s with session := session }.settleJoin i
      | _ => none
  | .cancelJoin =>
      match s.bridge with
      | .joining i =>
          (s.session.step config (.cancel i)).map fun session =>
            { s with session := session, bridge := .notJoined, cancelled := true }
      | _ => none
  | .read chunk => (s.up.step sp (.read chunk)).map fun up => { s with up := up }
  | .put chunk => (s.up.step sp (.put chunk)).map fun up => { s with up := up }
  | .close => (s.up.step sp .close).map fun up => { s with up := up }
  | .tapAi pcm => (s.up.step sp (.tapAi pcm)).map fun up => { s with up := up }
  | .turn timestampMs rc =>
      if s.looping then
        (s.up.step sp .turn).map fun up => { s with up := up }.beginPush timestampMs rc
      else none
  | .wake timestampMs rc =>
      if s.looping then
        (s.up.step sp .wake).map fun up => { s with up := up }.beginPush timestampMs rc
      else none
  | .pushResumes rc =>
      s.push.bind fun n =>
        (s.session.step config (.pushResumes n rc)).map fun session =>
          { s with session := session }.settlePush n rc
  | .leave rc =>
      match s.bridge with
      | .idle | .joined | .notJoined =>
          let s := { s with up := { s.up with stopEvent := true } }
          if s.session.joined then
            some { s with session := s.session.leave rc, bridge := .leaving s.session.tasks.length }
          else some (s.finishLeave config sp false)
      | _ => none
  | .sessionLeft passesOn =>
      match s.bridge with
      | .leaving i =>
          (s.session.step config (.goesOn i)).map fun session =>
            { s with session := session }.finishLeave config sp passesOn
      | _ => none

/-- The bridge of a call, over a new session. -/
def init (capacity : Nat) (positive : 0 < capacity) (name : String) (recorder : Recorder)
    (recordCallId : Option String) : AudioBridge where
  up := Upstream.started capacity positive name recorder recordCallId

end AudioBridge

/-! ## What a step of the session leaves alone -/

namespace WindowsSession

variable {config : WindowsSessionConfig} {s t u : WindowsSession} {i a : Nat}

/-- The frames that the session's engines were given. -/
def heard (s : WindowsSession) : List Handed := s.attempts.flatMap fun x => x.handle.heard

/-- No engine was given a frame, and the calls of `push_audio` are where they were. -/
structure Quiet (s t : WindowsSession) : Prop where
  heard : t.heard = s.heard
  pushing : ∀ (i a : Nat) (frames : List Handed),
    t.tasks[i]? = some (.pushing a frames) ↔ s.tasks[i]? = some (.pushing a frames)
  attempts : t.attempts.length = s.attempts.length
  rate : t.sendSampleRate = s.sendSampleRate ∧ t.sendChannels = s.sendChannels

theorem Quiet.refl (s : WindowsSession) : Quiet s s := ⟨rfl, fun _ _ _ => Iff.rfl, rfl, rfl, rfl⟩

theorem Quiet.trans (first : Quiet s t) (later : Quiet t u) : Quiet s u where
  heard := later.heard.trans first.heard
  pushing := fun i a frames => (later.pushing i a frames).trans (first.pushing i a frames)
  attempts := later.attempts.trans first.attempts
  rate := ⟨later.rate.1.trans first.rate.1, later.rate.2.trans first.rate.2⟩

theorem quiet_addTask (task : SessionTask) (other : ∀ a frames, task ≠ .pushing a frames) :
    Quiet s (s.addTask task) where
  heard := rfl
  pushing := by
    intro i a frames
    constructor
    · intro here
      rcases tasks_addTask here with there | ⟨-, same⟩
      · exact there
      · exact absurd same.symm (other a frames)
    · intro there
      exact (List.getElem?_append_left (List.getElem?_eq_some_iff.mp there).1).trans there
  attempts := rfl
  rate := ⟨rfl, rfl⟩

theorem quiet_setTask (task : SessionTask) (other : ∀ a frames, task ≠ .pushing a frames)
    (before : ∀ a frames, s.tasks[i]? ≠ some (.pushing a frames)) : Quiet s (s.setTask i task) where
  heard := rfl
  pushing := by
    intro j a frames
    constructor
    · intro here
      rcases tasks_setTask here with ⟨-, there⟩ | ⟨-, same⟩
      · exact there
      · exact absurd same.symm (other a frames)
    · intro there
      have away : i ≠ j := by
        rintro rfl
        exact before a frames there
      rw [setTask, List.getElem?_set_ne away]
      exact there
  attempts := rfl
  rate := ⟨rfl, rfl⟩

theorem heard_of_handles {attempts : List JoinAttempt} (length : attempts.length = s.attempts.length)
    (same : ∀ (k : Nat) (x : JoinAttempt), attempts[k]? = some x → ∃ old, s.attempts[k]? = some old ∧
      x.handle.heard = old.handle.heard) :
    (attempts.flatMap fun x => x.handle.heard) = s.heard := by
  have maps : attempts.map (fun x => x.handle.heard) = s.attempts.map fun x => x.handle.heard := by
    refine List.ext_getElem? fun k => ?_
    rw [List.getElem?_map, List.getElem?_map]
    cases here : attempts[k]? with
    | some x =>
        obtain ⟨old, there, heard⟩ := same k x here
        rw [there, Option.map_some, Option.map_some, heard]
    | none =>
        have beyond := List.getElem?_eq_none_iff.mp here
        rw [List.getElem?_eq_none_iff.mpr (length ▸ beyond)]
  rw [heard, List.flatMap_def, List.flatMap_def, maps]

theorem quiet_setFuture {f : JoinFuture → JoinFuture} : Quiet s (s.setFuture a f) where
  heard := by
    refine heard_of_handles (List.length_modify ..) fun k x here => ?_
    rw [show (s.setFuture a f).attempts = _ from rfl] at here
    obtain ⟨old, there, rfl⟩ := Option.map_eq_some_iff.mp (attempts_setFuture.symm.trans here)
    refine ⟨old, there, ?_⟩
    split <;> rfl
  pushing := fun _ _ _ => Iff.rfl
  attempts := List.length_modify ..
  rate := ⟨rfl, rfl⟩

theorem quiet_expire : Quiet s (s.expire a) := by
  obtain ⟨heard, pushing, attempts, rate⟩ : Quiet s (s.setFuture a fun _ => .cancelled) :=
    quiet_setFuture
  exact ⟨heard, pushing, attempts, rate⟩

theorem quiet_giveUp : Quiet s (s.giveUp a) := by
  obtain ⟨heard, pushing, attempts, rate⟩ : Quiet s (s.setFuture a JoinFuture.cancel) :=
    quiet_setFuture
  exact ⟨heard, pushing, attempts, rate⟩

theorem quiet_setHandle {f : EngineHandle → EngineHandle} (silent : ∀ h, (f h).heard = h.heard) :
    Quiet s (s.setHandle a f) where
  heard := by
    refine heard_of_handles (List.length_modify ..) fun k x here => ?_
    obtain ⟨old, there, rfl⟩ := Option.map_eq_some_iff.mp (attempts_setHandle.symm.trans here)
    refine ⟨old, there, ?_⟩
    split
    · exact silent _
    · rfl
  pushing := fun _ _ _ => Iff.rfl
  attempts := List.length_modify ..
  rate := ⟨rfl, rfl⟩

theorem quiet_teardownRest {teardown : Teardown}
    (before : ∀ a frames, s.tasks[i]? ≠ some (.pushing a frames)) :
    Quiet s (s.teardownRest i teardown) := by
  obtain ⟨attempts, same, length, old⟩ := teardownRest_eq s i teardown
  have silent : (attempts.flatMap fun x => x.handle.heard) = s.heard := by
    refine heard_of_handles length fun k x here => ?_
    obtain ⟨y, there, -, handle⟩ := old k x here
    refine ⟨y, there, ?_⟩
    rw [handle]
    split
    · rw [EngineHandle.heard_destroy, EngineHandle.heard_unregister]
    · rfl
  have torn : Quiet s { s with attempts := attempts, engine := none, listener := none, drainer := none } :=
    ⟨silent, fun _ _ _ => Iff.rfl, length, rfl, rfl⟩
  rw [same]
  cases teardown with
  | join error => exact torn.trans (quiet_setTask _ nofun before)
  | leave =>
      obtain ⟨heard, pushing, attempts, rate⟩ :=
        torn.trans (quiet_setTask .left nofun before)
      exact ⟨heard, pushing, attempts, rate⟩

theorem quiet_teardownPartial {teardown : Teardown}
    (before : ∀ a frames, s.tasks[i]? ≠ some (.pushing a frames)) :
    Quiet s (s.teardownPartial i teardown) := by
  unfold teardownPartial
  split
  · exact quiet_setTask _ nofun before
  · exact quiet_teardownRest before

theorem quiet_leave {rc : Int} : Quiet s (s.leave rc) := by
  unfold leave
  split
  · exact quiet_addTask .left (by simp)
  · dsimp only
    have told : ∀ t, Quiet s t → t.tasks = s.tasks →
        Quiet s ((t.addTask (.stopping .leave)).teardownPartial s.tasks.length .leave) := by
      intro t before same
      refine (before.trans (quiet_addTask (.stopping .leave) (by simp))).trans
        (quiet_teardownPartial fun a frames => ?_)
      rw [addTask, same, List.getElem?_concat_length]
      simp
    split
    · exact told _ (quiet_setHandle fun _ => EngineHandle.heard_call rfl) rfl
    · exact told _ (.refl s) rfl

/-- The actions that neither join nor push, nor cancel a call. -/
def SessionAction.Aside : SessionAction → Prop
  | .join _ | .push _ _ _ | .pushResumes _ _ | .cancel _ => False
  | _ => True

theorem quiet_step {action : SessionAction} (aside : SessionAction.Aside action)
    (ran : step config s action = some t) : Quiet s t := by
  cases action with
  | join | push | pushResumes | cancel => exact aside.elim
  | callback a event =>
      obtain ⟨x, -, ran⟩ := Option.bind_eq_some_iff.mp ran
      split at ran
      · obtain rfl := Option.some.inj ran
        exact ⟨rfl, fun _ _ _ => Iff.rfl, rfl, rfl, rfl⟩
      · cases ran
  | runCallback =>
      simp only [step] at ran
      split at ran
      · cases ran
      · rename_i a event rest first
        obtain rfl := Option.some.inj ran
        obtain ⟨heard, pushing, attempts, rate⟩ :
          Quiet s (s.setFuture a fun future => future.settle event) := quiet_setFuture
        exact ⟨heard, pushing, attempts, rate⟩
  | timeout i =>
      simp only [step] at ran
      split at ran
      · obtain ⟨x, -, ran⟩ := Option.bind_eq_some_iff.mp ran
        split at ran
        · cases ran
        · obtain rfl := Option.some.inj ran
          exact quiet_expire
      · cases ran
  | resumes i =>
      simp only [step] at ran
      split at ran
      · rename_i a task
        have before : ∀ b frames, s.tasks[i]? ≠ some (.pushing b frames) := by
          intro b frames here
          cases task.symm.trans here
        obtain ⟨x, -, ran⟩ := Option.bind_eq_some_iff.mp ran
        unfold settled at ran
        split at ran
        · cases ran
        · obtain rfl := Option.some.inj ran
          exact quiet_teardownPartial before
        · obtain rfl := Option.some.inj ran
          exact quiet_teardownPartial before
        · split at ran
          · obtain rfl := Option.some.inj ran
            exact quiet_teardownPartial before
          · obtain rfl := Option.some.inj ran
            obtain ⟨heard, pushing, attempts, rate⟩ : Quiet s (s.setTask i (.joined a)) :=
              quiet_setTask _ (by simp) before
            exact ⟨heard, pushing, attempts, rate⟩
      · cases ran
  | leave rc =>
      obtain rfl := Option.some.inj ran
      exact quiet_leave
  | goesOn i =>
      simp only [step] at ran
      split at ran
      · rename_i teardown task
        obtain rfl := Option.some.inj ran
        refine quiet_teardownRest fun b frames here => ?_
        cases task.symm.trans here
      · cases ran

/-! ## What a push does -/

/-- A frame of 10 ms at 16 kHz mono. -/
structure Grid (frame : Handed) : Prop where
  length : frame.pcm.length = 320
  sampleRate : frame.sampleRate = 16000
  channels : frame.channels = 1

/-- Where a push is once the SDK has replied to a frame. -/
def replied (rc : Int) (rest : List Handed) : SessionTask :=
  if rc ≠ 0 then .raised (.pushFailed ⟨rc, "PushExternalAudioFrame failed"⟩)
  else if rest = [] then .pushed
  else .pushing 0 rest

/-- A frame that an engine that is alive is given. -/
theorem pushOn_alive {x : JoinAttempt} {frame : Handed} (rest : List Handed) (rc : Int)
    (attempts : s.attempts = [x]) (alive : x.handle.engine = true) (grid : Grid frame) :
    ∃ y : JoinAttempt, y.handle.engine = true ∧ y.handle.heard = x.handle.heard ++ [frame] ∧
      s.pushOn i 0 rc (frame :: rest) =
        { s with attempts := [y], tasks := s.tasks.set i (replied rc rest) } := by
  have called : x.handle.pushExternalAudio frame rc =
      ({ x.handle with calls := x.handle.calls ++ [.pushExternalAudioFrame frame] },
        EngineHandle.nonZero rc "PushExternalAudioFrame failed") := by
    rw [EngineHandle.pushExternalAudio, if_neg (by rw [grid.channels]; decide),
      if_neg (by rw [grid.sampleRate]; decide), EngineHandle.call, if_pos alive]
  refine ⟨{ x with handle := (x.handle.pushExternalAudio frame rc).1 }, ?_, ?_, ?_⟩
  · rw [called]
    exact alive
  · rw [called]
    simp [EngineHandle.heard, SdkCall.frame]
  · have here : s.attempts[0]? = some x := by rw [attempts]; rfl
    have handed : s.setHandle 0 (fun h => (h.pushExternalAudio frame rc).1) =
        { s with attempts := [{ x with handle := (x.handle.pushExternalAudio frame rc).1 }] } := by
      rw [setHandle, attempts]
      rfl
    have raised : (x.handle.pushExternalAudio frame rc).2 =
        EngineHandle.nonZero rc "PushExternalAudioFrame failed" := by rw [called]
    unfold pushOn
    rw [here]
    dsimp only
    rw [handed, raised]
    by_cases accepted : rc = 0
    · simp only [EngineHandle.nonZero, replied, accepted, ne_eq, not_true_eq_false, if_false, setTask]
    · simp only [EngineHandle.nonZero, replied, accepted, ne_eq, not_false_eq_true, if_true, setTask]

/-- The chunk with the zeros that complete its last frame. -/
def padded (pcm : Pcm) : Pcm := pcm ++ DingRtcSession.padding 320 pcm

theorem padded_whole {pcm : Pcm} (whole : 320 ∣ pcm.length) : padded pcm = pcm := by
  have none_ : (320 - pcm.length % 320) % 320 = 0 := by omega
  rw [padded, DingRtcSession.padding, none_, List.replicate_zero, List.append_nil]

/-- The bytes of some frames. -/
def audio (frames : List Handed) : Pcm := (frames.map (·.pcm)).flatten

theorem audio_append (frames later : List Handed) :
    audio (frames ++ later) = audio frames ++ audio later := by
  simp [audio]

end WindowsSession

namespace DingRtcSession

theorem format_pushFrames {s : DingRtcSession} {call : PushCall} : ∀ (offs : List Nat) (i : Nat) (ts : Int),
    ∀ frame ∈ (s.pushFrames call offs i ts).1,
      frame.sampleRate = s.sendSampleRate ∧ frame.channels = s.sendChannels
  | [], _, _, _, member => by cases member
  | off :: rest, i, ts, frame, member => by
      simp only [pushFrames] at member
      split at member
      · rw [List.mem_singleton.mp member]
        exact ⟨rfl, rfl⟩
      · split at member
        · rw [List.mem_singleton.mp member]
          exact ⟨rfl, rfl⟩
        · rcases List.mem_cons.mp member with rfl | later
          · exact ⟨rfl, rfl⟩
          · exact format_pushFrames rest _ _ frame later

/-- The frames of a chunk, at 16 kHz mono. -/
theorem pushAudio_frames {s : DingRtcSession} (call : PushCall) (ready : s.Ready)
    (rate : s.sendSampleRate = 16000) (channels : s.sendChannels = 1)
    (accepted : ∀ i, call.reply i = .accepted) :
    (s.pushAudio call).2 = .pushed ∧
      (∀ frame ∈ (s.pushAudio call).1, WindowsSession.Grid frame) ∧
        WindowsSession.audio (s.pushAudio call).1 = WindowsSession.padded call.pcm := by
  have size : s.frameSize = 320 := by
    rw [frameSize, rate, channels]
    rfl
  obtain ⟨returned, flat⟩ := pushAudio_ready ready accepted
  refine ⟨returned, fun frame member => ?_, ?_⟩
  · have length := ((s.pushAudio_grid call).1 frame member).1
    have format : frame.sampleRate = s.sendSampleRate ∧ frame.channels = s.sendChannels := by
      unfold pushAudio at member
      split_ifs at member
      · cases member
      · cases member
      · cases member
      · cases member
      · exact format_pushFrames _ _ _ frame member
    exact ⟨length.trans size, format.1.trans rate, format.2.trans channels⟩
  · rw [WindowsSession.audio, flat, size]
    rfl

end DingRtcSession

namespace WindowsSession

variable {s : WindowsSession}

/-- A chunk whose first frame an engine that is alive is given. -/
theorem push_alive {x : JoinAttempt} {pcm : Pcm} (timestampMs rc : Int) (attempts : s.attempts = [x])
    (alive : x.handle.engine = true) (joined : s.joined = true) (engine : s.engine = some 0)
    (rate : s.sendSampleRate = 16000 ∧ s.sendChannels = 1) (some_ : pcm ≠ []) :
    ∃ (y : JoinAttempt) (first : Handed) (rest : List Handed), y.handle.engine = true ∧
      y.handle.heard = x.handle.heard ++ [first] ∧ (∀ frame ∈ first :: rest, Grid frame) ∧
        audio (first :: rest) = padded pcm ∧ s.push pcm timestampMs rc =
          { s with attempts := [y], tasks := s.tasks ++ [replied rc rest] } := by
  have ready : s.toPush.Ready := by
    refine ⟨joined, ?_, ?_, ?_⟩
    · rw [toPush, engine]
      rfl
    · rw [show s.toPush.sendSampleRate = 16000 from rate.1]
      decide
    · rw [show s.toPush.sendChannels = 1 from rate.2]
      decide
  obtain ⟨returned, grid, flat⟩ := DingRtcSession.pushAudio_frames
    { pcm := pcm, timestampMs := timestampMs, reply := fun _ => .accepted } ready rate.1 rate.2
    fun _ => rfl
  unfold push
  dsimp only
  rw [returned, engine]
  cases plan : (s.toPush.pushAudio
      { pcm := pcm, timestampMs := timestampMs, reply := fun _ => .accepted }).1 with
  | nil =>
      rw [plan] at flat
      exact absurd (List.append_eq_nil_iff.mp flat.symm).1 some_
  | cons first rest =>
      rw [plan] at grid flat
      obtain ⟨y, alive', heard, same⟩ := pushOn_alive (s := s.addTask .pushed) (i := s.tasks.length)
        rest rc attempts alive (grid first List.mem_cons_self)
      refine ⟨y, first, rest, alive', heard, grid, flat, ?_⟩
      dsimp only
      rw [same]
      simp [addTask, engine]

end WindowsSession

/-! ## What the bridge's calls of the session do -/

namespace WindowsSession

theorem heard_single {s : WindowsSession} {x : JoinAttempt} (attempts : s.attempts = [x]) :
    s.heard = x.handle.heard := by
  rw [heard, attempts, List.flatMap_cons, List.flatMap_nil, List.append_nil]

variable {config : WindowsSessionConfig} {s t : WindowsSession} {i a : Nat} {action : SessionAction}

/-- What the SDK's threads and the clock do: the calls stay where they are. -/
structure Idles (s t : WindowsSession) : Prop where
  tasks : t.tasks = s.tasks
  joined : t.joined = s.joined
  closed : t.closed = s.closed
  engine : t.engine = s.engine

theorem idles_callback {event : JoinEvent} (ran : s.step config (.callback a event) = some t) :
    Idles s t := by
  obtain ⟨x, -, ran⟩ := Option.bind_eq_some_iff.mp ran
  split at ran
  · obtain rfl := Option.some.inj ran
    exact ⟨rfl, rfl, rfl, rfl⟩
  · cases ran

theorem idles_runCallback (ran : s.step config .runCallback = some t) : Idles s t := by
  simp only [step] at ran
  split at ran
  · cases ran
  · obtain rfl := Option.some.inj ran
    exact ⟨rfl, rfl, rfl, rfl⟩

theorem idles_timeout (ran : s.step config (.timeout i) = some t) : Idles s t := by
  simp only [step] at ran
  split at ran
  · obtain ⟨x, -, ran⟩ := Option.bind_eq_some_iff.mp ran
    split at ran
    · cases ran
    · obtain rfl := Option.some.inj ran
      exact ⟨rfl, rfl, rfl, rfl⟩
  · cases ran

/-- The bridge's `join` goes on: it returns, or it raises and has destroyed its engine. -/
theorem resumes_cases (owned : Owned s) (task : s.tasks[i]? = some (.joining a))
    (ran : s.step config (.resumes i) = some t) :
    t.tasks[i]? = some (.joined a) ∧ t.joined = true ∧ t.closed = s.closed ∨
      ∃ error, t.tasks[i]? = some (.failed a error) ∧ t.joined = false ∧ t.engine = none := by
  have known := (List.getElem?_eq_some_iff.mp task).1
  obtain ⟨joined, drainer, -⟩ := owned.waits i a task
  have torn : ∀ error, t = s.teardownPartial i (.join a error) →
      ∃ error, t.tasks[i]? = some (.failed a error) ∧ t.joined = false ∧ t.engine = none := by
    rintro error rfl
    obtain ⟨failed, same, engine⟩ := teardown_join error drainer known
    exact ⟨error, failed, same.trans joined, engine⟩
  simp only [step, task] at ran
  obtain ⟨x, -, ran⟩ := Option.bind_eq_some_iff.mp ran
  unfold settled at ran
  split at ran
  · cases ran
  · exact .inr (torn _ (Option.some.inj ran).symm)
  · exact .inr (torn _ (Option.some.inj ran).symm)
  · split at ran
    · exact .inr (torn _ (Option.some.inj ran).symm)
    · obtain rfl := Option.some.inj ran
      refine .inl ⟨?_, rfl, rfl⟩
      simp only [setTask]
      rw [List.getElem?_set_self known]

/-- The first `join` of a session. -/
theorem join_cases (config : WindowsSessionConfig) (call : JoinCall) :
    (({} : WindowsSession).join config call).heard = [] ∧
      (({} : WindowsSession).join config call).attempts.length = 1 ∧
      (({} : WindowsSession).join config call).closed = false ∧
      (({} : WindowsSession).join config call).joined = false ∧
      (({} : WindowsSession).join config call).sendSampleRate = call.sendSampleRate ∧
      (({} : WindowsSession).join config call).sendChannels = call.sendChannels ∧
      ((({} : WindowsSession).join config call).tasks = [.joining 0] ∨
        ∃ error, (({} : WindowsSession).join config call).tasks = [.raised error] ∧
          (({} : WindowsSession).join config call).engine = none) := by
  unfold join
  rw [if_neg (by decide), if_neg (by decide)]
  dsimp only
  cases made : makeEngine config call with
  | mk h raised =>
      have silent := heard_makeEngine made
      cases raised with
      | some error =>
          refine ⟨?_, rfl, rfl, rfl, rfl, rfl, .inr ⟨_, rfl, rfl⟩⟩
          simp [heard, EngineHandle.heard_destroy, silent]
      | none =>
          refine ⟨?_, rfl, rfl, rfl, rfl, rfl, .inl rfl⟩
          simp [heard, silent]

/-- The bridge's `leave` awaits the drainer. -/
theorem leave_waits (owned : Owned s) (joined : s.joined = true) (open_ : s.closed = false) (rc : Int) :
    (s.leave rc).joined = true ∧ (s.leave rc).closed = false ∧
      (s.leave rc).tasks[s.tasks.length]? = some (.stopping .leave) := by
  obtain ⟨a, engine, drainer, -⟩ := owned.joined joined open_
  have drains : s.drainer.isSome = true := by rw [drainer]; rfl
  unfold leave
  rw [if_neg (by simp [joined]), engine]
  dsimp only
  rw [teardownPartial, if_pos (by exact drains)]
  refine ⟨joined, open_, ?_⟩
  simp [setTask, addTask, setHandle]

/-- The session has left: it is closed and has no engine. -/
theorem left_cases (task : s.tasks[i]? = some (.stopping .leave))
    (ran : s.step config (.goesOn i) = some t) : t.joined = false ∧ t.engine = none := by
  simp only [step, task] at ran
  obtain rfl := Option.some.inj ran
  obtain ⟨attempts, same, -, -⟩ := teardownRest_eq s i .leave
  rw [same]
  exact ⟨rfl, rfl⟩

end WindowsSession

/-! ## The loop's own state -/

namespace Upstream

variable {sp : Scipy} {s t : Upstream} {action : UpAction}

/-- What holds of the loop; a refused frame ends it as `leave` would. -/
structure Fed (sp : Scipy) (s : Upstream) (refused : Bool) : Prop where
  sound : Sound sp { s with stopEvent := s.stopEvent || refused }
  finished : refused = true → ∃ chunk, s.pc = .ended .pushFailed (some chunk)

theorem fed_step {refused : Bool} (fed : Fed sp s refused) (ran : s.step sp action = some t) :
    Fed sp t refused := by
  cases refused with
  | false =>
      have sound : Sound sp s := by simpa using fed.sound
      exact ⟨by simpa using sound_step sound ran, nofun⟩
  | true =>
      obtain ⟨chunk, ended⟩ := fed.finished rfl
      have sound : Sound sp { s with stopEvent := true } := by simpa using fed.sound
      have follows : ({ s with stopEvent := true } : Upstream).step sp action =
            some { t with stopEvent := true } ∧ t.pc = s.pc := by
        cases action with
        | read chunk =>
            simp only [step, pumpRead] at ran ⊢
            split at ran
            · rename_i reading
              obtain rfl := Option.some.inj ran
              rw [if_pos reading]
              split
              · exact ⟨rfl, rfl⟩
              · exact ⟨rfl, rfl⟩
            · cases ran
        | put | close | leave | tapAi =>
            obtain rfl := Option.some.inj ran
            exact ⟨rfl, rfl⟩
        | turn | wake | pushed | backpressure | slept | raises | cancel => simp [step, ended] at ran
      refine ⟨?_, fun _ => ⟨chunk, follows.2.trans ended⟩⟩
      simpa using sound_step sound follows.1

/-- `push_audio` raises: the loop ends with the chunk in hand. -/
theorem fed_refused {chunk resampled : Pcm} (fed : Fed sp s false)
    (pushing : s.pc = .pushing chunk resampled) :
    Fed sp { s with pc := .ended .pushFailed (some chunk) } true := by
  have sound : Sound sp s := by simpa using fed.sound
  have left : s.step sp .leave = some { s with stopEvent := true } := rfl
  have stopped := sound_step sound left
  have raised : ({ s with stopEvent := true } : Upstream).step sp (.raises .other) =
      some { s with stopEvent := true, pc := .ended .pushFailed (some chunk) } := by
    simp [step, pushing]
  refine ⟨?_, fun _ => ⟨chunk, rfl⟩⟩
  simpa using sound_step stopped raised

/-- The stop event of a loop that has not ended says nothing yet. -/
theorem fed_restop {stop : Bool} (fed : Fed sp s false) (goes : ∀ why chunk, s.pc ≠ .ended why chunk) :
    Fed sp { s with stopEvent := stop } false := by
  have sound : Sound sp s := by simpa using fed.sound
  exact ⟨⟨sound.accounts, sound.taken, sound.once, sound.pending,
    fun why chunk ended => absurd ended (goes why chunk)⟩, nofun⟩

end Upstream

namespace Upstream

variable {sp : Scipy} {s t : Upstream} {action : UpAction}

/-- What the loop may be at once it has gone round. -/
inductive Turned (sp : Scipy) : UpPc → Prop
  | loop : Turned sp .loop
  | waiting : Turned sp .waiting
  | ended (why : UpEnd) (other : why ≠ .cancelled) : Turned sp (.ended why none)
  | odd (chunk : Pcm) : Turned sp (.ended .notResampled (some chunk))
  | pushing (chunk resampled : Pcm) (whole : 2 ∣ chunk.length) (some_ : chunk ≠ [])
      (converts : Resampler.upstream.resample sp chunk = .ok resampled) :
      Turned sp (.pushing chunk resampled)

theorem turned_take (sp : Scipy) (s : Upstream) (chunk : Pcm) :
    Turned sp (s.take sp chunk).pc ∧ (s.take sp chunk).pushed = s.pushed ∧
      (s.take sp chunk).stopEvent = s.stopEvent := by
  rcases take_cases sp s chunk with ⟨-, became⟩ | ⟨some_, resampled, converts, became⟩ | ⟨-, became⟩
  · rw [became]
    exact ⟨.loop, rfl, rfl⟩
  · rw [became]
    refine ⟨.pushing chunk resampled ?_ some_ converts, rfl, rfl⟩
    by_contra odd
    obtain ⟨error, fails⟩ := @Resampler.resample_odd sp Resampler.upstream chunk odd
    exact absurd (converts.symm.trans fails) nofun
  · rw [became]
    exact ⟨.odd chunk, rfl, rfl⟩

theorem turned_getNext (sp : Scipy) (s : Upstream) (ring : PcmRingBuffer) :
    Turned sp (s.getNext sp ring).pc ∧ (s.getNext sp ring).pushed = s.pushed ∧
      (s.getNext sp ring).stopEvent = s.stopEvent := by
  unfold getNext
  dsimp only
  split
  · exact turned_take sp _ _
  · exact ⟨.ended .ringClosed nofun, rfl, rfl⟩
  · exact ⟨.waiting, rfl, rfl⟩

/-- The loop goes round. -/
theorem turned_step (turns : action = .turn ∨ action = .wake) (ran : s.step sp action = some t) :
    (s.pc = .loop ∨ s.pc = .waiting) ∧ Turned sp t.pc ∧ t.pushed = s.pushed ∧
      t.stopEvent = s.stopEvent := by
  rcases turns with rfl | rfl
  · simp only [step, Option.ite_none_right_eq_some, Option.some.injEq] at ran
    obtain ⟨atLoop, rfl⟩ := ran
    refine ⟨.inl atLoop, ?_⟩
    split
    · exact ⟨.ended .left (by simp), rfl, rfl⟩
    · exact turned_getNext sp s _
  · simp only [step, Option.ite_none_right_eq_some, Option.some.injEq] at ran
    obtain ⟨woken, rfl⟩ := ran
    exact ⟨.inr woken.1, turned_getNext sp s _⟩

/-- The ring and the recorder's other track, which the loop has no part in. -/
theorem aside_step (aside : (∃ chunk, action = .read chunk ∨ action = .put chunk) ∨ action = .close ∨
      ∃ pcm, action = .tapAi pcm) (ran : s.step sp action = some t) :
    t.pc = s.pc ∧ t.pushed = s.pushed ∧ t.stopEvent = s.stopEvent := by
  rcases aside with ⟨chunk, rfl | rfl⟩ | rfl | ⟨pcm, rfl⟩
  · simp only [step, Option.ite_none_right_eq_some, Option.some.injEq] at ran
    obtain ⟨-, rfl⟩ := ran
    unfold pumpRead
    split
    · exact ⟨rfl, rfl, rfl⟩
    · exact ⟨rfl, rfl, rfl⟩
  all_goals
    obtain rfl := Option.some.inj ran
    exact ⟨rfl, rfl, rfl⟩

/-- The loop is cancelled, unless it has ended. -/
theorem cancel_cases (sp : Scipy) (s : Upstream) (passesOn : Bool) :
    (∃ why inHand, s.pc = .ended why inHand) ∧ s.step sp (.cancel passesOn) = none ∨
      ∃ t, s.step sp (.cancel passesOn) = some t ∧ t.pc = .ended .cancelled s.inHand ∧
        t.pushed = s.pushed ∧ t.stopEvent = s.stopEvent := by
  cases pc : s.pc with
  | ended why inHand => exact .inl ⟨⟨why, inHand, rfl⟩, by simp only [step, pc]⟩
  | loop | waiting | pushing | sleeping =>
      cases ran : s.step sp (.cancel passesOn) with
      | none => simp [step, pc] at ran
      | some t =>
          simp only [step, pc, Option.some.injEq] at ran
          subst ran
          exact .inr ⟨_, rfl, by simp [inHand, pc], rfl, rfl⟩

end Upstream

end IsalesTelephony.Audio
