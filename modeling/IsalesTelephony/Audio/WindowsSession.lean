/-
# Audio.WindowsSession -- joining, leaving and pushing on Windows

`WindowsDingRtcSession.join` makes an engine, sets it up and waits for the SDK's callbacks, which
come on the SDK's threads and settle a future on the loop.  `leave`, and a `join` that fails,
stop the drainer and destroy the engine; `push_audio` holds on to the engine it found while it
sleeps between two frames.

A session's calls run at once, in any number.  Whatever they do, the calls an engine has make a
life the SDK allows (`engine_calls_lawful`).
-/
import IsalesTelephony.Audio.EngineHandle

namespace IsalesTelephony.Audio

set_option autoImplicit false

open IsalesTelephony.Theory
open IsalesTelephony.Theory.Transition

/-- `POSITION_REMOTE_USER` -/
def positionRemoteUser : Nat := 16

/-- The arguments of `WindowsDingRtcSession`; it raises `ValueError` without an AppId. -/
structure WindowsSessionConfig where
  appId : String
  gslbServer : String := "https://gslb.dingrtc.com"
  appId_nonempty : appId ≠ ""

/-- What the SDK calls back. -/
inductive JoinEvent where
  /-- `OnJoinChannelResult` -/
  | joinResult (rc : Int)
  /-- `OnOccurError` -/
  | error (code : Int) (message : String)
  deriving DecidableEq

inductive JoinFuture where
  | pending
  | result (rc : Int)
  | exception (code : Int) (message : String)
  /-- with `wait_for` -/
  | cancelled
  deriving DecidableEq

namespace JoinFuture

/-- `_safe_set_result`, `_safe_set_exception` -/
def settle : JoinFuture → JoinEvent → JoinFuture
  | .pending, .joinResult rc => .result rc
  | .pending, .error code message => .exception code message
  | done, _ => done

def cancel : JoinFuture → JoinFuture
  | .pending => .cancelled
  | done => done

end JoinFuture

/-- What may come to a `join` that waits. -/
inductive JoinNotice where
  /-- the loop runs a callback -/
  | callback (event : JoinEvent)
  /-- the time of `wait_for` is over -/
  | timeout
  | cancelled
  deriving DecidableEq

/-- What a `join` that got past its checks made. -/
structure JoinAttempt where
  handle : EngineHandle
  /-- the listener's slots are set -/
  callbacks : Bool := true
  future : JoinFuture := .pending

/-- What a `join` raises that has waited. -/
inductive JoinError where
  | timedOut
  | joinError (code : Int) (message : String)
  | joinResult (rc : Int)
  deriving DecidableEq

inductive RtcError where
  | alreadyJoined
  | closed
  | setupFailed (error : DingRtcError)
  | notJoined
  | pushFailed (error : DingRtcError)
  deriving DecidableEq

/-- Whose `_teardown_partial` it is. -/
inductive Teardown where
  | join (a : Nat) (error : JoinError)
  | leave
  deriving DecidableEq

/-- Where a call of the session is, or how it ended. -/
inductive SessionTask where
  /-- `join`, in `wait_for` -/
  | joining (a : Nat)
  /-- awaits the cancelled drainer -/
  | stopping (teardown : Teardown)
  /-- `push_audio`, between two frames; these are to come -/
  | pushing (a : Nat) (frames : List Handed)
  /-- `join` returned -/
  | joined (a : Nat)
  /-- `join` has waited, and raised -/
  | failed (a : Nat) (error : JoinError)
  | left
  | pushed
  | raised (error : RtcError)
  /-- the `ValueError` of `range` -/
  | valueError
  | cancelled
  deriving DecidableEq

def SessionTask.raises : SessionTask → Bool
  | .raised _ | .failed _ _ => true
  | _ => false

structure WindowsSession where
  attempts : List JoinAttempt := []
  engine : Option Nat := none
  listener : Option Nat := none
  joined : Bool := false
  closed : Bool := false
  sendSampleRate : Int := 16000
  sendChannels : Int := 1
  /-- the task that the `join` of this attempt started -/
  drainer : Option Nat := none
  /-- what `call_soon_threadsafe` was given and the loop has not run -/
  scheduled : List (Nat × JoinEvent) := []
  tasks : List SessionTask := []
  /-- history: what came, for which attempt's `join` -/
  came : List (Nat × JoinNotice) := []

/-- The arguments of `join`, and what the SDK replies. -/
structure JoinCall where
  channel : String
  token : String
  uid : String
  sendSampleRate : Int := 16000
  sendChannels : Int := 1
  /-- the SDK has an engine to give -/
  given : Bool := true
  rcs : Nat → Int := fun _ => 0

inductive SessionAction where
  | join (call : JoinCall)
  /-- the SDK calls back on a thread of its own -/
  | callback (a : Nat) (event : JoinEvent)
  /-- the loop runs the first scheduled callback -/
  | runCallback
  /-- the time of `wait_for` is over -/
  | timeout (i : Nat)
  /-- `wait_for` returns -/
  | resumes (i : Nat)
  | leave (rc : Int)
  /-- the drainer that is awaited is over -/
  | goesOn (i : Nat)
  | push (pcm : Pcm) (timestampMs rc : Int)
  | pushResumes (i : Nat) (rc : Int)
  | cancel (i : Nat)

namespace WindowsSession

def addTask (s : WindowsSession) (task : SessionTask) : WindowsSession :=
  { s with tasks := s.tasks ++ [task] }

def setTask (s : WindowsSession) (i : Nat) (task : SessionTask) : WindowsSession :=
  { s with tasks := s.tasks.set i task }

def setHandle (s : WindowsSession) (a : Nat) (f : EngineHandle → EngineHandle) : WindowsSession :=
  { s with attempts := s.attempts.modify a fun x => { x with handle := f x.handle } }

def setFuture (s : WindowsSession) (a : Nat) (f : JoinFuture → JoinFuture) : WindowsSession :=
  { s with attempts := s.attempts.modify a fun x => { x with future := f x.future } }

/-- The calls between `create` and `join_channel`. -/
def setUp (call : JoinCall) : List (EngineHandle → Int → EngineHandle.Result) :=
  [EngineHandle.setEventListener, EngineHandle.registerAudioObserver,
    EngineHandle.enableAudioFrameObserver true positionRemoteUser,
    EngineHandle.enableCustomAudioCapture true,
    EngineHandle.setExternalAudioSource true call.sendSampleRate call.sendChannels,
    EngineHandle.publishLocalAudioStream true, EngineHandle.publishLocalVideoStream false,
    EngineHandle.subscribeAllRemoteAudioStreams true]

def makeEngine (config : WindowsSessionConfig) (call : JoinCall) : EngineHandle.Result :=
  match EngineHandle.create {} call.given with
  | (h, none) =>
      h.attempt (setUp call ++ [EngineHandle.joinChannel (EngineHandle.authInfo call.channel call.uid
        config.appId call.token config.gslbServer call.uid)]) call.rcs
  | raised => raised

/-- `join`, up to `wait_for`. -/
def join (config : WindowsSessionConfig) (s : WindowsSession) (call : JoinCall) : WindowsSession :=
  if s.joined then s.addTask (.raised .alreadyJoined)
  else if s.closed then s.addTask (.raised .closed)
  else
    let s := { s with sendSampleRate := call.sendSampleRate, sendChannels := call.sendChannels }
    match makeEngine config call with
    | (h, some error) =>
        { s.addTask (.raised (.setupFailed error)) with
          attempts := s.attempts ++ [{ handle := h.destroy }] }
    | (h, none) =>
        { s.addTask (.joining s.attempts.length) with
          attempts := s.attempts ++ [{ handle := h }]
          engine := some s.attempts.length
          listener := some s.attempts.length }

/-- What a call does once `_teardown_partial` is over. -/
def finish (s : WindowsSession) (i : Nat) : Teardown → WindowsSession
  | .join a error => s.setTask i (.failed a error)
  | .leave => { s.setTask i .left with joined := false, closed := true }

def destroyEngine (s : WindowsSession) : WindowsSession :=
  match s.engine with
  | some a => { s.setHandle a fun h => h.unregisterAudioObserver.destroy with engine := none }
  | none => s

def clearCallbacks (s : WindowsSession) : WindowsSession :=
  match s.listener with
  | some a =>
      { s with
        attempts := s.attempts.modify a fun x => { x with callbacks := false }
        listener := none }
  | none => s

/-- `_teardown_partial` after the drainer, and what comes after it. -/
def teardownRest (s : WindowsSession) (i : Nat) (teardown : Teardown) : WindowsSession :=
  finish { s.destroyEngine.clearCallbacks with drainer := none } i teardown

/-- `_teardown_partial`, up to the drainer's end if there is one. -/
def teardownPartial (s : WindowsSession) (i : Nat) (teardown : Teardown) : WindowsSession :=
  if s.drainer.isSome then s.setTask i (.stopping teardown) else s.teardownRest i teardown

def leave (s : WindowsSession) (rc : Int) : WindowsSession :=
  if s.joined = false ∧ s.closed then s.addTask .left
  else
    let t := match s.engine with
      | some a => s.setHandle a fun h => (h.leaveChannel rc).1
      | none => s
    (t.addTask (.stopping .leave)).teardownPartial s.tasks.length .leave

/-- `wait_for` has its future. -/
def settled (s : WindowsSession) (i a : Nat) : JoinFuture → Option WindowsSession
  | .pending => none
  | .cancelled => some (s.teardownPartial i (.join a .timedOut))
  | .exception code message => some (s.teardownPartial i (.join a (.joinError code message)))
  | .result rc =>
      if rc ≠ 0 then some (s.teardownPartial i (.join a (.joinResult rc)))
      else some { s.setTask i (.joined a) with drainer := some a, joined := true }

/-- The loop of `push_audio`, up to its next sleep. -/
def pushOn (s : WindowsSession) (i a : Nat) (rc : Int) : List Handed → WindowsSession
  | [] => s.setTask i .pushed
  | frame :: rest =>
      match s.attempts[a]? with
      | none => s
      | some x =>
          let t := s.setHandle a fun h => (h.pushExternalAudio frame rc).1
          match (x.handle.pushExternalAudio frame rc).2 with
          | some error => t.setTask i (.raised (.pushFailed error))
          | none => t.setTask i (if rest = [] then .pushed else .pushing a rest)

/-- What `push_audio` reads of the session. -/
def toPush (s : WindowsSession) : DingRtcSession where
  joined := s.joined
  engine := s.engine.isSome
  sendSampleRate := s.sendSampleRate
  sendChannels := s.sendChannels

def push (s : WindowsSession) (pcm : Pcm) (timestampMs rc : Int) : WindowsSession :=
  let plan := s.toPush.pushAudio
    { pcm := pcm, timestampMs := timestampMs, reply := fun _ => .accepted }
  match plan.2, s.engine with
  | .notJoined, _ | _, none => s.addTask (.raised .notJoined)
  | .noGrid, _ => s.addTask .valueError
  | _, some a => (s.addTask .pushed).pushOn s.tasks.length a rc plan.1

/-- The time of `wait_for` is over before it has returned.  In CPython 3.12 the timer cancels its
task, so it raises `TimeoutError` also where its future is done. -/
def expire (s : WindowsSession) (a : Nat) : WindowsSession :=
  { s.setFuture a (fun _ => .cancelled) with came := s.came ++ [(a, .timeout)] }

/-- `wait_for` is cancelled, and its future with it. -/
def giveUp (s : WindowsSession) (a : Nat) : WindowsSession :=
  { s.setFuture a JoinFuture.cancel with came := s.came ++ [(a, .cancelled)] }

def cancel (s : WindowsSession) (i : Nat) : SessionTask → Option WindowsSession
  | .joining a => some ((s.giveUp a).setTask i .cancelled)
  -- the `suppress` around the await swallows it
  | .stopping teardown => some (s.teardownRest i teardown)
  | .pushing _ _ => some (s.setTask i .cancelled)
  | _ => none

def step (config : WindowsSessionConfig) (s : WindowsSession) : SessionAction → Option WindowsSession
  | .join call => some (s.join config call)
  | .callback a event =>
      s.attempts[a]?.bind fun x =>
        if x.callbacks then some { s with scheduled := s.scheduled ++ [(a, event)] } else none
  | .runCallback =>
      match s.scheduled with
      | [] => none
      | (a, event) :: rest =>
          some { s.setFuture a (fun future => future.settle event) with
            scheduled := rest
            came := s.came ++ [(a, .callback event)] }
  | .timeout i =>
      match s.tasks[i]? with
      | some (.joining a) =>
          s.attempts[a]?.bind fun x =>
            if x.future = .cancelled then none else some (s.expire a)
      | _ => none
  | .resumes i =>
      match s.tasks[i]? with
      | some (.joining a) => s.attempts[a]?.bind fun x => s.settled i a x.future
      | _ => none
  | .leave rc => some (s.leave rc)
  | .goesOn i =>
      match s.tasks[i]? with
      | some (.stopping teardown) => some (s.teardownRest i teardown)
      | _ => none
  | .push pcm timestampMs rc => some (s.push pcm timestampMs rc)
  | .pushResumes i rc =>
      match s.tasks[i]? with
      | some (.pushing a frames) => some (s.pushOn i a rc frames)
      | _ => none
  | .cancel i => s.tasks[i]?.bind fun task => s.cancel i task

variable {config : WindowsSessionConfig} {s t u : WindowsSession} {call : JoinCall}
  {action : SessionAction} {i a k : Nat} {rc : Int} {teardown : Teardown}

/-! ## The moves -/

/-- A `join` that waits finds this in its future when it raises the error. -/
def Explains (s : WindowsSession) (a : Nat) (error : JoinError) : Prop :=
  (∃ i : Nat, s.tasks[i]? = some (.joining a)) ∧ ∃ x, s.attempts[a]? = some x ∧
    match error with
    | .timedOut => x.future = .cancelled
    | .joinError code message => x.future = .exception code message
    | .joinResult rc => rc ≠ 0 ∧ x.future = .result rc

/-- A `push_audio` has found this engine. -/
def Pushes (s : WindowsSession) (a : Nat) : Prop :=
  s.joined = true ∧ s.engine = some a ∨
    ∃ i : Nat, ∃ frames, s.tasks[i]? = some (.pushing a frames)

/-- A task may come to be there. -/
def Fits (s : WindowsSession) : SessionTask → Prop
  | .joining _ | .joined _ | .failed _ _ => False
  | .stopping (.join a error) => s.Explains a error ∧ s.drainer ≠ none
  | .pushing a _ => s.Pushes a
  | _ => True

/-- A task is at the end of `_teardown_partial`'s wait, or has none. -/
def Tears (s : WindowsSession) (i : Nat) (teardown : Teardown) : Prop :=
  s.tasks[i]? = some (.stopping teardown) ∨
    ∃ a error, teardown = .join a error ∧ s.tasks[i]? = some (.joining a) ∧ s.drainer = none ∧
      s.Explains a error

/-- What the steps are made of; `ok` is to hold where an engine is made. -/
inductive Move (config : WindowsSessionConfig) (ok : WindowsSession → Prop) (s : WindowsSession) :
    WindowsSession → Prop
  | adds (task : SessionTask) (fits : s.Fits task) : Move config ok s (s.addTask task)
  | sets (i : Nat) (task : SessionTask) (fits : s.Fits task) : Move config ok s (s.setTask i task)
  | leaves (a : Nat) (rc : Int) :
      Move config ok s (s.setHandle a fun h => (h.leaveChannel rc).1)
  | pushes (a : Nat) (frame : Handed) (rc : Int) (found : s.Pushes a) :
      Move config ok s (s.setHandle a fun h => (h.pushExternalAudio frame rc).1)
  | tears (i : Nat) (teardown : Teardown) (who : s.Tears i teardown) :
      Move config ok s (s.teardownRest i teardown)
  | calls (a : Nat) (event : JoinEvent) (known : a < s.attempts.length) :
      Move config ok s { s with scheduled := s.scheduled ++ [(a, event)] }
  | runs (a : Nat) (event : JoinEvent) (rest : List (Nat × JoinEvent))
      (first : s.scheduled = (a, event) :: rest) :
      Move config ok s { s.setFuture a (fun future => future.settle event) with
        scheduled := rest, came := s.came ++ [(a, .callback event)] }
  | timesOut (a : Nat) (known : a < s.attempts.length) :
      Move config ok s (s.expire a)
  | abandons (i a : Nat) (task : s.tasks[i]? = some (.joining a)) :
      Move config ok s ((s.giveUp a).setTask i .cancelled)
  | returns (i a : Nat) (x : JoinAttempt) (task : s.tasks[i]? = some (.joining a))
      (here : s.attempts[a]? = some x) (zero : x.future = .result 0) :
      Move config ok s { s.setTask i (.joined a) with drainer := some a, joined := true }
  | rates (sampleRate channels : Int) :
      Move config ok s { s with sendSampleRate := sampleRate, sendChannels := channels }
  | fails (call : JoinCall) (h : EngineHandle) (error : DingRtcError)
      (made : makeEngine config call = (h, some error)) :
      Move config ok s { s with attempts := s.attempts ++ [{ handle := h.destroy }] }
  | joins (call : JoinCall) (h : EngineHandle) (made : makeEngine config call = (h, none))
      (open_ : s.joined = false ∧ s.closed = false) (allowed : ok s) :
      Move config ok s { s.addTask (.joining s.attempts.length) with
        attempts := s.attempts ++ [{ handle := h }]
        engine := some s.attempts.length
        listener := some s.attempts.length }

section
variable {ok : WindowsSession → Prop}

theorem Pushes.setHandle {f : EngineHandle → EngineHandle} (found : s.Pushes k) :
    (s.setHandle a f).Pushes k := found

/-- `push_audio` on, from its first frame or from a sleep. -/
theorem moves_pushOn {frames : List Handed} (found : s.Pushes a) :
    Relation.ReflTransGen (Move config ok) s (s.pushOn i a rc frames) := by
  cases frames with
  | nil => exact .single (.sets i .pushed trivial)
  | cons frame rest =>
      simp only [pushOn]
      split
      · exact .refl
      · have handed : Relation.ReflTransGen (Move config ok) s
            (s.setHandle a fun h => (h.pushExternalAudio frame rc).1) :=
          .single (.pushes a frame rc found)
        split
        · exact handed.tail (.sets i _ trivial)
        · refine handed.tail (.sets i _ ?_)
          split
          · trivial
          · exact found

theorem moves_teardown {error : JoinError} (task : s.tasks[i]? = some (.joining a))
    (explains : s.Explains a error) :
    Relation.ReflTransGen (Move config ok) s (s.teardownPartial i (.join a error)) := by
  unfold teardownPartial
  split
  · rename_i drainer
    exact .single (.sets i _ ⟨explains, Option.isSome_iff_ne_none.mp drainer⟩)
  · rename_i drainer
    refine .single (.tears i _ (.inr ⟨a, error, rfl, task, ?_, explains⟩))
    exact Option.not_isSome_iff_eq_none.mp drainer

theorem moves_settled {x : JoinAttempt} (task : s.tasks[i]? = some (.joining a))
    (here : s.attempts[a]? = some x) (ran : s.settled i a x.future = some t) :
    Relation.ReflTransGen (Move config ok) s t := by
  cases future : x.future with
  | pending =>
      rw [future] at ran
      cases ran
  | cancelled =>
      rw [future] at ran
      obtain rfl := Option.some.inj ran
      exact moves_teardown task ⟨⟨i, task⟩, x, here, future⟩
  | exception code message =>
      rw [future] at ran
      obtain rfl := Option.some.inj ran
      exact moves_teardown task ⟨⟨i, task⟩, x, here, future⟩
  | result rc =>
      rw [future] at ran
      simp only [settled] at ran
      split at ran
      · rename_i nonzero
        obtain rfl := Option.some.inj ran
        exact moves_teardown task ⟨⟨i, task⟩, x, here, nonzero, future⟩
      · rename_i zero
        obtain rfl := Option.some.inj ran
        obtain rfl := Decidable.not_not.mp zero
        exact .single (.returns i a x task here future)

theorem moves_leave : Relation.ReflTransGen (Move config ok) s (s.leave rc) := by
  unfold leave
  split
  · exact .single (.adds .left trivial)
  · dsimp only
    -- `leave_channel` first, if there is an engine
    have told : ∀ t : WindowsSession, Relation.ReflTransGen (Move config ok) s t →
        t.tasks = s.tasks → Relation.ReflTransGen (Move config ok) s
          ((t.addTask (.stopping .leave)).teardownPartial s.tasks.length .leave) := by
      intro t before same
      have waits := before.tail (.adds (.stopping .leave) trivial)
      unfold teardownPartial
      split
      · exact waits.tail (.sets _ _ trivial)
      · refine waits.tail (.tears _ _ (.inl ?_))
        rw [addTask, same]
        exact List.getElem?_concat_length
    split
    · exact told _ (.single (.leaves _ rc)) rfl
    · exact told _ .refl rfl

theorem moves_join (allowed : s.joined = false → s.closed = false → ok s)
    (rated : ∀ sampleRate channels, ok s →
      ok { s with sendSampleRate := sampleRate, sendChannels := channels }) :
    Relation.ReflTransGen (Move config ok) s (s.join config call) := by
  unfold join
  split
  · exact .single (.adds _ trivial)
  · rename_i joined
    split
    · exact .single (.adds _ trivial)
    · rename_i closed
      have open_ := And.intro (Bool.eq_false_of_not_eq_true joined)
        (Bool.eq_false_of_not_eq_true closed)
      have rates : Relation.ReflTransGen (Move config ok) s _ :=
        .single (.rates call.sendSampleRate call.sendChannels)
      dsimp only
      split
      · rename_i h error made
        exact (rates.tail (.fails call h error made)).tail (.adds (.raised (.setupFailed error)) trivial)
      · rename_i h made
        exact rates.tail (.joins call h made open_ (rated _ _ (allowed open_.1 open_.2)))

theorem moves_push {pcm : Pcm} {timestampMs : Int} :
    Relation.ReflTransGen (Move config ok) s (s.push pcm timestampMs rc) := by
  unfold push
  dsimp only
  split
  · exact .single (.adds _ trivial)
  · exact .single (.adds _ trivial)
  · exact .single (.adds _ trivial)
  · rename_i a engine notJoined _
    have joined : s.joined = true := by
      by_contra away
      refine notJoined ?_
      simp [DingRtcSession.pushAudio, toPush, Bool.eq_false_of_not_eq_true away]
    exact .trans (.single (.adds .pushed trivial)) (moves_pushOn (.inl ⟨joined, engine⟩))

theorem moves_cancel {task : SessionTask} (here : s.tasks[i]? = some task)
    (ran : s.cancel i task = some t) : Relation.ReflTransGen (Move config ok) s t := by
  cases task with
  | joining a =>
      obtain rfl := Option.some.inj ran
      exact .single (.abandons i a here)
  | stopping teardown =>
      obtain rfl := Option.some.inj ran
      exact .single (.tears i teardown (.inl here))
  | pushing a frames =>
      obtain rfl := Option.some.inj ran
      exact .single (.sets i .cancelled trivial)
  | joined | failed | left | pushed | raised | valueError | cancelled => cases ran

/-- A step is made of moves. -/
theorem moves_of_step (ran : step config s action = some t)
    (allowed : ∀ call, action = .join call → s.joined = false → s.closed = false → ok s)
    (rated : ∀ sampleRate channels, ok s →
      ok { s with sendSampleRate := sampleRate, sendChannels := channels }) :
    Relation.ReflTransGen (Move config ok) s t := by
  cases action with
  | join call =>
      obtain rfl := Option.some.inj ran
      exact moves_join (allowed call rfl) rated
  | callback a event =>
      obtain ⟨x, here, ran⟩ := Option.bind_eq_some_iff.mp ran
      split at ran
      · obtain rfl := Option.some.inj ran
        exact .single (.calls a event (List.getElem?_eq_some_iff.mp here).1)
      · cases ran
  | runCallback =>
      simp only [step] at ran
      split at ran
      · cases ran
      · rename_i a event rest first
        obtain rfl := Option.some.inj ran
        exact .single (.runs a event rest first)
  | timeout i =>
      simp only [step] at ran
      split at ran
      · rename_i a task
        obtain ⟨x, here, ran⟩ := Option.bind_eq_some_iff.mp ran
        split at ran
        · cases ran
        · obtain rfl := Option.some.inj ran
          exact .single (.timesOut a (List.getElem?_eq_some_iff.mp here).1)
      · cases ran
  | resumes i =>
      simp only [step] at ran
      split at ran
      · rename_i a task
        obtain ⟨x, here, ran⟩ := Option.bind_eq_some_iff.mp ran
        exact moves_settled task here ran
      · cases ran
  | leave rc =>
      obtain rfl := Option.some.inj ran
      exact moves_leave
  | goesOn i =>
      simp only [step] at ran
      split at ran
      · rename_i teardown task
        obtain rfl := Option.some.inj ran
        exact .single (.tears i teardown (.inl task))
      · cases ran
  | push pcm timestampMs rc =>
      obtain rfl := Option.some.inj ran
      exact moves_push
  | pushResumes i rc =>
      simp only [step] at ran
      split at ran
      · rename_i a frames task
        obtain rfl := Option.some.inj ran
        exact moves_pushOn (.inr ⟨i, frames, task⟩)
      · cases ran
  | cancel i =>
      obtain ⟨task, here, ran⟩ := Option.bind_eq_some_iff.mp ran
      exact moves_cancel here ran

end

/-- What each move keeps holds in every state. -/
theorem holds_of_moves {P : WindowsSession → Prop} (start : P {})
    (move : ∀ s t, P s → Move config (fun _ => True) s t → P t)
    (reached : Reachable (step config) Free {} s) : P s := by
  refine reached.invariant start fun s action t holds _ ran => ?_
  have moves : Relation.ReflTransGen (Move config fun _ => True) s t :=
    moves_of_step ran (fun _ _ _ _ => trivial) fun _ _ _ => trivial
  clear ran
  induction moves with
  | refl => exact holds
  | tail _ last ih => exact move _ _ ih last

/-! ## What the SDK is asked -/

theorem attempts_setHandle {f : EngineHandle → EngineHandle} :
    (s.setHandle a f).attempts[k]? =
      s.attempts[k]?.map fun x => if a = k then { x with handle := f x.handle } else x := by
  rw [setHandle, List.getElem?_modify]
  split <;> rfl

theorem attempts_setFuture {f : JoinFuture → JoinFuture} :
    (s.setFuture a f).attempts[k]? =
      s.attempts[k]?.map fun x => if a = k then { x with future := f x.future } else x := by
  rw [setFuture, List.getElem?_modify]
  split <;> rfl

/-- `_teardown_partial` destroys the session's engine, and settles nothing. -/
theorem teardownRest_eq (s : WindowsSession) (i : Nat) (teardown : Teardown) :
    ∃ attempts : List JoinAttempt,
    s.teardownRest i teardown =
      finish { s with attempts := attempts, engine := none, listener := none, drainer := none }
        i teardown ∧
    attempts.length = s.attempts.length ∧
    ∀ (k : Nat) (x : JoinAttempt), attempts[k]? = some x → ∃ old, s.attempts[k]? = some old ∧
      x.future = old.future ∧ x.handle = if s.engine = some k then
        old.handle.unregisterAudioObserver.destroy else old.handle := by
  have destroyed : ∃ attempts : List JoinAttempt,
      s.destroyEngine = { s with attempts := attempts, engine := none } ∧
      attempts.length = s.attempts.length ∧
      ∀ (k : Nat) (x : JoinAttempt), attempts[k]? = some x → ∃ old, s.attempts[k]? = some old ∧
        x.future = old.future ∧ x.handle = if s.engine = some k then
          old.handle.unregisterAudioObserver.destroy else old.handle := by
    cases engine : s.engine with
    | none =>
        refine ⟨s.attempts, ?_, rfl, fun k x here => ⟨x, here, rfl, rfl⟩⟩
        simp only [destroyEngine, engine]
        rw [← engine]
    | some a =>
        refine ⟨_, by simp only [destroyEngine, engine]; rfl, List.length_modify .., ?_⟩
        intro k x here
        rw [List.getElem?_modify] at here
        obtain ⟨old, before, rfl⟩ := Option.map_eq_some_iff.mp here
        refine ⟨old, before, ?_⟩
        by_cases own : a = k
        · simp only [own, if_true, and_self]
        · simp only [own, Option.some.injEq, if_false, and_self]
  obtain ⟨attempts, same, length, old⟩ := destroyed
  unfold teardownRest
  rw [same]
  cases listener : s.listener with
  | none =>
      refine ⟨attempts, ?_, length, old⟩
      simp only [clearCallbacks]
  | some a =>
      refine ⟨attempts.modify a fun x => { x with callbacks := false }, ?_, ?_, ?_⟩
      · simp only [clearCallbacks]
      · rw [List.length_modify, length]
      · intro k x here
        rw [List.getElem?_modify] at here
        obtain ⟨y, there, rfl⟩ := Option.map_eq_some_iff.mp here
        obtain ⟨before, isBefore, future, handle⟩ := old k y there
        refine ⟨before, isBefore, ?_⟩
        split
        · exact ⟨future, handle⟩
        · exact ⟨future, handle⟩

/-- What the set-up does is complete. -/
theorem setsUp_setUp (call : JoinCall) : List.Forall₂ EngineHandle.SetsUp (setUp call)
    [fun made => { made with listener := true }, fun made => { made with observer := true },
      fun made => { made with observes := true }, fun made => { made with customCapture := true },
      fun made => { made with externalSource := true },
      fun made => { made with publishesAudio := true }, fun made => { made with noVideo := true },
      fun made => { made with subscribes := true }] :=
  .cons EngineHandle.setsUp_setEventListener <| .cons EngineHandle.setsUp_registerAudioObserver <|
    .cons (EngineHandle.setsUp_enableAudioFrameObserver true positionRemoteUser) <|
    .cons (EngineHandle.setsUp_enableCustomAudioCapture true) <|
    .cons (EngineHandle.setsUp_setExternalAudioSource true _ _) <|
    .cons (EngineHandle.setsUp_publishLocalAudioStream true) <|
    .cons (EngineHandle.setsUp_publishLocalVideoStream false) <|
    .cons (EngineHandle.setsUp_subscribeAllRemoteAudioStreams true) .nil

/-- An engine that `join` makes is in its channel, or is destroyed. -/
theorem kept_makeEngine {h : EngineHandle} {raised : Option DingRtcError}
    (made : makeEngine config call = (h, raised)) :
    (raised = none ∧ ∃ l o, h.Lives (.channel l o)) ∨ raised ≠ none ∧ h.destroy.Kept := by
  unfold makeEngine at made
  by_cases given : call.given = true
  · have created := EngineHandle.lives_create EngineHandle.lives_fresh
    rw [given] at made
    rcases EngineHandle.lives_attempt (setsUp_setUp call) rfl created made with
      ⟨none_, inChannel⟩ | ⟨some_, l, lives⟩
    · exact .inl ⟨none_, inChannel⟩
    · exact .inr ⟨some_, .inr (.inl (EngineHandle.lives_destroy lives rfl))⟩
  · rw [Bool.eq_false_of_not_eq_true given] at made
    cases made
    exact .inr ⟨nofun, .inl EngineHandle.lives_fresh⟩

/-- Each handle of the session is kept as the binding asks. -/
def Handled (s : WindowsSession) : Prop :=
  ∀ (k : Nat) (x : JoinAttempt), s.attempts[k]? = some x → x.handle.Kept

theorem handled_setHandle {f : EngineHandle → EngineHandle} (handled : s.Handled)
    (kept : ∀ h, h.Kept → (f h).Kept) : (s.setHandle a f).Handled := by
  intro k x here
  rw [attempts_setHandle] at here
  obtain ⟨old, there, rfl⟩ := Option.map_eq_some_iff.mp here
  have holds := handled k old there
  split
  · exact kept _ holds
  · exact holds

theorem handled_setFuture {f : JoinFuture → JoinFuture} (handled : s.Handled) :
    (s.setFuture a f).Handled := by
  intro k x here
  rw [attempts_setFuture] at here
  obtain ⟨old, there, rfl⟩ := Option.map_eq_some_iff.mp here
  have holds := handled k old there
  split
  · exact holds
  · exact holds

theorem handled_append {x : JoinAttempt} (handled : s.Handled) (kept : x.handle.Kept)
    (attempts : t.attempts = s.attempts ++ [x]) : t.Handled := by
  intro k y here
  rw [attempts] at here
  rcases List.mem_append.mp (List.mem_of_getElem? here) with old | new
  · obtain ⟨j, there⟩ := List.mem_iff_getElem?.mp old
    exact handled j y there
  · rw [List.mem_singleton.mp new]
    exact kept

theorem handled_move {ok : WindowsSession → Prop} (handled : s.Handled)
    (move : Move config ok s t) : t.Handled := by
  cases move with
  | adds | sets | calls | returns | rates => exact handled
  | leaves a rc => exact handled_setHandle handled fun _ => EngineHandle.kept_leaveChannel
  | pushes a frame rc =>
      exact handled_setHandle handled fun _ => EngineHandle.kept_pushExternalAudio
  | tears i teardown who =>
      obtain ⟨attempts, same, -, before⟩ := teardownRest_eq s i teardown
      have kept : ∀ (k : Nat) (x : JoinAttempt), attempts[k]? = some x → x.handle.Kept := by
        intro k x here
        obtain ⟨old, there, -, handle⟩ := before k x here
        have kept := handled k old there
        rw [handle]
        split
        · exact EngineHandle.kept_destroy kept
        · exact kept
      rw [same]
      cases teardown with
      | join | leave => exact kept
  | runs a event rest first =>
      have settled : (s.setFuture a fun future => future.settle event).Handled :=
        handled_setFuture handled
      exact settled
  | timesOut a =>
      have expired : (s.setFuture a fun _ => .cancelled).Handled := handled_setFuture handled
      exact expired
  | abandons i a =>
      have given : (s.setFuture a JoinFuture.cancel).Handled := handled_setFuture handled
      exact given
  | fails call h error made =>
      rcases kept_makeEngine made with ⟨none_, -⟩ | ⟨-, kept⟩
      · cases none_
      · exact handled_append handled kept rfl
  | joins call h made =>
      rcases kept_makeEngine made with ⟨-, inChannel⟩ | ⟨some_, -⟩
      · exact handled_append handled (.inr (.inr inChannel)) rfl
      · exact absurd rfl some_

/-- **The SDK is asked nothing it does not allow.**  Whatever calls of a session run at once,
whatever the SDK replies and calls back, and whichever are cancelled: the calls on each engine
are a life the SDK allows; one the binding holds has come into its channel, and one it holds no
more has had its last call. -/
theorem engine_calls_lawful (config : WindowsSessionConfig) (s : WindowsSession)
    (reached : Reachable (step config) Free {} s) :
    ∀ x ∈ s.attempts, ∃ life, run EngineLife.next .fresh x.handle.calls = some life ∧
      (x.handle.engine = true → ∃ listener observer, life = .channel listener observer) ∧
      (x.handle.engine = false → life = .fresh ∨ life = .gone) := by
  have handled : s.Handled :=
    holds_of_moves nofun (fun _ _ handled move => handled_move handled move) reached
  intro x member
  obtain ⟨k, here⟩ := List.mem_iff_getElem?.mp member
  rcases handled k x here with fresh | gone | ⟨l, o, inChannel⟩
  · exact ⟨.fresh, fresh.calls, fun alive => absurd (alive.symm.trans fresh.engine) nofun,
      fun _ => .inl rfl⟩
  · exact ⟨.gone, gone.calls, fun alive => absurd (alive.symm.trans gone.engine) nofun,
      fun _ => .inr rfl⟩
  · refine ⟨.channel l o, inChannel.calls, fun _ => ⟨l, o, rfl⟩, fun dead => ?_⟩
    exact absurd (dead.symm.trans inChannel.engine) nofun

end WindowsSession

end IsalesTelephony.Audio
