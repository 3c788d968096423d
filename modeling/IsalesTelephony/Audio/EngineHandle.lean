/-
# Audio.EngineHandle -- the binding's hold of an SDK engine

`EngineHandle` has the SDK's engine from `create` to `destroy`, passes the calls of its methods
on while it has one, and raises `DingRtcError` else.  Before an engine is destroyed the
observer and the listener are taken off it.

What the SDK asks of its caller is an automaton over the calls on one engine (`EngineLife`),
which keeps what of the set-up has taken hold (`SetUp`) until the channel is joined; each
method takes it one step (`Lives`).
-/
import IsalesTelephony.Audio.PushAudio
import IsalesTelephony.Theory.Hex
import IsalesTelephony.Theory.Transition

namespace IsalesTelephony.Audio

set_option autoImplicit false

open IsalesTelephony.Theory
open IsalesTelephony.Theory.Transition

/-- `RtcEngineAuthInfo` and the user's name. -/
structure RtcEngineAuthInfo where
  channelId : String
  userId : String
  appId : String
  token : String
  gslbServer : Option String
  userName : Option String
  deriving DecidableEq

/-- A call of the SDK, with what it returned where that tells whether it took hold. -/
inductive SdkCall where
  | create
  | setEngineEventListener (rc : Int)
  | clearEngineEventListener
  | registerAudioFrameObserver (rc : Int)
  | unregisterAudioFrameObserver
  | enableAudioFrameObserver (enabled : Bool) (position : Nat) (rc : Int)
  | enableCustomAudioCapture (enable : Bool) (rc : Int)
  | setExternalAudioSource (enable : Bool) (sampleRate channels rc : Int)
  | publishLocalAudioStream (enabled : Bool) (rc : Int)
  | publishLocalVideoStream (enabled : Bool) (rc : Int)
  | subscribeAllRemoteAudioStreams (sub : Bool) (rc : Int)
  | joinChannel (auth : RtcEngineAuthInfo) (rc : Int)
  | leaveChannel
  | pushExternalAudioFrame (frame : Handed)
  | destroy
  deriving DecidableEq

/-- The audio that is handed over. -/
def SdkCall.frame : SdkCall → Option Handed
  | .pushExternalAudioFrame frame => some frame
  | _ => none

structure DingRtcError where
  code : Int
  message : String
  deriving DecidableEq

structure EngineHandle where
  /-- `engine_` is not null -/
  engine : Bool := false
  /-- `registered_observer_` is not null -/
  registeredObserver : Bool := false
  /-- history: the calls of the SDK -/
  calls : List SdkCall := []

namespace EngineHandle

/-- A method's reply: the handle after, and what it raised. -/
abbrev Result := EngineHandle × Option DingRtcError

def create (h : EngineHandle) (given : Bool) : Result :=
  if h.engine then (h, some ⟨-1, "engine already created"⟩)
  else if given then ({ h with engine := true, calls := h.calls ++ [.create] }, none)
  else (h, some ⟨-2, "RtcEngine::Create returned nullptr"⟩)

/-- `require_alive_locked`, then the SDK's call. -/
def call (h : EngineHandle) (sdkCall : SdkCall) (failure : Option DingRtcError) : Result :=
  if h.engine then ({ h with calls := h.calls ++ [sdkCall] }, failure)
  else (h, some ⟨-4, "engine is destroyed or not created"⟩)

/-- Any other code than 0 is a failure. -/
def nonZero (rc : Int) (message : String) : Option DingRtcError :=
  if rc ≠ 0 then some ⟨rc, message⟩ else none

/-- Only negative codes are failures. -/
def negative (rc : Int) (message : String) : Option DingRtcError :=
  if rc < 0 then some ⟨rc, message⟩ else none

def setEventListener (h : EngineHandle) (rc : Int) : Result :=
  h.call (.setEngineEventListener rc) (nonZero rc "SetEngineEventListener failed")

def registerAudioObserver (h : EngineHandle) (rc : Int) : Result :=
  match h.call (.registerAudioFrameObserver rc) (nonZero rc "RegisterAudioFrameObserver failed") with
  | (t, none) => ({ t with registeredObserver := true }, none)
  | raised => raised

def unregisterAudioObserver (h : EngineHandle) : EngineHandle :=
  if h.engine ∧ h.registeredObserver then
    { h with registeredObserver := false, calls := h.calls ++ [.unregisterAudioFrameObserver] }
  else h

def enableAudioFrameObserver (enabled : Bool) (position : Nat) (h : EngineHandle) (rc : Int) :
    Result :=
  h.call (.enableAudioFrameObserver enabled position rc)
    (nonZero rc "EnableAudioFrameObserver failed")

def enableCustomAudioCapture (enable : Bool) (h : EngineHandle) (rc : Int) : Result :=
  h.call (.enableCustomAudioCapture enable rc) (negative rc "EnableCustomAudioCapture failed")

def setExternalAudioSource (enable : Bool) (sampleRate channels : Int) (h : EngineHandle)
    (rc : Int) : Result :=
  h.call (.setExternalAudioSource enable sampleRate channels rc)
    (negative rc "SetExternalAudioSource failed")

def publishLocalAudioStream (enabled : Bool) (h : EngineHandle) (rc : Int) : Result :=
  h.call (.publishLocalAudioStream enabled rc) (nonZero rc "PublishLocalAudioStream failed")

def publishLocalVideoStream (enabled : Bool) (h : EngineHandle) (rc : Int) : Result :=
  h.call (.publishLocalVideoStream enabled rc) (nonZero rc "PublishLocalVideoStream failed")

def subscribeAllRemoteAudioStreams (sub : Bool) (h : EngineHandle) (rc : Int) : Result :=
  h.call (.subscribeAllRemoteAudioStreams sub rc)
    (nonZero rc "SubscribeAllRemoteAudioStreams failed")

/-- An empty server or user name is not handed over. -/
def authInfo (channelId userId appId token gslbServer userName : String) : RtcEngineAuthInfo where
  channelId := channelId
  userId := userId
  appId := appId
  token := token
  gslbServer := if gslbServer = "" then none else some gslbServer
  userName := if userName = "" then none else some userName

/-- A code as `0x%08X` prints it. -/
def hexCode (rc : Int) : String :=
  String.ofList ((Hex.padded 8 (rc % 2 ^ 32).toNat).map Char.toUpper)

def joinChannel (auth : RtcEngineAuthInfo) (h : EngineHandle) (rc : Int) : Result :=
  h.call (.joinChannel auth rc)
    (nonZero rc ("JoinChannel returned rc=" ++ toString rc ++ " (0x" ++ hexCode rc ++ ")"))

def leaveChannel (h : EngineHandle) (rc : Int) : Result :=
  h.call .leaveChannel (nonZero rc "LeaveChannel returned non-zero")

def pushExternalAudio (h : EngineHandle) (frame : Handed) (rc : Int) : Result :=
  if frame.channels ≤ 0 then (h, some ⟨-3, "invalid channels/bytes_per_sample"⟩)
  else if frame.sampleRate ≤ 0 then (h, some ⟨-3, "invalid sample_rate (must be > 0)"⟩)
  else h.call (.pushExternalAudioFrame frame) (nonZero rc "PushExternalAudioFrame failed")

/-- `destroy_unlocked` -/
def destroy (h : EngineHandle) : EngineHandle :=
  if h.engine then
    let t := h.unregisterAudioObserver
    { t with engine := false, calls := t.calls ++ [.clearEngineEventListener, .destroy] }
  else h

/-- Some methods one after the other, up to the first that raises. -/
def attempt (h : EngineHandle) : List (EngineHandle → Int → Result) → (Nat → Int) → Result
  | [], _ => (h, none)
  | method :: rest, rc =>
      match method h (rc 0) with
      | (t, none) => t.attempt rest fun n => rc (n + 1)
      | raised => raised

end EngineHandle

/-! ## What the SDK asks -/

/-- What has taken hold of an engine that is not in a channel yet. -/
structure SetUp where
  listener : Bool := false
  observer : Bool := false
  observes : Bool := false
  customCapture : Bool := false
  externalSource : Bool := false
  publishesAudio : Bool := false
  noVideo : Bool := false
  subscribes : Bool := false
  deriving DecidableEq

namespace SetUp

/-- What a call of the set-up makes of it; `none` is another call. -/
def take (made : SetUp) : SdkCall → Option SetUp
  | .setEngineEventListener rc => some { made with listener := made.listener || rc = 0 }
  | .clearEngineEventListener => some { made with listener := false }
  | .registerAudioFrameObserver rc => some { made with observer := made.observer || rc = 0 }
  | .unregisterAudioFrameObserver => some { made with observer := false }
  | .enableAudioFrameObserver enabled _ rc =>
      some { made with observes := if rc = 0 then enabled else made.observes }
  | .enableCustomAudioCapture enable rc =>
      some { made with customCapture := if rc < 0 then made.customCapture else enable }
  | .setExternalAudioSource enable _ _ rc =>
      some { made with externalSource := if rc < 0 then made.externalSource else enable }
  | .publishLocalAudioStream enabled rc =>
      some { made with publishesAudio := if rc = 0 then enabled else made.publishesAudio }
  | .publishLocalVideoStream enabled rc =>
      some { made with noVideo := if rc = 0 then !enabled else made.noVideo }
  | .subscribeAllRemoteAudioStreams sub rc =>
      some { made with subscribes := if rc = 0 then sub else made.subscribes }
  | _ => none

/-- All that `join` wants before the channel. -/
def complete (made : SetUp) : Bool :=
  made.listener && made.observer && made.observes && made.customCapture && made.externalSource &&
    made.publishesAudio && made.noVideo && made.subscribes

end SetUp

/-- An engine, by the calls it had. -/
inductive EngineLife where
  | fresh
  /-- not in a channel yet -/
  | setUp (made : SetUp)
  | channel (listener observer : Bool)
  | gone
  deriving DecidableEq

namespace EngineLife

/-- `none` is a call that may not be made: any before `create` and after `destroy`, a second
`create` or `joinChannel`, `joinChannel` before the set-up is complete, a call of the set-up once
in a channel, audio and `leaveChannel` before that, and `destroy` with an observer or a
listener. -/
def next : EngineLife → SdkCall → Option EngineLife
  | .fresh, .create => some (.setUp {})
  | .fresh, _ => none
  | .gone, _ => none
  | .setUp made, .joinChannel _ rc =>
      if made.complete then some (if rc = 0 then .channel true true else .setUp made) else none
  | .setUp made, .destroy => if made.listener || made.observer then none else some .gone
  | .setUp made, sdkCall => (made.take sdkCall).map .setUp
  | .channel _ observer, .clearEngineEventListener => some (.channel false observer)
  | .channel listener _, .unregisterAudioFrameObserver => some (.channel listener false)
  | .channel listener observer, .leaveChannel => some (.channel listener observer)
  | .channel listener observer, .pushExternalAudioFrame _ => some (.channel listener observer)
  | .channel false false, .destroy => some .gone
  | .channel _ _, _ => none

def alive : EngineLife → Bool
  | .setUp _ | .channel _ _ => true
  | _ => false

def observer : EngineLife → Bool
  | .setUp made => made.observer
  | .channel _ observer => observer
  | _ => false

end EngineLife

namespace EngineHandle

/-- The calls so far are a life, and the handle knows how far it has come. -/
structure Lives (h : EngineHandle) (life : EngineLife) : Prop where
  calls : run EngineLife.next .fresh h.calls = some life
  engine : h.engine = life.alive
  observer : h.registeredObserver = life.observer

variable {h : EngineHandle} {life after : EngineLife} {rc : Int}
  {sdkCall : SdkCall} {failure : Option DingRtcError}

/-! ## What a method does -/

theorem lives_fresh : Lives {} .fresh := ⟨rfl, rfl, rfl⟩

theorem run_calls (lives : Lives h life) (calls : List SdkCall) :
    run EngineLife.next .fresh (h.calls ++ calls) = run EngineLife.next life calls := by
  rw [run_append, lives.calls]
  rfl

theorem lives_create (lives : Lives h .fresh) : Lives (h.create true).1 (.setUp {}) := by
  have none_ : h.engine = false := lives.engine
  simp only [create, none_, Bool.false_eq_true, if_false, if_true]
  exact ⟨run_calls lives [.create], rfl, lives.observer⟩

theorem lives_call (lives : Lives h life) (alive : life.alive = true)
    (next : life.next sdkCall = some after) (alive' : after.alive = true)
    (observer : after.observer = life.observer) : Lives (h.call sdkCall failure).1 after := by
  simp only [call, lives.engine.trans alive, if_true]
  refine ⟨?_, alive'.symm, lives.observer.trans observer.symm⟩
  rw [run_calls lives]
  simp only [run, next, Option.bind_some]

/-- The method may be called on an engine that is not in a channel yet, and does this to its
set-up unless it raises. -/
def SetsUp (method : EngineHandle → Int → Result) (does : SetUp → SetUp) : Prop :=
  ∀ h rc made, Lives h (.setUp made) →
    (method h rc).2 = none ∧ Lives (method h rc).1 (.setUp (does made)) ∨
      (method h rc).2 ≠ none ∧ ∃ made', Lives (method h rc).1 (.setUp made')

/-- A method that hands on one call of the set-up. -/
theorem setsUp_call {sdk : Int → SdkCall} {failure : Int → Option DingRtcError}
    {does : SetUp → SetUp}
    (takes : ∀ made rc, ∃ made', (EngineLife.setUp made).next (sdk rc) = some (.setUp made') ∧
      made'.observer = made.observer ∧ (failure rc = none → made' = does made)) :
    SetsUp (fun h rc => h.call (sdk rc) (failure rc)) does := by
  intro h rc made lives
  obtain ⟨made', next, observer, done⟩ := takes made rc
  have lives' : Lives (h.call (sdk rc) (failure rc)).1 (.setUp made') :=
    lives_call lives rfl next rfl observer
  have raised : (h.call (sdk rc) (failure rc)).2 = failure rc := by
    simp only [call, lives.engine.trans rfl, EngineLife.alive, if_true]
  rw [raised]
  cases failed : failure rc with
  | none => exact .inl ⟨rfl, done failed ▸ lives'⟩
  | some error => exact .inr ⟨Option.some_ne_none error, made', lives'⟩

/-- `nonZero` is no failure at 0 alone. -/
theorem nonZero_eq_none {message : String} : nonZero rc message = none ↔ rc = 0 := by
  simp [nonZero]

theorem negative_eq_none {message : String} : negative rc message = none ↔ ¬rc < 0 := by
  simp [negative]

theorem setsUp_setEventListener :
    SetsUp setEventListener fun made => { made with listener := true } :=
  setsUp_call fun made rc => ⟨_, rfl, rfl, fun ok => by simp [nonZero_eq_none.mp ok]⟩

theorem setsUp_enableAudioFrameObserver (enabled : Bool) (position : Nat) :
    SetsUp (enableAudioFrameObserver enabled position)
      fun made => { made with observes := enabled } :=
  setsUp_call fun made rc => ⟨_, rfl, rfl, fun ok => by simp [nonZero_eq_none.mp ok]⟩

theorem setsUp_enableCustomAudioCapture (enable : Bool) :
    SetsUp (enableCustomAudioCapture enable) fun made => { made with customCapture := enable } :=
  setsUp_call fun made rc => ⟨_, rfl, rfl, fun ok => by simp [negative_eq_none.mp ok]⟩

theorem setsUp_setExternalAudioSource (enable : Bool) (sampleRate channels : Int) :
    SetsUp (setExternalAudioSource enable sampleRate channels)
      fun made => { made with externalSource := enable } :=
  setsUp_call fun made rc => ⟨_, rfl, rfl, fun ok => by simp [negative_eq_none.mp ok]⟩

theorem setsUp_publishLocalAudioStream (enabled : Bool) :
    SetsUp (publishLocalAudioStream enabled)
      fun made => { made with publishesAudio := enabled } :=
  setsUp_call fun made rc => ⟨_, rfl, rfl, fun ok => by simp [nonZero_eq_none.mp ok]⟩

theorem setsUp_publishLocalVideoStream (enabled : Bool) :
    SetsUp (publishLocalVideoStream enabled) fun made => { made with noVideo := !enabled } :=
  setsUp_call fun made rc => ⟨_, rfl, rfl, fun ok => by simp [nonZero_eq_none.mp ok]⟩

theorem setsUp_subscribeAllRemoteAudioStreams (sub : Bool) :
    SetsUp (subscribeAllRemoteAudioStreams sub) fun made => { made with subscribes := sub } :=
  setsUp_call fun made rc => ⟨_, rfl, rfl, fun ok => by simp [nonZero_eq_none.mp ok]⟩

theorem setsUp_registerAudioObserver :
    SetsUp registerAudioObserver fun made => { made with observer := true } := by
  intro h rc made lives
  have alive : h.engine = true := lives.engine
  by_cases ok : rc = 0
  · refine .inl ?_
    simp only [registerAudioObserver, call, alive, if_true, nonZero, ok, ne_eq, not_true,
      if_false, true_and]
    refine ⟨?_, rfl, rfl⟩
    rw [run_calls lives]
    simp [run, EngineLife.next, SetUp.take]
  · refine .inr ?_
    simp only [registerAudioObserver, call, alive, if_true, nonZero, ok, ne_eq, not_false_eq_true,
      reduceCtorEq, true_and]
    refine ⟨made, ?_, rfl, lives.observer⟩
    rw [run_calls lives]
    simp [run, EngineLife.next, SetUp.take, ok]

/-- `join_channel` on an engine that is set up leads into the channel or raises. -/
theorem lives_joinChannel {made : SetUp} {auth : RtcEngineAuthInfo} {reply : Result}
    (lives : Lives h (.setUp made)) (complete : made.complete = true)
    (ran : h.joinChannel auth rc = reply) :
    reply.2 = none ∧ (∃ l o, Lives reply.1 (.channel l o)) ∨
      reply.2 ≠ none ∧ ∃ made, Lives reply.1 (.setUp made) := by
  subst ran
  have alive : h.engine = true := lives.engine
  by_cases ok : rc = 0
  · have observer : made.observer = true := by
      simp only [SetUp.complete, Bool.and_eq_true] at complete
      exact complete.1.1.1.1.1.1.2
    refine .inl ?_
    simp only [joinChannel, call, alive, if_true, nonZero, ok, ne_eq, not_true, if_false, true_and]
    refine ⟨true, true, ?_, rfl, lives.observer.trans observer⟩
    rw [run_calls lives]
    simp only [run, EngineLife.next, complete, if_true, Option.bind_some]
  · refine .inr ?_
    simp only [joinChannel, call, alive, if_true, nonZero, ne_eq, ok, not_false_eq_true,
      reduceCtorEq, true_and]
    refine ⟨made, ?_, rfl, lives.observer⟩
    rw [run_calls lives]
    simp only [run, EngineLife.next, complete, if_true, ok, if_false, Option.bind_some]

/-- A complete set-up that ends with `join_channel` leads into the channel or raises. -/
theorem lives_attempt {methods : List (EngineHandle → Int → Result)} {does : List (SetUp → SetUp)}
    {auth : RtcEngineAuthInfo} {rcs : Nat → Int} {reply : Result} {made : SetUp}
    (setsUp : List.Forall₂ SetsUp methods does)
    (complete : (does.foldl (fun made f => f made) made).complete = true)
    (lives : Lives h (.setUp made)) (ran : h.attempt (methods ++ [joinChannel auth]) rcs = reply) :
    reply.2 = none ∧ (∃ l o, Lives reply.1 (.channel l o)) ∨
      reply.2 ≠ none ∧ ∃ made, Lives reply.1 (.setUp made) := by
  subst ran
  induction setsUp generalizing h made rcs with
  | nil =>
      simp only [List.nil_append, attempt]
      cases called : joinChannel auth h (rcs 0) with
      | mk t raised =>
          have joined := lives_joinChannel lives complete called
          cases raised with
          | none => exact joined
          | some error => exact joined
  | @cons method f methods rest first others ih =>
      have next := first h (rcs 0) made lives
      simp only [List.cons_append, attempt]
      cases called : method h (rcs 0) with
      | mk t raised =>
          rw [called] at next
          cases raised with
          | none =>
              rcases next with ⟨-, lives'⟩ | ⟨some_, -⟩
              · exact ih complete lives'
              · exact absurd rfl some_
          | some error =>
              rcases next with ⟨none_, -⟩ | raised
              · cases none_
              · exact .inr raised

theorem unregister_calls (lives : Lives h life) (alive : life.alive = true) :
    ∃ after, Lives h.unregisterAudioObserver after ∧ after.alive = true ∧
      after.observer = false := by
  have engine : h.engine = true := lives.engine.trans alive
  by_cases registered : h.registeredObserver = true
  · have next : ∃ after, life.next .unregisterAudioFrameObserver = some after ∧
        after.alive = true ∧ after.observer = false := by
      cases life with
      | fresh | gone => cases alive
      | setUp made => exact ⟨.setUp { made with observer := false }, rfl, rfl, rfl⟩
      | channel l o => exact ⟨.channel l false, rfl, rfl, rfl⟩
    obtain ⟨after, next, alive', observer⟩ := next
    refine ⟨after, ?_, alive', observer⟩
    simp only [unregisterAudioObserver, engine, registered, and_self, if_true]
    refine ⟨?_, alive'.symm, observer.symm⟩
    rw [run_calls lives]
    simp only [run, next, Option.bind_some]
  · refine ⟨life, ?_, alive, ?_⟩
    · simpa only [unregisterAudioObserver, registered, Bool.false_eq_true, and_false, if_false] using lives
    · rw [← lives.observer]
      exact Bool.eq_false_of_not_eq_true registered

/-- An engine is gone after `destroy`. -/
theorem lives_destroy (lives : Lives h life) (alive : life.alive = true) :
    Lives h.destroy .gone := by
  obtain ⟨after, lives', alive', observer⟩ := unregister_calls lives alive
  have clears : run EngineLife.next after [.clearEngineEventListener, .destroy] = some .gone := by
    cases after with
    | fresh | gone => cases alive'
    | setUp made =>
        replace observer : made.observer = false := observer
        simp [run, EngineLife.next, SetUp.take, observer]
    | channel l o =>
        obtain rfl : o = false := observer
        rfl
  simp only [destroy, lives.engine.trans alive, if_true]
  exact ⟨(run_calls lives' _).trans clears, rfl, lives'.observer.trans observer⟩

theorem destroy_of_dead (dead : h.engine = false) : h.destroy = h := by
  simp only [destroy, dead, Bool.false_eq_true, if_false]

theorem call_of_dead (dead : h.engine = false) : (h.call sdkCall failure).1 = h := by
  simp only [call, dead, Bool.false_eq_true, if_false]

theorem engine_call : (h.call sdkCall failure).1.engine = h.engine := by
  unfold call
  split
  · rfl
  · rfl

theorem engine_leaveChannel : (h.leaveChannel rc).1.engine = h.engine := engine_call

theorem engine_pushExternalAudio {frame : Handed} :
    (h.pushExternalAudio frame rc).1.engine = h.engine := by
  unfold pushExternalAudio
  split
  · rfl
  · split
    · rfl
    · exact engine_call

/-- The frames that an engine was given. -/
def heard (h : EngineHandle) : List Handed := h.calls.filterMap SdkCall.frame

theorem heard_call (other : sdkCall.frame = none) : (h.call sdkCall failure).1.heard = h.heard := by
  unfold call
  split
  · simp [heard, other]
  · rfl

theorem heard_unregister : h.unregisterAudioObserver.heard = h.heard := by
  unfold unregisterAudioObserver
  split
  · simp [heard, SdkCall.frame]
  · rfl

theorem heard_destroy : h.destroy.heard = h.heard := by
  unfold destroy
  split
  · rw [← heard_unregister (h := h)]
    simp [heard, SdkCall.frame]
  · rfl

theorem heard_registerAudioObserver : (h.registerAudioObserver rc).1.heard = h.heard := by
  have same : (h.call (.registerAudioFrameObserver rc)
      (nonZero rc "RegisterAudioFrameObserver failed")).1.heard = h.heard := heard_call rfl
  unfold registerAudioObserver
  split
  · rename_i t called
    rw [called] at same
    exact same
  · exact same

/-- What each method of a set-up keeps, the set-up keeps. -/
theorem attempt_keeps {Q : EngineHandle → Prop} {methods : List (EngineHandle → Int → Result)}
    {rcs : Nat → Int} (keeps : ∀ method ∈ methods, ∀ h rc, Q h → Q (method h rc).1) (holds : Q h) :
    Q (h.attempt methods rcs).1 := by
  induction methods generalizing h rcs with
  | nil => exact holds
  | cons method rest ih =>
      obtain ⟨first, others⟩ := List.forall_mem_cons.mp keeps
      have next := first h (rcs 0) holds
      simp only [attempt]
      split
      · rename_i t called
        rw [called] at next
        exact ih others next
      · exact next

/-- Not created, or in a channel, or destroyed. -/
def Kept (h : EngineHandle) : Prop :=
  h.Lives .fresh ∨ h.Lives .gone ∨ ∃ l o, h.Lives (.channel l o)

theorem Kept.cases (kept : h.Kept) : h.engine = false ∨ ∃ l o, h.Lives (.channel l o) := by
  rcases kept with fresh | gone | inChannel
  · exact .inl fresh.engine
  · exact .inl gone.engine
  · exact .inr inChannel

theorem kept_leaveChannel (kept : h.Kept) : (h.leaveChannel rc).1.Kept := by
  rcases kept.cases with dead | ⟨l, o, lives⟩
  · rw [leaveChannel, call_of_dead dead]
    exact kept
  · exact .inr (.inr ⟨l, o, lives_call lives rfl rfl rfl rfl⟩)

theorem kept_pushExternalAudio {frame : Handed} (kept : h.Kept) :
    (h.pushExternalAudio frame rc).1.Kept := by
  unfold pushExternalAudio
  split
  · exact kept
  · split
    · exact kept
    · rcases kept.cases with dead | ⟨l, o, lives⟩
      · rw [call_of_dead dead]
        exact kept
      · exact .inr (.inr ⟨l, o, lives_call lives rfl rfl rfl rfl⟩)

theorem unregister_of_dead (dead : h.engine = false) : h.unregisterAudioObserver = h := by
  simp only [unregisterAudioObserver, dead, Bool.false_eq_true, false_and, if_false]

theorem kept_destroy (kept : h.Kept) : h.unregisterAudioObserver.destroy.Kept := by
  rcases kept.cases with dead | ⟨l, o, lives⟩
  · rw [unregister_of_dead dead, destroy_of_dead dead]
    exact kept
  · obtain ⟨after, lives', alive, -⟩ := unregister_calls lives rfl
    exact .inr (.inl (lives_destroy lives' alive))

theorem engine_destroy (h : EngineHandle) : h.destroy.engine = false := by
  unfold destroy
  split
  · rfl
  · rename_i dead
    exact Bool.eq_false_of_not_eq_true dead

end EngineHandle

end IsalesTelephony.Audio
