/-
# Edge.StopFinal -- nothing of a call outlives stop

`stop` works through a snapshot of the active-call map.  What is suspended
between "not yet registered" and "registered", or has left the map and not yet
torn its call down, is not in that snapshot, and the message callback stays
installed.  `QuietStop` asks that no such coroutine is there when `stop` is
called and that none comes about while it runs; then nothing is left once it has
returned.

Between its awaits `stop` tears one call down: `Wound` says how far the teardown
is by its await, and `Winding` that every context is still to come, the one being
torn down, or `Still`.

* `dial_in_progress_outlives_stop`: a dial that returns after `stop`;
* `final_step`: quiet steps keep `Final`;
* `stop_is_final`: hence nothing of a call outlives `stop`.
-/
import IsalesTelephony.Edge.Steps

namespace IsalesTelephony.Edge

set_option autoImplicit false

open IsalesTelephony.Theory IsalesTelephony.Theory.Transition

/-! ## A call that is over -/

namespace CallContext

/-- No task of the call is alive and no RTC session is joined. -/
def Still (ctx : CallContext) : Prop :=
  ctx.pump.live = false ∧ ctx.audioTasks = 0 ∧ ctx.bridge ≠ some true ∧
    ctx.rtcSession ≠ some true ∧ ctx.strayRtc = 0

instance (ctx : CallContext) : Decidable ctx.Still := inferInstanceAs (Decidable (_ ∧ _))

/-- What a teardown has seen to when it is at an await. -/
def Wound (ctx : CallContext) : Stage → Prop
  | .tasks => True
  | .bridgeLeave => ctx.pump.live = false ∧ ctx.audioTasks = 0
  | .rtcLeave => (ctx.pump.live = false ∧ ctx.audioTasks = 0) ∧ ctx.bridge ≠ some true
  | .cpcmregDisable => ctx.Still

/-- A second connected event replaces a bridge that is joined. -/
def Orphans (cfg : Config) (ctx : CallContext) : PumpInput → Bool
  | .enabled begin_ factory =>
      ctx.bridge = some true && !ctx.setupRaises cfg begin_ factory
  | _ => false

/-- The turn of the pump takes the call id out of the map. -/
def Leaves (cfg : Config) (ctx : CallContext) (input : PumpInput) : Bool :=
  (ctx.pumpStep cfg true input).any fun turn => .pop ∈ turn.2

/-- Nothing a teardown has seen to comes back, and no joined session is lost. -/
structure Quieter (ctx ctx' : CallContext) : Prop where
  wound : ∀ stage, ctx.Wound stage → ctx'.Wound stage
  stray : ctx'.strayRtc = ctx.strayRtc

variable {cfg : Config} {ctx ctx' ctx'' : CallContext}

namespace Quieter

theorem trans (first : ctx.Quieter ctx') (second : ctx'.Quieter ctx'') : ctx.Quieter ctx'' :=
  ⟨fun stage wound => second.wound stage (first.wound stage wound),
    second.stray.trans first.stray⟩

theorem still (quieter : ctx.Quieter ctx') (still : ctx.Still) : ctx'.Still :=
  quieter.wound .cpcmregDisable still

/-- Each part of the audio path stays as it was or is over. -/
theorem of_parts (pump : ctx.pump.live = false → ctx'.pump.live = false)
    (tasks : ctx.audioTasks = 0 → ctx'.audioTasks = 0)
    (bridge : ctx'.bridge = some true → ctx.bridge = some true)
    (session : ctx'.rtcSession = some true → ctx.rtcSession = some true)
    (stray : ctx'.strayRtc = ctx.strayRtc) : ctx.Quieter ctx' := by
  refine ⟨fun stage wound => ?_, stray⟩
  cases stage with
  | tasks => trivial
  | bridgeLeave => exact ⟨pump wound.1, tasks wound.2⟩
  | rtcLeave => exact ⟨⟨pump wound.1.1, tasks wound.1.2⟩, fun joined => wound.2 (bridge joined)⟩
  | cpcmregDisable =>
      obtain ⟨idle, quiet, left, leftSession, none_⟩ := wound
      exact ⟨pump idle, tasks quiet, fun joined => left (bridge joined),
        fun joined => leftSession (session joined), stray.trans none_⟩

/-- No teardown is past the tasks of a call whose pump is alive. -/
theorem of_live (live : ctx.pump.live = true) (stray : ctx'.strayRtc = ctx.strayRtc) :
    ctx.Quieter ctx' := by
  refine ⟨fun stage wound => ?_, stray⟩
  have running : ¬ ctx.pump.live = false := by simp [live]
  cases stage with
  | tasks => trivial
  | bridgeLeave => exact absurd wound.1 running
  | rtcLeave => exact absurd wound.1.1 running
  | cpcmregDisable => exact absurd wound.1 running

end Quieter

/-! ### Teardown -/

theorem afterRtcLeave_quieter (ctx : CallContext) : ctx.Quieter ctx.afterRtcLeave.1 := by
  unfold afterRtcLeave
  split <;> exact .of_parts id id id (by simp) rfl

theorem afterBridgeLeave_quieter (ctx : CallContext) : ctx.Quieter ctx.afterBridgeLeave.1 := by
  have dropped : ctx.Quieter { ctx with bridge := none, recorder := false } :=
    .of_parts id id (by simp) id rfl
  unfold afterBridgeLeave
  dsimp only
  split
  · exact dropped
  · exact dropped.trans (afterRtcLeave_quieter _)

theorem afterTasks_quieter (ctx : CallContext) : ctx.Quieter ctx.afterTasks.1 := by
  unfold afterTasks
  split
  · exact .of_parts id id id id rfl
  · exact afterBridgeLeave_quieter ctx

theorem awaitTasks_quieter (ctx : CallContext) : ctx.Quieter (ctx.awaitTasks false).1 := by
  unfold awaitTasks
  split
  · exact afterTasks_quieter ctx
  · exact .of_parts id id id id rfl

theorem beginTeardown_quieter (ctx : CallContext) : ctx.Quieter (ctx.beginTeardown false).1 := by
  have cancelled : ctx.Quieter { ctx with pumpCancelled := ctx.pump.live } :=
    .of_parts id id id id rfl
  exact cancelled.trans (awaitTasks_quieter _)

theorem resumeTeardown_quieter {stage : Stage} {next : Option Stage}
    (resumed : ctx.resumeTeardown false stage = some (ctx', next)) : ctx.Quieter ctx' := by
  cases stage with
  | tasks =>
      simp only [resumeTeardown] at resumed
      split at resumed
      · obtain rfl : ctx.afterTasks.1 = ctx' := by rw [Option.some.inj resumed]
        exact afterTasks_quieter ctx
      · cases resumed
  | bridgeLeave =>
      obtain rfl : ctx.afterBridgeLeave.1 = ctx' := by rw [Option.some.inj resumed]
      exact afterBridgeLeave_quieter ctx
  | rtcLeave =>
      obtain rfl : ctx.afterRtcLeave.1 = ctx' := by rw [Option.some.inj resumed]
      exact afterRtcLeave_quieter ctx
  | cpcmregDisable =>
      obtain ⟨rfl, -⟩ := Prod.mk.inj (Option.some.inj resumed)
      exact .of_parts id id id id rfl

/-- What holds of a call when its teardown goes on to an await, or returns. -/
def WoundTo (ctx : CallContext) : Option Stage → Prop
  | some stage => ctx.Wound stage
  | none => ctx.Still

theorem afterRtcLeave_wound (stray : ctx.strayRtc = 0)
    (wound : ctx.Wound .rtcLeave) : ctx.afterRtcLeave.1.WoundTo ctx.afterRtcLeave.2 := by
  obtain ⟨⟨idle, quiet⟩, left⟩ := wound
  unfold afterRtcLeave
  split <;> exact ⟨idle, quiet, left, by simp, stray⟩

theorem afterBridgeLeave_wound (stray : ctx.strayRtc = 0) (wound : ctx.Wound .bridgeLeave) :
    ctx.afterBridgeLeave.1.WoundTo ctx.afterBridgeLeave.2 := by
  unfold afterBridgeLeave
  dsimp only
  split
  · exact ⟨wound, by simp⟩
  · exact afterRtcLeave_wound stray ⟨wound, by simp⟩

theorem afterTasks_wound (stray : ctx.strayRtc = 0) (wound : ctx.Wound .bridgeLeave) :
    ctx.afterTasks.1.WoundTo ctx.afterTasks.2 := by
  unfold afterTasks
  split
  · exact wound
  · exact afterBridgeLeave_wound stray wound

/-- The tasks of the call are over. -/
theorem wound_of_tasksDone (done : ctx.tasksDone false = true) : ctx.Wound .bridgeLeave := by
  simp only [tasksDone, Bool.false_or, Bool.and_eq_true, decide_eq_true_eq,
    Bool.not_eq_true'] at done
  exact ⟨done.2, done.1⟩

theorem awaitTasks_wound (stray : ctx.strayRtc = 0) :
    (ctx.awaitTasks false).1.WoundTo (ctx.awaitTasks false).2 := by
  unfold awaitTasks
  split
  · rename_i done
    exact afterTasks_wound stray (wound_of_tasksDone done)
  · trivial

theorem beginTeardown_wound (stray : ctx.strayRtc = 0) :
    (ctx.beginTeardown false).1.WoundTo (ctx.beginTeardown false).2 :=
  awaitTasks_wound stray

theorem resumeTeardown_wound {stage : Stage} {next : Option Stage} (stray : ctx.strayRtc = 0)
    (wound : ctx.Wound stage) (resumed : ctx.resumeTeardown false stage = some (ctx', next)) :
    ctx'.WoundTo next := by
  cases stage with
  | tasks =>
      simp only [resumeTeardown] at resumed
      split at resumed
      · rename_i done
        have torn := afterTasks_wound stray (wound_of_tasksDone done)
        rw [Option.some.inj resumed] at torn
        exact torn
      · cases resumed
  | bridgeLeave =>
      have torn := afterBridgeLeave_wound stray wound
      rw [Option.some.inj resumed] at torn
      exact torn
  | rtcLeave =>
      have torn := afterRtcLeave_wound stray wound
      rw [Option.some.inj resumed] at torn
      exact torn
  | cpcmregDisable =>
      obtain ⟨rfl, rfl⟩ := Prod.mk.inj (Option.some.inj resumed)
      exact wound

/-! ### The pump -/

variable {inCalls : Bool} {via : Via}

theorem exitPump_stray (ctx : CallContext) : (ctx.exitPump inCalls).1.strayRtc = ctx.strayRtc := by
  have same := ctx.beginTeardown_same
  unfold exitPump
  split
  · split
    all_goals
      rename_i torn
      rw [torn] at same
      exact same.strayRtc
  · rfl

theorem afterHangup_stray (ctx : CallContext) :
    (ctx.afterHangup inCalls via).1.strayRtc = ctx.strayRtc := by
  cases via with
  | event => exact ctx.exitPump_stray
  | pcmFailed | joinFailed | final => rfl

theorem handleRemoteHangup_stray (ctx : CallContext) (cause : Option String) :
    (ctx.handleRemoteHangup inCalls via cause).1.strayRtc = ctx.strayRtc := by
  unfold handleRemoteHangup
  split
  · exact ctx.afterHangup_stray
  · rfl

theorem popAndTeardown_stray (ctx : CallContext) :
    (ctx.popAndTeardown via).1.strayRtc = ctx.strayRtc := by
  have same := ctx.beginTeardown_same
  unfold popAndTeardown
  split
  · rename_i torn
    rw [torn] at same
    exact same.strayRtc
  · rename_i ctx' torn
    rw [torn] at same
    exact ctx'.afterHangup_stray.trans same.strayRtc

/-- An await of the pump's own teardown. -/
theorem torn_stray {following : Option Stage} (same : ctx'.strayRtc = ctx.strayRtc) :
    CallContext.strayRtc
      (match (ctx', following) with
        | (ctx, some stage) => (({ ctx with pump := .teardown via stage }, []) : PumpStep)
        | (ctx, none) => ctx.afterHangup inCalls via).1 = ctx.strayRtc := by
  cases following with
  | some stage => exact same
  | none => exact ctx'.afterHangup_stray.trans same

theorem pumpStep_stray {input : PumpInput} {turn : PumpStep} (kept : ctx.Orphans cfg input = false)
    (stepped : ctx.pumpStep cfg inCalls input = some turn) : turn.1.strayRtc = ctx.strayRtc := by
  obtain ⟨-, ⟨-, ran⟩ | ⟨-, -, ran⟩⟩ := pumpStep_cases stepped
  · unfold runPump at ran
    split at ran
    case h_3 cause _ =>
      rw [← Option.some.inj ran]
      exact handleRemoteHangup_stray _ cause
    case h_9 begin_ factory _ =>
      rw [← Option.some.inj ran]
      unfold buildAudioPath
      dsimp only
      split
      · exact exitPump_stray _
      · rename_i builds
        have fresh : ctx.bridge ≠ some true := by
          intro joined
          simp only [Orphans, joined, decide_true, Bool.true_and, Bool.not_eq_false'] at kept
          exact builds kept
        simp [fresh]
    case h_18 =>
      obtain ⟨⟨ctx', following⟩, resumed, moved⟩ := Option.map_eq_some_iff.mp ran
      rw [← moved]
      exact torn_stray (resumeTeardown_same resumed).strayRtc
    case h_20 => cases ran
    all_goals
      obtain rfl := Option.some.inj ran
      first
        | exact exitPump_stray _
        | exact handleRemoteHangup_stray _ _
        | exact popAndTeardown_stray _
        | rfl
  · rw [← ran]
    unfold cancelPump
    split
    · rfl
    · exact torn_stray (afterTasks_same _).strayRtc
    · rfl
    · exact exitPump_stray _

end CallContext

/-! ## Quiet steps -/

namespace EdgeOrchestrator

/-- The call is the one registered under its id. -/
abbrev Registered (s : EdgeOrchestrator) (call : Nat) (ctx : CallContext) : Prop :=
  s.calls.lookup ctx.callId = some call

/-- No call begins, or leaves the map by itself, once `stop` was called, and all
that is alive then is in the map. -/
def QuietStop (cfg : Config) (s : EdgeOrchestrator) : EdgeAction → Prop
  -- `stop` does not take the message callback away
  | .message (.dial dial) => s.inCalls dial.callId = true ∨ s.stopping = .notCalled ∨
      cfg.devNoModem = false ∧ s.stopping ≠ .returned
  | .handler input =>
      match s.handler, input with
      | .atDial _, .dialReturned _ => s.stopping = .notCalled
      | .acceptAck call, .sent true => ∀ ctx ∈ s.contexts[call]?,
          s.stopping = .notCalled ∨ s.Registered call ctx
      | .devJoin call, .joined _ => ∀ ctx ∈ s.contexts[call]?,
          ctx.rtcSession.isSome = true ∧ (s.stopping = .notCalled ∨ s.Registered call ctx)
      | .devHangupSend call, .sent true => ∀ ctx ∈ s.contexts[call]?,
          s.stopping = .notCalled ∨ s.inCalls ctx.callId = false
      | _, _ => True
  | .pump call input => ∀ ctx ∈ s.contexts[call]?, ctx.Orphans cfg input = false ∧
      (s.stopping = .notCalled ∨ s.inCalls ctx.callId = false ∨ ctx.Leaves cfg input = false)
  | .stop => ∀ call < s.contexts.length, ∀ ctx ∈ s.contexts[call]?,
      ctx.Still ∨ s.Registered call ctx
  | _ => True

instance (cfg : Config) (s : EdgeOrchestrator) (action : EdgeAction) :
    Decidable (QuietStop cfg s action) := by
  unfold QuietStop
  induction action using EdgeAction.casesOn with
  | message message => induction message using Cloud2Edge.casesOn <;> infer_instance
  | handler input =>
      dsimp only
      induction s.handler using Handler.casesOn <;> induction input using HandlerInput.casesOn
      all_goals first
        | infer_instance
        | rename_i ok; induction ok using Bool.casesOn <;> infer_instance
  | _ => infer_instance

/-! ## The calls while stop works -/

/-- Every call is still to come, over, or the one being torn down. -/
structure Winding (s : EdgeOrchestrator) (rest : List String) (torn : Option (Nat × Stage)) :
    Prop where
  listed : ∀ {callId call}, s.calls.lookup callId = some call → callId ∈ rest
  each : ∀ {call ctx}, s.At call ctx →
    ctx.Still ∨ s.Registered call ctx ∨ ∃ stage, torn = some (call, stage) ∧ ctx.Wound stage

/-- How far `stop` is. -/
def StopWinding (s : EdgeOrchestrator) : StopPc → Prop
  | .notCalled => True
  | .teardown call stage rest => s.Winding rest (some (call, stage))
  | .closing => s.Winding [] none
  | .returned => s.Winding [] none

/-- What holds of the calls. -/
structure CallsFinal (s : EdgeOrchestrator) (stopping : StopPc) : Prop where
  keyed : ∀ {callId call}, s.calls.lookup callId = some call →
    ∃ ctx, s.At call ctx ∧ ctx.callId = callId
  stray : ∀ {call ctx}, s.At call ctx → ctx.strayRtc = 0
  winding : s.StopWinding stopping

variable {cfg : Config} {s t : EdgeOrchestrator} {call : Nat} {ctx ctx' : CallContext}
  {effects : List Effect} {stopping : StopPc}

theorem callsFinal_congr (final : CallsFinal s stopping) (contexts : t.contexts = s.contexts)
    (calls : t.calls = s.calls) : CallsFinal t stopping := by
  obtain ⟨keyed, stray, winding⟩ := final
  refine ⟨by simpa only [At, contexts, calls] using @keyed, by simpa only [At, contexts] using @stray,
    ?_⟩
  have same : ∀ rest torn, s.Winding rest torn → t.Winding rest torn := fun rest torn wound =>
    ⟨by simpa only [calls] using @wound.listed,
      by simpa only [At, Registered, contexts, calls] using @wound.each⟩
  cases stopping with
  | notCalled => trivial
  | teardown call stage rest => exact same _ _ winding
  | closing | returned => exact same _ _ winding

/-- An update of a call that is still to come, or one that only quietens it; it
takes no call out of the map. -/
theorem winding_update {rest : List String} {torn : Option (Nat × Stage)}
    (winding : s.Winding rest torn) (at_ : s.At call ctx) (same : ctx'.callId = ctx.callId)
    (quieter : s.Registered call ctx ∨ ctx.Quieter ctx')
    (stays : .pop ∈ effects → s.inCalls ctx.callId = false) :
    (s.update call ctx' effects).Winding rest torn := by
  have kept : ∀ {callId number}, s.calls.lookup callId = some number →
      (s.update call ctx' effects).calls.lookup callId = some number := by
    intro callId number registered
    rw [update_lookup, if_neg]
    · exact registered
    · rintro ⟨popped, key⟩
      have gone := stays popped
      rw [← same, ← key, inCalls, registered] at gone
      cases gone
  refine ⟨fun registered => winding.listed (lookup_of_update registered), fun got => ?_⟩
  rcases (update_at effects at_).mp got with ⟨rfl, rfl⟩ | ⟨-, old⟩
  · rcases quieter with registered | quieter
    · exact .inr (.inl (by rw [Registered, same]; exact kept registered))
    · rcases winding.each at_ with still | registered | ⟨stage, here, wound⟩
      · exact .inl (quieter.still still)
      · exact .inr (.inl (by rw [Registered, same]; exact kept registered))
      · exact .inr (.inr ⟨stage, here, quieter.wound stage wound⟩)
  · rcases winding.each old with still | registered | wound
    · exact .inl still
    · exact .inr (.inl (kept registered))
    · exact .inr (.inr wound)

theorem callsFinal_update (effects : List Effect) (final : CallsFinal s stopping) (at_ : s.At call ctx)
    (same : ctx'.callId = ctx.callId) (stray : ctx'.strayRtc = ctx.strayRtc)
    (quieter : stopping = .notCalled ∨ s.Registered call ctx ∨ ctx.Quieter ctx')
    (stays : stopping = .notCalled ∨ (.pop ∈ effects → s.inCalls ctx.callId = false)) :
    CallsFinal (s.update call ctx' effects) stopping := by
  refine ⟨fun registered => ?_, fun got => ?_, ?_⟩
  · obtain ⟨found, got, key⟩ := final.keyed (lookup_of_update registered)
    rename_i number
    by_cases here : number = call
    · subst here
      obtain rfl := Option.some.inj (got.symm.trans at_)
      exact ⟨ctx', (update_at _ at_).mpr (.inl ⟨rfl, rfl⟩), same.trans key⟩
    · exact ⟨found, (update_at _ at_).mpr (.inr ⟨here, got⟩), key⟩
  · rcases (update_at effects at_).mp got with ⟨rfl, rfl⟩ | ⟨-, old⟩
    · exact stray.trans (final.stray at_)
    · exact final.stray old
  · rcases quieter with rfl | quieter
    · trivial
    · rcases stays with rfl | stays
      · trivial
      · have winding := final.winding
        cases stopping with
        | notCalled => trivial
        | teardown => exact winding_update winding at_ same quieter stays
        | closing | returned => exact winding_update winding at_ same quieter stays

/-- The same, when the message callback goes on. -/
theorem callsFinal_moved {handler : Handler} (final : CallsFinal s stopping) (at_ : s.At call ctx)
    (same : ctx'.callId = ctx.callId) (stray : ctx'.strayRtc = ctx.strayRtc)
    (quieter : stopping = .notCalled ∨ s.Registered call ctx ∨ ctx.Quieter ctx')
    (stays : stopping = .notCalled ∨ (.pop ∈ effects → s.inCalls ctx.callId = false)) :
    CallsFinal { s.update call ctx' effects with handler := handler } stopping :=
  callsFinal_congr (callsFinal_update _ final at_ same stray quieter stays) rfl rfl

theorem callsFinal_accept {dial : DialCommand} {modemCallId : Option Nat}
    (final : CallsFinal s stopping) (before : stopping = .notCalled) :
    CallsFinal (s.accept dial modemCallId) stopping := by
  refine ⟨fun registered => ?_, fun got => ?_, by rw [before]; trivial⟩
  · rw [accept_lookup] at registered
    split at registered
    · rename_i key
      obtain rfl := Option.some.inj registered
      exact ⟨_, accept_at.mpr (.inr ⟨rfl, rfl⟩), key.symm⟩
    · obtain ⟨found, got, key⟩ := final.keyed registered
      exact ⟨found, accept_at.mpr (.inl got), key⟩
  · rcases accept_at.mp got with old | ⟨-, rfl⟩
    · exact final.stray old
    · rfl

/-- `stop` takes a call out of the map and begins its teardown. -/
theorem winding_taken {callId : String} {rest : List String} (final : CallsFinal s .notCalled)
    (winding : s.Winding (callId :: rest) none) (registered : s.calls.lookup callId = some call)
    (at_ : s.At call ctx) :
    (s.update call (ctx.beginTeardown false).1 [.pop]).Winding rest
      ((ctx.beginTeardown false).2.map (call, ·)) := by
  have same := ctx.beginTeardown_cancels
  obtain ⟨found, got, key⟩ := final.keyed registered
  obtain rfl := Option.some.inj (got.symm.trans at_)
  have key' : (found.beginTeardown false).1.callId = callId := same.callId.trans key
  have popped : ∀ other, (s.update call (found.beginTeardown false).1 [.pop]).calls.lookup other =
      if other = callId then none else s.calls.lookup other := by
    intro other
    simp [update_lookup, key']
  refine ⟨fun {other number} there => ?_, fun {number ctx} got => ?_⟩
  · rw [popped] at there
    split at there
    · cases there
    · rename_i ne
      exact (List.mem_cons.mp (winding.listed there)).resolve_left ne
  · rcases (update_at _ at_).mp got with ⟨rfl, rfl⟩ | ⟨ne, old⟩
    · have wound := CallContext.beginTeardown_wound (final.stray at_)
      cases next : (found.beginTeardown false).2 with
      | none => exact .inl (by rw [next] at wound; exact wound)
      | some stage => exact .inr (.inr ⟨stage, rfl, by rw [next] at wound; exact wound⟩)
    · rcases winding.each old with still | there | ⟨stage, torn, -⟩
      · exact .inl still
      · refine .inr (.inl ?_)
        rw [Registered, popped, if_neg]
        · exact there
        · intro other
          rw [Registered, other, registered] at there
          exact ne (Option.some.inj there).symm
      · cases torn

/-- `stop` goes on with the teardown of a call. -/
theorem winding_resumed {rest : List String} {stage : Stage} {next : Option Stage}
    (winding : s.Winding rest (some (call, stage))) (at_ : s.At call ctx)
    (stray : ctx.strayRtc = 0)
    (resumed : ctx.resumeTeardown false stage = some (ctx', next)) :
    (s.update call ctx' []).Winding rest (next.map (call, ·)) := by
  have same := CallContext.resumeTeardown_same resumed
  refine ⟨winding.listed, fun {number found} got => ?_⟩
  rcases (update_at [] at_).mp got with ⟨rfl, rfl⟩ | ⟨ne, old⟩
  · rcases winding.each at_ with still | there | ⟨stage', here, wound⟩
    · exact .inl ((CallContext.resumeTeardown_quieter resumed).still still)
    · exact .inr (.inl (by rw [Registered, same.callId]; exact there))
    · obtain rfl : stage = stage' := by simpa using here
      have onwards := CallContext.resumeTeardown_wound stray wound resumed
      cases next with
      | none => exact .inl onwards
      | some stage' => exact .inr (.inr ⟨stage', rfl, onwards⟩)
  · rcases winding.each old with still | there | ⟨stage', here, -⟩
    · exact .inl still
    · exact .inr (.inl there)
    · exact absurd (Prod.mk.inj (Option.some.inj here)).1.symm ne

/-- `stop` goes on with a teardown: what it still has to wind up is kept, and the rest of what
is final does not depend on where it is. -/
theorem callsFinal_resumed {rest : List String} {stage : Stage} {next : Option Stage}
    (final : CallsFinal s stopping) (winding : s.Winding rest (some (call, stage)))
    (at_ : s.At call ctx) (resumed : ctx.resumeTeardown false stage = some (ctx', next)) :
    CallsFinal (s.update call ctx' []) .notCalled ∧
      (s.update call ctx' []).Winding rest (next.map (call, ·)) := by
  have same := CallContext.resumeTeardown_same resumed
  have before : CallsFinal s .notCalled := ⟨final.keyed, final.stray, trivial⟩
  refine ⟨callsFinal_update [] before at_ same.callId same.strayRtc (.inl rfl) (.inl rfl), ?_⟩
  exact winding_resumed winding at_ (final.stray at_) resumed

/-- The loop of `stop`, from between two calls to its next await. -/
theorem callsFinal_stopNext {s : EdgeOrchestrator} (rest : List String)
    (final : CallsFinal s .notCalled) (winding : s.Winding rest none) :
    CallsFinal (s.stopNext rest) (s.stopNext rest).stopping := by
  induction rest generalizing s with
  | nil =>
      have closing : CallsFinal s .closing := ⟨final.keyed, final.stray, winding⟩
      exact callsFinal_congr closing rfl rfl
  | cons callId rest ih =>
      unfold stopNext
      split
      · rename_i gone
        refine ih final ⟨fun {other number} there => ?_, winding.each⟩
        refine (List.mem_cons.mp (winding.listed there)).resolve_left fun key => ?_
        obtain ⟨ctx, at_, -⟩ := final.keyed there
        have found : s.find other = some (number, ctx) := by
          simp [find, there, show s.contexts[number]? = some ctx from at_]
        rw [key, gone] at found
        cases found
      · rename_i call ctx found
        obtain ⟨registered, at_⟩ := of_find found
        have same := ctx.beginTeardown_cancels
        have winding' := winding_taken final winding registered at_
        have final' : CallsFinal (s.update call (ctx.beginTeardown false).1 [.pop]) .notCalled :=
          callsFinal_update _ final at_ same.callId same.strayRtc (.inl rfl) (.inl rfl)
        split
        · rename_i torn
          rw [torn] at winding' final'
          exact callsFinal_congr ⟨final'.keyed, final'.stray, winding'⟩ rfl rfl
        · rename_i torn
          rw [torn] at winding' final'
          exact ih final' winding'

/-! ## The log -/

/-- After the return of `stop`, `at.dial` is not invoked. -/
def NoDialAfterStop (log : List LogEntry) : Prop :=
  log.Pairwise fun earlier later => earlier = .stopReturned → ∀ dial, later ≠ .atDial dial

/-- The log tells when `stop` has returned. -/
def ReturnLogged (s : EdgeOrchestrator) : Prop := .stopReturned ∈ s.log → s.stopping = .returned

theorem returnLogged_grown {more : List LogEntry} (logged : ReturnLogged s)
    (log : t.log = s.log ++ more) (none_ : .stopReturned ∉ more) (same : t.stopping = s.stopping) :
    ReturnLogged t := by
  intro returned
  rw [log] at returned
  rw [same]
  exact logged ((List.mem_append.mp returned).resolve_right none_)

theorem returnLogged_update (logged : ReturnLogged s) (handler : Handler) :
    ReturnLogged { s.update call ctx effects with handler := handler } := by
  refine returnLogged_grown logged rfl (fun returned => ?_) rfl
  obtain ⟨effect, -, entry⟩ := List.mem_filterMap.mp returned
  cases effect <;> cases entry

theorem returnLogged_step {action : EdgeAction} (logged : ReturnLogged s)
    (next : step cfg s action = some t) : ReturnLogged t := by
  cases step_cases next with
  | start | cancelIgnored | settled => exact logged
  | duplicate | devDial | atDial | dialReturned | dialRaised =>
      exact returnLogged_grown logged rfl (by simp) rfl
  | pump | audioEnd => exact returnLogged_update logged _
  | stop first =>
      intro returned
      rw [stopNext_log] at returned
      rw [logged returned] at first
      cases first
  | stopStage held =>
      intro returned
      have was := logged (by simpa [update] using returned)
      rw [was] at held
      cases held
  | stopCall held =>
      intro returned
      rw [stopNext_log] at returned
      have was := logged (by simpa [update] using returned)
      rw [was] at held
      cases held
  | stopReturned => exact fun _ => rfl
  | _ => exact returnLogged_update logged _

/-! ## Quiet runs -/

/-- Everything that is kept, along a run of quiet steps. -/
structure Final (s : EdgeOrchestrator) : Prop where
  calls : CallsFinal s s.stopping
  logged : ReturnLogged s
  noDial : NoDialAfterStop s.log

theorem final_init : Final {} where
  calls := ⟨fun found => by simp at found, fun got => by simp [At] at got, trivial⟩
  logged := fun returned => by simp at returned
  noDial := List.Pairwise.nil

/-- `at.dial` is not invoked once `stop` has returned: the guard bars the
command. -/
theorem noDial_step {action : EdgeAction} (final : Final s) (quiet : QuietStop cfg s action)
    (next : step cfg s action = some t) : NoDialAfterStop t.log := by
  obtain ⟨more, grown, dials⟩ := step_log next
  rw [NoDialAfterStop, grown, List.pairwise_append]
  refine ⟨final.noDial, ?_, fun earlier logged later new returned dial dialed => ?_⟩
  · refine List.pairwise_of_forall_mem_list fun earlier first later new returned dial dialed => ?_
    subst dialed
    obtain ⟨alone, -⟩ := dials dial new
    rw [alone, List.mem_singleton, returned] at first
    cases first
  · subst dialed returned
    obtain ⟨-, rfl, fresh, -⟩ := dials dial new
    have stopped := final.logged logged
    rcases quiet with active | before | ⟨-, running⟩
    · rw [fresh] at active
      cases active
    · rw [stopped] at before
      cases before
    · exact running stopped

/-- The pump takes nothing out of the map while `stop` works. -/
theorem pump_stays {input : PumpInput} (turn : ctx.pumpStep cfg (s.inCalls ctx.callId) input =
      some (ctx', effects))
    (quiet : s.stopping = .notCalled ∨ s.inCalls ctx.callId = false ∨
      ctx.Leaves cfg input = false) :
    s.stopping = .notCalled ∨ (.pop ∈ effects → s.inCalls ctx.callId = false) := by
  rcases quiet with before | gone | stays
  · exact .inl before
  · exact .inr fun _ => gone
  · refine .inr fun popped => ?_
    by_contra active
    rw [show s.inCalls ctx.callId = true by simpa using active] at turn
    simp [CallContext.Leaves, turn, popped] at stays

/-- **One step.**  A quiet step keeps the calls final. -/
theorem callsFinal_step {action : EdgeAction} (final : CallsFinal s s.stopping)
    (quiet : QuietStop cfg s action) (next : step cfg s action = some t) :
    CallsFinal t t.stopping := by
  have same : ∀ ctx : CallContext, ctx.Quieter ctx := fun ctx => .of_parts id id id id rfl
  have kept : .pop ∉ ([] : List Effect) := by simp
  cases step_cases next with
  | start | duplicate | atDial | cancelIgnored | settled | dialRaised =>
      exact callsFinal_congr final rfl rfl
  | devDial _ fresh mode =>
      have before : s.stopping = .notCalled := by
        rcases quiet with active | before | ⟨modem, -⟩
        · rw [fresh] at active
          cases active
        · exact before
        · rw [mode] at modem
          cases modem
      exact callsFinal_congr (callsFinal_accept final before) rfl rfl
  | dialReturned _ held =>
      have before : s.stopping = .notCalled := by simpa [QuietStop, held] using quiet
      exact callsFinal_congr (callsFinal_accept final before) rfl rfl
  | @accepted call ctx held at_ =>
      simp only [QuietStop, held] at quiet
      have registered := quiet ctx (by simpa using at_)
      refine callsFinal_moved final at_ rfl rfl ?_ (.inr fun popped => absurd popped kept)
      exact registered.imp_right .inl
  | @cancelModem call ctx _ _ _ at_ =>
      exact callsFinal_moved final at_ rfl rfl (.inr (.inr (same ctx)))
        (.inr fun popped => by simp at popped)
  | @devHangup call ctx _ _ at_ =>
      exact callsFinal_moved final at_ rfl rfl (.inr (.inr (.of_parts id id id id rfl)))
        (.inr fun popped => by simp at popped)
  | @devConnected call ctx _ at_ =>
      exact callsFinal_moved final at_ rfl rfl (.inr (.inr (same ctx)))
        (.inr fun popped => by simp at popped)
  | @devSession call ctx _ at_ =>
      exact callsFinal_moved final at_ rfl rfl (.inr (.inr (.of_parts id id id (by simp) rfl)))
        (.inr fun popped => absurd popped kept)
  | @devJoined call ctx begin_ held at_ =>
      simp only [QuietStop, held] at quiet
      obtain ⟨owned, registered⟩ := quiet ctx (by simpa using at_)
      obtain ⟨session, owned⟩ := Option.isSome_iff_exists.mp owned
      have joined : (devJoined cfg ctx begin_).callId = ctx.callId ∧
          (devJoined cfg ctx begin_).strayRtc = ctx.strayRtc := by
        unfold devJoined
        rw [owned]
        dsimp only
        split <;> exact ⟨rfl, rfl⟩
      refine callsFinal_moved final at_ joined.1 joined.2 ?_
        (.inr fun popped => absurd popped kept)
      exact registered.imp_right .inl
  | @devPopped call ctx held at_ =>
      simp only [QuietStop, held] at quiet
      have gone := quiet ctx (by simpa using at_)
      have torn := ctx.beginTeardown_cancels
      exact callsFinal_moved final at_ torn.callId torn.strayRtc
        (.inr (.inr ctx.beginTeardown_quieter)) (gone.imp_right fun gone _ => gone)
  | @devTornDown call ctx ctx' stage following _ at_ resumed =>
      have torn := CallContext.resumeTeardown_same resumed
      exact callsFinal_moved final at_ torn.callId torn.strayRtc
        (.inr (.inr (CallContext.resumeTeardown_quieter resumed)))
        (.inr fun popped => absurd popped kept)
  | @pump call ctx ctx' effects input at_ turn =>
      obtain ⟨whole, stays⟩ := quiet ctx (by simpa using at_)
      have stray := CallContext.pumpStep_stray whole turn
      have live := (CallContext.pumpStep_cases turn).1
      exact callsFinal_update _ final at_ (CallContext.pumpStep_continues turn).callId stray
        (.inr (.inr (.of_live live stray))) (pump_stays turn stays)
  | @audioEnd call ctx at_ =>
      refine callsFinal_update _ final at_ rfl rfl
        (.inr (.inr (.of_parts id (fun quiet => ?_) id id rfl)))
        (.inr fun popped => absurd popped kept)
      simp [quiet]
  | stop first =>
      rw [first] at final
      refine callsFinal_stopNext _ final ⟨fun {callId call} registered => ?_, fun {call ctx} at_ => ?_⟩
      · obtain ⟨earlier, later, split_, -⟩ := List.lookup_eq_some_iff.mp registered
        simp [split_]
      · have bound := (List.getElem?_eq_some_iff.mp at_).1
        exact (quiet call bound ctx (by simpa using at_)).imp_right .inl
  | stopStage held at_ resumed =>
      rw [held] at final
      obtain ⟨updated, winding⟩ := callsFinal_resumed final final.winding at_ resumed
      exact callsFinal_congr ⟨updated.keyed, updated.stray, winding⟩ rfl rfl
  | stopCall held at_ resumed =>
      rw [held] at final
      obtain ⟨updated, winding⟩ := callsFinal_resumed final final.winding at_ resumed
      exact callsFinal_stopNext _ updated winding
  | stopReturned held =>
      rw [held] at final
      exact callsFinal_congr ⟨final.keyed, final.stray, final.winding⟩ rfl rfl

theorem final_run (run : Reachable (step cfg) (QuietStop cfg) {} s) : Final s :=
  run.invariant final_init fun _ _ _ final quiet next =>
    ⟨callsFinal_step final.calls quiet next, returnLogged_step final.logged next,
      noDial_step final quiet next⟩

/-- Nothing of a call is left. -/
def Quiet (s : EdgeOrchestrator) : Prop := s.calls = [] ∧ ∀ ctx ∈ s.contexts, ctx.Still

/-- **stop is final.**  When all that is alive at `stop` is in the map, and no
call begins or ends by itself from then on, `at.dial` is not invoked after `stop`
has returned, and in every state from then on no call is active, no task of a
call is alive and no RTC session is joined. -/
theorem stop_is_final (cfg : Config) (s : EdgeOrchestrator)
    (run : Reachable (step cfg) (QuietStop cfg) {} s) :
    NoDialAfterStop s.log ∧ (s.stopping = .returned → s.Quiet) := by
  have final := final_run run
  refine ⟨final.noDial, fun returned => ?_⟩
  have winding := final.calls.winding
  rw [returned] at winding
  have unbound : ∀ callId, s.calls.lookup callId = none := by
    intro callId
    cases found : s.calls.lookup callId with
    | none => rfl
    | some call => exact absurd (winding.listed found) (by simp)
  refine ⟨Dict.eq_nil_of_lookup unbound, fun ctx listed => ?_⟩
  obtain ⟨call, at_⟩ := List.getElem?_of_mem listed
  rcases winding.each at_ with still | registered | ⟨stage, torn, -⟩
  · exact still
  · rw [Registered, unbound] at registered
    cases registered
  · cases torn

/-! ## Poles -/

/-- `stop` tears down a call in conversation; a dial that comes meanwhile fails. -/
def stopInCall : List EdgeAction :=
  [.start, .message (.dial { callId := "a", rtcUidEngine := "engine" }), .handler (.dialReturned 7),
    .handler (.sent true), .pump 0 .start, .pump 0 (.event .connected), .pump 0 (.sent true),
    .pump 0 (.enabled .ok true), .pump 0 .joined, .stop, .pump 0 .cancelled, .audioEnd 0,
    .audioEnd 0, .stopResume, .stopResume, .message (.dial { callId := "b" }), .stopResume,
    .handler (.dialRaised "RuntimeError"), .stopResume, .handler (.sent true)]

theorem stop_in_call : (guardedRun (step {}) (QuietStop {}) {} stopInCall).isSome = true := by
  decide

theorem call_over_after_stop :
    (Option.get _ stop_in_call).stopping = .returned ∧ (Option.get _ stop_in_call).Quiet :=
  ⟨by decide,
    (stop_is_final {} _ (reachable_guarded_get stop_in_call)).2 (by decide)⟩

/-- The modem accepts the number while `stop` closes the audio devices. -/
def dialAcrossStop : List EdgeAction :=
  [.start, .message (.dial { callId := "a" }), .stop, .handler (.dialReturned 7), .stopResume,
    .handler (.sent true)]

theorem dial_across_stop : (run (step {}) {} dialAcrossStop).isSome = true := by decide

/-- **A call outlives stop.**  The dial in progress when `stop` is called registers
its call past the snapshot, its pump is created after `stop` has returned, and
nothing tears it down. -/
theorem dial_in_progress_outlives_stop :
    ¬ ∀ (cfg : Config) (s : EdgeOrchestrator), Reachable (step cfg) Free {} s →
      NoDialAfterStop s.log ∧ (s.stopping = .returned → s.Quiet) := by
  intro claim
  have quiet := (claim {} _ (reachable_get dial_across_stop)).2 (by decide)
  have active : (Option.get _ dial_across_stop).calls = [("a", 0)] := by decide
  rw [Quiet, active] at quiet
  exact absurd quiet.1 (by simp)

end EdgeOrchestrator

end IsalesTelephony.Edge
