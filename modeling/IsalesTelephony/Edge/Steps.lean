/-
# Edge.Steps -- what one step of the orchestrator can do

`Moves` inverts `EdgeOrchestrator.step` once (`step_cases`): each action leaves
the state alone but for its program counters, or appends one context
(`register`), or rewrites one context and carries out its effects (`update`).
What `register` and `update` change is said here in terms of lookups, so an
invariant over the calls is proved without unfolding a step.

`CallContext.teardown` and its awaits touch the audio path only: `SameCall` is
what they keep.
-/
import IsalesTelephony.Edge.Orchestrator

namespace IsalesTelephony.Edge

set_option autoImplicit false

open IsalesTelephony.Theory

/-! ## Teardown -/

/-- Two states of one context that differ in the audio path alone. -/
structure CallContext.SameCall (ctx ctx' : CallContext) : Prop where
  dial : ctx'.dial = ctx.dial
  modemCallId : ctx'.modemCallId = ctx.modemCallId
  terminated : ctx'.terminated = ctx.terminated
  pump : ctx'.pump = ctx.pump
  pumpCancelled : ctx'.pumpCancelled = ctx.pumpCancelled
  audioTasks : ctx'.audioTasks = ctx.audioTasks
  strayRtc : ctx'.strayRtc = ctx.strayRtc
  hangupDelivered : ctx'.hangupDelivered = ctx.hangupDelivered

namespace CallContext

variable {ctx ctx' ctx'' : CallContext}

namespace SameCall

theorem refl (ctx : CallContext) : ctx.SameCall ctx := ⟨rfl, rfl, rfl, rfl, rfl, rfl, rfl, rfl⟩

theorem trans (first : ctx.SameCall ctx') (second : ctx'.SameCall ctx'') : ctx.SameCall ctx'' where
  dial := second.dial.trans first.dial
  modemCallId := second.modemCallId.trans first.modemCallId
  terminated := second.terminated.trans first.terminated
  pump := second.pump.trans first.pump
  pumpCancelled := second.pumpCancelled.trans first.pumpCancelled
  audioTasks := second.audioTasks.trans first.audioTasks
  strayRtc := second.strayRtc.trans first.strayRtc
  hangupDelivered := second.hangupDelivered.trans first.hangupDelivered

theorem callId (same : ctx.SameCall ctx') : ctx'.callId = ctx.callId := by
  simp [CallContext.callId, same.dial]

end SameCall

theorem afterRtcLeave_same (ctx : CallContext) : ctx.SameCall ctx.afterRtcLeave.1 := by
  unfold afterRtcLeave
  split <;> exact ⟨rfl, rfl, rfl, rfl, rfl, rfl, rfl, rfl⟩

theorem afterBridgeLeave_same (ctx : CallContext) : ctx.SameCall ctx.afterBridgeLeave.1 := by
  have dropped : ctx.SameCall { ctx with bridge := none, recorder := false } :=
    ⟨rfl, rfl, rfl, rfl, rfl, rfl, rfl, rfl⟩
  unfold afterBridgeLeave
  dsimp only
  split
  · exact dropped
  · exact dropped.trans (afterRtcLeave_same _)

theorem afterTasks_same (ctx : CallContext) : ctx.SameCall ctx.afterTasks.1 := by
  unfold afterTasks
  split
  · exact .refl ctx
  · exact afterBridgeLeave_same ctx

theorem awaitTasks_same (ctx : CallContext) (byPump : Bool) :
    ctx.SameCall (ctx.awaitTasks byPump).1 := by
  unfold awaitTasks
  split
  · exact afterTasks_same ctx
  · exact .refl ctx

/-- The teardown the pump runs itself cancels nothing but audio tasks. -/
theorem beginTeardown_same (ctx : CallContext) : ctx.SameCall (ctx.beginTeardown true).1 :=
  awaitTasks_same ctx true

/-- Any other teardown cancels the pump as well. -/
theorem beginTeardown_cancels (ctx : CallContext) :
    { ctx with pumpCancelled := ctx.pump.live }.SameCall (ctx.beginTeardown false).1 :=
  awaitTasks_same _ false

theorem resumeTeardown_same {byPump : Bool} {stage : Stage} {next : Option Stage}
    (resumed : ctx.resumeTeardown byPump stage = some (ctx', next)) : ctx.SameCall ctx' := by
  cases stage with
  | tasks =>
      simp only [resumeTeardown] at resumed
      split at resumed
      · obtain rfl : ctx.afterTasks.1 = ctx' := by rw [Option.some.inj resumed]
        exact afterTasks_same ctx
      · cases resumed
  | bridgeLeave =>
      obtain rfl : ctx.afterBridgeLeave.1 = ctx' := by rw [Option.some.inj resumed]
      exact afterBridgeLeave_same ctx
  | rtcLeave =>
      obtain rfl : ctx.afterRtcLeave.1 = ctx' := by rw [Option.some.inj resumed]
      exact afterRtcLeave_same ctx
  | cpcmregDisable =>
      obtain ⟨rfl, -⟩ := Prod.mk.inj (Option.some.inj resumed)
      exact .refl ctx

end CallContext

/-! ## One turn of the pump -/

/-- The pump leaves its loop without handling a remote_hangup. -/
def CallContext.Abrupt (cfg : Config) (ctx : CallContext) (input : PumpInput) : Bool :=
  match ctx.pump, input with
  | .nextEvent, .streamEnd => true
  | .nextEvent, .streamRaise => true
  | .connectedSend, .sent false => true
  | .cpcmregEnable, .enableRaised => true
  | .cpcmregEnable, .enabled begin_ factory => ctx.setupRaises cfg begin_ factory
  | .alertSend, .sent false => true
  | _, _ => false

/-- The same call later on. -/
structure CallContext.Continues (ctx ctx' : CallContext) : Prop where
  dial : ctx'.dial = ctx.dial
  modemCallId : ctx'.modemCallId = ctx.modemCallId
  terminated : ctx.terminated = true → ctx'.terminated = true
  hangupDelivered : ctx.hangupDelivered = true → ctx'.hangupDelivered = true
  pumpCancelled : ctx'.pumpCancelled = true → ctx.pumpCancelled = true

namespace CallContext

variable {cfg : Config} {ctx ctx' ctx'' : CallContext} {inCalls : Bool} {via : Via}

theorem SameCall.continues (same : ctx.SameCall ctx') : ctx.Continues ctx' :=
  ⟨same.dial, same.modemCallId, same.terminated.trans, same.hangupDelivered.trans,
    same.pumpCancelled.symm.trans⟩

namespace Continues

theorem refl (ctx : CallContext) : ctx.Continues ctx := (SameCall.refl ctx).continues

theorem trans (first : ctx.Continues ctx') (second : ctx'.Continues ctx'') :
    ctx.Continues ctx'' where
  dial := second.dial.trans first.dial
  modemCallId := second.modemCallId.trans first.modemCallId
  terminated := fun ended => second.terminated (first.terminated ended)
  hangupDelivered := fun delivered => second.hangupDelivered (first.hangupDelivered delivered)
  pumpCancelled := fun cancelled => first.pumpCancelled (second.pumpCancelled cancelled)

theorem callId (continues : ctx.Continues ctx') : ctx'.callId = ctx.callId := by
  simp [CallContext.callId, continues.dial]

/-- The pump goes on to another await. -/
theorem move (continues : ctx.Continues ctx') (pump : PumpPc) :
    ctx.Continues { ctx' with pump := pump } :=
  continues.trans ⟨rfl, rfl, id, id, id⟩

end Continues

theorem exitPump_continues (ctx : CallContext) : ctx.Continues (ctx.exitPump inCalls).1 := by
  have same := ctx.beginTeardown_same
  unfold exitPump
  split
  · split
    all_goals
      rename_i torn
      rw [torn] at same
      exact same.continues.move _
  · exact (Continues.refl ctx).move _

theorem afterHangup_continues (ctx : CallContext) :
    ctx.Continues (ctx.afterHangup inCalls via).1 := by
  cases via with
  | event => exact ctx.exitPump_continues
  | pcmFailed | joinFailed | final => exact (Continues.refl ctx).move _

theorem handleRemoteHangup_continues (ctx : CallContext) (cause : Option String) :
    ctx.Continues (ctx.handleRemoteHangup inCalls via cause).1 := by
  unfold handleRemoteHangup
  split
  · exact ctx.afterHangup_continues
  · exact ⟨rfl, rfl, fun _ => rfl, id, id⟩

theorem popAndTeardown_continues (ctx : CallContext) :
    ctx.Continues (ctx.popAndTeardown via).1 := by
  have same := ctx.beginTeardown_same
  unfold popAndTeardown
  split
  · rename_i torn
    rw [torn] at same
    exact same.continues.move _
  · rename_i ctx' torn
    rw [torn] at same
    exact same.continues.trans ctx'.afterHangup_continues

theorem runPump_continues {input : PumpInput} {turn : PumpStep}
    (ran : ctx.runPump cfg inCalls ctx.pump input = some turn) : ctx.Continues turn.1 := by
  unfold runPump at ran
  split at ran
  case h_3 =>
    rw [← Option.some.inj ran]
    refine Continues.trans ?_ (handleRemoteHangup_continues _ _)
    exact ⟨rfl, rfl, id, fun _ => rfl, id⟩
  case h_9 =>
    rw [← Option.some.inj ran]
    unfold buildAudioPath
    dsimp only
    split
    · refine Continues.trans ?_ (exitPump_continues _)
      exact ⟨rfl, rfl, id, id, id⟩
    · exact ⟨rfl, rfl, id, id, id⟩
  case h_18 =>
    obtain ⟨⟨ctx', next⟩, resumed, moved⟩ := Option.map_eq_some_iff.mp ran
    have same := resumeTeardown_same resumed
    rw [← moved]
    cases next with
    | some stage => exact same.continues.move _
    | none => exact same.continues.trans ctx'.afterHangup_continues
  case h_20 => cases ran
  all_goals
    rw [← Option.some.inj ran]
    first
      | exact exitPump_continues _
      | exact handleRemoteHangup_continues _ _
      | exact popAndTeardown_continues _
      | exact ⟨rfl, rfl, id, id, id⟩

theorem cancelPump_continues (pc : PumpPc) : ctx.Continues (ctx.cancelPump inCalls pc).1 := by
  unfold cancelPump
  split
  · exact (Continues.refl ctx).move _
  · have same := ctx.afterTasks_same
    split
    · rename_i torn
      rw [torn] at same
      exact same.continues.move _
    · rename_i ctx' torn
      rw [torn] at same
      exact same.continues.trans ctx'.afterHangup_continues
  · exact (Continues.refl ctx).move _
  · exact ctx.exitPump_continues

/-- A turn is that of a running pump, or the cancellation of a cancelled one. -/
theorem pumpStep_cases {input : PumpInput} {turn : PumpStep}
    (stepped : ctx.pumpStep cfg inCalls input = some turn) :
    ctx.pump.live = true ∧
      (ctx.pumpCancelled = false ∧ ctx.runPump cfg inCalls ctx.pump input = some turn ∨
        ctx.pumpCancelled = true ∧ input = .cancelled ∧
          { ctx with pumpCancelled := false }.cancelPump inCalls ctx.pump = turn) := by
  unfold pumpStep at stepped
  split at stepped
  · rename_i live cancelled
    exact ⟨live, .inr ⟨cancelled, rfl, Option.some.inj stepped⟩⟩
  · rename_i live running
    exact ⟨live, .inl ⟨running, stepped⟩⟩
  · cases stepped

theorem pumpStep_continues {input : PumpInput} {turn : PumpStep}
    (stepped : ctx.pumpStep cfg inCalls input = some turn) : ctx.Continues turn.1 := by
  obtain ⟨-, ⟨-, ran⟩ | ⟨cancelled, -, ran⟩⟩ := pumpStep_cases stepped
  · exact runPump_continues ran
  · rw [← ran]
    refine Continues.trans ?_ (cancelPump_continues _)
    exact ⟨rfl, rfl, id, id, fun _ => cancelled⟩

end CallContext

/-! ## Lookups after `register` and `update` -/

namespace EdgeOrchestrator

/-- `ctx` is the context of the call numbered `call`. -/
abbrev At (s : EdgeOrchestrator) (call : Nat) (ctx : CallContext) : Prop :=
  s.contexts[call]? = some ctx

variable {s t : EdgeOrchestrator} {call other : Nat} {ctx ctx' found : CallContext}
  {effects : List Effect}

theorem of_find {callId : String} (got : s.find callId = some (call, ctx)) :
    s.calls.lookup callId = some call ∧ s.At call ctx := by
  obtain ⟨number, registered, context⟩ := Option.bind_eq_some_iff.mp got
  obtain ⟨found, at_, pair⟩ := Option.map_eq_some_iff.mp context
  obtain ⟨rfl, rfl⟩ := Prod.mk.inj pair
  exact ⟨registered, at_⟩

theorem update_at (effects : List Effect) (at_ : s.At call ctx) :
    (s.update call ctx' effects).At other found ↔
      other = call ∧ found = ctx' ∨ other ≠ call ∧ s.At other found := by
  have bound : call < s.contexts.length := (List.getElem?_eq_some_iff.mp at_).1
  by_cases same : other = call
  · subst same
    simp [At, update, bound, eq_comm]
  · simp [At, update, Ne.symm same, same]

theorem update_lookup (callId : String) :
    (s.update call ctx' effects).calls.lookup callId =
      if .pop ∈ effects ∧ callId = ctx'.callId then none else s.calls.lookup callId := by
  simp only [update]
  by_cases popped : Effect.pop ∈ effects
  · simp [popped, Dict.lookup_erase]
  · simp [popped]

/-- A call that is registered after an update was so before. -/
theorem lookup_of_update {callId : String}
    (registered : (s.update call ctx' effects).calls.lookup callId = some other) :
    s.calls.lookup callId = some other := by
  rw [update_lookup] at registered
  split at registered
  · cases registered
  · exact registered

theorem accept_at {dial : DialCommand} {modemCallId : Option Nat} :
    (s.accept dial modemCallId).At other found ↔
      s.At other found ∨
        other = s.contexts.length ∧ found = { dial := dial, modemCallId := modemCallId } := by
  simp only [At, accept, record, register, List.getElem?_append, List.getElem?_singleton]
  by_cases old : other < s.contexts.length
  · simp only [old, if_true]
    exact ⟨Or.inl, fun h => h.resolve_right fun new => absurd new.1 (Nat.ne_of_lt old)⟩
  · have absent : s.contexts[other]? = none := by simpa using old
    simp only [old, if_false, absent]
    by_cases new : other = s.contexts.length
    · simp [new, eq_comm]
    · have past : ¬ other - s.contexts.length = 0 := by omega
      simp [past, new]

theorem accept_lookup {dial : DialCommand} {modemCallId : Option Nat} (callId : String) :
    (s.accept dial modemCallId).calls.lookup callId =
      if callId = dial.callId then some s.contexts.length else s.calls.lookup callId :=
  Dict.lookup_put s.calls dial.callId callId s.contexts.length

end EdgeOrchestrator

/-! ## The inversion -/

open EdgeOrchestrator in
/-- What one action can do, guards included. -/
inductive EdgeOrchestrator.Moves (cfg : Config) (s : EdgeOrchestrator) :
    EdgeAction → EdgeOrchestrator → Prop
  | start : Moves cfg s .start { s with callback := true, started := true }
  | duplicate {dial : DialCommand} (free : s.handler = .idle)
      (known : s.inCalls dial.callId = true) :
      Moves cfg s (.message (.dial dial))
        { s.record (.send (sendDialAck dial.callId true "duplicate")) with
          handler := .duplicateAck dial.callId }
  | devDial {dial : DialCommand} (free : s.handler = .idle)
      (fresh : s.inCalls dial.callId = false) (mode : cfg.devNoModem = true) :
      Moves cfg s (.message (.dial dial))
        { s.accept dial none with handler := .devAck s.contexts.length }
  | atDial {dial : DialCommand} (free : s.handler = .idle)
      (fresh : s.inCalls dial.callId = false) (mode : cfg.devNoModem = false) :
      Moves cfg s (.message (.dial dial))
        { s.record (.atDial dial) with handler := .atDial dial }
  | cancelIgnored {callId : String} : Moves cfg s (.message (.cancel callId)) s
  | cancelModem {call : Nat} {ctx : CallContext} {callId : String} (free : s.handler = .idle)
      (registered : s.calls.lookup callId = some call) (at_ : s.At call ctx)
      (mode : cfg.devNoModem = false) :
      Moves cfg s (.message (.cancel callId))
        { s.update call ctx [.atHangup] with handler := .cancelHangup call }
  | devHangup {call : Nat} {ctx : CallContext} {action : EdgeAction} (cause : String)
      (at_ : s.At call ctx) (running : ctx.terminated = false)
      (mode : cfg.devNoModem = true ∨ s.handler = .devJoin call)
      (from_ : ∀ number input, action ≠ .pump number input) :
      Moves cfg s action
        { s.update call { ctx with terminated := true }
            [.send (sendCallEventRemoteHangup ctx.callId (some cause))] with
          handler := .devHangupSend call }
  | settled {action : EdgeAction} (from_ : ∀ number input, action ≠ .pump number input) :
      Moves cfg s action { s with handler := .idle }
  | dialReturned {dial : DialCommand} (modemCallId : Nat) (held : s.handler = .atDial dial) :
      Moves cfg s (.handler (.dialReturned modemCallId))
        { s.accept dial (some modemCallId) with handler := .acceptAck s.contexts.length }
  | dialRaised {dial : DialCommand} (exception : String) (held : s.handler = .atDial dial) :
      Moves cfg s (.handler (.dialRaised exception))
        { s.record (.send (sendDialAck dial.callId false ("at_dial: " ++ exception))) with
          handler := .rejectAck dial.callId }
  | accepted {call : Nat} {ctx : CallContext} (held : s.handler = .acceptAck call)
      (at_ : s.At call ctx) :
      Moves cfg s (.handler (.sent true))
        { s.update call { ctx with pump := .created } [] with handler := .idle }
  | devConnected {call : Nat} {ctx : CallContext} (held : s.handler = .devAck call)
      (at_ : s.At call ctx) :
      Moves cfg s (.handler (.sent true))
        { s.update call ctx [.send (sendCallEventConnected ctx.callId)] with
          handler := .devConnected call }
  | devSession {call : Nat} {ctx : CallContext} (held : s.handler = .devConnected call)
      (at_ : s.At call ctx) :
      Moves cfg s (.handler (.sentFactory true))
        { s.update call { ctx with rtcSession := some false } [] with handler := .devJoin call }
  | devJoined {call : Nat} {ctx : CallContext} (begin_ : BeginCall) (held : s.handler = .devJoin call)
      (at_ : s.At call ctx) :
      Moves cfg s (.handler (.joined begin_))
        { s.update call (devJoined cfg ctx begin_) [] with handler := .idle }
  | devPopped {call : Nat} {ctx : CallContext} (held : s.handler = .devHangupSend call)
      (at_ : s.At call ctx) :
      Moves cfg s (.handler (.sent true))
        { s.update call (ctx.beginTeardown false).1 [.pop] with
          handler := .tearingDown call (ctx.beginTeardown false).2 }
  | devTornDown {call : Nat} {ctx ctx' : CallContext} {stage : Stage} {next : Option Stage}
      (held : s.handler = .devTeardown call stage) (at_ : s.At call ctx)
      (resumed : ctx.resumeTeardown false stage = some (ctx', next)) :
      Moves cfg s (.handler .stageDone)
        { s.update call ctx' [] with handler := .tearingDown call next }
  | pump {call : Nat} {ctx ctx' : CallContext} {effects : List Effect}
      {input : PumpInput} (at_ : s.At call ctx)
      (turn : ctx.pumpStep cfg (s.inCalls ctx.callId) input = some (ctx', effects)) :
      Moves cfg s (.pump call input) (s.update call ctx' effects)
  | audioEnd {call : Nat} {ctx : CallContext} (at_ : s.At call ctx) :
      Moves cfg s (.audioEnd call)
        (s.update call { ctx with audioTasks := ctx.audioTasks - 1 } [])
  | stop (first : s.stopping = .notCalled) :
      Moves cfg s .stop (s.stopNext (s.calls.map (·.1)))
  | stopStage {call : Nat} {ctx ctx' : CallContext} {stage stage' : Stage} {rest : List String}
      (held : s.stopping = .teardown call stage rest) (at_ : s.At call ctx)
      (resumed : ctx.resumeTeardown false stage = some (ctx', some stage')) :
      Moves cfg s .stopResume
        { s.update call ctx' [] with stopping := .teardown call stage' rest }
  | stopCall {call : Nat} {ctx ctx' : CallContext} {stage : Stage} {rest : List String}
      (held : s.stopping = .teardown call stage rest) (at_ : s.At call ctx)
      (resumed : ctx.resumeTeardown false stage = some (ctx', none)) :
      Moves cfg s .stopResume ((s.update call ctx' []).stopNext rest)
  | stopReturned (held : s.stopping = .closing) :
      Moves cfg s .stopResume
        { s.record .stopReturned with started := false, stopping := .returned }

namespace EdgeOrchestrator

variable {s t : EdgeOrchestrator} {call : Nat} {ctx : CallContext}

theorem devRemoteHangup_cases {cfg : Config} {action : EdgeAction} (cause : String)
    (at_ : s.At call ctx)
    (mode : cfg.devNoModem = true ∨ s.handler = .devJoin call)
    (from_ : ∀ number input, action ≠ .pump number input) :
    s.Moves cfg action (s.devRemoteHangup call ctx cause) := by
  unfold devRemoteHangup
  split
  · exact .settled from_
  · rename_i running
    exact .devHangup cause at_ (by simpa using running) mode from_

theorem onDial_cases {cfg : Config} (free : s.handler = .idle) (dial : DialCommand) :
    s.Moves cfg (.message (.dial dial)) (s.onDial cfg dial) := by
  unfold onDial
  split
  · rename_i known
    exact .duplicate free known
  · rename_i fresh
    replace fresh : s.inCalls dial.callId = false := by simpa using fresh
    split
    · rename_i mode
      exact .devDial free fresh mode
    · rename_i mode
      exact .atDial free fresh (by simpa using mode)

theorem onCancel_cases {cfg : Config} (free : s.handler = .idle) (callId : String) :
    s.Moves cfg (.message (.cancel callId)) (s.onCancel cfg callId) := by
  unfold onCancel
  split
  · exact .cancelIgnored
  · rename_i call ctx got
    obtain ⟨registered, at_⟩ := of_find got
    split
    · rename_i mode
      exact devRemoteHangup_cases _ at_ (.inl mode) (by simp)
    · rename_i mode
      exact .cancelModem free registered at_ (by simpa using mode)

theorem resumeCall_cases {cfg : Config} {handler : Handler} {input : HandlerInput}
    (held : s.handler = handler) (works : handler.call? = some call)
    (at_ : s.At call ctx)
    (next : s.resumeCall cfg call ctx handler input = some t) :
    s.Moves cfg (.handler input) t := by
  unfold resumeCall at next
  split at next
  all_goals simp only [Handler.call?, Option.some.injEq] at works
  all_goals try obtain rfl := works
  · obtain rfl := Option.some.inj next
    exact .accepted held at_
  · obtain rfl := Option.some.inj next
    exact .settled (by simp)
  · obtain rfl := Option.some.inj next
    exact .devConnected held at_
  · obtain rfl := Option.some.inj next
    exact .settled (by simp)
  · obtain rfl := Option.some.inj next
    exact .devSession held at_
  · obtain rfl := Option.some.inj next
    exact .settled (by simp)
  · obtain rfl := Option.some.inj next
    exact .settled (by simp)
  · obtain rfl := Option.some.inj next
    exact .devJoined _ held at_
  · obtain rfl := Option.some.inj next
    exact devRemoteHangup_cases _ at_ (.inr held) (by simp)
  · obtain rfl := Option.some.inj next
    exact .devPopped held at_
  · obtain rfl := Option.some.inj next
    exact .settled (by simp)
  · obtain ⟨⟨ctx', following⟩, resumed, rfl⟩ := Option.map_eq_some_iff.mp next
    exact .devTornDown held at_ resumed
  · obtain rfl := Option.some.inj next
    exact .settled (by simp)
  · cases next

theorem resumeHandler_cases {cfg : Config} {input : HandlerInput}
    (next : s.resumeHandler cfg input = some t) : s.Moves cfg (.handler input) t := by
  unfold resumeHandler at next
  split at next
  · rename_i call works
    obtain ⟨ctx, at_, resumed⟩ := Option.bind_eq_some_iff.mp next
    exact resumeCall_cases rfl works at_ resumed
  · obtain rfl := Option.some.inj next
    exact .settled (by simp)
  · rename_i dial modemCallId _ held
    obtain rfl := Option.some.inj next
    exact .dialReturned modemCallId held
  · rename_i dial exception _ held
    obtain rfl := Option.some.inj next
    exact .dialRaised exception held
  · obtain rfl := Option.some.inj next
    exact .settled (by simp)
  · cases next

theorem resumeStop_cases {cfg : Config} (next : s.resumeStop = some t) :
    s.Moves cfg .stopResume t := by
  unfold resumeStop at next
  split at next
  · rename_i call stage rest held
    obtain ⟨ctx, at_, resumed⟩ := Option.bind_eq_some_iff.mp next
    obtain ⟨⟨ctx', following⟩, torn, moved⟩ := Option.map_eq_some_iff.mp resumed
    cases following with
    | none =>
        obtain rfl : _ = t := moved
        exact .stopCall held at_ torn
    | some stage' =>
        obtain rfl : _ = t := moved
        exact .stopStage held at_ torn
  · rename_i held
    obtain rfl := Option.some.inj next
    exact .stopReturned held
  · cases next

theorem step_cases {cfg : Config} {action : EdgeAction} (next : step cfg s action = some t) :
    s.Moves cfg action t := by
  cases action with
  | start =>
      simp only [step] at next
      split at next
      · cases next
      · obtain rfl := Option.some.inj next
        exact .start
  | message message =>
      cases message with
      | dial dial =>
          simp only [step] at next
          split at next
          · rename_i enabled
            obtain rfl := Option.some.inj next
            exact onDial_cases enabled.2 dial
          · cases next
      | cancel callId =>
          simp only [step] at next
          split at next
          · rename_i enabled
            obtain rfl := Option.some.inj next
            exact onCancel_cases enabled.2 callId
          · cases next
  | handler input => exact resumeHandler_cases next
  | pump call input =>
      obtain ⟨ctx, at_, turn⟩ := Option.bind_eq_some_iff.mp next
      obtain ⟨⟨ctx', effects⟩, stepped, rfl⟩ := Option.map_eq_some_iff.mp turn
      exact .pump at_ stepped
  | audioEnd call =>
      obtain ⟨ctx, at_, ended⟩ := Option.bind_eq_some_iff.mp next
      split at ended
      · obtain rfl := Option.some.inj ended
        exact .audioEnd at_
      · cases ended
  | stop =>
      simp only [step] at next
      split at next
      · rename_i first
        obtain rfl := Option.some.inj next
        exact .stop first
      · cases next
  | stopResume => exact resumeStop_cases next

/-! ## What a step logs -/

theorem stopNext_log (s : EdgeOrchestrator) (rest : List String) : (s.stopNext rest).log = s.log := by
  induction rest generalizing s with
  | nil => rfl
  | cons callId rest ih =>
      unfold stopNext
      split
      · exact ih s
      · split
        · simp [update, Effect.entry]
        · rw [ih]
          simp [update, Effect.entry]

/-- The log only grows, and `at.dial` is invoked by `_on_dial` alone, for a
command whose call id is not active. -/
theorem step_log {cfg : Config} {action : EdgeAction} (next : step cfg s action = some t) :
    ∃ more, t.log = s.log ++ more ∧ ∀ dial, .atDial dial ∈ more →
      more = [.atDial dial] ∧ action = .message (.dial dial) ∧ s.inCalls dial.callId = false ∧
        cfg.devNoModem = false := by
  have updated : ∀ (call : Nat) (ctx : CallContext) (effects : List Effect),
      ∃ more, (s.update call ctx effects).log = s.log ++ more ∧ ∀ dial, .atDial dial ∉ more := by
    intro call ctx effects
    refine ⟨_, rfl, fun dial listed => ?_⟩
    obtain ⟨effect, -, entry⟩ := List.mem_filterMap.mp listed
    cases effect <;> simp [Effect.entry] at entry
  have silent : ∀ {log : List LogEntry}, (∃ more, log = s.log ++ more ∧ ∀ dial, .atDial dial ∉ more) →
      ∃ more, log = s.log ++ more ∧ ∀ dial, .atDial dial ∈ more →
        more = [.atDial dial] ∧ action = .message (.dial dial) ∧ s.inCalls dial.callId = false ∧
          cfg.devNoModem = false :=
    fun ⟨more, same, none_⟩ => ⟨more, same, fun dial listed => absurd listed (none_ dial)⟩
  cases step_cases next with
  | atDial _ fresh mode =>
      refine ⟨_, rfl, fun dial listed => ?_⟩
      obtain rfl := LogEntry.atDial.inj (List.mem_singleton.mp listed)
      exact ⟨rfl, rfl, fresh, mode⟩
  | start => exact silent ⟨[], by simp, by simp⟩
  | duplicate => exact silent ⟨_, rfl, by simp⟩
  | devDial => exact silent ⟨_, rfl, by simp⟩
  | cancelIgnored => exact silent ⟨[], by simp, by simp⟩
  | settled => exact silent ⟨[], by simp, by simp⟩
  | dialReturned => exact silent ⟨_, rfl, by simp⟩
  | dialRaised => exact silent ⟨_, rfl, by simp⟩
  | stop => exact silent ⟨[], by simp [stopNext_log], by simp⟩
  | stopCall => exact silent ⟨[], by simp [stopNext_log, update], by simp⟩
  | stopReturned => exact silent ⟨_, rfl, by simp⟩
  | _ => exact silent (updated _ _ _)

end EdgeOrchestrator

end IsalesTelephony.Edge
