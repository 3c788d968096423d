/-
# Edge.OffHook -- a call that leaves the map leaves the line

In modem mode a call leaves the active-call map through the pump or through
`stop`.  `Released` is what must be true by then: the far end hung up (the event
stream delivered remote_hangup) or `at.hangup` was invoked for the call.

The remote_hangup branch has the first, the CPCMREG failure sees to the second
once its teardown is over.  The other ways out know nothing of the modem: a
failed RTC join, a stream that ends or raises, a send that raises, an audio path
that cannot be built, and `stop`.  They are harmless only for a call that was
released before, which is what `Releases` asks.

* `failed_join_leaves_line_open`: the join fails and nothing hangs up;
* `hooked_step`: steps that release keep `Hooked`;
* `released_when_left`: hence in such a run no call leaves the line open.
-/
import IsalesTelephony.Edge.Steps

namespace IsalesTelephony.Edge

set_option autoImplicit false

open IsalesTelephony.Theory IsalesTelephony.Theory.Transition

/-- The turn takes the call out of the map and `at.hangup` does not follow. -/
def CallContext.Loses (cfg : Config) (ctx : CallContext) (input : PumpInput) : Bool :=
  ctx.Abrupt cfg input ||
    match ctx.pump, input with
    | .hangupSend .joinFailed, .sent _ => true
    | .hangupSend .pcmFailed, .sent false => true
    | _, _ => false

namespace EdgeOrchestrator

/-- The far end hung up, or `at.hangup` was invoked for the call. -/
def Released (s : EdgeOrchestrator) (call : Nat) (ctx : CallContext) : Prop :=
  ctx.hangupDelivered = true ∨ .atHangup call ctx.modemCallId ∈ s.log

/-- The handler that took the call out of the map has not returned yet. -/
def Ending (s : EdgeOrchestrator) (call : Nat) (ctx : CallContext) : Prop :=
  (∃ via stage, ctx.pump = .teardown via stage) ∨
    ∃ stage rest, s.stopping = .teardown call stage rest

/-- The calls the loop of `stop` takes out of the map before its next await. -/
def stopTakes (s : EdgeOrchestrator) : List String → List (Nat × CallContext)
  | [] => []
  | callId :: rest =>
      match s.find callId with
      | none => stopTakes s rest
      | some (call, ctx) =>
          (call, ctx) :: match ctx.beginTeardown false with
            | (_, some _) => []
            | (ctx, none) => stopTakes (s.update call ctx [.pop]) rest

/-- The calls `stop` takes out of the map when it is resumed. -/
def resumeTakes (s : EdgeOrchestrator) : List (Nat × CallContext) :=
  match s.stopping with
  | .teardown call stage rest =>
      match s.contexts[call]?.bind fun ctx => ctx.resumeTeardown false stage with
      | some (ctx, none) => (s.update call ctx []).stopTakes rest
      | _ => []
  | _ => []

instance (s : EdgeOrchestrator) (call : Nat) (ctx : CallContext) :
    Decidable (s.Released call ctx) := inferInstanceAs (Decidable (_ ∨ _))

/-- The call lost in this step was released before; an ended call's pump is done
before its call id is dialed again. -/
def Releases (cfg : Config) (s : EdgeOrchestrator) : EdgeAction → Prop
  | .message (.dial dial) => s.inCalls dial.callId = false →
      ∀ ctx ∈ s.contexts, ctx.callId = dial.callId → ctx.pump.live = false
  | .pump call input => ∀ ctx ∈ s.contexts[call]?,
      ctx.Loses cfg input = true → s.Released call ctx
  | .stop => ∀ taken ∈ s.stopTakes (s.calls.map (·.1)), s.Released taken.1 taken.2
  | .stopResume => ∀ taken ∈ s.resumeTakes, s.Released taken.1 taken.2
  | _ => True

instance (cfg : Config) (s : EdgeOrchestrator) (action : EdgeAction) :
    Decidable (Releases cfg s action) := by
  unfold Releases
  split <;> infer_instance

end EdgeOrchestrator

/-! ## One turn of the pump -/

/-- The pump handles the remote_hangup of the modem. -/
def PumpPc.onEvent : PumpPc → Bool
  | .hangupSend .event => true
  | .teardown .event _ => true
  | _ => false

/-- The pump is past the pop of a CPCMREG failure, before its `at.hangup`. -/
def PumpPc.owesHangup : PumpPc → Bool
  | .teardown .pcmFailed _ => true
  | _ => false

/-- What a turn leaves behind: the hangup was delivered, is invoked, or is still
owed, or the call stays in the map. -/
def Keeps (owed : Bool) (turn : PumpStep) : Prop :=
  turn.1.hangupDelivered = true ∨ .atHangup ∈ turn.2 ∨ turn.1.pump.owesHangup = true ∨
    .pop ∉ turn.2 ∧ owed = false

namespace CallContext

variable {cfg : Config} {ctx ctx' : CallContext} {inCalls : Bool} {via : Via}

/-- The pump handles a remote_hangup of the modem only once it was delivered, and
the finally-block handles none. -/
structure Proper (ctx : CallContext) : Prop where
  onEvent : ctx.pump.onEvent = true → ctx.hangupDelivered = true
  final : ctx.pump ≠ .hangupSend .final

theorem proper_of_clear (clear : ctx.pump.onEvent = false) (final : ctx.pump ≠ .hangupSend .final) :
    ctx.Proper :=
  ⟨fun handling => absurd handling (by simp [clear]), final⟩

theorem exitPump_proper (ctx : CallContext) : (ctx.exitPump inCalls).1.Proper := by
  unfold exitPump
  repeat' split
  all_goals exact proper_of_clear rfl (by simp)

theorem afterHangup_proper (ctx : CallContext) : (ctx.afterHangup inCalls via).1.Proper := by
  cases via with
  | event => exact ctx.exitPump_proper
  | pcmFailed | joinFailed | final => exact proper_of_clear rfl (by simp [afterHangup])

theorem handleRemoteHangup_proper (cause : Option String) (final : via ≠ .final)
    (onEvent : via = .event → ctx.hangupDelivered = true) :
    (ctx.handleRemoteHangup inCalls via cause).1.Proper := by
  unfold handleRemoteHangup
  split
  · exact ctx.afterHangup_proper
  · refine ⟨fun handling => onEvent ?_, by simpa using final⟩
    cases via <;> simp [PumpPc.onEvent] at handling ⊢

theorem popAndTeardown_proper (onEvent : via = .event → ctx.hangupDelivered = true) :
    (ctx.popAndTeardown via).1.Proper := by
  have same := ctx.beginTeardown_same
  unfold popAndTeardown
  split
  · rename_i torn
    rw [torn] at same
    refine ⟨fun handling => same.hangupDelivered.trans (onEvent ?_), by simp⟩
    cases via <;> simp [PumpPc.onEvent] at handling ⊢
  · exact afterHangup_proper _

/-- A teardown in progress stays one of the same branch, or is over. -/
theorem proper_torn {stage : Stage} {following : Option Stage} (proper : ctx.Proper)
    (at_ : ctx.pump = .teardown via stage) (same : ctx'.hangupDelivered = ctx.hangupDelivered) :
    CallContext.Proper
      (match (ctx', following) with
        | (ctx, some stage) => (({ ctx with pump := .teardown via stage }, []) : PumpStep)
        | (ctx, none) => ctx.afterHangup inCalls via).1 := by
  cases following with
  | none => exact afterHangup_proper _
  | some stage' =>
      refine ⟨fun handling => same.trans (proper.onEvent ?_), by simp⟩
      rw [at_]
      cases via <;> exact handling

theorem pumpStep_proper {input : PumpInput} {turn : PumpStep} (proper : ctx.Proper)
    (stepped : ctx.pumpStep cfg inCalls input = some turn) : turn.1.Proper := by
  obtain ⟨-, ⟨-, ran⟩ | ⟨-, -, ran⟩⟩ := pumpStep_cases stepped
  · unfold runPump at ran
    split at ran
    case h_3 =>
      rw [← Option.some.inj ran]
      exact handleRemoteHangup_proper _ (by simp) fun _ => rfl
    case h_4 => exact Option.some.inj ran ▸ proper
    case h_9 =>
      rw [← Option.some.inj ran]
      unfold buildAudioPath
      dsimp only
      split
      · exact exitPump_proper _
      · exact proper_of_clear rfl (by simp)
    case h_12 | h_15 =>
      rw [← Option.some.inj ran]
      exact handleRemoteHangup_proper _ (by simp) (by simp)
    case h_16 via at_ =>
      rw [← Option.some.inj ran]
      exact popAndTeardown_proper fun event => proper.onEvent (by rw [at_, event]; rfl)
    case h_18 via stage at_ =>
      obtain ⟨⟨ctx', following⟩, resumed, moved⟩ := Option.map_eq_some_iff.mp ran
      rw [← moved]
      exact proper_torn proper at_ (resumeTeardown_same resumed).hangupDelivered
    case h_20 => cases ran
    all_goals
      rw [← Option.some.inj ran]
      first
        | exact exitPump_proper _
        | exact proper_of_clear rfl (by simp)
  · rw [← ran]
    unfold cancelPump
    split
    · exact proper_of_clear rfl (by simp)
    · rename_i via at_
      exact proper_torn proper at_ (afterTasks_same _).hangupDelivered
    · exact proper_of_clear rfl (by simp)
    · exact exitPump_proper _

theorem keeps_delivered {owed : Bool} {turn : PumpStep} (continues : ctx.Continues turn.1)
    (delivered : ctx.hangupDelivered = true) : Keeps owed turn :=
  .inl (continues.hangupDelivered delivered)

/-- A step that leaves the pump where it is and pops nothing. -/
theorem keeps_still {effects : List Effect} (still : ctx'.pump = ctx.pump)
    (none_ : .pop ∉ effects) : Keeps ctx.pump.owesHangup (ctx', effects) := by
  cases owes : ctx.pump.owesHangup with
  | true => exact .inr (.inr (.inl (by rw [still]; exact owes)))
  | false => exact .inr (.inr (.inr ⟨none_, rfl⟩))

/-- A pump that is not running owes nothing. -/
theorem owesHangup_of_idle {pump : PumpPc} (idle : pump.live = false) : pump.owesHangup = false := by
  cases pump with
  | teardown => cases idle
  | _ => rfl

/-- Past the pop: the CPCMREG failure goes on to `at.hangup`. -/
theorem afterHangup_keeps (lost : via = .pcmFailed ∨ ctx.hangupDelivered = true) {owed : Bool} :
    Keeps owed (ctx.afterHangup inCalls via) := by
  rcases lost with rfl | delivered
  · exact .inr (.inl (by simp [afterHangup]))
  · exact keeps_delivered ctx.afterHangup_continues delivered

theorem popAndTeardown_keeps (lost : via = .pcmFailed ∨ ctx.hangupDelivered = true) {owed : Bool} :
    Keeps owed (ctx.popAndTeardown via) := by
  rcases lost with rfl | delivered
  · unfold popAndTeardown
    split
    · exact .inr (.inr (.inl rfl))
    · exact .inr (.inl (by simp [afterHangup]))
  · exact keeps_delivered ctx.popAndTeardown_continues delivered

theorem handleRemoteHangup_keeps (cause : Option String)
    (lost : via ≠ .event ∨ ctx.hangupDelivered = true) :
    Keeps false (ctx.handleRemoteHangup inCalls via cause) := by
  rcases lost with ne | delivered
  · unfold handleRemoteHangup
    split
    · cases via with
      | event => exact absurd rfl ne
      | pcmFailed => exact .inr (.inl (by simp [afterHangup]))
      | joinFailed | final => exact .inr (.inr (.inr ⟨by simp [afterHangup], rfl⟩))
    · exact .inr (.inr (.inr ⟨by simp, rfl⟩))
  · exact keeps_delivered (ctx.handleRemoteHangup_continues cause) delivered

/-- **One turn.**  A turn that does not lose the call leaves it in the map or the
line released. -/
theorem pumpStep_keeps {input : PumpInput} {turn : PumpStep} (kept : ctx.Loses cfg input = false)
    (running : ctx.pumpCancelled = false)
    (onEvent : ctx.pump.onEvent = true → ctx.hangupDelivered = true)
    (final : ctx.pump ≠ .hangupSend .final)
    (stepped : ctx.pumpStep cfg inCalls input = some turn) :
    Keeps ctx.pump.owesHangup turn := by
  obtain ⟨-, ⟨-, ran⟩ | ⟨cancelled, -, -⟩⟩ := pumpStep_cases stepped
  swap
  · rw [running] at cancelled
    cases cancelled
  -- a turn that pops nothing keeps the call in the map
  have stays : ∀ {turn : PumpStep}, .pop ∉ turn.2 → ctx.pump.owesHangup = false →
      Keeps ctx.pump.owesHangup turn := fun none_ clear => .inr (.inr (.inr ⟨none_, clear⟩))
  unfold runPump at ran
  split at ran
  case h_1 at_ | h_2 at_ | h_4 at_ | h_7 at_ | h_10 at_ | h_14 at_ | h_19 at_ =>
    rw [← Option.some.inj ran]
    exact stays (by simp) (by rw [at_]; rfl)
  case h_3 cause at_ =>
    rw [← Option.some.inj ran]
    exact keeps_delivered (handleRemoteHangup_continues _ cause) rfl
  case h_5 at_ | h_6 at_ | h_8 at_ | h_11 at_ | h_13 at_ => simp [Loses, Abrupt, at_] at kept
  case h_9 begin_ factory at_ =>
    have builds : ctx.setupRaises cfg begin_ factory = false := by
      simpa [Loses, Abrupt, at_] using kept
    rw [← Option.some.inj ran]
    refine stays ?_ (by rw [at_]; rfl)
    unfold buildAudioPath
    dsimp only
    split
    · rename_i raises
      rw [show ctx.setupRaises cfg begin_ factory = true from raises] at builds
      cases builds
    · simp
  case h_12 detail at_ =>
    rw [← Option.some.inj ran, at_]
    exact handleRemoteHangup_keeps _ (.inl (by simp))
  case h_15 at_ =>
    rw [← Option.some.inj ran, at_]
    exact handleRemoteHangup_keeps _ (.inl (by simp))
  case h_16 via at_ =>
    rw [← Option.some.inj ran]
    cases via with
    | event => exact popAndTeardown_keeps (.inr (onEvent (by rw [at_]; rfl)))
    | pcmFailed => exact popAndTeardown_keeps (.inl rfl)
    | joinFailed => simp [Loses, at_] at kept
    | final => exact absurd at_ final
  case h_17 via at_ =>
    cases via with
    | event =>
        rw [← Option.some.inj ran]
        exact keeps_delivered ctx.exitPump_continues (onEvent (by rw [at_]; rfl))
    | pcmFailed => simp [Loses, at_] at kept
    | joinFailed => simp [Loses, at_] at kept
    | final => exact absurd at_ final
  case h_18 via stage at_ =>
    obtain ⟨⟨ctx', next⟩, resumed, moved⟩ := Option.map_eq_some_iff.mp ran
    have same := resumeTeardown_same resumed
    rw [← moved]
    cases via with
    | event =>
        have delivered := same.hangupDelivered.trans (onEvent (by rw [at_]; rfl))
        cases next with
        | some stage' => exact .inl delivered
        | none => exact afterHangup_keeps (.inr delivered)
    | pcmFailed =>
        cases next with
        | some stage' => exact .inr (.inr (.inl rfl))
        | none => exact afterHangup_keeps (.inl rfl)
    | joinFailed | final =>
        cases next with
        | some stage' => exact stays (by simp) (by rw [at_]; rfl)
        | none => exact stays (by simp [afterHangup]) (by rw [at_]; rfl)
  case h_20 => cases ran

end CallContext

/-! ## The state around it -/

/-- What holds of the calls: one that is neither released nor registered owes its
`at.hangup`, and a live pump is that of the call registered under its id. -/
structure CallsHooked (s : EdgeOrchestrator) : Prop where
  keyed : ∀ {callId call}, s.calls.lookup callId = some call →
    ∃ ctx, s.At call ctx ∧ ctx.callId = callId
  own : ∀ {call ctx other}, s.At call ctx → ctx.pump.live = true →
    s.calls.lookup ctx.callId = some other → other = call
  each : ∀ {call ctx}, s.At call ctx →
    s.Released call ctx ∨ s.calls.lookup ctx.callId = some call ∨ ctx.pump.owesHangup = true
  cancelled : ∀ {call ctx}, s.At call ctx → ctx.pumpCancelled = true → s.Released call ctx
  proper : ∀ {call ctx}, s.At call ctx → ctx.Proper

/-- The awaits of the dev-no-modem path. -/
def Handler.dev : Handler → Bool
  | .devAck _ => true
  | .devConnected _ => true
  | .devJoin _ => true
  | .devHangupSend _ => true
  | .devTeardown _ _ => true
  | _ => false

/-- What holds of the message callback. -/
def HandlerHooked (s : EdgeOrchestrator) : Prop :=
  s.handler.dev = false ∧
    match s.handler with
    | .atDial dial => s.inCalls dial.callId = false ∧
        ∀ call ctx, s.At call ctx → ctx.callId = dial.callId → ctx.pump.live = false
    | .acceptAck call => ∀ ctx, s.At call ctx → ctx.pump.live = false ∧
        ∀ other, s.calls.lookup ctx.callId = some other → other = call
    | _ => True

namespace EdgeOrchestrator

variable {cfg : Config} {s t : EdgeOrchestrator} {call other : Nat} {ctx ctx' found : CallContext}
  {effects : List Effect}

theorem released_update (released : s.Released other found) :
    (s.update call ctx' effects).Released other found :=
  released.imp_right (List.mem_append_left _)

/-- An update that keeps its call, and takes no other call out of the map. -/
theorem hooked_update (hooked : CallsHooked s) (at_ : s.At call ctx)
    (same : ctx'.callId = ctx.callId) (modem : ctx'.modemCallId = ctx.modemCallId)
    (delivered : ctx.hangupDelivered = true → ctx'.hangupDelivered = true)
    (keeps : s.Released call ctx ∨ Keeps ctx.pump.owesHangup (ctx', effects))
    (own : ctx'.pump.live = true ∨ .pop ∈ effects →
      ∀ other, s.calls.lookup ctx.callId = some other → other = call)
    (cancelled : ctx'.pumpCancelled = true → s.Released call ctx) (proper : ctx'.Proper) :
    CallsHooked (s.update call ctx' effects) := by
  have stays : s.Released call ctx → (s.update call ctx' effects).Released call ctx' := by
    rintro (heard | invoked)
    · exact .inl (delivered heard)
    · exact .inr (List.mem_append_left _ (modem ▸ invoked))
  constructor
  · intro callId number registered
    obtain ⟨found, got, key⟩ := hooked.keyed (lookup_of_update registered)
    by_cases here : number = call
    · subst here
      obtain rfl := Option.some.inj (got.symm.trans at_)
      exact ⟨ctx', (update_at _ at_).mpr (.inl ⟨rfl, rfl⟩), same.trans key⟩
    · exact ⟨found, (update_at _ at_).mpr (.inr ⟨here, got⟩), key⟩
  · intro number found other got live registered
    have before := lookup_of_update registered
    rcases (update_at _ at_).mp got with ⟨rfl, rfl⟩ | ⟨-, old⟩
    · exact own (.inl live) other (same ▸ before)
    · exact hooked.own old live before
  · intro number found got
    rcases (update_at _ at_).mp got with ⟨rfl, rfl⟩ | ⟨ne, old⟩
    · rcases keeps with released | heard | invoked | owes | ⟨kept, clear⟩
      · exact .inl (stays released)
      · exact .inl (.inl heard)
      · refine .inl (.inr (List.mem_append_right _ ?_))
        exact List.mem_filterMap.mpr ⟨_, invoked, rfl⟩
      · exact .inr (.inr owes)
      · rcases hooked.each at_ with released | registered | owes
        · exact .inl (stays released)
        · refine .inr (.inl ?_)
          rw [update_lookup, if_neg fun popped => kept popped.1, same]
          exact registered
        · rw [clear] at owes
          cases owes
    · rcases hooked.each old with released | registered | owes
      · exact .inl (released_update released)
      · refine .inr (.inl ?_)
        rw [update_lookup, if_neg]
        · exact registered
        · rintro ⟨popped, key⟩
          exact ne (own (.inr popped) number (by rw [← same, ← key]; exact registered))
      · exact .inr (.inr owes)
  · intro number found got was
    rcases (update_at _ at_).mp got with ⟨rfl, rfl⟩ | ⟨-, old⟩
    · exact stays (cancelled was)
    · exact released_update (hooked.cancelled old was)
  · intro number found got
    rcases (update_at _ at_).mp got with ⟨rfl, rfl⟩ | ⟨-, old⟩
    · exact proper
    · exact hooked.proper old

/-- What is known of the calls does not depend on the program counters, and stays
when the log grows. -/
theorem hooked_congr (hooked : CallsHooked s) (contexts : t.contexts = s.contexts)
    (calls : t.calls = s.calls) (log : s.log ⊆ t.log) : CallsHooked t := by
  have same : ∀ {number found}, t.At number found → s.At number found := by
    intro number found got
    simpa only [At, contexts] using got
  have kept : ∀ {number found}, s.Released number found → t.Released number found :=
    fun released => released.imp_right fun invoked => log invoked
  constructor
  · simpa only [At, contexts, calls] using @hooked.keyed
  · simpa only [At, contexts, calls] using @hooked.own
  · intro number found got
    rw [calls]
    exact (hooked.each (same got)).imp_left kept
  · exact fun got was => kept (hooked.cancelled (same got) was)
  · exact fun got => hooked.proper (same got)

theorem hooked_accept {dial : DialCommand} {modemCallId : Option Nat} (hooked : CallsHooked s)
    (fresh : s.inCalls dial.callId = false)
    (settled : ∀ call ctx, s.At call ctx → ctx.callId = dial.callId → ctx.pump.live = false) :
    CallsHooked (s.accept dial modemCallId) := by
  have unbound : s.calls.lookup dial.callId = none := by
    rw [inCalls] at fresh
    exact Option.not_isSome_iff_eq_none.mp (by simp only [fresh]; simp)
  have kept : ∀ {number found}, s.Released number found →
      (s.accept dial modemCallId).Released number found :=
    fun released => released.imp_right (List.mem_append_left _)
  constructor
  · intro callId number registered
    rw [accept_lookup] at registered
    split at registered
    · rename_i key
      obtain rfl := Option.some.inj registered
      exact ⟨_, accept_at.mpr (.inr ⟨rfl, rfl⟩), key.symm⟩
    · obtain ⟨found, got, key⟩ := hooked.keyed registered
      exact ⟨found, accept_at.mpr (.inl got), key⟩
  · intro number found other got live registered
    rw [accept_lookup] at registered
    rcases accept_at.mp got with old | ⟨rfl, rfl⟩
    · split at registered
      · rename_i key
        rw [settled number found old key] at live
        cases live
      · exact hooked.own old live registered
    · simp [PumpPc.live] at live
  · intro number found got
    rcases accept_at.mp got with old | ⟨rfl, rfl⟩
    · rcases hooked.each old with released | registered | owes
      · exact .inl (kept released)
      · refine .inr (.inl ?_)
        rw [accept_lookup, if_neg]
        · exact registered
        · intro key
          rw [key, unbound] at registered
          cases registered
      · exact .inr (.inr owes)
    · refine .inr (.inl ?_)
      exact (accept_lookup _).trans (if_pos rfl)
  · intro number found got was
    rcases accept_at.mp got with old | ⟨rfl, rfl⟩
    · exact kept (hooked.cancelled old was)
    · cases was
  · intro number found got
    rcases accept_at.mp got with old | ⟨rfl, rfl⟩
    · exact hooked.proper old
    · exact CallContext.proper_of_clear rfl (by simp)

theorem handlerHooked_congr (hooked : HandlerHooked s) (handler : t.handler = s.handler)
    (contexts : t.contexts = s.contexts) (calls : t.calls = s.calls) : HandlerHooked t := by
  simpa only [HandlerHooked, At, inCalls, handler, contexts, calls] using hooked

/-- An update that starts no pump, while the callback stays where it is. -/
theorem handlerHooked_update (hooked : HandlerHooked s) (at_ : s.At call ctx)
    (same : ctx'.callId = ctx.callId) (live : ctx'.pump.live = true → ctx.pump.live = true) :
    HandlerHooked (s.update call ctx' effects) := by
  obtain ⟨modem, hooked⟩ := hooked
  refine ⟨modem, ?_⟩
  rw [show (s.update call ctx' effects).handler = s.handler from rfl]
  split at hooked
  · obtain ⟨fresh, settled⟩ := hooked
    refine ⟨?_, fun number found got key => ?_⟩
    · simp only [inCalls, update_lookup]
      split
      · rfl
      · exact fresh
    · rcases (update_at _ at_).mp got with ⟨rfl, rfl⟩ | ⟨-, old⟩
      · by_contra running
        have was := live (by simpa using running)
        rw [settled _ _ at_ (same.symm.trans key)] at was
        cases was
      · exact settled number found old key
  · intro found got
    rcases (update_at _ at_).mp got with ⟨rfl, rfl⟩ | ⟨-, old⟩
    · obtain ⟨idle, own⟩ := hooked ctx at_
      refine ⟨?_, fun other registered => own other (same ▸ lookup_of_update registered)⟩
      by_contra running
      rw [live (by simpa using running)] at idle
      cases idle
    · obtain ⟨idle, own⟩ := hooked found old
      exact ⟨idle, fun other registered => own other (lookup_of_update registered)⟩
  · trivial

/-- What the loop of `stop` does to one call of its snapshot. -/
theorem hooked_stopped (hooked : CallsHooked s) {callId : String}
    (registered : s.calls.lookup callId = some call) (at_ : s.At call ctx)
    (released : s.Released call ctx) :
    CallsHooked (s.update call (ctx.beginTeardown false).1 [.pop]) := by
  have same := ctx.beginTeardown_cancels
  obtain ⟨found, got, key⟩ := hooked.keyed registered
  obtain rfl := Option.some.inj (got.symm.trans at_)
  refine hooked_update hooked at_ same.callId same.modemCallId same.hangupDelivered.trans
    (.inl released) (fun _ other found => ?_) (fun _ => released) ?_
  · rw [key, registered] at found
    exact (Option.some.inj found).symm
  · have proper := hooked.proper at_
    exact ⟨by rw [same.pump, same.hangupDelivered]; exact proper.onEvent,
      by rw [same.pump]; exact proper.final⟩

/-- An await of the teardown that `stop` runs. -/
theorem hooked_torn {stage : Stage} {following : Option Stage} (calls : CallsHooked s)
    (handler : HandlerHooked s) (at_ : s.At call ctx)
    (resumed : ctx.resumeTeardown false stage = some (ctx', following)) :
    CallsHooked (s.update call ctx' []) ∧ HandlerHooked (s.update call ctx' []) := by
  have same := CallContext.resumeTeardown_same resumed
  have proper := calls.proper at_
  refine ⟨hooked_update calls at_ same.callId same.modemCallId same.hangupDelivered.trans
    (.inr (CallContext.keeps_still same.pump (by simp))) (fun live other found => ?_)
    (fun was => calls.cancelled at_ (same.pumpCancelled.symm.trans was)) ?_,
    handlerHooked_update handler at_ same.callId (by rw [same.pump]; exact id)⟩
  · refine calls.own at_ ?_ found
    rw [← same.pump]
    exact live.resolve_right (by simp)
  · exact ⟨by rw [same.pump, same.hangupDelivered]; exact proper.onEvent,
      by rw [same.pump]; exact proper.final⟩

theorem hooked_stopNext (rest : List String) (calls : CallsHooked s) (handler : HandlerHooked s)
    (released : ∀ taken ∈ s.stopTakes rest, s.Released taken.1 taken.2) :
    CallsHooked (s.stopNext rest) ∧ HandlerHooked (s.stopNext rest) := by
  induction rest generalizing s with
  | nil =>
      exact ⟨hooked_congr calls rfl rfl (List.Subset.refl _), handlerHooked_congr handler rfl rfl rfl⟩
  | cons callId rest ih =>
      unfold stopTakes at released
      unfold stopNext
      split
      · rename_i gone
        rw [gone] at released
        exact ih calls handler released
      · rename_i call ctx found
        rw [found] at released
        dsimp only at released
        obtain ⟨registered, at_⟩ := of_find found
        have same := ctx.beginTeardown_cancels
        have first := released (call, ctx) (List.mem_cons_self ..)
        have calls' := hooked_stopped calls registered at_ first
        have handler' : HandlerHooked (s.update call (ctx.beginTeardown false).1 [.pop]) :=
          handlerHooked_update handler at_ same.callId (by rw [same.pump]; exact id)
        split
        · rename_i torn
          rw [torn] at calls' handler'
          exact ⟨hooked_congr calls' rfl rfl (List.Subset.refl _),
            handlerHooked_congr handler' rfl rfl rfl⟩
        · rename_i ctx' torn
          rw [torn] at calls' handler' released
          refine ih calls' handler' fun taken listed => ?_
          exact released_update (released taken (List.mem_cons_of_mem _ listed))

/-- Everything that is kept, along a run whose steps release. -/
structure Hooked (s : EdgeOrchestrator) : Prop where
  calls : CallsHooked s
  handler : HandlerHooked s

theorem hooked_init : Hooked {} where
  calls :=
    ⟨fun found => by simp at found, fun got => by simp [At] at got, fun got => by simp [At] at got,
      fun got => by simp [At] at got, fun got => by simp [At] at got⟩
  handler := ⟨rfl, trivial⟩

/-- **One step.**  In modem mode, a step that releases keeps every call hooked. -/
theorem hooked_step {action : EdgeAction} (modem : cfg.devNoModem = false) (hooked : Hooked s)
    (releases : Releases cfg s action) (next : step cfg s action = some t) : Hooked t := by
  obtain ⟨calls, handler⟩ := hooked
  have grown : ∀ more : List LogEntry, s.log ⊆ s.log ++ more := List.subset_append_left _
  cases step_cases next with
  | start =>
      exact ⟨hooked_congr calls rfl rfl (List.Subset.refl _), handlerHooked_congr handler rfl rfl rfl⟩
  | duplicate => exact ⟨hooked_congr calls rfl rfl (grown _), rfl, trivial⟩
  | devDial _ _ mode => simp [modem] at mode
  | @atDial dial _ fresh =>
      refine ⟨hooked_congr calls rfl rfl (grown _), rfl, fresh, fun call ctx got key => ?_⟩
      exact releases fresh ctx (List.mem_of_getElem? got) key
  | cancelIgnored => exact ⟨calls, handler⟩
  | cancelModem _ _ at_ =>
      refine ⟨hooked_congr (hooked_update calls at_ rfl rfl id (.inr (.inr (.inl (by simp))))
        (fun live other found => ?_) (calls.cancelled at_) (calls.proper at_)) rfl rfl
        (List.Subset.refl _), rfl, trivial⟩
      exact calls.own at_ (live.resolve_right (by simp)) found
  | devHangup _ _ _ mode =>
      rcases mode with dev | held
      · simp [modem] at dev
      · simp [HandlerHooked, held, Handler.dev] at handler
  | settled => exact ⟨hooked_congr calls rfl rfl (List.Subset.refl _), rfl, trivial⟩
  | @dialReturned dial modemCallId held =>
      simp only [HandlerHooked, held] at handler
      obtain ⟨-, fresh, settled⟩ := handler
      refine ⟨hooked_congr (hooked_accept calls fresh settled) rfl rfl (List.Subset.refl _), rfl,
        fun found got => ?_⟩
      rcases accept_at.mp got with old | ⟨-, rfl⟩
      · exact absurd (List.getElem?_eq_some_iff.mp old).1 (Nat.lt_irrefl _)
      · refine ⟨rfl, fun other registered => ?_⟩
        exact (Option.some.inj (((accept_lookup _).trans (if_pos rfl)).symm.trans registered)).symm
  | dialRaised => exact ⟨hooked_congr calls rfl rfl (grown _), rfl, trivial⟩
  | @accepted call ctx held at_ =>
      simp only [HandlerHooked, held] at handler
      obtain ⟨idle, own⟩ := handler.2 ctx at_
      have created : CallsHooked (s.update call { ctx with pump := .created } []) := by
        refine hooked_update calls at_ rfl rfl id ?_ (fun _ => own) (fun was => calls.cancelled at_ was)
          (CallContext.proper_of_clear rfl (by simp))
        exact .inr (.inr (.inr (.inr ⟨by simp, CallContext.owesHangup_of_idle idle⟩)))
      exact ⟨hooked_congr created rfl rfl (List.Subset.refl _), rfl, trivial⟩
  | devConnected held => simp [HandlerHooked, held, Handler.dev] at handler
  | devSession held => simp [HandlerHooked, held, Handler.dev] at handler
  | devJoined _ held => simp [HandlerHooked, held, Handler.dev] at handler
  | devPopped held => simp [HandlerHooked, held, Handler.dev] at handler
  | devTornDown held => simp [HandlerHooked, held, Handler.dev] at handler
  | @pump call ctx ctx' effects input at_ turn =>
      have live := (CallContext.pumpStep_cases turn).1
      have continues := CallContext.pumpStep_continues turn
      have proper := calls.proper at_
      refine ⟨hooked_update calls at_ continues.callId continues.modemCallId
        continues.hangupDelivered ?_ (fun _ other found => calls.own at_ live found)
        (fun was => calls.cancelled at_ (continues.pumpCancelled was))
        (CallContext.pumpStep_proper proper turn),
        handlerHooked_update handler at_ continues.callId fun _ => live⟩
      by_cases released : s.Released call ctx
      · exact .inl released
      · refine .inr (CallContext.pumpStep_keeps ?_ ?_ proper.onEvent proper.final turn)
        · by_contra loses
          exact released (releases ctx (by simpa using at_) (by simpa using loses))
        · by_contra cancelled
          exact released (calls.cancelled at_ (by simpa using cancelled))
  | @audioEnd call ctx at_ =>
      have proper := calls.proper at_
      refine ⟨hooked_update calls at_ rfl rfl id (.inr (CallContext.keeps_still rfl (by simp)))
        (fun live other found => ?_) (fun was => calls.cancelled at_ was) ⟨proper.onEvent, proper.final⟩,
        handlerHooked_update handler at_ rfl id⟩
      exact calls.own at_ (live.resolve_right (by simp)) found
  | stop =>
      obtain ⟨calls, handler⟩ := hooked_stopNext _ calls handler releases
      exact ⟨calls, handler⟩
  | @stopStage call ctx ctx' stage stage' rest held at_ resumed =>
      obtain ⟨calls, handler⟩ := hooked_torn calls handler at_ resumed
      exact ⟨hooked_congr calls rfl rfl (List.Subset.refl _), handlerHooked_congr handler rfl rfl rfl⟩
  | @stopCall call ctx ctx' stage rest held at_ resumed =>
      obtain ⟨calls, handler⟩ := hooked_torn calls handler at_ resumed
      have takes : s.resumeTakes = (s.update call ctx' []).stopTakes rest := by
        simp only [resumeTakes, held]
        rw [show s.contexts[call]? = some ctx from at_]
        simp [resumed]
      obtain ⟨calls, handler⟩ := hooked_stopNext rest calls handler fun taken listed =>
        released_update (releases taken (by rw [takes]; exact listed))
      exact ⟨calls, handler⟩
  | stopReturned =>
      exact ⟨hooked_congr calls rfl rfl (grown _), handlerHooked_congr handler rfl rfl rfl⟩

theorem hooked_run (modem : cfg.devNoModem = false)
    (run : Reachable (step cfg) (Releases cfg) {} s) : Hooked s :=
  run.invariant hooked_init fun _ _ _ hooked releases next => hooked_step modem hooked releases next

/-! ## The line -/

/-- **The line is released.**  In modem mode, when every step that loses a call
finds it released, a call outside the map whose ending is over has had its
remote_hangup delivered or `at.hangup` invoked. -/
theorem released_when_left (cfg : Config) (s : EdgeOrchestrator)
    (run : Reachable (step cfg) (Releases cfg) {} s) (modem : cfg.devNoModem = false)
    (call : Nat) (ctx : CallContext) (at_ : s.At call ctx)
    (left : s.calls.lookup ctx.callId ≠ some call) (isOver : ¬ s.Ending call ctx) :
    s.Released call ctx := by
  rcases (hooked_run modem run).calls.each at_ with released | registered | owes
  · exact released
  · exact absurd registered left
  · refine absurd (.inl ?_) isOver
    cases pump : ctx.pump with
    | teardown via stage => exact ⟨via, stage, rfl⟩
    | _ => simp [pump, PumpPc.owesHangup] at owes

/-! ## Poles -/

/-- CPCMREG fails: the CallEvent is sent, the call torn down, the modem hung up. -/
def pcmFailedActions : List EdgeAction :=
  [.start, .message (.dial { callId := "a" }), .handler (.dialReturned 7), .handler (.sent true),
    .pump 0 .start, .pump 0 (.event .connected), .pump 0 (.sent true), .pump 0 (.pcmFailed "ERROR"),
    .pump 0 (.sent true), .pump 0 (.sent true)]

theorem pcm_failed_releases :
    (guardedRun (step {}) (Releases {}) {} pcmFailedActions).isSome = true := by decide

/-- The context of the only call at the end of the run. -/
def pcmFailedCall : CallContext :=
  { dial := { callId := "a" }, modemCallId := some 7, terminated := true, pump := .modemHangup }

theorem pcm_failure_hangs_up :
    (Option.get _ pcm_failed_releases).calls.lookup "a" = none ∧
      (Option.get _ pcm_failed_releases).Released 0 pcmFailedCall :=
  ⟨by decide, released_when_left {} _ (reachable_guarded_get pcm_failed_releases) rfl 0
    pcmFailedCall (by decide) (by decide) (by
      rintro (⟨via, stage, pump⟩ | ⟨stage, rest, stopping⟩)
      · simp [pcmFailedCall] at pump
      · have notStopping : (Option.get _ pcm_failed_releases).stopping = .notCalled := by decide
        rw [notStopping] at stopping
        cases stopping)⟩

/-- The RTC join fails: the cloud is told, the modem is not. -/
def joinFailedActions : List EdgeAction :=
  [.start, .message (.dial { callId := "a", rtcUidEngine := "engine" }), .handler (.dialReturned 7),
    .handler (.sent true), .pump 0 .start, .pump 0 (.event .connected), .pump 0 (.sent true),
    .pump 0 (.enabled .ok true), .pump 0 .joinFailed, .pump 0 (.sent true), .pump 0 .stageDone,
    .pump 0 .stageDone]

theorem join_failed_runs : (run (step {}) {} joinFailedActions).isSome = true := by decide

/-- **A line is left open.**  The join of a call fails, the call leaves the map,
its teardown completes, and neither did the far end hang up nor did anything
invoke `at.hangup`. -/
theorem failed_join_leaves_line_open :
    ¬ ∀ (cfg : Config) (s : EdgeOrchestrator), cfg.devNoModem = false →
      Reachable (step cfg) Free {} s → ∀ call ctx, s.At call ctx →
        s.calls.lookup ctx.callId ≠ some call → ¬ s.Ending call ctx → s.Released call ctx := by
  intro claim
  have lost := claim {} _ rfl (reachable_get join_failed_runs) 0
    { dial := { callId := "a", rtcUidEngine := "engine" }, modemCallId := some 7,
      terminated := true, pump := .nextEvent, enables := 1, disables := 1 }
    (by decide) (by decide) (by
      rintro (⟨via, stage, pump⟩ | ⟨stage, rest, stopping⟩)
      · simp at pump
      · have notStopping : (Option.get _ join_failed_runs).stopping = .notCalled := by decide
        rw [notStopping] at stopping
        cases stopping)
  exact absurd lost (by decide)

end EdgeOrchestrator

end IsalesTelephony.Edge
