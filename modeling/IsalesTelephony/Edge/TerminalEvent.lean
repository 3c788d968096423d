/-
# Edge.TerminalEvent -- one terminal event for each accepted call

The frames that make up the life of a call id are its accepting ack and its
CallEvents (`lifeOf`).  `EndsOnce` is the promise about them: the ack, at most
one connected, at most one remote_hangup, in that order, and the remote_hangup
is there once the id has left the active-call map.

The finally-block of the pump pops and tears down without a CallEvent, so every
way into it that has not emitted the remote_hangup breaks the promise
(`CallContext.Abrupt`): a stream that ends or raises, a send that raises, an
audio path that cannot be built.

* `silent_exit_without_hangup`: an empty peer uid ends a call without a word;
* `sound_step`: `Orderly` steps keep `Sound`, one lemma for the pump
  (`fine_pumpStep`) and one for the state around it (`sound_update`);
* `ends_once_of_orderly`: hence every orderly run keeps the promise.
-/
import IsalesTelephony.Edge.Steps

namespace IsalesTelephony.Edge

set_option autoImplicit false

open IsalesTelephony.Theory IsalesTelephony.Theory.Transition

/-! ## The life of a call id -/

/-- The accepting ack (not that of a duplicate) or a CallEvent of `callId`. -/
def Edge2Cloud.OfLife (callId : String) : Edge2Cloud → Bool
  | .dialAck c accepted reason => c = callId && accepted && reason = ""
  | .connected c => c = callId
  | .remoteHangup c _ _ => c = callId
  | _ => false

def LogEntry.life (callId : String) : LogEntry → Option Edge2Cloud
  | .send emission => if emission.frame.OfLife callId then some emission.frame else none
  | _ => none

/-- The frames that make up the life of a call id, in order. -/
def lifeOf (log : List LogEntry) (callId : String) : List Edge2Cloud :=
  log.filterMap (LogEntry.life callId)

/-- The ack, at most one connected, and the remote_hangup if `ended`. -/
def Life (callId : String) (frames : List Edge2Cloud) (ended : Bool) : Prop :=
  ∃ connected hangup, frames = .dialAck callId true "" :: (connected ++ hangup) ∧
    (connected = [] ∨ connected = [.connected callId]) ∧
    if ended then ∃ cause raw, hangup = [.remoteHangup callId cause raw] else hangup = []

/-- The life of the call id ends once, and before the id leaves the map. -/
def EndsOnce (s : EdgeOrchestrator) (callId : String) : Prop :=
  ∃ ended, Life callId (lifeOf s.log callId) ended ∧ (s.inCalls callId = false → ended = true)

/-- A DialCommand repeats a call id only while its call is active; the pump is
abrupt only after the remote_hangup, and sees no second connected event and none
after the remote_hangup; no stop. -/
def Orderly (cfg : Config) (s : EdgeOrchestrator) : EdgeAction → Prop
  | .message (.dial dial) =>
      (∃ ctx ∈ s.contexts, ctx.callId = dial.callId) → s.inCalls dial.callId = true
  | .pump call input => ∀ ctx ∈ s.contexts[call]?,
      (ctx.Abrupt cfg input = true → ctx.terminated = true) ∧
        (input = .event .connected →
          ctx.terminated = false ∧ .connected ctx.callId ∉ lifeOf s.log ctx.callId)
  | .stop => False
  | .stopResume => False
  | _ => True

instance (cfg : Config) (s : EdgeOrchestrator) (action : EdgeAction) :
    Decidable (Orderly cfg s action) := by
  unfold Orderly
  induction action using EdgeAction.casesOn with
  | message message => induction message using Cloud2Edge.casesOn <;> infer_instance
  | _ => infer_instance

/-! ## One turn of the pump -/

def Effect.life (callId : String) : Effect → Option Edge2Cloud
  | .send emission => if emission.frame.OfLife callId then some emission.frame else none
  | _ => none

def sent (callId : String) (effects : List Effect) : List Edge2Cloud :=
  effects.filterMap (Effect.life callId)

/-- What a coroutine of the call `callId` may do when its life so far is `frames`. -/
structure Fine (callId : String) (frames : List Edge2Cloud) (turn : PumpStep) : Prop where
  own : turn.1.callId = callId
  life : Life callId (frames ++ sent callId turn.2) turn.1.terminated
  others : ∀ other, other ≠ callId → sent other turn.2 = []
  popped : .pop ∈ turn.2 → turn.1.terminated = true
  ending : turn.1.pump.ending = true → turn.1.terminated = true
  running : turn.1.pumpCancelled = false

section Pump

variable {cfg : Config} {callId : String} {frames : List Edge2Cloud} {ctx ctx' : CallContext}
  {inCalls : Bool} {via : Via}

/-- A turn that emits nothing of the life and pops nothing unless terminated. -/
theorem fine_silent {effects : List Effect} (own : ctx.callId = callId)
    (life : Life callId frames ctx.terminated) (running : ctx.pumpCancelled = false)
    (silent : ∀ id, sent id effects = []) (popped : .pop ∈ effects → ctx.terminated = true)
    (ending : ctx.pump.ending = true → ctx.terminated = true) :
    Fine callId frames (ctx, effects) where
  own := own
  life := by rw [silent, List.append_nil]; exact life
  others := fun other _ => silent other
  popped := popped
  ending := ending
  running := running

theorem fine_exitPump (own : ctx.callId = callId) (life : Life callId frames true)
    (ended : ctx.terminated = true) (running : ctx.pumpCancelled = false) :
    Fine callId frames (ctx.exitPump inCalls) := by
  have same := ctx.beginTeardown_same
  unfold CallContext.exitPump
  split
  · split
    all_goals
      rename_i torn
      rw [torn] at same
      refine fine_silent (same.callId.trans own) ?_ (same.pumpCancelled.trans running)
        (by simp [sent, Effect.life]) (fun _ => same.terminated.trans ended)
        (fun _ => same.terminated.trans ended)
      exact (same.terminated.trans ended) ▸ life
  · exact fine_silent own (ended ▸ life) running (by simp [sent]) (by simp)
      (by simp [PumpPc.ending])

theorem fine_afterHangup (own : ctx.callId = callId) (life : Life callId frames true)
    (ended : ctx.terminated = true) (running : ctx.pumpCancelled = false) :
    Fine callId frames (ctx.afterHangup inCalls via) := by
  cases via with
  | event => exact fine_exitPump own life ended running
  | pcmFailed | joinFailed | final =>
      exact fine_silent own (ended ▸ life) running (by simp [sent, Effect.life]) (by simp)
        (by simp [PumpPc.ending])

/-- The remote_hangup is emitted: `terminated` is set in the same turn. -/
theorem fine_emitHangup (own : ctx.callId = callId) (life : Life callId frames ctx.terminated)
    (open_ : ctx.terminated = false) (running : ctx.pumpCancelled = false) (cause : Option String)
    (pump : PumpPc) :
    Fine callId frames
      ({ ctx with terminated := true, pump := pump },
        [.send (sendCallEventRemoteHangup ctx.callId cause)]) where
  own := own
  life := by
    obtain ⟨connected, hangup, rfl, shape, none_⟩ := life
    obtain rfl : hangup = [] := by simpa [open_] using none_
    refine ⟨connected, [(sendCallEventRemoteHangup callId cause).frame], ?_, shape, ⟨_, _, rfl⟩⟩
    simp [sent, Effect.life, Edge2Cloud.OfLife, sendCallEventRemoteHangup, own]
  others := by
    intro other ne
    simp [sent, Effect.life, Edge2Cloud.OfLife, sendCallEventRemoteHangup, own, Ne.symm ne]
  popped := fun _ => rfl
  ending := fun _ => rfl
  running := running

theorem fine_handleRemoteHangup (own : ctx.callId = callId)
    (life : Life callId frames ctx.terminated) (running : ctx.pumpCancelled = false)
    (cause : Option String) : Fine callId frames (ctx.handleRemoteHangup inCalls via cause) := by
  unfold CallContext.handleRemoteHangup
  split
  · rename_i ended
    exact fine_afterHangup own (ended ▸ life) ended running
  · rename_i open_
    exact fine_emitHangup own life (by simpa using open_) running cause _

theorem afterHangup_terminated (ctx : CallContext) :
    (ctx.afterHangup false via).1.terminated = ctx.terminated := by
  cases via <;> rfl

theorem fine_popAndTeardown (own : ctx.callId = callId) (life : Life callId frames true)
    (ended : ctx.terminated = true) (running : ctx.pumpCancelled = false) :
    Fine callId frames (ctx.popAndTeardown via) := by
  have same := ctx.beginTeardown_same
  unfold CallContext.popAndTeardown
  split
  · rename_i torn
    rw [torn] at same
    exact fine_silent (same.callId.trans own) ((same.terminated.trans ended).symm ▸ life)
      (same.pumpCancelled.trans running) (by simp [sent, Effect.life])
      (fun _ => same.terminated.trans ended) (fun _ => same.terminated.trans ended)
  · rename_i torn' torn
    rw [torn] at same
    obtain ⟨own, life, others, -, ending, running⟩ :
        Fine callId frames (torn'.afterHangup false via) :=
      fine_afterHangup (same.callId.trans own) life (same.terminated.trans ended)
        (same.pumpCancelled.trans running)
    exact ⟨own, life, others,
      fun _ => (afterHangup_terminated torn').trans (same.terminated.trans ended), ending, running⟩

/-- The pump goes on to its next await. -/
theorem fine_move (ctx : CallContext) (own : ctx.callId = callId)
    (life : Life callId frames ctx.terminated)
    (running : ctx.pumpCancelled = false)
    (ending : ctx.pump.ending = true → ctx.terminated = true) :
    Fine callId frames (ctx, []) :=
  fine_silent own life running (by simp [sent]) (by simp) ending

/-- The connected event is emitted, to whatever await the coroutine goes on. -/
theorem fine_emitConnected (ctx : CallContext) (own : ctx.callId = callId)
    (life : Life callId frames ctx.terminated) (running : ctx.pumpCancelled = false)
    (ending : ctx.pump.ending = true → ctx.terminated = true) (open_ : ctx.terminated = false)
    (first : .connected callId ∉ frames) :
    Fine callId frames (ctx, [.send (sendCallEventConnected ctx.callId)]) where
  own := own
  life := by
    obtain ⟨connected, hangup, rfl, shape, none_⟩ := life
    obtain rfl : hangup = [] := by simpa [open_] using none_
    obtain rfl : connected = [] := by
      refine shape.resolve_right fun already => first ?_
      simp [already]
    refine ⟨[.connected callId], [], ?_, .inr rfl, by simp [open_]⟩
    simp [sent, Effect.life, Edge2Cloud.OfLife, sendCallEventConnected, own]
  others := by
    intro other ne
    simp [sent, Effect.life, Edge2Cloud.OfLife, sendCallEventConnected, own, Ne.symm ne]
  popped := by simp
  ending := ending
  running := running

theorem fine_buildAudioPath {begin_ : BeginCall} {factory : Bool} (own : ctx.callId = callId)
    (life : Life callId frames ctx.terminated) (running : ctx.pumpCancelled = false)
    (raises : ctx.setupRaises cfg begin_ factory = true → ctx.terminated = true) :
    Fine callId frames (ctx.buildAudioPath cfg inCalls begin_ factory) := by
  unfold CallContext.buildAudioPath
  dsimp only
  split
  · rename_i failed
    have ended := raises failed
    exact fine_exitPump own (ended ▸ life) ended running
  · exact fine_move _ own life running (by simp [PumpPc.ending])

/-- **One turn.**  A pump that is not abrupt before the remote_hangup, and sees
its connected event once and in time, adds to the life of its call what may
follow there. -/
theorem fine_pumpStep {input : PumpInput} {turn : PumpStep} (own : ctx.callId = callId)
    (life : Life callId frames ctx.terminated) (running : ctx.pumpCancelled = false)
    (ending : ctx.pump.ending = true → ctx.terminated = true)
    (abrupt : ctx.Abrupt cfg input = true → ctx.terminated = true)
    (connected : input = .event .connected →
      ctx.terminated = false ∧ .connected callId ∉ frames)
    (stepped : ctx.pumpStep cfg inCalls input = some turn) : Fine callId frames turn := by
  obtain ⟨-, ⟨-, ran⟩ | ⟨cancelled, -, -⟩⟩ := CallContext.pumpStep_cases stepped
  swap
  · rw [running] at cancelled
    cases cancelled
  unfold CallContext.runPump at ran
  split at ran
  case h_1 => exact Option.some.inj ran ▸ fine_move _ own life running (by simp [PumpPc.ending])
  case h_2 =>
    obtain ⟨open_, first⟩ := connected rfl
    rw [← Option.some.inj ran]
    exact fine_emitConnected { ctx with pump := .connectedSend } own life running
      (by simp [PumpPc.ending]) open_ first
  case h_3 =>
    refine Option.some.inj ran ▸ fine_handleRemoteHangup ?_ ?_ ?_ _ <;> assumption
  case h_4 => exact Option.some.inj ran ▸ fine_move _ own life running ending
  case h_5 at_ =>
    have ended := abrupt (by simp [CallContext.Abrupt, at_])
    exact Option.some.inj ran ▸ fine_exitPump own (ended ▸ life) ended running
  case h_6 at_ =>
    have ended := abrupt (by simp [CallContext.Abrupt, at_])
    exact Option.some.inj ran ▸ fine_exitPump own (ended ▸ life) ended running
  case h_7 => exact Option.some.inj ran ▸ fine_move _ own life running (by simp [PumpPc.ending])
  case h_8 at_ =>
    have ended := abrupt (by simp [CallContext.Abrupt, at_])
    exact Option.some.inj ran ▸ fine_exitPump own (ended ▸ life) ended running
  case h_9 begin_ factory at_ =>
    rw [← Option.some.inj ran]
    exact fine_buildAudioPath own life running fun raises =>
      abrupt (by simpa [CallContext.Abrupt, at_] using raises)
  case h_10 =>
    exact Option.some.inj ran ▸ fine_silent own life running
      (by simp [sent, Effect.life, Edge2Cloud.OfLife, sendHardwareAlertPcmEnableFailed])
      (by simp) (by simp [PumpPc.ending])
  case h_11 at_ =>
    have ended := abrupt (by simp [CallContext.Abrupt, at_])
    exact Option.some.inj ran ▸ fine_exitPump own (ended ▸ life) ended running
  case h_12 => exact Option.some.inj ran ▸ fine_handleRemoteHangup own life running _
  case h_13 at_ =>
    have ended := abrupt (by simp [CallContext.Abrupt, at_])
    exact Option.some.inj ran ▸ fine_exitPump own (ended ▸ life) ended running
  case h_14 =>
    rw [← Option.some.inj ran]
    refine fine_move _ ?_ ?_ ?_ (by simp [PumpPc.ending]) <;> assumption
  case h_15 => exact Option.some.inj ran ▸ fine_handleRemoteHangup own life running _
  case h_16 via at_ =>
    have ended := ending (by simp [PumpPc.ending, at_])
    exact Option.some.inj ran ▸ fine_popAndTeardown own (ended ▸ life) ended running
  case h_17 via at_ =>
    have ended := ending (by simp [PumpPc.ending, at_])
    exact Option.some.inj ran ▸ fine_exitPump own (ended ▸ life) ended running
  case h_18 via stage at_ =>
    obtain ⟨⟨ctx', next⟩, resumed, moved⟩ := Option.map_eq_some_iff.mp ran
    have same := CallContext.resumeTeardown_same resumed
    have ended : ctx.terminated = true := ending (by simp [PumpPc.ending, at_])
    have own' := same.callId.trans own
    have ended' := same.terminated.trans ended
    have running' := same.pumpCancelled.trans running
    have life' : Life callId frames true := ended ▸ life
    cases next with
    | some stage' =>
        rw [← show _ = turn from moved]
        exact fine_move _ own' (ended' ▸ life') running' fun _ => ended'
    | none =>
        rw [← show _ = turn from moved]
        exact fine_afterHangup own' life' ended' running' 
  case h_19 => exact Option.some.inj ran ▸ fine_move _ own life running (by simp [PumpPc.ending])
  case h_20 => cases ran

end Pump

/-! ## The state around it -/

/-- What holds of the context of a call. -/
structure CallSound (s : EdgeOrchestrator) (ctx : CallContext) : Prop where
  life : Life ctx.callId (lifeOf s.log ctx.callId) ctx.terminated
  registered : ctx.terminated = false → s.inCalls ctx.callId = true
  ending : ctx.pump.ending = true → ctx.terminated = true
  running : ctx.pumpCancelled = false

/-- What holds of the message callback. -/
def HandlerSound (cfg : Config) (s : EdgeOrchestrator) : Prop :=
  match s.handler with
  | .atDial dial => cfg.devNoModem = false ∧
      ∀ call ctx, s.At call ctx → ctx.callId ≠ dial.callId
  | .acceptAck _ => cfg.devNoModem = false
  | .devAck call => cfg.devNoModem = true ∧ ∀ ctx, s.At call ctx →
      ctx.terminated = false ∧ .connected ctx.callId ∉ lifeOf s.log ctx.callId
  | .devConnected _ => cfg.devNoModem = true
  | .devJoin _ => cfg.devNoModem = true
  | .devHangupSend call => cfg.devNoModem = true ∧
      ∀ ctx, s.At call ctx → ctx.terminated = true
  | _ => True

/-- Call ids are not reused, and each life so far is that of a sound call. -/
structure CallsSound (cfg : Config) (s : EdgeOrchestrator) : Prop where
  ids : ∀ {call other ctx ctx'}, s.At call ctx → s.At other ctx' →
    ctx.callId = ctx'.callId → call = other
  unknown : ∀ callId, (∀ call ctx, s.At call ctx → ctx.callId ≠ callId) →
    lifeOf s.log callId = []
  each : ∀ {call ctx}, s.At call ctx → CallSound s ctx
  absent : cfg.devNoModem = true → ∀ call ctx, s.At call ctx → ctx.pump = .absent

namespace EdgeOrchestrator

variable {cfg : Config} {s t : EdgeOrchestrator} {call : Nat} {ctx ctx' : CallContext}
  {effects : List Effect}

theorem lifeOf_append (log more : List LogEntry) (callId : String) :
    lifeOf (log ++ more) callId = lifeOf log callId ++ lifeOf more callId := by
  simp [lifeOf]

theorem lifeOf_update (callId : String) :
    lifeOf (s.update call ctx' effects).log callId = lifeOf s.log callId ++ sent callId effects := by
  have entries : lifeOf (effects.filterMap (Effect.entry call ctx')) callId =
      sent callId effects := by
    simp only [lifeOf, sent, List.filterMap_filterMap]
    refine List.filterMap_congr fun effect _ => ?_
    cases effect <;> rfl
  rw [← entries]
  exact lifeOf_append _ _ _

theorem inCalls_update (callId : String) :
    (s.update call ctx' effects).inCalls callId =
      if .pop ∈ effects ∧ callId = ctx'.callId then false else s.inCalls callId := by
  simp only [inCalls, update_lookup]
  split <;> rfl

/-- The life that has ended does not go on as if it had not. -/
theorem life_mono {callId : String} {frames more : List Edge2Cloud}
    (ended : Life callId frames true) : ¬ Life callId (frames ++ more) false := by
  rintro ⟨connected, hangup, split, shape, none_⟩
  obtain ⟨before, _, rfl, -, cause, raw, rfl⟩ := ended
  obtain rfl : hangup = [] := by simpa using none_
  have here : Edge2Cloud.remoteHangup callId cause raw ∈
      .dialAck callId true "" :: (connected ++ []) := by
    rw [← split]
    simp
  rcases shape with rfl | rfl <;> simp at here

/-- The calls are sound whatever the program counters are. -/
theorem calls_congr (sound : CallsSound cfg s) (contexts : t.contexts = s.contexts)
    (calls : t.calls = s.calls) (log : t.log = s.log) : CallsSound cfg t := by
  constructor
  · simpa only [At, contexts] using @sound.ids
  · simpa only [At, contexts, log] using sound.unknown
  · intro call ctx got
    obtain ⟨life, registered, ending, running⟩ :=
      sound.each (show s.At call ctx by simpa only [At, contexts] using got)
    exact ⟨log ▸ life, by simpa only [inCalls, calls] using registered, ending, running⟩
  · simpa only [At, contexts] using sound.absent

/-- A fine turn of one call keeps all calls sound. -/
theorem sound_update (sound : CallsSound cfg s) (at_ : s.At call ctx)
    (fine : Fine ctx.callId (lifeOf s.log ctx.callId) (ctx', effects))
    (absent : cfg.devNoModem = true → ctx'.pump = .absent) :
    CallsSound cfg (s.update call ctx' effects) := by
  have own : ctx'.callId = ctx.callId := fine.own
  have keeps : ∀ {other found}, (s.update call ctx' effects).At other found →
      ∃ old, s.At other old ∧ old.callId = found.callId := by
    intro other found got
    rcases (update_at _ at_).mp got with ⟨rfl, rfl⟩ | ⟨-, before⟩
    · exact ⟨ctx, at_, own.symm⟩
    · exact ⟨found, before, rfl⟩
  constructor
  · intro call₁ call₂ ctx₁ ctx₂ got₁ got₂ same
    obtain ⟨old₁, at₁, id₁⟩ := keeps got₁
    obtain ⟨old₂, at₂, id₂⟩ := keeps got₂
    exact sound.ids at₁ at₂ (id₁.trans (same.trans id₂.symm))
  · intro callId fresh
    have elsewhere : ∀ number found, s.At number found → found.callId ≠ callId := by
      intro number found got
      by_cases same : number = call
      · obtain rfl := Option.some.inj (at_.symm.trans (same ▸ got))
        rw [← own]
        exact fresh call ctx' ((update_at _ at_).mpr (.inl ⟨rfl, rfl⟩))
      · exact fresh number found ((update_at _ at_).mpr (.inr ⟨same, got⟩))
    rw [lifeOf_update, sound.unknown callId elsewhere,
      fine.others callId fun same => elsewhere call ctx at_ same.symm, List.append_nil]
  · intro number found got
    rcases (update_at _ at_).mp got with ⟨rfl, rfl⟩ | ⟨ne, got⟩
    · have before := sound.each at_
      refine ⟨by rw [lifeOf_update, own]; exact fine.life, fun open_ => ?_, fine.ending, fine.running⟩
      have kept : Effect.pop ∉ effects := fun popped => by
        simpa [open_] using fine.popped popped
      have running : ctx.terminated = false := by
        by_contra ended
        have life := before.life
        rw [Bool.not_eq_false _ |>.mp ended] at life
        exact life_mono life (open_ ▸ fine.life)
      rw [inCalls_update, if_neg fun popped => kept popped.1, own]
      exact before.registered running
    · have before := sound.each got
      have other : found.callId ≠ ctx.callId := fun same => ne (sound.ids got at_ same)
      refine ⟨?_, fun open_ => ?_, before.ending, before.running⟩
      · rw [lifeOf_update, fine.others _ other, List.append_nil]
        exact before.life
      · rw [inCalls_update, if_neg fun popped => other (popped.2.trans own)]
        exact before.registered open_
  · intro mode number found got
    rcases (update_at _ at_).mp got with ⟨rfl, rfl⟩ | ⟨-, got⟩
    · exact absent mode
    · exact sound.absent mode number found got

/-- What is logged outside every life changes none. -/
theorem sound_record {entry : LogEntry} (sound : CallsSound cfg s)
    (outside : ∀ callId, entry.life callId = none) : CallsSound cfg (s.record entry) := by
  have same : ∀ callId, lifeOf (s.record entry).log callId = lifeOf s.log callId := by
    intro callId
    simp [record, lifeOf, outside]
  refine ⟨sound.ids, fun callId fresh => ?_, fun got => ?_, sound.absent⟩
  · rw [same]
    exact sound.unknown callId fresh
  · obtain ⟨life, registered, ending, running⟩ := sound.each got
    exact ⟨by rw [same]; exact life, registered, ending, running⟩

/-- Of the acks only the accepting one is part of a life. -/
theorem sound_ack {callId reason : String} {accepted : Bool} (sound : CallsSound cfg s)
    (other : accepted = true → reason ≠ "") :
    CallsSound cfg (s.record (.send (sendDialAck callId accepted reason))) := by
  refine sound_record sound fun callId' => ?_
  have outside : (Edge2Cloud.dialAck callId accepted reason).OfLife callId' = false := by
    cases accepted with
    | false => simp [Edge2Cloud.OfLife]
    | true => simp [Edge2Cloud.OfLife, other rfl]
  simp [LogEntry.life, sendDialAck, outside]

/-- A call whose pump, flags and id stay as they are. -/
theorem sound_move (sound : CallsSound cfg s) (at_ : s.At call ctx)
    (own : ctx'.callId = ctx.callId) (terminated : ctx'.terminated = ctx.terminated)
    (pump : ctx'.pump = ctx.pump) (cancelled : ctx'.pumpCancelled = ctx.pumpCancelled) :
    CallsSound cfg (s.update call ctx' []) := by
  have before := sound.each at_
  have ending : ctx'.pump.ending = true → ctx'.terminated = true := by
    rw [pump, terminated]
    exact before.ending
  exact sound_update sound at_
    (fine_move ctx' own (terminated ▸ before.life) (cancelled.trans before.running) ending)
    fun dev => pump.trans (sound.absent dev _ _ at_)

/-- A call that has ended and has no pump is taken off the map of active calls. -/
theorem sound_popped (sound : CallsSound cfg s) (at_ : s.At call ctx)
    (ended : ctx.terminated = true) (idle : ctx.pump = .absent) :
    CallsSound cfg (s.update call (ctx.beginTeardown false).1 [.pop]) := by
  have before := sound.each at_
  have same := ctx.beginTeardown_cancels
  have ended' : (ctx.beginTeardown false).1.terminated = true := same.terminated.trans ended
  have running : (ctx.beginTeardown false).1.pumpCancelled = false :=
    same.pumpCancelled.trans (by simp [idle, PumpPc.live])
  have fine : Fine ctx.callId (lifeOf s.log ctx.callId) ((ctx.beginTeardown false).1, [.pop]) :=
    fine_silent same.callId (by rw [ended', ← ended]; exact before.life) running
      (by simp [sent, Effect.life]) (fun _ => ended') fun _ => ended'
  exact sound_update sound at_ fine fun _ => same.pump.trans idle

/-- A call id that is not active has not been used: an orderly dial does not reuse one. -/
theorem unused_of_orderly {dial : DialCommand}
    (orderly : Orderly cfg s (.message (.dial dial))) (fresh : s.inCalls dial.callId = false) :
    ∀ call ctx, s.At call ctx → ctx.callId ≠ dial.callId := by
  intro call ctx got same
  have active := orderly ⟨ctx, List.mem_of_getElem? got, same⟩
  rw [fresh] at active
  cases active

theorem lifeOf_accept {dial : DialCommand} {modemCallId : Option Nat} (callId : String) :
    lifeOf (s.accept dial modemCallId).log callId =
      lifeOf s.log callId ++ if callId = dial.callId then [.dialAck callId true ""] else [] := by
  refine (lifeOf_append s.log _ callId).trans ?_
  by_cases same : callId = dial.callId
  · simp [lifeOf, LogEntry.life, Edge2Cloud.OfLife, sendDialAck, same]
  · simp [lifeOf, LogEntry.life, Edge2Cloud.OfLife, sendDialAck, same, Ne.symm same]

/-- Accepting a call id for the first time opens its life. -/
theorem sound_accept {dial : DialCommand} {modemCallId : Option Nat} (sound : CallsSound cfg s)
    (fresh : ∀ call ctx, s.At call ctx → ctx.callId ≠ dial.callId) :
    CallsSound cfg (s.accept dial modemCallId) := by
  constructor
  · intro call₁ call₂ ctx₁ ctx₂ got₁ got₂ same
    rcases accept_at.mp got₁ with old₁ | ⟨rfl, rfl⟩ <;>
      rcases accept_at.mp got₂ with old₂ | ⟨rfl, rfl⟩
    · exact sound.ids old₁ old₂ same
    · exact absurd same (fresh _ _ old₁)
    · exact absurd same.symm (fresh _ _ old₂)
    · rfl
  · intro callId unknown
    have ne : callId ≠ dial.callId := fun same =>
      unknown s.contexts.length _ (accept_at.mpr (.inr ⟨rfl, rfl⟩)) same.symm
    rw [lifeOf_accept, if_neg ne, List.append_nil]
    exact sound.unknown callId fun call ctx got => unknown call ctx (accept_at.mpr (.inl got))
  · intro call ctx got
    rcases accept_at.mp got with old | ⟨rfl, rfl⟩
    · have ne := fresh _ _ old
      obtain ⟨before, registered, ending, running⟩ := sound.each old
      refine ⟨?_, fun open_ => ?_, ending, running⟩
      · rw [lifeOf_accept, if_neg ne, List.append_nil]
        exact before
      · rw [inCalls, accept_lookup, if_neg ne]
        exact registered open_
    · refine ⟨?_, fun _ => ?_, by simp [PumpPc.ending], rfl⟩
      · change Life dial.callId (lifeOf _ dial.callId) false
        rw [lifeOf_accept, if_pos rfl, sound.unknown _ fresh]
        exact ⟨[], [], by simp, .inl rfl, by simp⟩
      · change (s.accept dial modemCallId).inCalls dial.callId = true
        rw [inCalls, accept_lookup, if_pos rfl]
        rfl
  · intro mode number found got
    rcases accept_at.mp got with old | ⟨rfl, rfl⟩
    · exact sound.absent mode number found old
    · rfl

/-- A turn that leaves the callback where it is keeps what is known of it. -/
theorem handlerSound_update (sound : HandlerSound cfg s) (at_ : s.At call ctx)
    (own : ctx'.callId = ctx.callId)
    (dev : cfg.devNoModem = true → ctx'.terminated = ctx.terminated ∧ effects = []) :
    HandlerSound cfg (s.update call ctx' effects) := by
  unfold HandlerSound at sound ⊢
  rw [show (s.update call ctx' effects).handler = s.handler from rfl]
  split
  · rename_i dial held
    simp only [held] at sound
    refine ⟨sound.1, fun number found got => ?_⟩
    rcases (update_at _ at_).mp got with ⟨rfl, rfl⟩ | ⟨-, got⟩
    · exact own ▸ sound.2 _ _ at_
    · exact sound.2 _ _ got
  · rename_i held
    simpa only [held] using sound
  · rename_i number held
    simp only [held] at sound
    obtain ⟨same, rfl⟩ := dev sound.1
    refine ⟨sound.1, fun found got => ?_⟩
    rw [lifeOf_update]
    simp only [sent, List.filterMap_nil, List.append_nil]
    rcases (update_at _ at_).mp got with ⟨rfl, rfl⟩ | ⟨-, got⟩
    · rw [same, own]
      exact sound.2 _ at_
    · exact sound.2 _ got
  · rename_i held
    simpa only [held] using sound
  · rename_i held
    simpa only [held] using sound
  · rename_i number held
    simp only [held] at sound
    refine ⟨sound.1, fun found got => ?_⟩
    rcases (update_at _ at_).mp got with ⟨rfl, rfl⟩ | ⟨-, got⟩
    · exact (dev sound.1).1.trans (sound.2 _ at_)
    · exact sound.2 _ got
  · trivial

theorem devJoined_same (cfg : Config) (ctx : CallContext) (begin_ : BeginCall) :
    (devJoined cfg ctx begin_).callId = ctx.callId ∧
      (devJoined cfg ctx begin_).terminated = ctx.terminated ∧
      (devJoined cfg ctx begin_).pump = ctx.pump ∧
      (devJoined cfg ctx begin_).pumpCancelled = ctx.pumpCancelled := by
  unfold devJoined
  dsimp only
  repeat' split
  all_goals exact ⟨rfl, rfl, rfl, rfl⟩

/-- Everything that is kept, along an orderly run. -/
structure Sound (cfg : Config) (s : EdgeOrchestrator) : Prop where
  calls : CallsSound cfg s
  handler : HandlerSound cfg s

theorem sound_init (cfg : Config) : Sound cfg {} where
  calls :=
    ⟨fun got => by simp [At] at got, fun _ _ => rfl, fun got => by simp [At] at got,
      fun _ _ _ got => by simp [At] at got⟩
  handler := trivial

/-- **One step.**  An orderly step keeps the calls and the callback sound. -/
theorem sound_step {action : EdgeAction} (sound : Sound cfg s) (orderly : Orderly cfg s action)
    (next : step cfg s action = some t) : Sound cfg t := by
  obtain ⟨calls, handler⟩ := sound
  cases step_cases next with
  | start => exact ⟨calls_congr calls rfl rfl rfl, handler⟩
  | duplicate => exact ⟨calls_congr (sound_ack calls (by simp)) rfl rfl rfl, trivial⟩
  | @devDial dial _ fresh mode =>
      have unknown := unused_of_orderly orderly fresh
      refine ⟨calls_congr (sound_accept calls unknown) rfl rfl rfl, mode, fun ctx got => ?_⟩
      rcases accept_at.mp got with old | ⟨-, rfl⟩
      · exact absurd (List.getElem?_eq_some_iff.mp old).1 (Nat.lt_irrefl _)
      · refine ⟨rfl, ?_⟩
        change Edge2Cloud.connected dial.callId ∉ lifeOf (s.accept dial none).log dial.callId
        rw [lifeOf_accept, if_pos rfl, calls.unknown _ unknown]
        simp
  | atDial _ fresh mode =>
      have unknown := unused_of_orderly orderly fresh
      exact ⟨calls_congr (sound_record calls fun callId => rfl) rfl rfl rfl, mode, unknown⟩
  | cancelIgnored => exact ⟨calls, handler⟩
  | @cancelModem call ctx _ _ _ at_ mode =>
      have before := calls.each at_
      have fine : Fine ctx.callId (lifeOf s.log ctx.callId) (ctx, [.atHangup]) :=
        fine_silent rfl before.life before.running (by simp [sent, Effect.life]) (by simp)
          before.ending
      exact ⟨calls_congr (sound_update calls at_ fine fun dev => by simp [mode] at dev) rfl rfl rfl,
        trivial⟩
  | @devHangup call ctx _ cause at_ open_ mode =>
      have before := calls.each at_
      have dev : cfg.devNoModem = true := by
        rcases mode with dev | held
        · exact dev
        · simpa only [HandlerSound, held] using handler
      have fine := fine_emitHangup rfl before.life open_ before.running (some cause) ctx.pump
      have idle : ctx.pump = .absent := calls.absent dev _ _ at_
      refine ⟨calls_congr (sound_update calls at_ fine fun _ => idle) rfl rfl rfl, dev,
        fun found got => ?_⟩
      rcases (update_at [] at_).mp got with ⟨-, rfl⟩ | ⟨ne, -⟩
      · rfl
      · exact absurd rfl ne
  | settled => exact ⟨calls_congr calls rfl rfl rfl, trivial⟩
  | dialReturned _ held =>
      simp only [HandlerSound, held] at handler
      exact ⟨calls_congr (sound_accept calls handler.2) rfl rfl rfl, handler.1⟩
  | dialRaised => exact ⟨calls_congr (sound_ack calls (by simp)) rfl rfl rfl, trivial⟩
  | @accepted call ctx held at_ =>
      simp only [HandlerSound, held] at handler
      have before := calls.each at_
      have fine := fine_move { ctx with pump := .created } rfl before.life before.running
        (by simp [PumpPc.ending])
      exact ⟨calls_congr (sound_update calls at_ fine fun dev => by simp [handler] at dev) rfl rfl rfl,
        trivial⟩
  | devConnected held at_ =>
      simp only [HandlerSound, held] at handler
      have before := calls.each at_
      obtain ⟨open_, first⟩ := handler.2 _ at_
      have fine := fine_emitConnected _ rfl before.life before.running before.ending open_ first
      exact ⟨calls_congr (sound_update calls at_ fine fun dev => calls.absent dev _ _ at_) rfl rfl rfl,
        handler.1⟩
  | @devSession call ctx held at_ =>
      simp only [HandlerSound, held] at handler
      have moved : CallsSound cfg (s.update call { ctx with rtcSession := some false } []) :=
        sound_move calls at_ rfl rfl rfl rfl
      exact ⟨calls_congr moved rfl rfl rfl, handler⟩
  | @devJoined call ctx begin_ held at_ =>
      obtain ⟨own, terminated, pump, cancelled⟩ := devJoined_same cfg ctx begin_
      exact ⟨calls_congr (sound_move calls at_ own terminated pump cancelled) rfl rfl rfl, trivial⟩
  | @devPopped call ctx held at_ =>
      simp only [HandlerSound, held] at handler
      obtain ⟨dev, ended⟩ := handler
      refine ⟨calls_congr (sound_popped calls at_ (ended _ at_) (calls.absent dev _ _ at_))
        rfl rfl rfl, ?_⟩
      cases (ctx.beginTeardown false).2 <;> trivial
  | @devTornDown call ctx ctx' stage following held at_ resumed =>
      have same := CallContext.resumeTeardown_same resumed
      refine ⟨calls_congr (sound_move calls at_ same.callId same.terminated same.pump
        same.pumpCancelled) rfl rfl rfl, ?_⟩
      cases following <;> trivial
  | @pump call ctx ctx' effects input at_ turn =>
      have before := calls.each at_
      obtain ⟨abrupt, connected⟩ := orderly ctx (by simpa using at_)
      have modem : cfg.devNoModem ≠ true := by
        intro dev
        simp [CallContext.pumpStep, calls.absent dev _ _ at_, PumpPc.live] at turn
      have fine := fine_pumpStep rfl before.life before.running before.ending abrupt connected turn
      exact ⟨sound_update calls at_ fine fun dev => absurd dev modem,
        handlerSound_update handler at_ fine.own fun dev => absurd dev modem⟩
  | audioEnd at_ =>
      exact ⟨sound_move calls at_ rfl rfl rfl rfl,
        handlerSound_update handler at_ rfl fun _ => ⟨rfl, rfl⟩⟩
  | stop => exact orderly.elim
  | stopStage => exact orderly.elim
  | stopCall => exact orderly.elim
  | stopReturned => exact orderly.elim

theorem sound_run (run : Reachable (step cfg) (Orderly cfg) {} s) : Sound cfg s :=
  run.invariant (sound_init cfg) fun _ _ _ sound orderly next => sound_step sound orderly next

/-! ## The promise -/

/-- **One terminal event.**  In an orderly run the life of every accepted call id
is its ack, at most one connected and one remote_hangup, the latter handed to
`grpc.send` before the id leaves the active-call map. -/
theorem ends_once_of_orderly (cfg : Config) (s : EdgeOrchestrator)
    (run : Reachable (step cfg) (Orderly cfg) {} s) (callId : String)
    (accepted : .send (sendDialAck callId true "") ∈ s.log) : EndsOnce s callId := by
  have calls := (sound_run run).calls
  have opened : Edge2Cloud.dialAck callId true "" ∈ lifeOf s.log callId :=
    List.mem_filterMap.mpr
      ⟨_, accepted, by simp [LogEntry.life, Edge2Cloud.OfLife, sendDialAck]⟩
  by_cases known : ∃ call ctx, s.At call ctx ∧ ctx.callId = callId
  · obtain ⟨call, ctx, at_, rfl⟩ := known
    obtain ⟨life, registered, -, -⟩ := calls.each at_
    refine ⟨ctx.terminated, life, fun left => ?_⟩
    by_contra open_
    rw [registered (by simpa using open_)] at left
    cases left
  · rw [calls.unknown callId fun call ctx got same => known ⟨call, ctx, got, same⟩] at opened
    simp at opened

/-! ## Poles -/

/-- A call that is answered, joined and hung up from the far end. -/
def answeredActions : List EdgeAction :=
  [.start, .message (.dial { callId := "a", rtcUidEngine := "engine" }),
    .handler (.dialReturned 0), .handler (.sent true), .pump 0 .start,
    .pump 0 (.event .connected), .pump 0 (.sent true), .pump 0 (.enabled .ok true),
    .pump 0 .joined, .message (.dial { callId := "a" }), .handler (.sent true),
    .pump 0 (.event (.remoteHangup (some "user_hangup"))), .pump 0 (.sent true), .audioEnd 0,
    .audioEnd 0, .pump 0 .stageDone, .pump 0 .stageDone, .pump 0 .stageDone]

theorem answered_orderly : (guardedRun (step {}) (Orderly {}) {} answeredActions).isSome = true := by
  decide

theorem answered_call_ends_once :
    EndsOnce (Option.get _ answered_orderly) "a" ∧
      (Option.get _ answered_orderly).inCalls "a" = false :=
  ⟨ends_once_of_orderly {} _ (reachable_guarded_get answered_orderly) "a" (by decide), by decide⟩

/-- The DialCommand names no engine uid, so the bridge cannot be built. -/
def silentActions : List EdgeAction :=
  [.start, .message (.dial { callId := "a" }), .handler (.dialReturned 0), .handler (.sent true),
    .pump 0 .start, .pump 0 (.event .connected), .pump 0 (.sent true), .pump 0 (.enabled .ok true),
    .pump 0 .stageDone]

/-- `stop` is not called. -/
def NoStop (_ : EdgeOrchestrator) (action : EdgeAction) : Prop :=
  action ≠ .stop ∧ action ≠ .stopResume

instance (s : EdgeOrchestrator) (action : EdgeAction) : Decidable (NoStop s action) :=
  inferInstanceAs (Decidable (_ ∧ _))

theorem silent_runs : (guardedRun (step {}) NoStop {} silentActions).isSome = true := by decide

/-- **A call ends without a word.**  With no stop, an accepted call leaves the
map and finishes its teardown, and no remote_hangup was ever emitted. -/
theorem silent_exit_without_hangup :
    ¬ ∀ (cfg : Config) (s : EdgeOrchestrator), Reachable (step cfg) NoStop {} s →
      ∀ callId, .send (sendDialAck callId true "") ∈ s.log → EndsOnce s callId := by
  intro claim
  obtain ⟨ended, life, left⟩ :=
    claim {} _ (reachable_guarded_get silent_runs) "a" (by decide)
  obtain rfl := left (by decide)
  obtain ⟨connected, hangup, frames, -, cause, raw, rfl⟩ := life
  have silent : ∀ frame ∈ lifeOf (Option.get _ silent_runs).log "a",
      frame.IsRemoteHangup = false := by decide
  have emitted := silent (.remoteHangup "a" cause raw) (by rw [frames]; simp)
  cases emitted

end EdgeOrchestrator

end IsalesTelephony.Edge
