/-
# Edge.FailedAck -- a call whose accepting ack cannot be sent

`_on_dial` registers an accepted call, acks it, and only then creates its event pump.  When
the ack raises, the gRPC client logs the exception and reads on: the call stays in the
active-call map with no pump, and a retry of its command is acked as a duplicate.

`Manned` says that this is the only way to such a call: a registered call has a pump that
works for it, or its pump is not created yet (`unstarted`), because its ack is being sent or
could not be sent.  So what `_on_dial` leaves behind is known exactly (`acked_iff`).
-/
import IsalesTelephony.Edge.StationSteps
import IsalesTelephony.Edge.StopFinal

namespace IsalesTelephony.Edge

set_option autoImplicit false

open IsalesTelephony.Modem (SerialAction)
open IsalesTelephony.Theory IsalesTelephony.Theory.Transition

/-- The pump of a call works for it. -/
def PumpPc.works : PumpPc → Bool
  | .absent => false
  | .done => false
  | .teardown _ _ => false
  | _ => true

namespace CallContext

variable {cfg : Config} {ctx ctx' : CallContext} {via : Via} {input : PumpInput}
  {effects : List Effect}

/-- A turn takes the call out of the map, or the pump works on. -/
def Works (turn : PumpStep) : Prop := .pop ∈ turn.2 ∨ turn.1.pump.works = true

theorem exitPump_works : Works (ctx.exitPump true) := by
  unfold exitPump
  rw [if_pos rfl]
  split <;> exact .inl List.mem_cons_self

theorem handleRemoteHangup_works {cause : Option String} (notFinal : via ≠ .final) :
    Works (ctx.handleRemoteHangup true via cause) := by
  unfold handleRemoteHangup
  split
  · cases via with
    | event => exact exitPump_works
    | pcmFailed | joinFailed => exact .inr rfl
    | final => exact absurd rfl notFinal
  · exact .inr rfl

theorem popAndTeardown_works : Works (ctx.popAndTeardown via) := by
  unfold popAndTeardown
  split <;> exact .inl List.mem_cons_self

/-- A turn of the pump of a call that is in the map. -/
theorem pumpStep_works (running : ctx.pumpCancelled = false) (works : ctx.pump.works = true)
    (turn : ctx.pumpStep cfg true input = some (ctx', effects)) : Works (ctx', effects) := by
  obtain ⟨-, ⟨-, ran⟩ | ⟨cancelled, -⟩⟩ := pumpStep_cases turn
  · unfold runPump at ran
    split at ran
    case h_3 | h_12 | h_15 =>
      rw [← Option.some.inj ran]
      exact handleRemoteHangup_works (by simp)
    case h_9 =>
      rw [← Option.some.inj ran]
      simp only [buildAudioPath]
      split
      · exact exitPump_works
      · exact .inr rfl
    case h_16 =>
      rw [← Option.some.inj ran]
      exact popAndTeardown_works
    case h_18 at_ =>
      rw [at_] at works
      cases works
    case h_20 => cases ran
    all_goals
      rw [← Option.some.inj ran]
      first
        | exact exitPump_works
        | exact .inr rfl
        | exact .inr works
  · rw [running] at cancelled
    cases cancelled

end CallContext

namespace EdgeOrchestrator

/-! ## The calls in the map -/

/-- A call in the map has a pump that works for it, or none yet. -/
structure Manned (unstarted : Nat → Prop) (e : EdgeOrchestrator) : Prop where
  keyed : ∀ {callId call}, e.calls.lookup callId = some call →
    ∃ ctx, e.At call ctx ∧ ctx.callId = callId
  pump : ∀ {call ctx}, e.At call ctx → e.Registered call ctx →
    ctx.pumpCancelled = false ∧ (ctx.pump.works = true ∨ ctx.pump = .absent ∧ unstarted call)
  absent : ∀ {call ctx}, e.At call ctx → unstarted call → ctx.pump = .absent
  bound : ∀ {call}, unstarted call → call < e.contexts.length

variable {cfg : Config} {e e' : EdgeOrchestrator} {call : Nat} {ctx ctx' : CallContext}
  {effects : List Effect} {unstarted unstarted' : Nat → Prop} {unacked : List Nat}
  {action : EdgeAction}

theorem manned_congr (manned : e.Manned unstarted) (contexts : e'.contexts = e.contexts)
    (calls : e'.calls = e.calls) (same : ∀ call, unstarted' call ↔ unstarted call) :
    e'.Manned unstarted' where
  keyed := by simpa only [At, contexts, calls] using @manned.keyed
  pump := by simpa only [At, Registered, contexts, calls, same] using @manned.pump
  absent := by simpa only [At, contexts, same] using @manned.absent
  bound := by simpa only [contexts, same] using @manned.bound

/-- One context is written back. -/
theorem manned_update (effects : List Effect) (manned : e.Manned unstarted) (at_ : e.At call ctx)
    (contexts : e'.contexts = (e.update call ctx' effects).contexts)
    (calls : e'.calls = (e.update call ctx' effects).calls) (callId : ctx'.callId = ctx.callId)
    (others : ∀ other, other ≠ call → (unstarted' other ↔ unstarted other))
    (pump : .pop ∉ effects → e.Registered call ctx →
      ctx'.pumpCancelled = false ∧ (ctx'.pump.works = true ∨ ctx'.pump = .absent ∧ unstarted' call))
    (absent : unstarted' call → ctx'.pump = .absent) : e'.Manned unstarted' := by
  have at' : ∀ {other found}, e'.At other found ↔
      other = call ∧ found = ctx' ∨ other ≠ call ∧ e.At other found := by
    intro other found
    rw [At, contexts]
    exact update_at effects at_
  have lookup : ∀ other, e'.calls.lookup other =
      if .pop ∈ effects ∧ other = ctx'.callId then none else e.calls.lookup other := by
    intro other
    rw [calls]
    exact update_lookup other
  have before : ∀ {other number}, e'.calls.lookup other = some number →
      e.calls.lookup other = some number := by
    intro other number there
    rw [lookup] at there
    split at there
    · cases there
    · exact there
  refine ⟨fun {other number} there => ?_, fun {other found} got registered => ?_,
    fun {other found} got is => ?_, fun {other} is => ?_⟩
  · obtain ⟨found, got, key⟩ := manned.keyed (before there)
    by_cases here : number = call
    · subst here
      obtain rfl := Option.some.inj (got.symm.trans at_)
      exact ⟨ctx', at'.mpr (.inl ⟨rfl, rfl⟩), callId.trans key⟩
    · exact ⟨found, at'.mpr (.inr ⟨here, got⟩), key⟩
  · rcases at'.mp got with ⟨rfl, rfl⟩ | ⟨ne, old⟩
    · refine pump (fun popped => ?_) (by rw [Registered, ← callId]; exact before registered)
      rw [Registered, lookup, if_pos ⟨popped, rfl⟩] at registered
      cases registered
    · rw [others other ne]
      exact manned.pump old (before registered)
  · rcases at'.mp got with ⟨rfl, rfl⟩ | ⟨ne, old⟩
    · exact absent is
    · exact manned.absent old ((others other ne).mp is)
  · have length : e'.contexts.length = e.contexts.length := by
      rw [contexts]
      exact List.length_set ..
    rw [length]
    by_cases here : other = call
    · rw [here]
      exact (List.getElem?_eq_some_iff.mp at_).1
    · exact manned.bound ((others other here).mp is)

/-- A new call is registered; its pump comes with its ack. -/
theorem manned_accept {dial : DialCommand} {modemCallId : Option Nat} (manned : e.Manned unstarted)
    (contexts : e'.contexts = (e.accept dial modemCallId).contexts)
    (calls : e'.calls = (e.accept dial modemCallId).calls)
    (started : ∀ call, unstarted' call ↔ unstarted call ∨ call = e.contexts.length) :
    e'.Manned unstarted' := by
  have at' : ∀ {other found}, e'.At other found ↔ e.At other found ∨
      other = e.contexts.length ∧ found = { dial := dial, modemCallId := modemCallId } := by
    intro other found
    rw [At, contexts]
    exact accept_at
  have lookup : ∀ callId, e'.calls.lookup callId =
      if callId = dial.callId then some e.contexts.length else e.calls.lookup callId := by
    intro callId
    rw [calls]
    exact accept_lookup callId
  have older : ∀ {other found}, e.At other found → other ≠ e.contexts.length :=
    fun old => Nat.ne_of_lt (List.getElem?_eq_some_iff.mp old).1
  refine ⟨fun {callId number} there => ?_, fun {other found} got registered => ?_,
    fun {other found} got is => ?_, fun {other} is => ?_⟩
  · rw [lookup] at there
    split at there
    · rename_i key
      obtain rfl := Option.some.inj there
      exact ⟨_, at'.mpr (.inr ⟨rfl, rfl⟩), key.symm⟩
    · obtain ⟨found, got, key⟩ := manned.keyed there
      exact ⟨found, at'.mpr (.inl got), key⟩
  · rcases at'.mp got with old | ⟨rfl, rfl⟩
    · rw [Registered, lookup] at registered
      split at registered
      · exact absurd (Option.some.inj registered).symm (older old)
      · rw [started]
        exact (manned.pump old registered).imp_right fun how => how.imp_right fun bare =>
          ⟨bare.1, .inl bare.2⟩
    · exact ⟨rfl, .inr ⟨rfl, (started _).mpr (.inr rfl)⟩⟩
  · rcases at'.mp got with old | ⟨-, rfl⟩
    · exact manned.absent old (((started other).mp is).resolve_right (older old))
    · rfl
  · have length : e'.contexts.length = e.contexts.length + 1 := by
      rw [contexts]
      exact List.length_append
    rcases (started other).mp is with old | rfl
    · have bound := manned.bound old
      omega
    · omega

/-- `stop` takes each call out of the map before it cancels its pump. -/
theorem manned_stopNext (rest : List String) (manned : e.Manned unstarted) :
    (e.stopNext rest).Manned unstarted := by
  induction rest generalizing e with
  | nil => exact manned_congr manned rfl rfl fun _ => Iff.rfl
  | cons callId rest ih =>
      unfold stopNext
      split
      · exact ih manned
      · rename_i call ctx found
        obtain ⟨-, at_⟩ := of_find found
        have same := ctx.beginTeardown_cancels
        have taken : (e.update call (ctx.beginTeardown false).1 [.pop]).Manned unstarted :=
          manned_update [.pop] manned at_ rfl rfl same.callId (fun _ _ => Iff.rfl)
            (fun kept => absurd List.mem_cons_self kept)
            fun is => by
              have absent := manned.absent at_ is
              exact same.pump.trans absent
        split
        · rename_i torn
          rw [torn] at taken
          exact manned_congr taken rfl rfl fun _ => Iff.rfl
        · rename_i torn
          rw [torn] at taken
          exact ih taken

theorem stopNext_handler (e : EdgeOrchestrator) (rest : List String) :
    (e.stopNext rest).handler = e.handler := by
  induction rest generalizing e with
  | nil => rfl
  | cons callId rest ih =>
      unfold stopNext
      split
      · exact ih e
      · split
        · rfl
        · exact ih _

/-! ## The acks -/

/-- The accepting ack of the call is being sent, or raised. -/
def Unstarted (e : EdgeOrchestrator) (unacked : List Nat) (call : Nat) : Prop :=
  call ∈ unacked ∨ e.handler = .acceptAck call

structure Acked (unacked : List Nat) (e : EdgeOrchestrator) : Prop where
  manned : e.Manned (e.Unstarted unacked)
  modem : e.handler.dev = false
  once : ∀ {call}, e.handler = .acceptAck call → call ∉ unacked

theorem acked_init : Acked [] {} where
  manned :=
    { keyed := fun there => by cases there
      pump := fun at_ => by simp [At] at at_
      absent := fun at_ => by simp [At] at at_
      bound := fun is => by rcases is with is | is <;> cases is }
  modem := rfl
  once := fun is => by cases is

/-- The message callback stays where it is, or works on no ack. -/
theorem acked_of (acked : e.Acked unacked) (manned : e'.Manned (e.Unstarted unacked))
    (modem : e'.handler.dev = false)
    (same : ∀ call, e'.handler = .acceptAck call ↔ e.handler = .acceptAck call) :
    e'.Acked unacked where
  manned := manned_congr manned rfl rfl fun call => or_congr_right (same call)
  modem := modem
  once := fun is => acked.once ((same _).mp is)

theorem acked_congr (acked : e.Acked unacked) (contexts : e'.contexts = e.contexts)
    (calls : e'.calls = e.calls) (modem : e'.handler.dev = false)
    (same : ∀ call, e'.handler = .acceptAck call ↔ e.handler = .acceptAck call) : e'.Acked unacked :=
  acked_of acked (manned_congr acked.manned contexts calls fun _ => Iff.rfl) modem same

/-- How the message callback goes on, in modem mode. -/
inductive Resumed (e : EdgeOrchestrator) : HandlerInput → EdgeOrchestrator → Prop
  | acked {call : Nat} {ctx : CallContext} (held : e.handler = .acceptAck call)
      (at_ : e.At call ctx) :
      Resumed e (.sent true)
        { e.update call { ctx with pump := .created } [] with handler := .idle }
  | unacked {call : Nat} (held : e.handler = .acceptAck call) :
      Resumed e (.sent false) { e with handler := .idle }
  | accepts {dial : DialCommand} (modemCallId : Nat) (held : e.handler = .atDial dial) :
      Resumed e (.dialReturned modemCallId)
        { e.accept dial (some modemCallId) with handler := .acceptAck e.contexts.length }
  | refused {dial : DialCommand} (exception : String) (held : e.handler = .atDial dial) :
      Resumed e (.dialRaised exception)
        { e.record (.send (sendDialAck dial.callId false ("at_dial: " ++ exception))) with
          handler := .rejectAck dial.callId }
  | answered {input : HandlerInput} (held : ∀ call, e.handler ≠ .acceptAck call) :
      Resumed e input { e with handler := .idle }

theorem resumed_cases {input : HandlerInput} (modem : e.handler.dev = false)
    (next : e.resumeHandler cfg input = some e') : e.Resumed input e' := by
  cases held : e.handler with
  | idle => cases input <;> simp [resumeHandler, held, Handler.call?] at next
  | duplicateAck callId | rejectAck callId =>
      cases input with
      | sent ok =>
          simp only [resumeHandler, held, Handler.call?] at next
          obtain rfl := Option.some.inj next
          exact .answered (by simp [held])
      | _ => simp [resumeHandler, held, Handler.call?] at next
  | atDial dial =>
      cases input with
      | dialReturned modemCallId =>
          simp only [resumeHandler, held, Handler.call?] at next
          obtain rfl := Option.some.inj next
          exact .accepts modemCallId held
      | dialRaised exception =>
          simp only [resumeHandler, held, Handler.call?] at next
          obtain rfl := Option.some.inj next
          exact .refused exception held
      | _ => simp [resumeHandler, held, Handler.call?] at next
  | acceptAck call =>
      simp only [resumeHandler, held, Handler.call?] at next
      obtain ⟨ctx, at_, resumed⟩ := Option.bind_eq_some_iff.mp next
      cases input with
      | sent ok =>
          cases ok with
          | true =>
              obtain rfl := Option.some.inj resumed
              exact .acked held at_
          | false =>
              obtain rfl := Option.some.inj resumed
              exact .unacked held
      | _ => cases resumed
  | cancelHangup call =>
      simp only [resumeHandler, held, Handler.call?] at next
      obtain ⟨ctx, at_, resumed⟩ := Option.bind_eq_some_iff.mp next
      cases input with
      | hungUp =>
          obtain rfl := Option.some.inj resumed
          exact .answered (by simp [held])
      | _ => cases resumed
  | devAck | devConnected | devJoin | devHangupSend | devTeardown =>
      rw [held] at modem
      cases modem

theorem unackedBy_of_busy (busy : ∀ call, e.handler ≠ .acceptAck call) : e.unackedBy action = [] := by
  unfold unackedBy
  split
  · split
    · rename_i held
      exact absurd held (busy _)
    · rfl
  · rfl

theorem acked_handler {input : HandlerInput} (acked : e.Acked unacked)
    (next : e.resumeHandler cfg input = some e') :
    e'.Acked (unacked ++ e.unackedBy (.handler input)) := by
  have manned := acked.manned
  cases resumed_cases acked.modem next with
  | @acked call ctx held at_ =>
      have unstarted : ¬ (call ∈ unacked ∨ Handler.idle = .acceptAck call) := by
        simp [acked.once held]
      rw [show e.unackedBy (.handler (.sent true)) = [] from rfl, List.append_nil]
      refine ⟨manned_update [] manned at_ rfl rfl rfl (fun other ne => or_congr_right ?_)
        (fun _ registered => ⟨(manned.pump at_ registered).1, .inl rfl⟩)
        fun is => absurd is unstarted, rfl, fun is => by cases is⟩
      rw [held]
      exact iff_of_false (by simp) fun is => ne (Handler.acceptAck.inj is).symm
  | @unacked call held =>
      have raised : e.unackedBy (.handler (.sent false)) = [call] := by
        simp [unackedBy, held]
      rw [raised]
      refine ⟨manned_congr manned rfl rfl fun other => ?_, rfl, fun is => by cases is⟩
      simp [Unstarted, held, eq_comm]
  | @accepts dial modemCallId held =>
      have busy : ∀ call, e.handler ≠ .acceptAck call := by simp [held]
      rw [unackedBy_of_busy busy, List.append_nil]
      refine ⟨manned_accept manned rfl rfl fun call => ?_, rfl, fun is listed => ?_⟩
      · simp [Unstarted, held, eq_comm]
      · obtain rfl := Handler.acceptAck.inj is
        exact absurd (manned.bound (.inl listed)) (Nat.lt_irrefl _)
  | refused exception held =>
      have busy : ∀ call, e.handler ≠ .acceptAck call := by simp [held]
      rw [unackedBy_of_busy busy, List.append_nil]
      refine acked_congr acked rfl rfl rfl fun call => ?_
      exact iff_of_false (by simp) (busy call)
  | answered busy =>
      rw [unackedBy_of_busy busy, List.append_nil]
      refine acked_congr acked rfl rfl rfl fun call => ?_
      exact iff_of_false (by simp) (busy call)

theorem acked_pump {input : PumpInput} (acked : e.Acked unacked) (at_ : e.At call ctx)
    (turn : ctx.pumpStep cfg (e.inCalls ctx.callId) input = some (ctx', effects)) :
    (e.update call ctx' effects).Acked unacked := by
  have manned := acked.manned
  have goes := CallContext.pumpStep_continues turn
  have live := (CallContext.pumpStep_cases turn).1
  have started : ¬ e.Unstarted unacked call := by
    intro is
    rw [manned.absent at_ is] at live
    cases live
  refine acked_of acked (manned_update effects manned at_ rfl rfl goes.callId (fun _ _ => Iff.rfl)
    (fun kept registered => ?_) fun is => absurd is started) acked.modem fun _ => Iff.rfl
  obtain ⟨running, works | ⟨-, is⟩⟩ := manned.pump at_ registered
  · have known : e.inCalls ctx.callId = true := by
      rw [inCalls, show e.calls.lookup ctx.callId = some call from registered]
      rfl
    rw [known] at turn
    have onwards := (CallContext.pumpStep_works running works turn).resolve_left kept
    refine ⟨?_, .inl onwards⟩
    cases cancelled : ctx'.pumpCancelled with
    | false => rfl
    | true =>
        rw [goes.pumpCancelled cancelled] at running
        cases running
  · exact absurd is started

/-- **One step of the orchestrator**, in modem mode. -/
theorem acked_step (modem : cfg.devNoModem = false) (acked : e.Acked unacked)
    (next : e.step cfg action = some e') : e'.Acked (unacked ++ e.unackedBy action) := by
  have manned := acked.manned
  have same : ∀ {ctx ctx' : CallContext} {call}, e.At call ctx → ctx'.callId = ctx.callId →
      ctx'.pump = ctx.pump → ctx'.pumpCancelled = ctx.pumpCancelled → ∀ effects,
      (e.update call ctx' effects).Manned (e.Unstarted unacked) := by
    intro ctx ctx' call at_ callId pump cancelled effects
    refine manned_update effects manned at_ rfl rfl callId (fun _ _ => Iff.rfl)
      (fun _ registered => ?_) fun is => pump.trans (manned.absent at_ is)
    rw [pump, cancelled]
    exact manned.pump at_ registered
  cases action with
  | handler input => exact acked_handler acked next
  | start =>
      rw [show e.unackedBy .start = [] from rfl, List.append_nil]
      simp only [step] at next
      split at next
      · cases next
      · obtain rfl := Option.some.inj next
        exact acked_congr acked rfl rfl acked.modem fun _ => Iff.rfl
  | message message =>
      rw [show e.unackedBy (.message message) = [] from rfl, List.append_nil]
      have free : e.handler = .idle := by
        cases message <;>
        · simp only [step] at next
          split at next
          · rename_i ready
            exact ready.2
          · cases next
      have idle : ∀ {handler : Handler}, (∀ call, handler ≠ .acceptAck call) →
          ∀ call, handler = .acceptAck call ↔ e.handler = .acceptAck call :=
        fun other call => iff_of_false (other call) (by simp [free])
      cases step_cases next with
      | duplicate | atDial =>
          exact acked_congr acked rfl rfl rfl (idle (by simp))
      | devDial _ _ mode =>
          rw [modem] at mode
          cases mode
      | cancelIgnored => exact acked
      | cancelModem _ _ at_ =>
          have after := same at_ rfl rfl rfl [.atHangup]
          exact acked_of acked (manned_congr after rfl rfl fun _ => Iff.rfl) rfl (idle (by simp))
      | devHangup _ _ _ mode =>
          rcases mode with mode | held
          · rw [modem] at mode
            cases mode
          · rw [free] at held
            cases held
      | settled =>
          exact acked_congr acked rfl rfl rfl (idle (by simp))
  | pump call input =>
      rw [show e.unackedBy (.pump call input) = [] from rfl, List.append_nil]
      obtain ⟨ctx, at_, moved⟩ := Option.bind_eq_some_iff.mp next
      obtain ⟨⟨ctx', effects⟩, turn, rfl⟩ := Option.map_eq_some_iff.mp moved
      exact acked_pump acked at_ turn
  | audioEnd call =>
      rw [show e.unackedBy (.audioEnd call) = [] from rfl, List.append_nil]
      obtain ⟨ctx, at_, moved⟩ := Option.bind_eq_some_iff.mp next
      split at moved
      · obtain rfl := Option.some.inj moved
        refine acked_of acked (same at_ ?_ ?_ ?_ []) acked.modem fun _ => Iff.rfl
        · rfl
        · rfl
        · rfl
      · cases moved
  | stop =>
      rw [show e.unackedBy .stop = [] from rfl, List.append_nil]
      simp only [step] at next
      split at next
      · obtain rfl := Option.some.inj next
        have handler := stopNext_handler e (e.calls.map (·.1))
        exact acked_of acked (manned_stopNext _ manned) (by rw [handler]; exact acked.modem)
          fun _ => by rw [handler]
      · cases next
  | stopResume =>
      rw [show e.unackedBy .stopResume = [] from rfl, List.append_nil]
      have next : e.resumeStop = some e' := next
      unfold resumeStop at next
      split at next
      · obtain ⟨ctx, at_, moved⟩ := Option.bind_eq_some_iff.mp next
        obtain ⟨⟨ctx', following⟩, resumed, moved⟩ := Option.map_eq_some_iff.mp moved
        have torn := CallContext.resumeTeardown_same resumed
        have after := same at_ torn.callId torn.pump torn.pumpCancelled []
        cases following with
        | some stage =>
            obtain rfl : _ = e' := moved
            exact acked_of acked (manned_congr after rfl rfl fun _ => Iff.rfl) acked.modem
              fun _ => Iff.rfl
        | none =>
            obtain rfl : _ = e' := moved
            refine acked_of acked (manned_stopNext _ after) ?_ fun _ => ?_
            · rw [stopNext_handler]
              exact acked.modem
            · rw [stopNext_handler]
              rfl
      · obtain rfl := Option.some.inj next
        exact acked_congr acked rfl rfl acked.modem fun _ => Iff.rfl
      · cases next

end EdgeOrchestrator

/-! ## The station -/

namespace EdgeStation

variable {cfg : Config} {s t : EdgeStation} {action : EdgeAction} {call : Nat}

theorem asks_edge (entries : List LogEntry) (s : EdgeStation) :
    (entries.foldl ask s).edge = s.edge ∧ (entries.foldl ask s).unacked = s.unacked := by
  induction entries generalizing s with
  | nil => exact ⟨rfl, rfl⟩
  | cons entry rest ih =>
      obtain ⟨edge, unacked⟩ := ih (s.ask entry)
      rw [List.foldl_cons, edge, unacked]
      unfold ask
      split <;> exact ⟨rfl, rfl⟩

theorem turn_edge (next : s.turn cfg action = some t) :
    s.edge.step cfg action = some t.edge ∧ t.unacked = s.unacked ++ s.edge.unackedBy action := by
  obtain ⟨edge, stepped, rfl⟩ := Option.map_eq_some_iff.mp next
  obtain ⟨same, unacked⟩ := asks_edge (edge.log.drop s.edge.log.length)
    { s with edge := edge, unacked := s.unacked ++ s.edge.unackedBy action }
  exact ⟨same ▸ stepped, unacked⟩

theorem acked_turn (modem : cfg.devNoModem = false) (next : s.turn cfg action = some t)
    (acked : s.edge.Acked s.unacked) : t.edge.Acked t.unacked := by
  obtain ⟨stepped, unacked⟩ := turn_edge next
  rw [unacked]
  exact EdgeOrchestrator.acked_step modem acked stepped

theorem acked_resumeDial (modem : cfg.devNoModem = false) (next : s.resumeDial cfg = some t)
    (acked : s.edge.Acked s.unacked) : t.edge.Acked t.unacked := by
  unfold resumeDial at next
  split at next
  · exact acked_turn modem next acked
  · split at next
    · exact acked_turn modem next acked
    · rw [← Option.some.inj next]
      exact acked
  · rw [← Option.some.inj next]
    exact acked

theorem acked_iterate {number : Nat} {asks : SerialAction} (modem : cfg.devNoModem = false)
    (next : s.iterate cfg call number asks = some t) (acked : s.edge.Acked s.unacked) :
    t.edge.Acked t.unacked := by
  obtain ⟨m, -, moved⟩ := Option.bind_eq_some_iff.mp next
  split at moved
  · exact acked_turn modem moved acked
  · rw [← Option.some.inj moved]
    exact acked

theorem acked_station_step {action : StationAction} (modem : cfg.devNoModem = false)
    (next : s.step cfg action = some t) (acked : s.edge.Acked s.unacked) :
    t.edge.Acked t.unacked := by
  unfold step at next
  split at next
  · split at next
    · cases next
    · obtain ⟨v, cut, moved⟩ := Option.bind_eq_some_iff.mp next
      obtain ⟨u, turn, pulled⟩ := Option.bind_eq_some_iff.mp moved
      have before : v.edge.Acked v.unacked := by
        rw [cut_edge cut, cut_unacked cut]
        exact acked
      have turned := acked_turn modem turn before
      unfold pull at pulled
      split at pulled
      · exact acked_iterate modem pulled turned
      · rw [← Option.some.inj pulled]
        exact turned
  · split at next
    · cases next
    · exact acked_turn modem next acked
  · obtain ⟨u, turn, resumed⟩ := Option.bind_eq_some_iff.mp next
    exact acked_resumeDial modem resumed (acked_turn modem turn acked)
  · obtain ⟨number, -, moved⟩ := Option.bind_eq_some_iff.mp next
    exact acked_iterate modem moved acked
  · split at next
    · obtain ⟨m, -, resumed⟩ := Option.bind_eq_some_iff.mp next
      exact acked_resumeDial modem resumed acked
    · cases next

theorem acked_run (modem : cfg.devNoModem = false) (run : Reachable (step cfg) Free {} s) :
    s.edge.Acked s.unacked :=
  run.invariant (P := fun s => s.edge.Acked s.unacked) EdgeOrchestrator.acked_init
    fun _ _ _ acked _ next => acked_station_step modem next acked

/-! ## What _on_dial leaves behind -/

/-- The call id is in the map and an event pump works for it, or it is not and the modem is
free. -/
def Tended (s : EdgeStation) (callId : String) : Prop :=
  (∃ call ctx, s.edge.calls.lookup callId = some call ∧ s.edge.At call ctx ∧
      ctx.pump.live = true ∧ ctx.pumpCancelled = false) ∨
    s.edge.calls.lookup callId = none ∧ s.modem.active = none

/-- A dial of the call id is refused: it is not in the map, and the modem has another call. -/
def Refused (s : EdgeStation) (callId : String) : Prop :=
  s.edge.calls.lookup callId = none ∧ s.modem.active.isSome = true

/-- The call id is not refused, and the accepting ack of its call has not raised, and does
not now. -/
def AckSent (s : EdgeStation) (callId : String) (ok : Bool) : Prop :=
  ¬ s.Refused callId ∧ ∀ call, s.edge.calls.lookup callId = some call →
    call ∉ s.unacked ∧ (s.edge.handler = .acceptAck call → ok = true)

theorem ackSent_iff_of_absent {callId : String} {ok : Bool}
    (absent : s.edge.calls.lookup callId = none) :
    AckSent s callId ok ↔ s.modem.active = none := by
  simp [AckSent, Refused, absent]

theorem ackSent_iff_of_there {callId : String} {ok : Bool} {call : Nat}
    (there : s.edge.calls.lookup callId = some call) :
    AckSent s callId ok ↔ call ∉ s.unacked ∧ (s.edge.handler = .acceptAck call → ok = true) := by
  simp [AckSent, Refused, there]

theorem turn_silent (next : s.turn cfg action = some t) (log : t.edge.log = s.edge.log) :
    t.modem = s.modem := by
  obtain ⟨edge, -, rfl⟩ := Option.map_eq_some_iff.mp next
  have same : edge.log = s.edge.log := by
    rw [← log, (asks_edge _ _).1]
  rw [same, List.drop_length]
  rfl

theorem live_of_works {pump : PumpPc} (works : pump.works = true) : pump.live = true := by
  cases pump <;> first | rfl | cases works

/-- The contexts stay as they are: a call has a pump unless its ack was to come, or raised. -/
theorem tended_of_same {callId : String} {ok : Bool} (acked : s.edge.Acked s.unacked)
    (contexts : t.edge.contexts = s.edge.contexts) (calls : t.edge.calls = s.edge.calls)
    (modem : t.modem = s.modem) (failed : ∀ call, s.edge.handler = .acceptAck call → ok = false) :
    Tended t callId ↔ AckSent s callId ok := by
  have manned := acked.manned
  unfold Tended
  rw [calls, modem]
  simp only [EdgeOrchestrator.At, contexts]
  cases there : s.edge.calls.lookup callId with
  | none => simp [ackSent_iff_of_absent there]
  | some call =>
      rw [ackSent_iff_of_there there]
      obtain ⟨ctx, at_, key⟩ := manned.keyed there
      obtain ⟨running, works⟩ :=
        manned.pump at_ (by rw [EdgeOrchestrator.Registered, key]; exact there)
      constructor
      · rintro (⟨call', ctx', is, at', live, -⟩ | ⟨absent, -⟩)
        · obtain rfl := Option.some.inj is
          have started : ¬ s.edge.Unstarted s.unacked call := by
            intro unstarted
            rw [manned.absent at' unstarted] at live
            cases live
          exact ⟨fun listed => started (.inl listed), fun held => absurd (.inr held) started⟩
        · cases absent
      · rintro ⟨unlisted, sent⟩
        refine .inl ⟨call, ctx, rfl, at_, live_of_works (works.resolve_right ?_), running⟩
        rintro ⟨-, listed | held⟩
        · exact unlisted listed
        · rw [failed call held] at sent
          cases sent held

/-- **What `_on_dial` leaves behind.**  When its last await, the send of an ack, is over,
each call id is in the map with an event pump that works for it, or it is not and the modem
is free, if and only if `AckSent`. -/
theorem tended_iff_ack_sent (cfg : Config) (s t : EdgeStation) (modem : cfg.devNoModem = false)
    (run : Reachable (step cfg) Free {} s) (callId : String) (ok : Bool)
    (next : s.step cfg (.edge (.handler (.sent ok))) = some t) :
    Tended t callId ↔ AckSent s callId ok := by
  have acked := acked_run modem run
  have manned := acked.manned
  have next : s.turn cfg (.handler (.sent ok)) = some t := next
  have resumed := EdgeOrchestrator.resumed_cases acked.modem (turn_edge next).1
  have silent := turn_silent next
  generalize after : t.edge = e' at resumed silent
  cases resumed with
  | unacked held =>
      exact tended_of_same acked (by rw [after]) (by rw [after]) (silent rfl) fun _ _ => rfl
  | answered busy =>
      exact tended_of_same acked (by rw [after]) (by rw [after]) (silent rfl)
        fun call held => absurd held (busy call)
  | @acked k found held got =>
      have modem : t.modem = s.modem := silent (List.append_nil _)
      have at' : ∀ {other ctx}, t.edge.At other ctx ↔
          other = k ∧ ctx = { found with pump := .created } ∨ other ≠ k ∧ s.edge.At other ctx := by
        intro other ctx
        rw [after]
        exact EdgeOrchestrator.update_at [] got
      have calls : t.edge.calls = s.edge.calls := by
        rw [after]
        rfl
      unfold Tended
      rw [calls, modem]
      cases there : s.edge.calls.lookup callId with
      | none => simp [ackSent_iff_of_absent there]
      | some call =>
          rw [ackSent_iff_of_there there]
          obtain ⟨ctx, at_, key⟩ := manned.keyed there
          obtain ⟨running, works⟩ :=
            manned.pump at_ (by rw [EdgeOrchestrator.Registered, key]; exact there)
          constructor
          · rintro (⟨call', ctx', is, got', live, -⟩ | ⟨absent, -⟩)
            · obtain rfl := Option.some.inj is
              refine ⟨fun listed => ?_, fun _ => rfl⟩
              rcases at'.mp got' with ⟨rfl, -⟩ | ⟨-, old⟩
              · exact acked.once held listed
              · rw [manned.absent old (.inl listed)] at live
                cases live
            · cases absent
          · rintro ⟨unlisted, -⟩
            by_cases here : call = k
            · subst here
              obtain rfl := Option.some.inj (at_.symm.trans got)
              exact .inl ⟨call, _, rfl, at'.mpr (.inl ⟨rfl, rfl⟩), rfl, running⟩
            · refine .inl ⟨call, ctx, rfl, at'.mpr (.inr ⟨here, at_⟩),
                live_of_works (works.resolve_right ?_), running⟩
              rintro ⟨-, listed | held'⟩
              · exact unlisted listed
              · exact here (Handler.acceptAck.inj (held'.symm.trans held))

/-! ## Poles -/

/-- A DialCommand is accepted; its ack is handed to `grpc.send`. -/
def ackingActions : List StationAction :=
  [.edge .start, .edge (.message (.dial { callId := "x", rtcUidEngine := "engine" })),
    .modem (.serial .acquire), .modem (.serial .drained), .modem (.read "OK".toList),
    .modem (.serial .receive)]

theorem acking_runs : (run (step {}) {} ackingActions).isSome = true := by decide

theorem sent_ack_starts_pump :
    ((Option.get _ acking_runs).step {} (.edge (.handler (.sent true)))).any
      (fun t => (t.edge.calls.lookup "x").isSome) = true ∧
      ∀ t, (Option.get _ acking_runs).step {} (.edge (.handler (.sent true))) = some t →
        Tended t "x" := by
  refine ⟨by decide, fun t next => ?_⟩
  refine (tended_iff_ack_sent {} _ t rfl (reachable_get acking_runs) "x" true next).mpr ?_
  have there : (Option.get _ acking_runs).edge.calls.lookup "x" = some 0 := by decide
  exact (ackSent_iff_of_there there).mpr ⟨by decide, fun _ => rfl⟩

theorem ack_raises :
    ((Option.get _ acking_runs).step {} (.edge (.handler (.sent false)))).isSome = true := by decide

/-- **A zombie call.**  The accepting ack cannot be sent: the call stays in the map, and
nothing reads its event stream. -/
theorem unsent_ack_leaves_zombie :
    ¬ ∀ (cfg : Config) (s t : EdgeStation) (call : Nat) (ctx : CallContext) (ok : Bool),
      cfg.devNoModem = false → Reachable (step cfg) Free {} s →
      s.edge.handler = .acceptAck call → s.edge.At call ctx →
      s.step cfg (.edge (.handler (.sent ok))) = some t → Tended t ctx.callId := by
  intro claim
  have tended := claim {} (Option.get _ acking_runs) (Option.get _ ack_raises) 0
    { dial := { callId := "x", rtcUidEngine := "engine" }, modemCallId := some 0 } false rfl
    (reachable_get acking_runs) (by decide) (by decide) (Option.some_get ack_raises).symm
  have there : (Option.get _ ack_raises).edge.calls.lookup "x" = some 0 := by decide
  have pumps : ∀ ctx ∈ (Option.get _ ack_raises).edge.contexts, ctx.pump.live = false := by decide
  rcases tended with ⟨call, ctx, -, at_, live, -⟩ | ⟨absent, -⟩
  · rw [pumps ctx (List.mem_of_getElem? at_)] at live
    cases live
  · cases there.symm.trans absent

end EdgeStation

end IsalesTelephony.Edge
