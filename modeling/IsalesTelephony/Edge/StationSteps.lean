/-
# Edge.StationSteps -- what one step of the station can do

A step of the station is a turn of the orchestrator, a step of the AT client, or one
after the other.  `Turns` inverts a turn (`turn_cases`): it either begins a `dial`, or
asks the client for nothing but hang-ups, which move no event stream.

`Linked` ties the two sides together: each context refers to a call of its own whose
`dial` returned, and the call being dialled is nobody's yet.  Every part of a step keeps
it, as long as `stop` is not called.
-/
import IsalesTelephony.Edge.Station
import IsalesTelephony.Edge.OffHook

namespace IsalesTelephony.Edge

set_option autoImplicit false

open IsalesTelephony.Modem (SerialAtClient SerialAction StreamPc StreamLog Call)
open IsalesTelephony.Theory IsalesTelephony.Theory.Transition

/-! ## The AT client -/

/-- What holds of the AT client of a station. -/
structure Healthy (m : SerialAtClient) : Prop where
  wired : m.Wired
  tidy : m.Tidy
  unclosed : m.closing = false

/-- No dial ends, no stream moves, and the slot may be let go. -/
structure Still (m m' : SerialAtClient) : Prop where
  calls : ∀ {number c}, m.CallAt number c →
    ∃ c', m'.CallAt number c' ∧ c'.dial = c.dial ∧ c'.stream = c.stream
  active : m'.active = m.active ∨ m'.active = none

/-- The call of an `at.dial` in progress. -/
def Dialled (m : SerialAtClient) (number : Nat) (c : Call) : Prop :=
  c.dial = .awaiting ∨ c.dial = .returned ∧
    (c.stream = .unstarted ∨
      (∃ cause, c.stream = .single (.remoteHangup number cause)) ∧ m.active ≠ some number)

section Client

variable {m m' m'' : SerialAtClient} {action : SerialAction} {number : Nat} {c : Call}

theorem healthy_init : Healthy {} := ⟨SerialAtClient.wired_init, SerialAtClient.tidy_init, rfl⟩

theorem Healthy.step (healthy : Healthy m) (next : m.step action = some m')
    (unclosed : action ≠ .aclose) : Healthy m' where
  wired := SerialAtClient.wired_step healthy.wired next
  tidy := SerialAtClient.tidy_step healthy.wired healthy.tidy next
  unclosed := (SerialAtClient.closing_step next unclosed).trans healthy.unclosed

theorem Still.refl (m : SerialAtClient) : Still m m :=
  ⟨fun {_ c} at_ => ⟨c, at_, rfl, rfl⟩, .inl rfl⟩

theorem Still.trans (first : Still m m') (second : Still m' m'') : Still m m'' := by
  constructor
  · intro number c at_
    obtain ⟨c₁, at₁, dial₁, stream₁⟩ := first.calls at_
    obtain ⟨c₂, at₂, dial₂, stream₂⟩ := second.calls at₁
    exact ⟨c₂, at₂, dial₂.trans dial₁, stream₂.trans stream₁⟩
  · rcases second.active with same | free
    · rw [same]
      exact first.active
    · exact .inr free

/-- A stream that did not move, seen from behind. -/
theorem Still.back {c' : Call} (still : Still m m') (known : m.CallAt number c)
    (known' : m'.CallAt number c') : c'.stream = c.stream := by
  obtain ⟨c₁, here, -, stream⟩ := still.calls known
  obtain rfl := Option.some.inj (known'.symm.trans here)
  exact stream

theorem still_hangup (healthy : Healthy m) (number : Nat) : Still m (m.hangup number) := by
  have next : m.step (.hangup number) = some (m.hangup number) := rfl
  constructor
  · intro k c at_
    obtain ⟨c', at', -⟩ := SerialAtClient.callAt_stays healthy.wired next at_
    obtain ⟨c₀, at₀, dial, stream⟩ := SerialAtClient.keeps_hangup healthy.wired number k c' at'
    obtain rfl := Option.some.inj (at_.symm.trans at₀)
    exact ⟨c', at', dial, stream⟩
  · rcases SerialAtClient.active_step next with same | free | ⟨⟨_, is⟩, -⟩
    · exact .inl same
    · exact .inr free
    · cases is

/-- A new call is dialled; the others stay as they are. -/
theorem dial_keeps (healthy : Healthy m) (text : Modem.Text) (at_ : m.CallAt number c) :
    ∃ c', (m.dial text).CallAt number c' ∧ c'.dial = c.dial ∧ c'.stream = c.stream := by
  cases free : m.active with
  | some busy => exact ⟨c, by rw [SerialAtClient.dial, free]; exact at_, rfl, rfl⟩
  | none =>
      have next : m.step (.dial text) = some (m.dial text) := rfl
      obtain ⟨c', at', same | ⟨waits, -⟩⟩ := SerialAtClient.call_other healthy.wired next
        (by simp [SerialAction.stream?]) (fun _ is => by cases is) at_
      · exact ⟨c', at', same⟩
      · have active := ((healthy.wired.slots at_).awaiting waits).1
        rw [free] at active
        cases active

/-- `dial` on a free slot. -/
theorem dial_dialled (healthy : Healthy m) (free : m.active = none) (text : Modem.Text) :
    ∃ c, (m.dial text).CallAt m.calls.length c ∧ Dialled (m.dial text) m.calls.length c := by
  obtain ⟨c, at_, begins⟩ := SerialAtClient.dial_begins healthy.wired free text
  refine ⟨c, at_, ?_⟩
  rcases begins.dial with ⟨waits, -⟩ | ⟨returned, ⟨cause, single⟩, gone⟩
  · exact .inl waits
  · exact .inr ⟨returned, .inr ⟨⟨_, single⟩, by rw [gone]; simp⟩⟩

theorem Still.dialled (still : Still m m') (at_ : m.CallAt number c)
    (dialled : Dialled m number c) : ∃ c', m'.CallAt number c' ∧ Dialled m' number c' := by
  obtain ⟨c', at', dial, stream⟩ := still.calls at_
  refine ⟨c', at', dialled.imp dial.trans fun ⟨returned, how⟩ => ⟨dial.trans returned, ?_⟩⟩
  rw [stream]
  refine how.imp_right fun ⟨single, free⟩ => ⟨single, fun active => ?_⟩
  rcases still.active with same | gone
  · exact free (same ▸ active)
  · rw [gone] at active
    cases active

end Client

/-! ## The contexts -/

/-- What an action other than `stop` does to a context, in modem mode. -/
inductive CtxMoves (cfg : Config) (e : EdgeOrchestrator) (action : EdgeAction) (call : Nat)
    (ctx ctx' : CallContext) : Prop
  | kept (other : ∀ input, action ≠ .pump call input) (same : ctx' = ctx)
  | created (acked : action = .handler (.sent true)) (accepting : e.handler = .acceptAck call)
      (made : ctx' = { ctx with pump := .created })
  | audioEnded (is : action = .audioEnd call)
      (ended : ctx' = { ctx with audioTasks := ctx.audioTasks - 1 })
  | turned {input : PumpInput} {effects : List Effect} (is : action = .pump call input)
      (turn : ctx.pumpStep cfg (e.inCalls ctx.callId) input = some (ctx', effects))

/-- The action takes the call id out of the map. -/
def Pops (cfg : Config) (e : EdgeOrchestrator) (action : EdgeAction) (callId : String) : Prop :=
  ∃ call ctx ctx' input effects, action = .pump call input ∧ e.At call ctx ∧
    ctx.pumpStep cfg (e.inCalls ctx.callId) input = some (ctx', effects) ∧ .pop ∈ effects ∧
    ctx'.callId = callId

/-- `_on_dial` is on its way from `at.dial` to the pump. -/
def Handler.dialling : Handler → Bool
  | .atDial _ => true
  | .acceptAck _ => true
  | _ => false

/-- An action of the running orchestrator, in modem mode, that accepts no call. -/
structure Goes (cfg : Config) (e e' : EdgeOrchestrator) (action : EdgeAction) : Prop where
  contexts : ∀ {call ctx'}, e'.At call ctx' → ∃ ctx, e.At call ctx ∧
    CtxMoves cfg e action call ctx ctx'
  stays : ∀ {call ctx}, e.At call ctx → ∃ ctx', e'.At call ctx'
  calls : ∀ callId, e'.calls.lookup callId = e.calls.lookup callId ∨
    e'.calls.lookup callId = none ∧ Pops cfg e action callId
  modem : e'.handler.dev = false
  calm : e'.stopping = .notCalled
  handler : e'.handler.dialling = true → e'.handler = e.handler ∧ ∀ input, action ≠ .handler input
  dials : ∀ dial, e.handler = .atDial dial →
    (∀ exception, action ≠ .handler (.dialRaised exception)) → e'.handler = .atDial dial

section Edge

variable {cfg : Config} {e e' : EdgeOrchestrator} {action : EdgeAction} {call : Nat}
  {ctx ctx' : CallContext}

theorem CtxMoves.continues (moves : CtxMoves cfg e action call ctx ctx') : ctx.Continues ctx' := by
  cases moves with
  | kept _ same => exact same ▸ .refl ctx
  | created _ _ made => exact made ▸ ⟨rfl, rfl, id, id, id⟩
  | audioEnded _ ended => exact ended ▸ ⟨rfl, rfl, id, id, id⟩
  | turned _ turn => exact CallContext.pumpStep_continues turn

/-- An action that leaves the contexts and the map alone. -/
theorem goes_same (notPump : ∀ call input, action ≠ .pump call input)
    (contexts : e'.contexts = e.contexts) (calls : e'.calls = e.calls)
    (modem : e'.handler.dev = false) (calm : e'.stopping = .notCalled)
    (handler : e'.handler.dialling = true →
      e'.handler = e.handler ∧ ∀ input, action ≠ .handler input)
    (dials : ∀ dial, e.handler = .atDial dial →
      (∀ exception, action ≠ .handler (.dialRaised exception)) → e'.handler = .atDial dial) :
    Goes cfg e e' action where
  contexts := fun {call ctx'} at' => ⟨ctx', by simpa only [EdgeOrchestrator.At, contexts] using at',
    .kept (notPump call) rfl⟩
  stays := fun {call ctx} at_ => ⟨ctx, by simpa only [EdgeOrchestrator.At, contexts] using at_⟩
  calls := fun callId => .inl (by rw [calls])
  modem := modem
  calm := calm
  handler := handler
  dials := dials

/-- An action that writes one context back. -/
theorem goes_update (effects : List Effect) (at_ : e.At call ctx)
    (contexts : e'.contexts = (e.update call ctx' effects).contexts)
    (calls : e'.calls = (e.update call ctx' effects).calls)
    (own : ∀ other input, action = .pump other input → other = call)
    (moves : CtxMoves cfg e action call ctx ctx')
    (pops : .pop ∈ effects → Pops cfg e action ctx'.callId)
    (modem : e'.handler.dev = false) (calm : e'.stopping = .notCalled)
    (handler : e'.handler.dialling = true →
      e'.handler = e.handler ∧ ∀ input, action ≠ .handler input)
    (dials : ∀ dial, e.handler = .atDial dial →
      (∀ exception, action ≠ .handler (.dialRaised exception)) → e'.handler = .atDial dial) :
    Goes cfg e e' action := by
  have at' : ∀ {other found}, e'.At other found ↔
      other = call ∧ found = ctx' ∨ other ≠ call ∧ e.At other found := by
    intro other found
    rw [EdgeOrchestrator.At, contexts]
    exact EdgeOrchestrator.update_at effects at_
  refine ⟨fun {other found} got => ?_, fun {other found} got => ?_, fun callId => ?_, modem, calm,
    handler, dials⟩
  · rcases at'.mp got with ⟨rfl, rfl⟩ | ⟨ne, old⟩
    · exact ⟨ctx, at_, moves⟩
    · exact ⟨found, old, .kept (fun input is => ne (own other input is)) rfl⟩
  · by_cases same : other = call
    · exact ⟨ctx', at'.mpr (.inl ⟨same, rfl⟩)⟩
    · exact ⟨found, at'.mpr (.inr ⟨same, got⟩)⟩
  · rw [calls, EdgeOrchestrator.update_lookup]
    split
    · rename_i popped
      exact .inr ⟨rfl, popped.2 ▸ pops popped.1⟩
    · exact .inl rfl

/-- `_on_dial` goes on with its dial only when the callback is resumed. -/
theorem Goes.dialling (goes : Goes cfg e e' action) (held : e'.handler.dialling = true) :
    e.handler = e'.handler ∧ ∀ input, action ≠ .handler input :=
  ⟨(goes.handler held).1.symm, (goes.handler held).2⟩

theorem goes_of_step (modem : cfg.devNoModem = false) (handler : e.handler.dev = false)
    (calm : e.stopping = .notCalled) (notStop : action ≠ .stop)
    (notAccept : ∀ number, action ≠ .handler (.dialReturned number))
    (silent : ∀ dial, e'.log ≠ e.log ++ [.atDial dial])
    (next : e.step cfg action = some e') : Goes cfg e e' action := by
  have mode : ¬ cfg.devNoModem = true := by simp [modem]
  have absurd_dev : ∀ {held : Handler}, e.handler = held → held.dev = true → False := by
    rintro held rfl dev
    rw [handler] at dev
    cases dev
  cases action with
  | start =>
      simp only [EdgeOrchestrator.step] at next
      split at next
      · cases next
      · obtain rfl := Option.some.inj next
        exact goes_same (fun _ _ is => by cases is) rfl rfl handler calm
          (fun _ => ⟨rfl, fun _ is => by cases is⟩) fun _ held _ => held
  | message message =>
      cases message with
      | dial dial =>
          simp only [EdgeOrchestrator.step] at next
          split at next
          · rename_i ready
            obtain rfl := Option.some.inj next
            rw [EdgeOrchestrator.onDial] at silent ⊢
            split
            · exact goes_same (fun _ _ is => by cases is) rfl rfl rfl calm (fun is => by cases is)
                fun _ held _ => by rw [ready.2] at held; cases held
            · rename_i fresh
              rw [if_neg fresh, if_neg mode] at silent
              exact absurd rfl (silent dial)
          · cases next
      | cancel callId =>
          simp only [EdgeOrchestrator.step] at next
          split at next
          · rename_i ready
            obtain rfl := Option.some.inj next
            have idle : ∀ {held : Handler}, e.handler = held → held ≠ .idle → False :=
              fun is busy => busy (is.symm.trans ready.2)
            unfold EdgeOrchestrator.onCancel
            split
            · exact goes_same (fun _ _ is => by cases is) rfl rfl handler calm
                (fun _ => ⟨rfl, fun _ is => by cases is⟩) fun _ held _ => held
            · rename_i call ctx found
              rw [if_neg mode]
              exact goes_update [.atHangup] (EdgeOrchestrator.of_find found).2 rfl rfl
                (fun _ _ is => by cases is) (.kept (fun _ is => by cases is) rfl)
                (fun popped => by simp at popped) rfl calm (fun is => by cases is)
                fun _ held _ => (idle held (by simp)).elim
          · cases next
  | handler input =>
      have waits : ∀ dial, e.handler = .atDial dial →
          (∀ exception, EdgeAction.handler input ≠ .handler (.dialRaised exception)) → False := by
        intro dial held other
        have next : e.resumeHandler cfg input = some e' := next
        cases input <;> simp [EdgeOrchestrator.resumeHandler, held, Handler.call?] at next
        · exact notAccept _ rfl
        · exact other _ rfl
      cases EdgeOrchestrator.step_cases next with
      | settled =>
          exact goes_same (fun _ _ is => by cases is) rfl rfl rfl calm (fun is => by cases is)
            fun dial held other => (waits dial held other).elim
      | dialReturned number => exact absurd rfl (notAccept number)
      | dialRaised exception =>
          exact goes_same (fun _ _ is => by cases is) rfl rfl rfl calm (fun is => by cases is)
            fun dial held other => (waits dial held other).elim
      | accepted held at_ =>
          exact goes_update [] at_ rfl rfl (fun _ _ is => by cases is) (.created rfl held rfl)
            (fun popped => by cases popped) rfl calm (fun is => by cases is)
            fun dial held other => (waits dial held other).elim
      | devHangup _ _ _ dev =>
          rcases dev with dev | held
          · exact absurd dev mode
          · exact (absurd_dev held rfl).elim
      | devConnected held | devSession held | devJoined _ held | devPopped held | devTornDown held =>
          exact (absurd_dev held rfl).elim
  | pump number input =>
      obtain ⟨ctx, at_, moved⟩ := Option.bind_eq_some_iff.mp next
      obtain ⟨⟨ctx', effects⟩, turn, rfl⟩ := Option.map_eq_some_iff.mp moved
      exact goes_update effects at_ rfl rfl (fun _ _ is => by cases is; rfl) (.turned rfl turn)
        (fun popped => ⟨number, ctx, ctx', input, effects, rfl, at_, turn, popped, rfl⟩) handler calm
        (fun _ => ⟨rfl, fun _ is => by cases is⟩) fun _ held _ => held
  | audioEnd number =>
      obtain ⟨ctx, at_, moved⟩ := Option.bind_eq_some_iff.mp next
      split at moved
      · obtain rfl := Option.some.inj moved
        exact goes_update [] at_ rfl rfl (fun _ _ is => by cases is) (.audioEnded rfl rfl)
          (fun popped => by cases popped) handler calm (fun _ => ⟨rfl, fun _ is => by cases is⟩)
          fun _ held _ => held
      · cases moved
  | stop => exact absurd rfl notStop
  | stopResume =>
      have next : e.resumeStop = some e' := next
      rw [EdgeOrchestrator.resumeStop, calm] at next
      cases next

end Edge

/-! ## A turn of the orchestrator -/

namespace EdgeStation

/-- The client is asked for hang-ups alone. -/
def Hung (m m' : SerialAtClient) : Prop :=
  Relation.ReflTransGen (fun m m' => ∃ number, m' = m.hangup number) m m'

theorem Hung.onward {m m' : SerialAtClient} (hung : Hung m m') (healthy : Healthy m) :
    Healthy m' ∧ Still m m' := by
  induction hung with
  | refl => exact ⟨healthy, Still.refl m⟩
  | @tail m₁ m₂ _ last ih =>
      obtain ⟨number, rfl⟩ := last
      have next : m₁.step (.hangup number) = some (m₁.hangup number) := rfl
      exact ⟨ih.1.step next (by simp), ih.2.trans (still_hangup ih.1 number)⟩

/-- What a turn of the orchestrator does to the station. -/
inductive Turns (cfg : Config) (s t : EdgeStation) : EdgeAction → Prop
  | dials {dial : DialCommand} (free : s.edge.handler = .idle)
      (fresh : s.edge.inCalls dial.callId = false)
      (edge : t.edge = { s.edge.record (.atDial dial) with handler := .atDial dial })
      (modem : t.modem = s.modem.dial dial.number.toList)
      (dialling : t.dialling =
        if s.modem.active.isSome then none else some s.modem.calls.length)
      (unacked : t.unacked = s.unacked) : Turns cfg s t (.message (.dial dial))
  | goes {action : EdgeAction} (edge : s.edge.step cfg action = some t.edge)
      (silent : ∀ dial, t.edge.log ≠ s.edge.log ++ [.atDial dial])
      (hung : Hung s.modem t.modem) (dialling : t.dialling = s.dialling)
      (unacked : t.unacked = s.unacked ++ s.edge.unackedBy action) : Turns cfg s t action

variable {cfg : Config} {s t u : EdgeStation} {action : EdgeAction}

/-- Log entries without an `at.dial`. -/
theorem ask_hangups (entries : List LogEntry) (silent : ∀ dial, .atDial dial ∉ entries)
    (s : EdgeStation) :
    (entries.foldl ask s).edge = s.edge ∧ (entries.foldl ask s).dialling = s.dialling ∧
      (entries.foldl ask s).unacked = s.unacked ∧ Hung s.modem (entries.foldl ask s).modem := by
  induction entries generalizing s with
  | nil => exact ⟨rfl, rfl, rfl, Relation.ReflTransGen.refl⟩
  | cons entry rest ih =>
      have rest_silent : ∀ dial, .atDial dial ∉ rest :=
        fun dial listed => silent dial (List.mem_cons_of_mem _ listed)
      obtain ⟨edge, dialling, unacked, hung⟩ := ih rest_silent (s.ask entry)
      rw [List.foldl_cons]
      cases entry with
      | atDial dial => exact absurd List.mem_cons_self (silent dial)
      | send | stopReturned => exact ⟨edge, dialling, unacked, hung⟩
      | atHangup call number =>
          cases number with
          | none => exact ⟨edge, dialling, unacked, hung⟩
          | some number =>
              exact ⟨edge, dialling, unacked, Relation.ReflTransGen.head ⟨number, rfl⟩ hung⟩

theorem turn_cases (next : s.turn cfg action = some t) : s.Turns cfg t action := by
  obtain ⟨edge, stepped, rfl⟩ := Option.map_eq_some_iff.mp next
  obtain ⟨more, log, dials⟩ := EdgeOrchestrator.step_log stepped
  have entries : edge.log.drop s.edge.log.length = more := by rw [log, List.drop_left]
  rw [entries]
  by_cases calls : ∃ dial, .atDial dial ∈ more
  · obtain ⟨dial, listed⟩ := calls
    obtain ⟨rfl, rfl, fresh, mode⟩ := dials dial listed
    simp only [EdgeOrchestrator.step] at stepped
    split at stepped
    · rename_i ready
      obtain rfl := Option.some.inj stepped
      refine .dials ready.2 fresh ?_ rfl rfl (List.append_nil _)
      simp [ask, EdgeOrchestrator.onDial, fresh, mode]
    · cases stepped
  · obtain ⟨same, dialling, unacked, hung⟩ := ask_hangups more
      (fun dial listed => calls ⟨dial, listed⟩)
      { s with edge := edge, unacked := s.unacked ++ s.edge.unackedBy action }
    refine .goes (same ▸ stepped) (fun dial is => calls ⟨dial, ?_⟩) hung dialling unacked
    rw [same, log] at is
    rw [List.append_cancel_left is]
    exact List.mem_singleton_self _

/-! ## How the two sides stand -/

structure Linked (s : EdgeStation) : Prop where
  client : Healthy s.modem
  modem : s.edge.handler.dev = false
  calm : s.edge.stopping = .notCalled
  running : ∀ {call ctx}, s.edge.At call ctx → ctx.pumpCancelled = false
  /-- a context refers to a call whose `dial` returned -/
  bound : ∀ {call ctx}, s.edge.At call ctx → ∃ number c, ctx.modemCallId = some number ∧
    s.modem.CallAt number c ∧ c.dial = .returned
  apart : ∀ {call other ctx found number}, s.edge.At call ctx → s.edge.At other found →
    ctx.modemCallId = some number → found.modemCallId = some number → call = other
  dialling : ∀ {number}, s.dialling = some number → (∃ dial, s.edge.handler = .atDial dial) ∧
    (∃ c, s.modem.CallAt number c ∧ Dialled s.modem number c) ∧
    ∀ {call ctx}, s.edge.At call ctx → ctx.modemCallId ≠ some number

variable {call number : Nat} {ctx ctx' : CallContext} {c : Call} {m : SerialAtClient}

theorem linked_init : Linked {} where
  client := healthy_init
  modem := rfl
  calm := rfl
  running := fun at_ => by simp [EdgeOrchestrator.At] at at_
  bound := fun at_ => by simp [EdgeOrchestrator.At] at at_
  apart := fun at_ => by simp [EdgeOrchestrator.At] at at_
  dialling := fun is => by cases is

/-- The action neither stops the orchestrator nor ends an `at.dial` in progress. -/
structure Plain (s : EdgeStation) (action : EdgeAction) : Prop where
  notStop : action ≠ .stop
  notAccept : ∀ number, action ≠ .handler (.dialReturned number)
  raised : ∀ exception, action = .handler (.dialRaised exception) → s.dialling = none

theorem plain_pump {input : PumpInput} : s.Plain (.pump call input) := ⟨by simp, by simp, by simp⟩

theorem plain_raised (none_ : s.dialling = none) (exception : String) :
    s.Plain (.handler (.dialRaised exception)) := ⟨by simp, by simp, fun _ _ => none_⟩

theorem Plain.goes (plain : s.Plain action) (modem : cfg.devNoModem = false) (linked : s.Linked)
    (silent : ∀ dial, t.edge.log ≠ s.edge.log ++ [.atDial dial])
    (edge : s.edge.step cfg action = some t.edge) : Goes cfg s.edge t.edge action :=
  goes_of_step modem linked.modem linked.calm plain.notStop plain.notAccept silent edge

/-- A turn of the orchestrator. -/
theorem linked_turn (modem : cfg.devNoModem = false) (linked : s.Linked) (plain : s.Plain action)
    (next : s.turn cfg action = some t) : t.Linked := by
  cases turn_cases next with
  | @dials dial free fresh edge client dialling unacked =>
      have at' : ∀ {call ctx}, t.edge.At call ctx ↔ s.edge.At call ctx := by
        intro call ctx
        rw [edge]
        exact Iff.rfl
      have idle : s.dialling = none := by
        cases is : s.dialling with
        | none => rfl
        | some number =>
            obtain ⟨⟨dial, held⟩, -⟩ := linked.dialling is
            rw [free] at held
            cases held
      have healthy : Healthy t.modem := by
        rw [client]
        exact linked.client.step
          (show s.modem.step (.dial dial.number.toList) = some _ from rfl) (by simp)
      refine ⟨healthy, by rw [edge]; rfl, by rw [edge]; exact linked.calm,
        fun at_ => linked.running (at'.mp at_), fun at_ => ?_,
        fun at_ got => linked.apart (at'.mp at_) (at'.mp got), fun {number} is => ?_⟩
      · obtain ⟨number, c, own, known, returned⟩ := linked.bound (at'.mp at_)
        obtain ⟨c', known', returned', -⟩ := dial_keeps linked.client dial.number.toList known
        exact ⟨number, c', own, client ▸ known', returned'.trans returned⟩
      · rw [dialling] at is
        split at is
        · cases is
        · rename_i free
          have free : s.modem.active = none := by simpa using free
          obtain rfl := Option.some.inj is
          refine ⟨⟨dial, by rw [edge]⟩, by rw [client]; exact dial_dialled linked.client free _,
            fun {call ctx} at_ own => ?_⟩
          obtain ⟨number, c, own', known, -⟩ := linked.bound (at'.mp at_)
          obtain rfl := Option.some.inj (own.symm.trans own')
          exact absurd (List.getElem?_eq_some_iff.mp known).1 (Nat.lt_irrefl _)
  | goes edge silent hung dialling unacked =>
      have goes := plain.goes modem linked silent edge
      obtain ⟨healthy, still⟩ := hung.onward linked.client
      have bound : ∀ {call ctx'}, t.edge.At call ctx' →
          ∃ ctx, s.edge.At call ctx ∧ ctx'.modemCallId = ctx.modemCallId ∧
            (ctx'.pumpCancelled = true → ctx.pumpCancelled = true) := by
        intro call ctx' at'
        obtain ⟨ctx, at_, moves⟩ := goes.contexts at'
        exact ⟨ctx, at_, moves.continues.modemCallId, moves.continues.pumpCancelled⟩
      refine ⟨healthy, goes.modem, goes.calm, fun {call ctx'} at' => ?_, fun {call ctx'} at' => ?_,
        fun {call other ctx' found' number} at' got' own own' => ?_, fun {number} is => ?_⟩
      · obtain ⟨ctx, at_, -, cancelled⟩ := bound at'
        have running := linked.running at_
        cases flag : ctx'.pumpCancelled with
        | false => rfl
        | true =>
            rw [cancelled flag] at running
            cases running
      · obtain ⟨ctx, at_, same, -⟩ := bound at'
        obtain ⟨number, c, own, here, returned⟩ := linked.bound at_
        obtain ⟨c', here', dial, -⟩ := still.calls here
        exact ⟨number, c', same.trans own, here', dial.trans returned⟩
      · obtain ⟨ctx, at_, same, -⟩ := bound at'
        obtain ⟨found, got, same', -⟩ := bound got'
        exact linked.apart at_ got (same ▸ own) (same' ▸ own')
      · rw [dialling] at is
        obtain ⟨⟨dial, held⟩, ⟨c, here, dialled⟩, others⟩ := linked.dialling is
        refine ⟨⟨dial, goes.dials dial held fun exception raises => ?_⟩,
          still.dialled here dialled, ?_⟩
        · rw [plain.raised exception raises] at is
          cases is
        · intro call ctx' at'
          obtain ⟨ctx, at_, same, -⟩ := bound at'
          rw [same]
          exact others at_

/-! ### `at.dial` returns -/

/-- `_on_dial` registers the call that its `dial` returned. -/
structure Accepts (s t : EdgeStation) (number : Nat) : Prop where
  edge : ∃ dial, s.edge.handler = .atDial dial ∧ t.edge =
    { s.edge.accept dial (some number) with handler := .acceptAck s.edge.contexts.length }
  hung : Hung s.modem t.modem
  dialling : t.dialling = none
  unacked : t.unacked = s.unacked

theorem accepts_of_turn
    (next : { s with dialling := none }.turn cfg (.handler (.dialReturned number)) = some t) :
    s.Accepts t number := by
  cases turn_cases next with
  | goes edge silent hung dialling unacked =>
      have edge : s.edge.resumeHandler cfg (.dialReturned number) = some t.edge := edge
      refine ⟨?_, hung, dialling, by rw [unacked]; exact List.append_nil _⟩
      cases held : s.edge.handler with
      | atDial dial =>
          simp only [EdgeOrchestrator.resumeHandler, held, Handler.call?] at edge
          exact ⟨dial, rfl, (Option.some.inj edge).symm⟩
      | _ =>
          simp [EdgeOrchestrator.resumeHandler, held, Handler.call?,
            EdgeOrchestrator.resumeCall] at edge

/-- The call registered is the only new one. -/
theorem at_accepted {dial : DialCommand} (edge : t.edge =
      { s.edge.accept dial (some number) with handler := .acceptAck s.edge.contexts.length })
    {call : Nat} {ctx : CallContext} :
    t.edge.At call ctx ↔ s.edge.At call ctx ∨
      call = s.edge.contexts.length ∧ ctx = { dial := dial, modemCallId := some number } := by
  rw [edge]
  exact EdgeOrchestrator.accept_at

/-- Where `_on_dial` is after a step that may have ended its `at.dial`. -/
inductive Resumes (cfg : Config) (s t : EdgeStation) : Prop
  | waits (same : t = s)
  | raises (none_ : s.dialling = none)
      (turn : s.turn cfg (.handler (.dialRaised "RuntimeError")) = some t)
  | accepts {number : Nat} {c : Call} (dials : s.dialling = some number)
      (at_ : s.modem.CallAt number c) (returned : c.dial = .returned) (accepts : s.Accepts t number)

theorem resumeDial_cases (next : s.resumeDial cfg = some t) : s.Resumes cfg t := by
  unfold resumeDial at next
  split at next
  · rename_i none_
    exact .raises none_ next
  · rename_i number dials
    split at next
    · rename_i returned
      obtain ⟨c, at_, returned⟩ := (Option.any_eq_true _ _).mp returned
      exact .accepts dials at_ (by simpa using returned) (accepts_of_turn next)
    · exact .waits (Option.some.inj next).symm
  · exact .waits (Option.some.inj next).symm

theorem linked_accepts (linked : s.Linked) (dials : s.dialling = some number)
    (known : s.modem.CallAt number c) (returned : c.dial = .returned)
    (accepts : s.Accepts t number) : t.Linked := by
  obtain ⟨⟨dial, held, edge⟩, hung, dialling, -⟩ := accepts
  obtain ⟨healthy, still⟩ := hung.onward linked.client
  obtain ⟨-, -, others⟩ := linked.dialling dials
  have at' := @at_accepted _ _ _ _ edge
  refine ⟨healthy, by rw [edge]; rfl, by rw [edge]; exact linked.calm, fun {call ctx} at_ => ?_,
    fun {call ctx} at_ => ?_, fun {call other ctx found k} at_ got own own' => ?_,
    fun {number} is => by rw [dialling] at is; cases is⟩
  · rcases at'.mp at_ with old | ⟨-, rfl⟩
    · exact linked.running old
    · rfl
  · rcases at'.mp at_ with old | ⟨-, rfl⟩
    · obtain ⟨k, c, own, here, returned⟩ := linked.bound old
      obtain ⟨c', here', dial, -⟩ := still.calls here
      exact ⟨k, c', own, here', dial.trans returned⟩
    · obtain ⟨c', known', dial, -⟩ := still.calls known
      exact ⟨number, c', rfl, known', dial.trans returned⟩
  · rcases at'.mp at_ with old | ⟨rfl, rfl⟩
    · rcases at'.mp got with old' | ⟨rfl, rfl⟩
      · exact linked.apart old old' own own'
      · obtain rfl := Option.some.inj own'
        exact absurd own (others old)
    · obtain rfl := Option.some.inj own
      rcases at'.mp got with old' | ⟨rfl, -⟩
      · exact absurd own' (others old')
      · rfl

theorem linked_resumes (modem : cfg.devNoModem = false) (linked : s.Linked)
    (resumes : s.Resumes cfg t) : t.Linked := by
  cases resumes with
  | waits same => exact same ▸ linked
  | raises none_ turn =>
      exact linked_turn modem linked (plain_raised none_ _) turn
  | accepts dials at_ returned accepts => exact linked_accepts linked dials at_ returned accepts

/-! ### The AT client moves -/

/-- What may happen on the client without the orchestrator: no `dial` is begun or
cancelled, the client is not closed, and the stream that moves is not that of a
`dial` in progress. -/
structure Apart (s : EdgeStation) (action : SerialAction) : Prop where
  notDial : ∀ text, action ≠ .dial text
  unclosed : action ≠ .aclose
  uncut : ∀ id, action = .serial (.cancel id) → s.modem.isDial id = false
  stream : ∀ number, s.dialling = some number → action.stream? ≠ some number

theorem linked_modem {action : SerialAction} (linked : s.Linked) (apart : s.Apart action)
    (next : s.modem.step action = some m) : Linked { s with modem := m } where
  client := linked.client.step next apart.unclosed
  modem := linked.modem
  calm := linked.calm
  running := linked.running
  bound := fun at_ => by
    obtain ⟨number, c, own, known, returned⟩ := linked.bound at_
    obtain ⟨c', known', returned'⟩ :=
      SerialAtClient.returned_stays linked.client.wired next known returned
    exact ⟨number, c', own, known', returned'⟩
  apart := linked.apart
  dialling := fun {number} dials => by
    obtain ⟨held, ⟨c, known, dialled⟩, others⟩ := linked.dialling dials
    refine ⟨held, ?_, others⟩
    obtain ⟨c', known', ⟨dial, stream⟩ | ⟨waits, returned, fresh⟩⟩ :=
      SerialAtClient.call_other linked.client.wired next (apart.stream number dials) apart.uncut known
    · refine ⟨c', known', dialled.imp dial.trans fun ⟨returned, how⟩ => ⟨dial.trans returned, ?_⟩⟩
      rw [stream]
      refine how.imp_right fun ⟨single, free⟩ => ⟨single, fun active => ?_⟩
      rcases SerialAtClient.active_of_step next active with before | ⟨⟨text, is⟩, -⟩
      · exact free before
      · exact apart.notDial text is
    · refine ⟨c', known', .inr ⟨returned, fresh.imp_right fun ⟨⟨cause, single⟩, gone⟩ => ?_⟩⟩
      exact ⟨⟨_, single⟩, by rw [gone]; simp⟩

/-! ## The inversion -/

/-- `stop` is not called. -/
def NoStop (_ : EdgeStation) : StationAction → Prop
  | .edge .stop => False
  | _ => True

instance (s : EdgeStation) (action : StationAction) : Decidable (s.NoStop action) := by
  unfold NoStop
  split <;> infer_instance

theorem plain_of (noStop : s.NoStop (.edge action))
    (notDial : ∀ input, action = .handler input → input.ofDial = false) : s.Plain action := by
  constructor
  · rintro rfl
    exact noStop
  · rintro number rfl
    cases notDial _ rfl
  · rintro exception rfl
    cases notDial _ rfl

/-- The stream of a pump has gone on, and perhaps the pump. -/
inductive Iterates (cfg : Config) (s t : EdgeStation) (call number : Nat)
    (action : SerialAction) : Prop
  | waits {m : SerialAtClient} (next : s.modem.step action = some m)
      (none_ : handed (StreamLog.stream s.modem number) (StreamLog.stream m number) = none)
      (same : t = { s with modem := m })
  | hands {m : SerialAtClient} {input : PumpInput} (next : s.modem.step action = some m)
      (some_ : handed (StreamLog.stream s.modem number) (StreamLog.stream m number) = some input)
      (turn : { s with modem := m }.turn cfg (.pump call input) = some t)

/-- What one step can do while `stop` is not called. -/
inductive Moves (cfg : Config) (s t : EdgeStation) : StationAction → Prop
  | turned {u : EdgeStation} {action : EdgeAction} (notPump : ∀ call input, action ≠ .pump call input)
      (notDial : ∀ input, action = .handler input → input.ofDial = false)
      (turn : s.turn cfg action = some u) (resumes : u.Resumes cfg t) : Moves cfg s t (.edge action)
  | pumped {call : Nat} {input : PumpInput} (own : input.ofStream = false)
      (turn : s.turn cfg (.pump call input) = some t) (isOver : t.iterated call = none) :
      Moves cfg s t (.edge (.pump call input))
  | asked {u : EdgeStation} {call number : Nat} {input : PumpInput} (own : input.ofStream = false)
      (turn : s.turn cfg (.pump call input) = some u) (asks : u.iterated call = some number)
      (iterates : u.Iterates cfg t call number (.next number)) :
      Moves cfg s t (.edge (.pump call input))
  | delivered {call number : Nat} (asks : s.iterated call = some number)
      (iterates : s.Iterates cfg t call number (.wake number)) : Moves cfg s t (.deliver call)
  | client {m : SerialAtClient} {action : SerialAction} (may : s.mayModem action = true)
      (next : s.modem.step action = some m) (resumes : { s with modem := m }.Resumes cfg t) :
      Moves cfg s t (.modem action)

theorem iterated_iff : s.iterated call = some number ↔
    ∃ ctx, s.edge.At call ctx ∧ ctx.pump = .nextEvent ∧ ctx.modemCallId = some number := by
  rw [iterated, Option.bind_eq_some_iff]
  constructor
  · rintro ⟨ctx, at_, own⟩
    split at own
    · rename_i asks
      exact ⟨ctx, at_, asks, own⟩
    · cases own
  · rintro ⟨ctx, at_, asks, own⟩
    exact ⟨ctx, at_, by rw [if_pos asks]; exact own⟩

theorem iterate_cases {action : SerialAction} (next : s.iterate cfg call number action = some t) :
    s.Iterates cfg t call number action := by
  obtain ⟨m, stepped, moved⟩ := Option.bind_eq_some_iff.mp next
  split at moved
  · rename_i input some_
    exact .hands stepped some_ moved
  · rename_i none_
    exact .waits stepped none_ (Option.some.inj moved).symm

/-- A pump that is not cancelled takes no `CancelledError`. -/
theorem running_turn {e : EdgeOrchestrator} {input : PumpInput} (linked : s.Linked)
    (next : s.edge.step cfg (.pump call input) = some e) : input ≠ .cancelled := by
  rintro rfl
  obtain ⟨ctx, at_, moved⟩ := Option.bind_eq_some_iff.mp next
  obtain ⟨_, turn, -⟩ := Option.map_eq_some_iff.mp moved
  obtain ⟨-, ⟨-, ran⟩ | ⟨cancelled, -⟩⟩ := CallContext.pumpStep_cases turn
  · unfold CallContext.runPump at ran
    split at ran <;> contradiction
  · rw [linked.running at_] at cancelled
    cases cancelled

theorem cut_edge {input : PumpInput} (cut : s.cut call input = some t) : t.edge = s.edge := by
  unfold EdgeStation.cut at cut
  split at cut
  · split at cut
    · obtain ⟨m, -, rfl⟩ := Option.map_eq_some_iff.mp cut
      rfl
    · rw [← Option.some.inj cut]
  · rw [← Option.some.inj cut]

theorem cut_unacked {input : PumpInput} (cut : s.cut call input = some t) :
    t.unacked = s.unacked := by
  unfold EdgeStation.cut at cut
  split at cut
  · split at cut
    · obtain ⟨m, -, rfl⟩ := Option.map_eq_some_iff.mp cut
      rfl
    · rw [← Option.some.inj cut]
  · rw [← Option.some.inj cut]

/-- **The inversion** of a step of the station. -/
theorem step_cases {action : StationAction} (linked : s.Linked)
    (next : s.step cfg action = some t) : s.Moves cfg t action := by
  unfold step at next
  split at next
  · rename_i call input
    split at next
    · cases next
    · rename_i own
      obtain ⟨v, cut, moved⟩ := Option.bind_eq_some_iff.mp next
      obtain ⟨u, turn, pulled⟩ := Option.bind_eq_some_iff.mp moved
      -- no pump is cancelled, so no stream is closed before the turn
      have uncut : input ≠ .cancelled := by
        obtain ⟨e, stepped, -⟩ := Option.map_eq_some_iff.mp turn
        rw [cut_edge cut] at stepped
        exact running_turn linked stepped
      obtain rfl : s = v := by
        unfold EdgeStation.cut at cut
        split at cut
        · exact absurd rfl uncut
        · exact Option.some.inj cut
      unfold pull at pulled
      split at pulled
      · rename_i number asks
        exact .asked (by simpa using own) turn asks (iterate_cases pulled)
      · rename_i isOver
        obtain rfl := Option.some.inj pulled
        exact .pumped (by simpa using own) turn isOver
  · rename_i input
    split at next
    · cases next
    · rename_i own
      exact .turned (by simp) (fun _ is => by cases is; simpa using own) next (.waits rfl)
  · rename_i action notPump notHandler
    obtain ⟨u, turn, resumed⟩ := Option.bind_eq_some_iff.mp next
    exact .turned (fun call input is => notPump call input is)
      (fun input is => absurd is (notHandler input)) turn (resumeDial_cases resumed)
  · rename_i call
    obtain ⟨number, asks, moved⟩ := Option.bind_eq_some_iff.mp next
    exact .delivered asks (iterate_cases moved)
  · rename_i action
    split at next
    · rename_i may
      obtain ⟨m, stepped, resumed⟩ := Option.bind_eq_some_iff.mp next
      exact .client may stepped (resumeDial_cases resumed)
    · cases next

/-! ## The step -/

theorem apart_of_iterated {action : SerialAction} (linked : s.Linked)
    (asks : s.iterated call = some number) (stream : action.stream? = some number)
    (notDial : ∀ text, action ≠ .dial text) (unclosed : action ≠ .aclose)
    (uncut : ∀ id, action ≠ .serial (.cancel id)) : s.Apart action where
  notDial := notDial
  unclosed := unclosed
  uncut := fun id is => absurd is (uncut id)
  stream := fun other dials moves => by
    obtain ⟨ctx, at_, -, own⟩ := iterated_iff.mp asks
    obtain rfl := Option.some.inj (stream.symm.trans moves)
    exact (linked.dialling dials).2.2 at_ own

theorem apart_of_may {action : SerialAction} (may : s.mayModem action = true) :
    s.Apart action := by
  unfold mayModem at may
  split at may
  case h_2 id =>
    refine ⟨by simp, by simp, fun other is => ?_, by simp [SerialAction.stream?]⟩
    cases is
    simpa using may
  case h_3 serial notCancel =>
    refine ⟨by simp, by simp, fun id is => ?_, by simp [SerialAction.stream?]⟩
    exact (notCancel id (SerialAction.serial.inj is)).elim
  case h_9 number =>
    refine ⟨by simp, by simp, (fun id is => by cases is), fun other dials moves => ?_⟩
    obtain rfl := Option.some.inj moves
    simp [referred, dials] at may
  case h_10 => cases may
  all_goals exact ⟨by simp, by simp, by simp, by simp [SerialAction.stream?]⟩

theorem linked_iterates {action : SerialAction} (modem : cfg.devNoModem = false)
    (linked : s.Linked) (apart : s.Apart action)
    (iterates : s.Iterates cfg t call number action) : t.Linked := by
  cases iterates with
  | waits next _ same => exact same ▸ linked_modem linked apart next
  | hands next _ turn =>
      exact linked_turn modem (linked_modem linked apart next) plain_pump turn

/-- **One step** keeps the two sides linked. -/
theorem linked_step {action : StationAction} (modem : cfg.devNoModem = false) (linked : s.Linked)
    (noStop : s.NoStop action) (next : s.step cfg action = some t) : t.Linked := by
  cases step_cases linked next with
  | @turned u action notPump notDial turn resumes =>
      exact linked_resumes modem (linked_turn modem linked (plain_of noStop notDial) turn) resumes
  | pumped own turn => exact linked_turn modem linked plain_pump turn
  | asked own turn asks iterates =>
      have turned := linked_turn modem linked plain_pump turn
      exact linked_iterates modem turned
        (apart_of_iterated turned asks rfl (by simp) (by simp) (by simp)) iterates
  | delivered asks iterates =>
      exact linked_iterates modem linked
        (apart_of_iterated linked asks rfl (by simp) (by simp) (by simp)) iterates
  | client may stepped resumes =>
      exact linked_resumes modem (linked_modem linked (apart_of_may may) stepped) resumes

end EdgeStation

end IsalesTelephony.Edge
