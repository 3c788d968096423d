/-
# Edge.PcmPairing -- cpcmreg_enable and cpcmreg_disable come in pairs

`teardown` sends CPCMREG=0 behind a flag that `_handle_connected` sets once
CPCMREG=1 has succeeded, and it clears the flag before the command.  A teardown is
run by the pump of the call or by `stop`; both may run one on the same context,
but the one of `stop` first waits for the pump, so the two never overlap past
their first await.

`PcmLog` keeps, beside the orchestrator, the teardowns that run and those that
returned, the connected events, and the bridges built and left.  `Books` is what
holds of one context at every await, and `Winds` what a stretch of teardown does
to it.

The flag pairs the two commands as long as it is set once.  After a failed join
the pump reads on, and a second connected event would set it again on a context
that was torn down (`second_connected_disables_twice`).  The modem reports a call
connected at most once (`OneConnected`), and then every teardown leaves the
commands paired (`cpcmreg_paired`).
-/
import IsalesTelephony.Edge.OffHook
import IsalesTelephony.Edge.StopFinal

namespace IsalesTelephony.Edge

set_option autoImplicit false

open IsalesTelephony.Theory IsalesTelephony.Theory.Transition

/-! ## The teardowns of a run -/

/-- One run of `teardown` on the context of a call. -/
structure TeardownRun where
  call : Nat
  /-- run by the pump of the call, or else by `stop` -/
  byPump : Bool
  /-- cpcmreg_enable had returned to `_handle_connected` before it began -/
  enabled : Bool
  deriving DecidableEq, Repr

def TeardownRun.isOf (r : TeardownRun) (call : Nat) (byPump : Bool) : Bool :=
  r.call = call && r.byPump = byPump

inductive TeardownMark where
  | began (teardown : TeardownRun)
  /-- it returned; how often cpcmreg_disable had been called for the call by then -/
  | returned (call : Nat) (byPump : Bool) (disables : Nat)
  /-- `CancelledError` left it -/
  | abandoned (call : Nat) (byPump : Bool)
  deriving DecidableEq, Repr

def PumpPc.tearing : PumpPc → Bool
  | .teardown _ _ => true
  | _ => false

/-- The pump is between a connected event and the return of cpcmreg_enable. -/
def PumpPc.enabling : PumpPc → Bool
  | .connectedSend => true
  | .cpcmregEnable => true
  | _ => false

/-- A stretch of teardown that returned. -/
def returnMark (call : Nat) (byPump : Bool) : Option (CallContext × Option Stage) →
    List TeardownMark
  | some (ctx, none) => [.returned call byPump ctx.disables]
  | _ => []

namespace CallContext

/-- The teardown the pump was in goes on. -/
def oldMarks (ctx : CallContext) (call : Nat) (input : PumpInput) : List TeardownMark :=
  match ctx.pump, input with
  | .teardown _ stage, .stageDone => returnMark call true (ctx.resumeTeardown true stage)
  | .teardown _ .tasks, .cancelled => returnMark call true (some ctx.afterTasks)
  | .teardown _ _, .cancelled => [.abandoned call true]
  | _, _ => []

/-- The pump begins a teardown when it pops its call. -/
def newMarks (call : Nat) (turn : PumpStep) : List TeardownMark :=
  if .pop ∈ turn.2 then
    .began ⟨call, true, 0 < turn.1.enables⟩ ::
      if turn.1.pump.tearing then [] else [.returned call true turn.1.disables]
  else []

/-- `_handle_connected` constructs an `AudioBridge`. -/
def builds (cfg : Config) (ctx : CallContext) : PumpInput → Bool
  | .enabled begin_ factory => !ctx.setupRaises cfg begin_ factory
  | _ => false

/-- `bridge.leave` finishes, or raises, in a teardown the pump runs. -/
def leavesBridge (ctx : CallContext) (input : PumpInput) : Bool :=
  match input, ctx.pump with
  | .stageDone, .teardown _ .bridgeLeave => true
  | _, _ => false

/-- The bridges the context refers to. -/
def bridges (ctx : CallContext) : Nat := if ctx.bridge = none then 0 else 1

end CallContext

namespace EdgeOrchestrator

/-- The teardowns of `stopNext`. -/
def stopMarks (s : EdgeOrchestrator) : List String → List TeardownMark
  | [] => []
  | callId :: rest =>
      match s.find callId with
      | none => stopMarks s rest
      | some (call, ctx) =>
          .began ⟨call, false, 0 < ctx.enables⟩ ::
            match ctx.beginTeardown false with
            | (_, some _) => []
            | (ctx, none) =>
                .returned call false ctx.disables :: stopMarks (s.update call ctx [.pop]) rest

/-- The teardowns of `resumeStop`. -/
def resumeMarks (s : EdgeOrchestrator) : List TeardownMark :=
  match s.stopping with
  | .teardown call stage rest =>
      match s.contexts[call]?.bind fun ctx => ctx.resumeTeardown false stage with
      | some (ctx, none) =>
          .returned call false ctx.disables :: (s.update call ctx []).stopMarks rest
      | _ => []
  | _ => []

/-- What an action does to the teardowns; in modem mode the message callback
runs none. -/
def marks (cfg : Config) (s : EdgeOrchestrator) : EdgeAction → List TeardownMark
  | .pump call input =>
      match s.contexts[call]? with
      | none => []
      | some ctx =>
          match ctx.pumpStep cfg (s.inCalls ctx.callId) input with
          | none => []
          | some turn => ctx.oldMarks call input ++ CallContext.newMarks call turn
  | .stop => s.stopMarks (s.calls.map (·.1))
  | .stopResume => s.resumeMarks
  | _ => []

/-- The call an action constructs an `AudioBridge` for. -/
def builtBy (cfg : Config) (s : EdgeOrchestrator) : EdgeAction → List Nat
  | .pump call input =>
      if s.contexts[call]?.any (·.builds cfg input) then [call] else []
  | _ => []

/-- The call whose bridge is left with an action. -/
def leftBy (s : EdgeOrchestrator) : EdgeAction → List Nat
  | .pump call input => if s.contexts[call]?.any (·.leavesBridge input) then [call] else []
  | .stopResume =>
      match s.stopping with
      | .teardown call .bridgeLeave _ => [call]
      | _ => []
  | _ => []

end EdgeOrchestrator

/-- The call an action delivers a connected event to. -/
def connectedBy : EdgeAction → List Nat
  | .pump call (.event .connected) => [call]
  | _ => []

/-- The teardowns of a run so far. -/
structure Teardowns where
  running : List TeardownRun := []
  /-- those that returned, and the calls of cpcmreg_disable for their call by then -/
  returned : List (TeardownRun × Nat) := []
  deriving DecidableEq, Repr

def Teardowns.mark (t : Teardowns) : TeardownMark → Teardowns
  | .began teardown => { t with running := t.running ++ [teardown] }
  | .returned call byPump disables =>
      { running := t.running.filter fun r => !r.isOf call byPump
        returned := t.returned ++ (t.running.filter (·.isOf call byPump)).map (·, disables) }
  | .abandoned call byPump =>
      { t with running := t.running.filter fun r => !r.isOf call byPump }

/-- The orchestrator with the history of its teardowns. -/
structure PcmLog where
  edge : EdgeOrchestrator := {}
  teardowns : Teardowns := {}
  /-- a call for each connected event, each bridge built and each bridge left -/
  connected : List Nat := []
  built : List Nat := []
  left : List Nat := []
  deriving DecidableEq, Repr

namespace PcmLog

def step (cfg : Config) (l : PcmLog) (action : EdgeAction) : Option PcmLog :=
  (l.edge.step cfg action).map fun edge =>
    { edge := edge
      teardowns := (l.edge.marks cfg action).foldl Teardowns.mark l.teardowns
      connected := l.connected ++ connectedBy action
      built := l.built ++ l.edge.builtBy cfg action
      left := l.left ++ l.edge.leftBy action }

/-- The modem reports a call connected once. -/
def OneConnected (l : PcmLog) : EdgeAction → Prop
  | .pump call (.event .connected) => call ∉ l.connected
  | _ => True

instance (l : PcmLog) (action : EdgeAction) : Decidable (l.OneConnected action) := by
  unfold OneConnected
  split <;> infer_instance

/-- What CPCMREG pairing asks. -/
structure Paired (l : PcmLog) : Prop where
  /-- a teardown returns with one disable for a call that was enabled, else with none -/
  returned : ∀ r disables, (r, disables) ∈ l.teardowns.returned →
    disables = if r.enabled then 1 else 0
  bounded : ∀ ctx ∈ l.edge.contexts, ctx.disables ≤ ctx.enables
  /-- when the disable is issued, every bridge of the call has been left -/
  afterLeave : ∀ call ctx, l.edge.At call ctx → 0 < ctx.disables →
    l.built.count call ≤ l.left.count call

end PcmLog

/-! ## The books of one context -/

namespace CallContext

/-- Disables and the flag add up to the enables, of which there is at most one;
a bridge belongs to an enabled call, and is gone when the disable is issued. -/
structure Books (ctx : CallContext) : Prop where
  session : ctx.rtcSession = none
  balance : ctx.disables + (if ctx.cpcmregEnabled then 1 else 0) = ctx.enables
  once : ctx.enables ≤ 1
  bridged : ctx.bridge ≠ none → 0 < ctx.enables
  dropped : 0 < ctx.disables → ctx.bridge = none

/-- What is so at an await of `teardown`. -/
def Staged (ctx : CallContext) : Stage → Prop
  | .tasks => True
  | .bridgeLeave => ctx.bridge ≠ none
  -- the modem path stashes no RTC session
  | .rtcLeave => False
  | .cpcmregDisable => ctx.cpcmregEnabled = false

/-- A stretch of teardown: to an await, or to its return. -/
structure Winds (ctx ctx' : CallContext) (next : Option Stage) : Prop where
  books : ctx'.Books
  enables : ctx'.enables = ctx.enables
  staged : ∀ stage, next = some stage → ctx'.Staged stage
  ended : next = none → ctx'.cpcmregEnabled = false

variable {cfg : Config} {ctx ctx' : CallContext} {next : Option Stage} {byPump inCalls : Bool}
  {via : Via}

/-- A teardown that returns has paired the commands. -/
theorem Books.paired (books : ctx.Books) (ended : ctx.cpcmregEnabled = false) :
    ctx.disables = if 0 < ctx.enables then 1 else 0 := by
  have balance := books.balance
  have once := books.once
  rw [ended] at balance
  simp only [Bool.false_eq_true, if_false, Nat.add_zero] at balance
  split <;> omega

theorem afterRtcLeave_winds (books : ctx.Books) (left : ctx.bridge = none) :
    ctx.Winds ctx.afterRtcLeave.1 ctx.afterRtcLeave.2 ∧ ctx.afterRtcLeave.1.bridge = none := by
  have balance := books.balance
  unfold afterRtcLeave
  split
  · rename_i flag
    rw [flag, if_pos rfl] at balance
    exact ⟨⟨⟨rfl, balance, books.once, books.bridged, fun _ => left⟩, rfl,
      fun stage is => by cases is; rfl, fun is => by cases is⟩, left⟩
  · rename_i flag
    exact ⟨⟨⟨rfl, balance, books.once, books.bridged, books.dropped⟩, rfl,
      fun stage is => (by cases is), fun _ => by simpa using flag⟩, left⟩

theorem afterBridgeLeave_winds (books : ctx.Books) :
    ctx.Winds ctx.afterBridgeLeave.1 ctx.afterBridgeLeave.2 ∧
      ctx.afterBridgeLeave.1.bridge = none := by
  have dropped : Books { ctx with bridge := none, recorder := false } :=
    ⟨books.session, books.balance, books.once, by simp, fun _ => rfl⟩
  have winds := afterRtcLeave_winds dropped rfl
  unfold afterBridgeLeave
  dsimp only
  rw [if_neg (by simp [books.session])]
  exact ⟨⟨winds.1.books, winds.1.enables, winds.1.staged, winds.1.ended⟩, winds.2⟩

theorem afterTasks_winds (books : ctx.Books) :
    ctx.Winds ctx.afterTasks.1 ctx.afterTasks.2 ∧ ctx.afterTasks.1.bridge = ctx.bridge := by
  unfold afterTasks
  split
  · rename_i bridge
    refine ⟨⟨books, rfl, fun stage is => ?_, fun is => by cases is⟩, rfl⟩
    obtain rfl := Option.some.inj is
    exact Option.isSome_iff_ne_none.mp bridge
  · rename_i bridge
    have winds := afterBridgeLeave_winds books
    have gone : ctx.bridge = none := by simpa using bridge
    exact ⟨winds.1, winds.2.trans gone.symm⟩

theorem awaitTasks_winds (byPump : Bool) (books : ctx.Books) :
    ctx.Winds (ctx.awaitTasks byPump).1 (ctx.awaitTasks byPump).2 ∧
      (ctx.awaitTasks byPump).1.bridge = ctx.bridge := by
  unfold awaitTasks
  split
  · exact afterTasks_winds books
  · exact ⟨⟨books, rfl, fun stage is => by cases is; trivial, fun is => by cases is⟩, rfl⟩

theorem beginTeardown_winds (byPump : Bool) (books : ctx.Books) :
    ctx.Winds (ctx.beginTeardown byPump).1 (ctx.beginTeardown byPump).2 ∧
      (ctx.beginTeardown byPump).1.bridge = ctx.bridge := by
  unfold beginTeardown cancelTasks
  split
  · exact awaitTasks_winds _ books
  · have cancelled : Books { ctx with pumpCancelled := ctx.pump.live } :=
      ⟨books.session, books.balance, books.once, books.bridged, books.dropped⟩
    obtain ⟨winds, bridge⟩ := awaitTasks_winds byPump cancelled
    exact ⟨⟨winds.books, winds.enables, winds.staged, winds.ended⟩, bridge⟩

/-- The bridge is dropped when its leave is over, and at no other await. -/
theorem resumeTeardown_winds {stage : Stage} (books : ctx.Books) (staged : ctx.Staged stage)
    (resumed : ctx.resumeTeardown byPump stage = some (ctx', next)) :
    ctx.Winds ctx' next ∧ ctx'.bridge = if stage = .bridgeLeave then none else ctx.bridge := by
  cases stage with
  | tasks =>
      simp only [resumeTeardown] at resumed
      split at resumed
      · have winds := afterTasks_winds books
        rw [Option.some.inj resumed] at winds
        exact winds
      · cases resumed
  | bridgeLeave =>
      have winds := afterBridgeLeave_winds books
      rw [Option.some.inj resumed] at winds
      exact winds
  | rtcLeave => exact absurd staged id
  | cpcmregDisable =>
      obtain ⟨rfl, rfl⟩ := Prod.mk.inj (Option.some.inj resumed)
      exact ⟨⟨books, rfl, (fun stage is => by cases is), fun _ => staged⟩, rfl⟩

/-! ### The pump -/

/-- A turn that enables nothing and resumes no teardown. -/
structure Proceeds (ctx : CallContext) (turn : PumpStep) : Prop where
  books : turn.1.Books
  enables : turn.1.enables = ctx.enables
  bridge : turn.1.bridge = ctx.bridge
  quiet : turn.1.pump.enabling = false
  present : turn.1.pump ≠ .absent
  unjoined : turn.1.pump ≠ .join
  staged : ∀ via stage, turn.1.pump = .teardown via stage → turn.1.Staged stage ∧ .pop ∈ turn.2
  ended : .pop ∈ turn.2 → turn.1.pump.tearing = false → turn.1.cpcmregEnabled = false
  cancelled : turn.1.pumpCancelled = ctx.pumpCancelled

/-- The pump goes to an await outside any teardown. -/
theorem proceeds_to (books : ctx.Books) (pump : PumpPc) (effects : List Effect)
    (quiet : pump.enabling = false) (present : pump ≠ .absent) (unjoined : pump ≠ .join)
    (open_ : pump.tearing = false) (none_ : .pop ∉ effects) :
    ctx.Proceeds ({ ctx with pump := pump }, effects) where
  books := ⟨books.session, books.balance, books.once, books.bridged, books.dropped⟩
  enables := rfl
  bridge := rfl
  quiet := quiet
  present := present
  unjoined := unjoined
  staged := by
    rintro via stage rfl
    cases open_
  ended := fun popped => absurd popped none_
  cancelled := rfl

/-- The pump pops the call and tears it down; `next` is where it goes when the
teardown returns at once. -/
theorem proceeds_torn {effects : List Effect} {pump : PumpPc} (books : ctx.Books)
    (quiet : pump.enabling = false) (present : pump ≠ .absent) (unjoined : pump ≠ .join)
    (open_ : pump.tearing = false) :
    ctx.Proceeds (match ctx.beginTeardown true with
      | (ctx, some stage) => ({ ctx with pump := .teardown via stage }, [.pop])
      | (ctx, none) => ({ ctx with pump := pump }, effects)) := by
  obtain ⟨winds, bridge⟩ := beginTeardown_winds true books
  have same := ctx.beginTeardown_same
  have kept := winds.books
  split
  · rename_i ctx' stage torn
    rw [torn] at winds bridge same kept
    refine ⟨⟨kept.session, kept.balance, kept.once, kept.bridged, kept.dropped⟩, winds.enables,
      bridge, rfl, by simp, by simp, fun via' stage' is => ?_, (fun _ open_ => by cases open_),
      same.pumpCancelled⟩
    obtain ⟨-, rfl⟩ := PumpPc.teardown.inj is
    have staged := winds.staged stage rfl
    refine ⟨?_, by simp⟩
    cases stage <;> exact staged
  · rename_i ctx' torn
    rw [torn] at winds bridge same kept
    refine ⟨⟨kept.session, kept.balance, kept.once, kept.bridged, kept.dropped⟩, winds.enables,
      bridge, quiet, present, unjoined, ?_, fun _ _ => winds.ended rfl, same.pumpCancelled⟩
    rintro via stage rfl
    cases open_

theorem exitPump_proceeds (inCalls : Bool) (books : ctx.Books) :
    ctx.Proceeds (ctx.exitPump inCalls) := by
  unfold exitPump
  split
  · exact proceeds_torn books rfl (by simp) (by simp) rfl
  · exact proceeds_to books _ _ rfl (by simp) (by simp) rfl (by simp)

theorem afterHangup_proceeds (books : ctx.Books) : ctx.Proceeds (ctx.afterHangup inCalls via) := by
  cases via with
  | event => exact exitPump_proceeds inCalls books
  | pcmFailed | joinFailed | final => exact proceeds_to books _ _ rfl (by simp) (by simp) rfl (by simp)

theorem handleRemoteHangup_proceeds (books : ctx.Books) (cause : Option String) :
    ctx.Proceeds (ctx.handleRemoteHangup inCalls via cause) := by
  unfold handleRemoteHangup
  split
  · exact afterHangup_proceeds books
  · have terminated : Books { ctx with terminated := true } :=
      ⟨books.session, books.balance, books.once, books.bridged, books.dropped⟩
    have sends := proceeds_to terminated (.hangupSend via)
      [.send (sendCallEventRemoteHangup ctx.callId cause)] rfl (by simp) (by simp) rfl (by simp)
    exact ⟨sends.books, sends.enables, sends.bridge, sends.quiet, sends.present,
      sends.unjoined, sends.staged, sends.ended, sends.cancelled⟩

theorem popAndTeardown_proceeds (books : ctx.Books) : ctx.Proceeds (ctx.popAndTeardown via) := by
  unfold popAndTeardown
  cases via with
  | event =>
      simp only [afterHangup, exitPump, Bool.false_eq_true, if_false]
      exact proceeds_torn books rfl (by simp) (by simp) rfl
  | pcmFailed | joinFailed | final =>
      simp only [afterHangup]
      exact proceeds_torn books rfl (by simp) (by simp) rfl

/-- One turn of the pump: what it enables, builds and leaves, and how its
teardown stands. -/
structure Turned (cfg : Config) (ctx : CallContext) (input : PumpInput) (turn : PumpStep) : Prop where
  books : turn.1.Books
  enables : turn.1.enables = ctx.enables ∨ ctx.pump = .cpcmregEnable
  enabling : turn.1.pump.enabling = true → turn.1.enables = ctx.enables ∧
    (ctx.pump.enabling = true ∨ input = .event .connected)
  present : turn.1.pump ≠ .absent
  joining : turn.1.pump = .join → turn.1.bridge ≠ none
  bridge : (if ctx.builds cfg input then 1 else 0) + ctx.bridges =
    (if ctx.leavesBridge input then 1 else 0) + turn.1.bridges
  staged : ∀ via stage, turn.1.pump = .teardown via stage →
    turn.1.Staged stage ∧ (.pop ∈ turn.2 ∨ ctx.pump.tearing = true)
  ended : .pop ∈ turn.2 → turn.1.pump.tearing = false → turn.1.cpcmregEnabled = false
  cancelled : turn.1.pumpCancelled = false

/-- A turn that builds no bridge and leaves none, from a context that differs
from `ctx` in nothing that counts here. -/
theorem Proceeds.turned {turn : PumpStep} {input : PumpInput} (proceeds : ctx'.Proceeds turn)
    (builds : ctx.builds cfg input = false) (leaves : ctx.leavesBridge input = false)
    (enables : ctx'.enables = ctx.enables) (bridge : ctx'.bridge = ctx.bridge)
    (running : ctx'.pumpCancelled = false) : ctx.Turned cfg input turn where
  books := proceeds.books
  enables := .inl (proceeds.enables.trans enables)
  enabling := fun enabling => by
    rw [proceeds.quiet] at enabling
    cases enabling
  present := proceeds.present
  joining := fun joins => absurd joins proceeds.unjoined
  bridge := by
    simp only [builds, leaves, bridges, proceeds.bridge, bridge, Bool.false_eq_true, if_false]
  staged := fun via stage is => (proceeds.staged via stage is).imp_right .inl
  ended := proceeds.ended
  cancelled := proceeds.cancelled.trans running

/-- The teardown of the pump goes on. -/
theorem resumed_turned {stage : Stage} (books : ctx.Books) (running : ctx.pumpCancelled = false)
    (at_ : ctx.pump = .teardown via stage) (staged : ctx.Staged stage)
    (resumed : ctx.resumeTeardown true stage = some (ctx', next)) :
    ctx.Turned cfg .stageDone (match (ctx', next) with
      | (ctx, some stage) => ({ ctx with pump := .teardown via stage }, [])
      | (ctx, none) => ctx.afterHangup inCalls via) := by
  obtain ⟨winds, dropped⟩ := resumeTeardown_winds books staged resumed
  have same := resumeTeardown_same resumed
  have kept := winds.books
  have counted : ∀ c : CallContext, c.bridge = ctx'.bridge →
      (if ctx.builds cfg .stageDone then 1 else 0) + ctx.bridges =
        (if ctx.leavesBridge .stageDone then 1 else 0) + c.bridges := by
    intro c bridge
    rw [dropped] at bridge
    by_cases leaves : stage = .bridgeLeave
    · subst leaves
      have joined : ctx.bridge ≠ none := staged
      simp [builds, leavesBridge, bridges, at_, bridge, joined]
    · rw [if_neg leaves] at bridge
      have stays : ctx.leavesBridge .stageDone = false := by
        unfold leavesBridge
        rw [at_]
        cases stage <;> first | rfl | exact absurd rfl leaves
      simp [builds, stays, bridges, bridge]
  cases next with
  | some stage' =>
      refine ⟨⟨kept.session, kept.balance, kept.once, kept.bridged, kept.dropped⟩,
        .inl winds.enables, (fun enabling => by cases enabling), by simp, (fun joins => by cases joins),
        counted _ rfl, fun via' other is => ?_, (fun popped => by cases popped),
        same.pumpCancelled.trans running⟩
      obtain ⟨-, rfl⟩ := PumpPc.teardown.inj is
      have staged' := winds.staged stage' rfl
      refine ⟨?_, .inr (by rw [at_]; rfl)⟩
      cases stage' <;> exact staged'
  | none =>
      have after : ctx'.Proceeds (ctx'.afterHangup inCalls via) := afterHangup_proceeds kept
      exact ⟨after.books, .inl (after.enables.trans winds.enables),
        (fun enabling => by rw [after.quiet] at enabling; cases enabling), after.present,
        fun joins => absurd joins after.unjoined, counted _ after.bridge,
        fun via' other is => (after.staged via' other is).imp_right .inl, after.ended,
        after.cancelled.trans (same.pumpCancelled.trans running)⟩

/-- The audio path of an enabled call: it is built, or the pump leaves. -/
theorem buildAudioPath_turned {begin_ : BeginCall} {factory : Bool} (books : ctx.Books)
    (running : ctx.pumpCancelled = false) (at_ : ctx.pump = .cpcmregEnable)
    (fresh : ctx.enables = 0) :
    ctx.Turned cfg (.enabled begin_ factory) (ctx.buildAudioPath cfg inCalls begin_ factory) := by
  have balance := books.balance
  have unpaired : ctx.disables = 0 := by omega
  have unbridged : ctx.bridge = none := by
    by_contra bridge
    have := books.bridged bridge
    omega
  have enabled : Books
      { ctx with
        cpcmregEnabled := true
        enables := ctx.enables + 1
        recorder := ctx.recorder || (cfg.recording && begin_ == BeginCall.ok) } :=
    ⟨books.session, by simp [unpaired, fresh], by simp [fresh], fun _ => Nat.succ_pos _,
      books.dropped⟩
  unfold buildAudioPath
  dsimp only
  split
  · rename_i raises
    have raises : ctx.setupRaises cfg begin_ factory = true := raises
    have builds : ctx.builds cfg (.enabled begin_ factory) = false := by
      simp [CallContext.builds, raises]
    have exits := exitPump_proceeds inCalls enabled
    exact ⟨exits.books, .inr at_, (fun enabling => by rw [exits.quiet] at enabling; cases enabling),
      exits.present, fun joins => absurd joins exits.unjoined,
      by simp [builds, leavesBridge, bridges, exits.bridge],
      fun via stage is => (exits.staged via stage is).imp_right .inl, exits.ended,
      exits.cancelled.trans running⟩
  · rename_i succeeds
    have succeeds : ¬ ctx.setupRaises cfg begin_ factory = true := succeeds
    have builds : ctx.builds cfg (.enabled begin_ factory) = true := by
      simpa [CallContext.builds] using succeeds
    exact ⟨⟨enabled.session, enabled.balance, enabled.once, fun _ => Nat.succ_pos _,
      fun disabled => by simp [unpaired] at disabled⟩, .inr at_, (fun enabling => by cases enabling),
      by simp, (fun _ => by simp), by simp [builds, leavesBridge, bridges, unbridged],
      (fun via stage is => by cases is), (fun popped => by simp at popped), running⟩

theorem pumpStep_turned {input : PumpInput} {turn : PumpStep} (books : ctx.Books)
    (staged : ∀ via stage, ctx.pump = .teardown via stage →
      ctx.Staged stage ∧ ctx.pumpCancelled = false)
    (fresh : ctx.pump.enabling = true → ctx.enables = 0)
    (joining : ctx.pump = .join → ctx.bridge ≠ none)
    (stepped : ctx.pumpStep cfg inCalls input = some turn) : ctx.Turned cfg input turn := by
  obtain ⟨-, ⟨running, ran⟩ | ⟨cancelled, rfl, ran⟩⟩ := pumpStep_cases stepped
  · -- a turn to another await that leaves the books alone
    have moves : ∀ (pump : PumpPc) (effects : List Effect), pump ≠ .absent → pump ≠ .join →
        pump.tearing = false → .pop ∉ effects → ctx.builds cfg input = false →
        ctx.leavesBridge input = false →
        (pump.enabling = true → ctx.pump.enabling = true ∨ input = .event .connected) →
        ctx.Turned cfg input ({ ctx with pump := pump }, effects) := by
      intro pump effects present unjoined open_ none_ builds leaves enabling
      refine ⟨⟨books.session, books.balance, books.once, books.bridged, books.dropped⟩, .inl rfl,
        fun is => ⟨rfl, enabling is⟩, present, fun joins => absurd joins unjoined,
        by simp [builds, leaves, bridges], ?_, fun popped => absurd popped none_, running⟩
      rintro via stage rfl
      cases open_
    unfold runPump at ran
    split at ran
    case h_1 at_ | h_10 at_ | h_19 at_ =>
      rw [← Option.some.inj ran]
      exact moves _ _ (by simp) (by simp) rfl (by simp) rfl rfl fun enabling => by cases enabling
    case h_2 at_ =>
      rw [← Option.some.inj ran]
      exact moves _ _ (by simp) (by simp) rfl (by simp) rfl rfl fun _ => .inr rfl
    case h_3 cause at_ =>
      rw [← Option.some.inj ran]
      have delivered : Books { ctx with hangupDelivered := true } :=
        ⟨books.session, books.balance, books.once, books.bridged, books.dropped⟩
      exact (handleRemoteHangup_proceeds delivered cause).turned rfl rfl rfl rfl running
    case h_4 at_ =>
      rw [← Option.some.inj ran]
      exact ⟨books, .inl rfl, (fun enabling => by rw [at_] at enabling; cases enabling),
        by rw [at_]; simp, (fun joins => by rw [at_] at joins; cases joins),
        by simp [builds, leavesBridge], (fun via stage is => by rw [at_] at is; cases is),
        (fun popped => by cases popped), running⟩
    case h_7 at_ =>
      rw [← Option.some.inj ran]
      exact moves _ _ (by simp) (by simp) rfl (by simp) rfl rfl fun _ => .inl (by rw [at_]; rfl)
    case h_9 at_ =>
      rw [← Option.some.inj ran]
      exact buildAudioPath_turned books running at_ (fresh (by rw [at_]; rfl))
    case h_14 at_ =>
      rw [← Option.some.inj ran]
      have joins := joining at_
      exact ⟨⟨books.session, books.balance, books.once, fun _ => books.bridged joins,
          fun disabled => absurd (books.dropped disabled) joins⟩, .inl rfl,
        (fun enabling => by cases enabling), by simp, (fun is => by cases is),
        by simp [builds, leavesBridge, bridges, joins], (fun via stage is => by cases is),
        (fun popped => by simp at popped), running⟩
    case h_18 via stage at_ =>
      obtain ⟨⟨ctx', next⟩, resumed, moved⟩ := Option.map_eq_some_iff.mp ran
      rw [← moved]
      exact resumed_turned books running at_ (staged via stage at_).1 resumed
    case h_20 => cases ran
    all_goals
      rw [← Option.some.inj ran]
      first
        | exact (exitPump_proceeds inCalls books).turned rfl rfl rfl rfl running
        | exact (handleRemoteHangup_proceeds books _).turned rfl rfl rfl rfl running
        | exact (popAndTeardown_proceeds books).turned rfl rfl rfl rfl running
  · have reset : Books { ctx with pumpCancelled := false } :=
      ⟨books.session, books.balance, books.once, books.bridged, books.dropped⟩
    rw [← ran]
    unfold cancelPump
    split
    · have done := proceeds_to reset .done [] rfl (by simp) (by simp) rfl (by simp)
      exact done.turned rfl rfl rfl rfl rfl
    · rename_i via at_
      rw [(staged via .tasks at_).2] at cancelled
      cases cancelled
    · rename_i stage _ at_
      rw [(staged .final stage at_).2] at cancelled
      cases cancelled
    · exact (exitPump_proceeds inCalls reset).turned rfl rfl rfl rfl rfl

/-- A teardown the pump is in goes on when its await is over. -/
theorem tearing_turn {stage : Stage} {input : PumpInput} {turn : PumpStep}
    (at_ : ctx.pump = .teardown via stage) (running : ctx.pumpCancelled = false)
    (stepped : ctx.pumpStep cfg inCalls input = some turn) :
    input = .stageDone ∧ ∃ ctx' next, ctx.resumeTeardown true stage = some (ctx', next) ∧
      turn = match (ctx', next) with
        | (ctx, some stage) => ({ ctx with pump := .teardown via stage }, [])
        | (ctx, none) => ctx.afterHangup inCalls via := by
  obtain ⟨-, ⟨-, ran⟩ | ⟨cancelled, -, -⟩⟩ := pumpStep_cases stepped
  · rw [at_] at ran
    unfold runPump at ran
    split at ran
    case h_18 via' stage' is =>
      obtain ⟨rfl, rfl⟩ := PumpPc.teardown.inj is
      obtain ⟨⟨ctx', next⟩, resumed, moved⟩ := Option.map_eq_some_iff.mp ran
      exact ⟨rfl, ctx', next, resumed, moved.symm⟩
    all_goals contradiction
  · rw [running] at cancelled
    cases cancelled

/-! ### Under a teardown of `stop` -/

/-- The pump of a call `stop` is tearing down is done, was cancelled, or runs the
teardown of its finally-block. -/
def Quelled (ctx : CallContext) : Prop :=
  ctx.pump = .done ∨ (∃ stage, ctx.pump = .teardown .final stage) ∧ ctx.pumpCancelled = false ∨
    ctx.pump.live = true ∧ ctx.pump.tearing = false ∧ ctx.pumpCancelled = true

theorem exitPump_quelled (running : ctx.pumpCancelled = false) :
    (ctx.exitPump inCalls).1.Quelled := by
  have same := ctx.beginTeardown_same
  unfold exitPump
  split
  · split
    · rename_i ctx' stage torn
      rw [torn] at same
      exact .inr (.inl ⟨⟨stage, rfl⟩, same.pumpCancelled.trans running⟩)
    · exact .inl rfl
  · exact .inl rfl

/-- It enables nothing any more. -/
theorem quelled_turn {input : PumpInput} {turn : PumpStep} (books : ctx.Books)
    (quelled : ctx.Quelled)
    (staged : ∀ via stage, ctx.pump = .teardown via stage → ctx.Staged stage)
    (stepped : ctx.pumpStep cfg inCalls input = some turn) :
    turn.1.Quelled ∧ turn.1.enables = ctx.enables := by
  obtain ⟨live, ⟨running, ran⟩ | ⟨cancelled, rfl, ran⟩⟩ := pumpStep_cases stepped
  · rcases quelled with done | ⟨⟨stage, at_⟩, -⟩ | ⟨-, -, cancelled⟩
    · rw [done] at live
      cases live
    · obtain ⟨-, ctx', next, resumed, rfl⟩ := tearing_turn at_ running stepped
      have winds := (resumeTeardown_winds books (staged _ _ at_) resumed).1
      cases next with
      | some stage' =>
          exact ⟨.inr (.inl ⟨⟨stage', rfl⟩,
            (resumeTeardown_same resumed).pumpCancelled.trans running⟩), winds.enables⟩
      | none => exact ⟨.inl rfl, winds.enables⟩
    · rw [running] at cancelled
      cases cancelled
  · have open_ : ctx.pump.tearing = false := by
      rcases quelled with done | ⟨-, running⟩ | ⟨-, open_, -⟩
      · rw [done]
        rfl
      · rw [running] at cancelled
        cases cancelled
      · exact open_
    have reset : Books { ctx with pumpCancelled := false } :=
      ⟨books.session, books.balance, books.once, books.bridged, books.dropped⟩
    rw [← ran]
    unfold cancelPump
    split
    · exact ⟨.inl rfl, rfl⟩
    · rename_i at_
      rw [at_] at open_
      cases open_
    · rename_i at_
      rw [at_] at open_
      cases open_
    · exact ⟨exitPump_quelled rfl, (exitPump_proceeds inCalls reset).enables⟩

end CallContext

/-! ## The teardowns -/

/-- Every teardown in progress is one that `Running` describes, and those that
returned left the commands paired. -/
structure Teardowns.Ok (Running : TeardownRun → Prop) (t : Teardowns) : Prop where
  running : ∀ r ∈ t.running, Running r
  returned : ∀ r disables, (r, disables) ∈ t.returned → disables = if r.enabled then 1 else 0

namespace Teardowns.Ok

variable {Running Running' : TeardownRun → Prop} {t : Teardowns} {call disables : Nat}
  {byPump : Bool}

theorem mono (weaker : ∀ r, Running r → Running' r) (ok : t.Ok Running) : t.Ok Running' :=
  ⟨fun r listed => weaker r (ok.running r listed), ok.returned⟩

theorem began {r : TeardownRun} (ok : t.Ok Running) :
    (t.mark (.began r)).Ok fun other => Running other ∨ other = r := by
  refine ⟨fun other listed => ?_, ok.returned⟩
  rcases List.mem_append.mp listed with old | new
  · exact .inl (ok.running other old)
  · exact .inr (List.mem_singleton.mp new)

theorem returns (ok : t.Ok Running)
    (paired : ∀ r, Running r → r.isOf call byPump = true →
      disables = if r.enabled then 1 else 0) :
    (t.mark (.returned call byPump disables)).Ok
      fun r => Running r ∧ r.isOf call byPump = false := by
  refine ⟨fun r listed => ?_, fun r n listed => ?_⟩
  · obtain ⟨old, other⟩ := List.mem_filter.mp listed
    exact ⟨ok.running r old, by simpa using other⟩
  · rcases List.mem_append.mp listed with old | new
    · exact ok.returned r n old
    · obtain ⟨r', listed', pair⟩ := List.mem_map.mp new
      obtain ⟨rfl, rfl⟩ := Prod.mk.inj pair
      obtain ⟨old, own⟩ := List.mem_filter.mp listed'
      exact paired r' (ok.running r' old) own

end Teardowns.Ok

namespace EdgeOrchestrator

/-- The teardown is in progress, and cpcmreg_enable returns to its call no more. -/
def Runs (s : EdgeOrchestrator) (stopping : StopPc) (r : TeardownRun) : Prop :=
  ∃ ctx, s.At r.call ctx ∧ r.enabled = decide (0 < ctx.enables) ∧
    if r.byPump then ctx.pump.tearing = true
    else ∃ stage rest, stopping = .teardown r.call stage rest

variable {cfg : Config} {s t : EdgeOrchestrator} {call : Nat} {ctx ctx' : CallContext}
  {effects : List Effect} {stopping : StopPc} {teardowns : Teardowns}

/-- A pump that pops its call: its new teardown is in progress, or returned. -/
theorem newMarks_ok {turn : PumpStep} (ok : teardowns.Ok (s.Runs stopping)) (at_ : s.At call turn.1)
    (books : turn.1.Books)
    (ended : .pop ∈ turn.2 → turn.1.pump.tearing = false → turn.1.cpcmregEnabled = false) :
    ((CallContext.newMarks call turn).foldl Teardowns.mark teardowns).Ok (s.Runs stopping) := by
  unfold CallContext.newMarks
  split
  · rename_i popped
    have began := ok.began (r := ⟨call, true, 0 < turn.1.enables⟩)
    cases tearing : turn.1.pump.tearing with
    | true =>
        refine Teardowns.Ok.mono (fun r running => ?_) began
        rcases running with old | rfl
        · exact old
        · exact ⟨turn.1, at_, rfl, tearing⟩
    | false =>
        -- the pump is in no teardown, so only the new one can be that of its call
        have alone : ∀ r, s.Runs stopping r → r.isOf call true = false := by
          intro r running
          by_contra own
          simp only [TeardownRun.isOf, Bool.not_eq_false, Bool.and_eq_true, decide_eq_true_eq] at own
          obtain ⟨found, got, -, byPump⟩ := running
          rw [own.1] at got
          obtain rfl := Option.some.inj (at_.symm.trans got)
          rw [own.2, if_pos rfl, tearing] at byPump
          cases byPump
        refine Teardowns.Ok.mono (fun r running => ?_) (began.returns fun r running own => ?_)
        · rcases running with ⟨old | rfl, other⟩
          · exact old
          · simp [TeardownRun.isOf] at other
        · rcases running with old | rfl
          · rw [alone r old] at own
            cases own
          · simpa using books.paired (ended popped tearing)
  · exact ok

end EdgeOrchestrator

/-! ## The state around it -/

namespace PcmLog

/-- What holds of one context. -/
structure Kept (l : PcmLog) (call : Nat) (ctx : CallContext) : Prop where
  books : ctx.Books
  enabling : ctx.pump.enabling = true → ctx.enables = 0 ∧ call ∈ l.connected
  unseen : call ∉ l.connected → ctx.enables = 0
  joining : ctx.pump = .join → ctx.bridge ≠ none
  counted : l.built.count call = l.left.count call + ctx.bridges
  absent : ctx.pump = .absent → ctx.enables = 0 ∧ ctx.audioTasks = 0
  staged : ∀ via stage, ctx.pump = .teardown via stage →
    ctx.Staged stage ∧ ctx.pumpCancelled = false ∧ ¬ l.edge.Registered call ctx
  cancelled : ctx.pumpCancelled = true → ¬ l.edge.Registered call ctx

/-- How far the teardown of `stop` is. -/
def StopStaged (ctx : CallContext) (stage : Stage) : Prop :=
  ctx.Staged stage ∧ ctx.Quelled ∧ (stage ≠ .tasks → ctx.pump = .done)

structure Sound (l : PcmLog) (stopping : StopPc) : Prop where
  keyed : ∀ {callId call}, l.edge.calls.lookup callId = some call →
    ∃ ctx, l.edge.At call ctx ∧ ctx.callId = callId
  each : ∀ {call ctx}, l.edge.At call ctx → l.Kept call ctx
  beyond : ∀ call, l.edge.contexts.length ≤ call → l.built.count call = l.left.count call
  modem : l.edge.handler.dev = false
  unstarted : ∀ {call ctx}, l.edge.handler = .acceptAck call → l.edge.At call ctx →
    ctx.pump = .absent
  stop : ∀ {call stage rest}, stopping = .teardown call stage rest →
    ∃ ctx, l.edge.At call ctx ∧ StopStaged ctx stage
  teardowns : l.teardowns.Ok (l.edge.Runs stopping)

variable {cfg : Config} {l m : PcmLog} {call other : Nat} {ctx ctx' found : CallContext}
  {effects : List Effect} {stopping stopping' : StopPc}

/-- What a step does to another call. -/
theorem kept_other (kept : l.Kept other found) (connected : l.connected ⊆ m.connected)
    (built : m.built.count other = l.built.count other)
    (left : m.left.count other = l.left.count other)
    (calls : ∀ {callId}, m.edge.calls.lookup callId = some other →
      l.edge.calls.lookup callId = some other) : m.Kept other found where
  books := kept.books
  enabling := fun enabling => ⟨(kept.enabling enabling).1, connected (kept.enabling enabling).2⟩
  unseen := fun unseen => kept.unseen fun seen => unseen (connected seen)
  joining := kept.joining
  counted := by rw [built, left, kept.counted]
  absent := kept.absent
  staged := fun via stage is =>
    ⟨(kept.staged via stage is).1, (kept.staged via stage is).2.1,
      fun registered => (kept.staged via stage is).2.2 (calls registered)⟩
  cancelled := fun cancelled registered => kept.cancelled cancelled (calls registered)

/-- A step that leaves the calls alone. -/
theorem sound_same (sound : l.Sound stopping) (contexts : m.edge.contexts = l.edge.contexts)
    (calls : m.edge.calls = l.edge.calls) (modem : m.edge.handler.dev = false)
    (started : ∀ call, m.edge.handler = .acceptAck call → l.edge.handler = .acceptAck call)
    (connected : m.connected = l.connected) (built : m.built = l.built) (left : m.left = l.left)
    (stop : ∀ {call stage rest}, stopping' = .teardown call stage rest →
      ∃ ctx, l.edge.At call ctx ∧ StopStaged ctx stage)
    (teardowns : m.teardowns.Ok (m.edge.Runs stopping')) : m.Sound stopping' where
  keyed := by
    simpa only [EdgeOrchestrator.At, contexts, calls] using @sound.keyed
  each := by
    intro call ctx at_
    have at₀ : l.edge.At call ctx := by simpa only [EdgeOrchestrator.At, contexts] using at_
    exact kept_other (sound.each at₀) (by rw [connected]; exact List.Subset.refl _) (by rw [built])
      (by rw [left]) (by rw [calls]; exact id)
  beyond := by
    rw [contexts, built, left]
    exact sound.beyond
  modem := modem
  unstarted := fun accepting at_ =>
    sound.unstarted (started _ accepting) (by simpa only [EdgeOrchestrator.At, contexts] using at_)
  stop := by simpa only [EdgeOrchestrator.At, contexts] using @stop
  teardowns := teardowns

/-- A step that rewrites one context. -/
theorem sound_update (effects : List Effect) (sound : l.Sound stopping) (at_ : l.edge.At call ctx)
    (contexts : m.edge.contexts = (l.edge.update call ctx' effects).contexts)
    (calls : m.edge.calls = (l.edge.update call ctx' effects).calls)
    (callId : ctx'.callId = ctx.callId) (kept : m.Kept call ctx')
    (modem : m.edge.handler.dev = false)
    (started : ∀ call, m.edge.handler = .acceptAck call → l.edge.handler = .acceptAck call)
    (absent : m.edge.handler = .acceptAck call → ctx'.pump = .absent)
    (connected : l.connected ⊆ m.connected)
    (built : ∀ other, other ≠ call → m.built.count other = l.built.count other)
    (left : ∀ other, other ≠ call → m.left.count other = l.left.count other)
    (stop : ∀ {other stage rest}, stopping' = .teardown other stage rest →
      other ≠ call ∧ (∃ found, l.edge.At other found ∧ StopStaged found stage) ∨
        other = call ∧ StopStaged ctx' stage)
    (teardowns : m.teardowns.Ok (m.edge.Runs stopping')) : m.Sound stopping' := by
  have at' : ∀ {other found}, m.edge.At other found ↔
      other = call ∧ found = ctx' ∨ other ≠ call ∧ l.edge.At other found := by
    intro other found
    rw [EdgeOrchestrator.At, contexts]
    exact EdgeOrchestrator.update_at effects at_
  have registered : ∀ {callId other}, m.edge.calls.lookup callId = some other →
      l.edge.calls.lookup callId = some other := by
    intro callId other registered
    rw [calls] at registered
    exact EdgeOrchestrator.lookup_of_update registered
  have bound : call < l.edge.contexts.length := (List.getElem?_eq_some_iff.mp at_).1
  refine ⟨fun {callId' other} is => ?_, fun {other found} got => ?_, fun other past => ?_, modem,
    fun {other found} accepting got => ?_, fun {other stage rest} is => ?_, teardowns⟩
  · obtain ⟨found, got, key⟩ := sound.keyed (registered is)
    by_cases here : other = call
    · subst here
      obtain rfl := Option.some.inj (got.symm.trans at_)
      exact ⟨ctx', at'.mpr (.inl ⟨rfl, rfl⟩), callId.trans key⟩
    · exact ⟨found, at'.mpr (.inr ⟨here, got⟩), key⟩
  · rcases at'.mp got with ⟨rfl, rfl⟩ | ⟨ne, old⟩
    · exact kept
    · exact kept_other (sound.each old) connected (built _ ne) (left _ ne) registered
  · have same : m.edge.contexts.length = l.edge.contexts.length := by
      rw [contexts]
      simp [EdgeOrchestrator.update]
    rw [same] at past
    have ne : other ≠ call := by omega
    rw [built _ ne, left _ ne]
    exact sound.beyond other past
  · rcases at'.mp got with ⟨rfl, rfl⟩ | ⟨-, old⟩
    · exact absent accepting
    · exact sound.unstarted (started _ accepting) old
  · rcases stop is with ⟨ne, found, got, staged⟩ | ⟨rfl, staged⟩
    · exact ⟨found, at'.mpr (.inr ⟨ne, got⟩), staged⟩
    · exact ⟨ctx', at'.mpr (.inl ⟨rfl, rfl⟩), staged⟩

/-- A teardown in progress stays so when the context of its call still has its
enables and its teardown. -/
theorem runs_update {s t : EdgeOrchestrator} {r : TeardownRun} (effects : List Effect)
    (at_ : s.At call ctx)
    (contexts : t.contexts = (s.update call ctx' effects).contexts)
    (enables : r.call = call → ctx'.enables = ctx.enables)
    (tearing : r.isOf call true = true → ctx'.pump.tearing = true)
    (runs : s.Runs stopping r) : t.Runs stopping r := by
  obtain ⟨found, got, enabled, rest⟩ := runs
  have at' : ∀ {found}, t.At r.call found ↔
      r.call = call ∧ found = ctx' ∨ r.call ≠ call ∧ s.At r.call found := by
    intro found
    rw [EdgeOrchestrator.At, contexts]
    exact EdgeOrchestrator.update_at effects at_
  by_cases own : r.call = call
  · rw [own] at got
    obtain rfl := Option.some.inj (at_.symm.trans got)
    refine ⟨ctx', at'.mpr (.inl ⟨own, rfl⟩), by rw [enabled, enables own], ?_⟩
    cases byPump : r.byPump with
    | true => exact tearing (by simp [TeardownRun.isOf, own, byPump])
    | false =>
        rw [byPump] at rest
        exact rest
  · exact ⟨found, at'.mpr (.inr ⟨own, got⟩), enabled, rest⟩

/-- A teardown of the pump of a call is in progress while the pump is in one. -/
theorem tearing_of_runs {s : EdgeOrchestrator} {r : TeardownRun} (at_ : s.At call ctx)
    (runs : s.Runs stopping r) (own : r.isOf call true = true) :
    ctx.pump.tearing = true ∧ r.enabled = decide (0 < ctx.enables) := by
  simp only [TeardownRun.isOf, Bool.and_eq_true, decide_eq_true_eq] at own
  obtain ⟨found, got, enabled, rest⟩ := runs
  rw [own.1] at got
  obtain rfl := Option.some.inj (at_.symm.trans got)
  rw [own.2, if_pos rfl] at rest
  exact ⟨rest, enabled⟩

/-- The pump enables nothing while a teardown of its call is in progress. -/
theorem enables_of_runs {input : PumpInput} {r : TeardownRun} (sound : l.Sound stopping)
    (at_ : l.edge.At call ctx)
    (turn : ctx.pumpStep cfg (l.edge.inCalls ctx.callId) input = some (ctx', effects))
    (turned : ctx.Turned cfg input (ctx', effects)) (runs : l.edge.Runs stopping r)
    (own : r.call = call) : ctx'.enables = ctx.enables := by
  have kept := sound.each at_
  cases byPump : r.byPump with
  | true =>
      have tearing := (tearing_of_runs at_ runs (by simp [TeardownRun.isOf, own, byPump])).1
      refine turned.enables.resolve_right fun enabling => ?_
      rw [enabling] at tearing
      cases tearing
  | false =>
      obtain ⟨_, -, -, rest⟩ := runs
      rw [byPump, own] at rest
      obtain ⟨stage, others, stopping⟩ := rest
      obtain ⟨found, got, -, quelled, -⟩ := sound.stop stopping
      obtain rfl := Option.some.inj (at_.symm.trans got)
      exact (CallContext.quelled_turn kept.books quelled (fun via stage is =>
        (kept.staged via stage is).1) turn).2

/-- The teardowns after a turn of a pump. -/
theorem teardowns_pump {input : PumpInput} (sound : l.Sound stopping) (at_ : l.edge.At call ctx)
    (turn : ctx.pumpStep cfg (l.edge.inCalls ctx.callId) input = some (ctx', effects))
    (turned : ctx.Turned cfg input (ctx', effects)) :
    ((ctx.oldMarks call input ++ CallContext.newMarks call (ctx', effects)).foldl Teardowns.mark
      l.teardowns).Ok ((l.edge.update call ctx' effects).Runs stopping) := by
  have kept := sound.each at_
  have at' : (l.edge.update call ctx' effects).At call ctx' :=
    (EdgeOrchestrator.update_at _ at_).mpr (.inl ⟨rfl, rfl⟩)
  rw [List.foldl_append]
  refine EdgeOrchestrator.newMarks_ok ?_ at' turned.books turned.ended
  cases tearing : ctx.pump.tearing with
  | false =>
      have none_ : ctx.oldMarks call input = [] := by
        unfold CallContext.oldMarks
        split <;> first | rfl | (rename_i at_; rw [at_] at tearing; cases tearing)
      rw [none_]
      refine Teardowns.Ok.mono (fun r runs => ?_) sound.teardowns
      refine runs_update effects at_ rfl (enables_of_runs sound at_ turn turned runs)
        (fun own => ?_) runs
      rw [(tearing_of_runs at_ runs own).1] at tearing
      cases tearing
  | true =>
      obtain ⟨via, stage, pump⟩ : ∃ via stage, ctx.pump = .teardown via stage := by
        cases pump : ctx.pump <;> rw [pump] at tearing <;> first | exact ⟨_, _, rfl⟩ | cases tearing
      obtain ⟨staged, running, -⟩ := kept.staged via stage pump
      obtain ⟨rfl, ctx₁, next, resumed, moved⟩ := CallContext.tearing_turn pump running turn
      have winds := (CallContext.resumeTeardown_winds kept.books staged resumed).1
      have marks : ctx.oldMarks call .stageDone = returnMark call true (some (ctx₁, next)) := by
        unfold CallContext.oldMarks
        rw [pump, ← resumed]
      rw [marks]
      cases next with
      | some stage' =>
          obtain ⟨rfl, rfl⟩ := Prod.mk.inj moved
          refine Teardowns.Ok.mono (fun r runs => ?_) sound.teardowns
          exact runs_update [] at_ rfl (fun _ => winds.enables) (fun _ => rfl) runs
      | none =>
          refine Teardowns.Ok.mono (fun r runs => ?_) (sound.teardowns.returns fun r runs own => ?_)
          · exact runs_update effects at_ rfl (enables_of_runs sound at_ turn turned runs.1)
              (fun own => by rw [runs.2] at own; cases own) runs.1
          · have enabled := (tearing_of_runs at_ runs own).2
            rw [winds.books.paired (winds.ended rfl), winds.enables, enabled]
            simp

/-- A call that is popped is registered no more. -/
theorem not_registered_of_pop {s : EdgeOrchestrator} {effects : List Effect}
    (popped : .pop ∈ effects) :
    ¬ (s.update call ctx' effects).Registered other ctx' := by
  intro registered
  rw [EdgeOrchestrator.Registered, EdgeOrchestrator.update_lookup, if_pos ⟨popped, rfl⟩] at registered
  cases registered

/-- One turn of a pump. -/
theorem sound_pump {input : PumpInput} (sound : l.Sound stopping) (at_ : l.edge.At call ctx)
    (turn : ctx.pumpStep cfg (l.edge.inCalls ctx.callId) input = some (ctx', effects))
    (one : l.OneConnected (.pump call input)) :
    Sound
      { edge := l.edge.update call ctx' effects
        teardowns := (l.edge.marks cfg (.pump call input)).foldl Teardowns.mark l.teardowns
        connected := l.connected ++ connectedBy (.pump call input)
        built := l.built ++ l.edge.builtBy cfg (.pump call input)
        left := l.left ++ l.edge.leftBy (.pump call input) } stopping := by
  have kept := sound.each at_
  have live := (CallContext.pumpStep_cases turn).1
  have callId : ctx'.callId = ctx.callId := (CallContext.pumpStep_continues turn).callId
  have turned : ctx.Turned cfg input (ctx', effects) :=
    CallContext.pumpStep_turned kept.books
      (fun via stage is => ⟨(kept.staged via stage is).1, (kept.staged via stage is).2.1⟩)
      (fun enabling => (kept.enabling enabling).1) kept.joining turn
  have builtBy : l.edge.builtBy cfg (.pump call input) =
      if ctx.builds cfg input then [call] else [] := by
    simp [EdgeOrchestrator.builtBy, show l.edge.contexts[call]? = some ctx from at_]
  have leftBy : l.edge.leftBy (.pump call input) = if ctx.leavesBridge input then [call] else [] := by
    simp [EdgeOrchestrator.leftBy, show l.edge.contexts[call]? = some ctx from at_]
  have marks : l.edge.marks cfg (.pump call input) =
      ctx.oldMarks call input ++ CallContext.newMarks call (ctx', effects) := by
    simp [EdgeOrchestrator.marks, show l.edge.contexts[call]? = some ctx from at_, turn]
  have others : ∀ (b : Bool) (other : Nat), other ≠ call →
      (if b = true then [call] else []).count other = 0 := by
    intro b other ne
    split <;> simp [ne.symm]
  have own : ∀ b : Bool, (if b = true then [call] else []).count call = if b = true then 1 else 0 := by
    intro b
    split <;> simp
  have onwards : ∀ {callId}, (l.edge.update call ctx' effects).calls.lookup callId = some call →
      l.edge.calls.lookup callId = some call := EdgeOrchestrator.lookup_of_update
  refine sound_update effects sound at_ rfl rfl callId ?_ sound.modem (fun _ => id)
    (fun accepting => ?_) (List.subset_append_left _ _) (fun other ne => ?_) (fun other ne => ?_)
    (fun {other stage rest} is => ?_) ?_
  · constructor
    · exact turned.books
    · intro enabling
      obtain ⟨same, before | rfl⟩ := turned.enabling enabling
      · have ⟨none_, seen⟩ := kept.enabling before
        exact ⟨same.trans none_, List.mem_append_left _ seen⟩
      · exact ⟨same.trans (kept.unseen one), List.mem_append_right _ (List.mem_singleton_self _)⟩
    · intro unseen
      have unseen : call ∉ l.connected := fun seen => unseen (List.mem_append_left _ seen)
      refine (turned.enables.resolve_right fun enabling => ?_).trans (kept.unseen unseen)
      exact unseen (kept.enabling (by rw [enabling]; rfl)).2
    · exact turned.joining
    · have counted := kept.counted
      have bridge := turned.bridge
      dsimp only at bridge ⊢
      rw [builtBy, leftBy, List.count_append, List.count_append, own, own, counted]
      omega
    · exact fun absent => absurd absent turned.present
    · intro via stage is
      obtain ⟨staged, here⟩ := turned.staged via stage is
      refine ⟨staged, turned.cancelled, ?_⟩
      rcases here with popped | tearing
      · exact not_registered_of_pop popped
      · intro registered
        cases pump : ctx.pump <;> rw [pump] at tearing <;> try cases tearing
        refine (kept.staged _ _ pump).2.2 ?_
        rw [EdgeOrchestrator.Registered, ← callId]
        exact onwards registered
    · intro cancelled
      have none_ := turned.cancelled
      rw [cancelled] at none_
      cases none_
  · rw [sound.unstarted accepting at_] at live
    cases live
  · rw [builtBy, List.count_append, others _ _ ne, Nat.add_zero]
  · rw [leftBy, List.count_append, others _ _ ne, Nat.add_zero]
  · obtain ⟨found, got, staged, quelled, done⟩ := sound.stop is
    by_cases own : other = call
    · subst own
      obtain rfl := Option.some.inj (at_.symm.trans got)
      have early : stage = .tasks := by
        by_contra late
        rw [done late] at live
        cases live
      subst early
      exact .inr ⟨rfl, trivial, (CallContext.quelled_turn kept.books quelled (fun via stage is =>
        (kept.staged via stage is).1) turn).1, fun late => absurd rfl late⟩
    · exact .inl ⟨own, found, got, staged, quelled, done⟩
  · rw [marks]
    exact teardowns_pump sound at_ turn turned

/-! ### stop -/

/-- The teardown of a call whose pump has not been created returns at once. -/
theorem beginTeardown_absent (books : ctx.Books) (pump : ctx.pump = .absent)
    (unseen : ctx.enables = 0) (idle : ctx.audioTasks = 0) : (ctx.beginTeardown false).2 = none := by
  have balance := books.balance
  have disabled : ctx.cpcmregEnabled = false := by
    cases flag : ctx.cpcmregEnabled with
    | false => rfl
    | true =>
        rw [flag, if_pos rfl] at balance
        omega
  have bridge : ctx.bridge = none := by
    by_contra bridge
    have := books.bridged bridge
    omega
  simp [CallContext.beginTeardown, CallContext.cancelTasks, CallContext.awaitTasks,
    CallContext.tasksDone, CallContext.afterTasks, CallContext.afterBridgeLeave,
    CallContext.afterRtcLeave, pump, idle, disabled, bridge, books.session, PumpPc.live]

/-- Past the tasks of the call, its pump is not alive. -/
theorem beginTeardown_past {stage : Stage} (torn : (ctx.beginTeardown false).2 = some stage)
    (past : stage ≠ .tasks) : ctx.pump.live = false := by
  unfold CallContext.beginTeardown CallContext.awaitTasks at torn
  split at torn
  · rename_i done
    simp only [CallContext.tasksDone, CallContext.cancelTasks, Bool.false_eq_true, if_false,
      Bool.false_or, Bool.and_eq_true, Bool.not_eq_true'] at done
    exact done.2
  · exact absurd (Option.some.inj torn).symm past

/-- A registered call that `stop` takes. -/
theorem kept_taken {next : Option Stage} (kept : l.Kept call ctx)
    (registered : l.edge.Registered call ctx) (torn : ctx.beginTeardown false = (ctx', next))
    (edge : m.edge.calls = (l.edge.update call ctx' [.pop]).calls)
    (connected : m.connected = l.connected) (built : m.built = l.built) (left : m.left = l.left) :
    m.Kept call ctx' := by
  have same := ctx.beginTeardown_cancels
  obtain ⟨winds, bridge⟩ := CallContext.beginTeardown_winds false kept.books
  rw [torn] at same winds bridge
  constructor
  · exact winds.books
  · intro enabling
    rw [winds.enables, connected]
    exact kept.enabling (same.pump ▸ enabling)
  · intro unseen
    rw [winds.enables]
    exact kept.unseen (connected ▸ unseen)
  · intro joins
    rw [bridge]
    exact kept.joining (same.pump ▸ joins)
  · rw [built, left, CallContext.bridges, bridge]
    exact kept.counted
  · intro absent
    rw [winds.enables, same.audioTasks]
    exact kept.absent (same.pump ▸ absent)
  · intro via stage is
    exact absurd registered (kept.staged via stage (same.pump ▸ is)).2.2
  · intro _ still
    rw [EdgeOrchestrator.Registered, edge] at still
    exact not_registered_of_pop (List.mem_singleton_self _) still

/-- What `stop` has seen to when it first waits for a registered call. -/
theorem stopStaged_taken {stage : Stage} (kept : l.Kept call ctx)
    (registered : l.edge.Registered call ctx)
    (torn : ctx.beginTeardown false = (ctx', some stage)) : StopStaged ctx' stage := by
  have same := ctx.beginTeardown_cancels
  have winds := (CallContext.beginTeardown_winds false kept.books).1
  have next : (ctx.beginTeardown false).2 = some stage := by rw [torn]
  rw [torn] at same winds
  have present : ctx.pump ≠ .absent := by
    intro absent
    have unseen := kept.absent absent
    rw [beginTeardown_absent kept.books absent unseen.1 unseen.2] at next
    cases next
  have done_of : ctx.pump.live = false → ctx'.pump = .done := by
    intro dead
    rw [same.pump]
    show ctx.pump = .done
    cases pump : ctx.pump <;> rw [pump] at dead present <;>
      first | rfl | exact absurd rfl present | cases dead
  refine ⟨winds.staged stage rfl, ?_, fun past => done_of (beginTeardown_past next past)⟩
  cases live : ctx.pump.live with
  | false => exact .inl (done_of live)
  | true =>
      refine .inr (.inr ⟨by rw [same.pump]; exact live, ?_, by rw [same.pumpCancelled]; exact live⟩)
      rw [same.pump]
      show ctx.pump.tearing = false
      cases pump : ctx.pump <;> first | rfl | exact absurd registered (kept.staged _ _ pump).2.2

/-- Between two calls `stop` runs no teardown. -/
theorem runs_between {s : EdgeOrchestrator} {r : TeardownRun} (stopping : StopPc)
    (runs : s.Runs .notCalled r) :
    r.byPump = true ∧ s.Runs stopping r := by
  obtain ⟨found, got, enabled, rest⟩ := runs
  cases byPump : r.byPump with
  | false =>
      rw [byPump] at rest
      obtain ⟨_, _, is⟩ := rest
      cases is
  | true =>
      refine ⟨rfl, found, got, enabled, ?_⟩
      rw [byPump] at rest ⊢
      exact rest

theorem sound_stopNext (rest : List String) (sound : l.Sound .notCalled) :
    Sound
      { l with
        edge := l.edge.stopNext rest
        teardowns := (l.edge.stopMarks rest).foldl Teardowns.mark l.teardowns }
      (l.edge.stopNext rest).stopping := by
  induction rest generalizing l with
  | nil =>
      exact sound_same sound rfl rfl sound.modem (fun _ => id) rfl rfl rfl (fun is => by cases is)
        (sound.teardowns.mono fun r runs => (runs_between _ runs).2)
  | cons callId rest ih =>
      unfold EdgeOrchestrator.stopNext EdgeOrchestrator.stopMarks
      rcases found : l.edge.find callId with _ | ⟨call, ctx⟩
      · exact ih sound
      · dsimp only
        obtain ⟨known, at_⟩ := EdgeOrchestrator.of_find found
        have registered : l.edge.Registered call ctx := by
          obtain ⟨_, got, key⟩ := sound.keyed known
          obtain rfl := Option.some.inj (at_.symm.trans got)
          rw [EdgeOrchestrator.Registered, key]
          exact known
        have kept := sound.each at_
        have same := ctx.beginTeardown_cancels
        obtain ⟨winds, -⟩ := CallContext.beginTeardown_winds false kept.books
        -- the teardowns in progress are those of other calls
        have open_ : ∀ r, l.edge.Runs .notCalled r → r.isOf call true = false := by
          intro r runs
          by_contra own
          have tearing := (tearing_of_runs at_ runs (by simpa using own)).1
          cases pump : ctx.pump <;> rw [pump] at tearing <;> try cases tearing
          exact (kept.staged _ _ pump).2.2 registered
        have began := sound.teardowns.began (r := ⟨call, false, 0 < ctx.enables⟩)
        have moved : ∀ r, l.edge.Runs .notCalled r →
            (l.edge.update call (ctx.beginTeardown false).1 [.pop]).Runs .notCalled r := by
          intro r runs
          refine runs_update [.pop] at_ rfl (fun _ => winds.enables) (fun own => ?_) runs
          rw [open_ r runs] at own
          cases own
        have absent : ∀ ctx' : CallContext, ctx'.pump = ctx.pump → l.edge.handler = .acceptAck call →
            ctx'.pump = .absent := fun _ pump accepting =>
          pump.trans (sound.unstarted accepting at_)
        rcases torn : ctx.beginTeardown false with ⟨ctx', _ | stage⟩
        · -- it returned at once, and the loop goes on
          rw [torn] at winds moved same
          have between : Sound
              { l with
                edge := l.edge.update call ctx' [.pop]
                teardowns := (l.teardowns.mark (.began ⟨call, false, 0 < ctx.enables⟩)).mark
                  (.returned call false ctx'.disables) } .notCalled := by
            refine sound_update [.pop] sound at_ rfl rfl same.callId
              (kept_taken kept registered torn rfl rfl rfl rfl) sound.modem (fun _ => id)
              (absent ctx' same.pump) (List.Subset.refl _) (fun _ _ => rfl) (fun _ _ => rfl)
              (fun is => by cases is) ?_
            refine Teardowns.Ok.mono (fun r runs => ?_) (began.returns fun r runs own => ?_)
            · rcases runs with ⟨old | rfl, other⟩
              · exact moved r old
              · simp [TeardownRun.isOf] at other
            · rcases runs with old | rfl
              · have byPump := (runs_between .notCalled old).1
                simp [TeardownRun.isOf, byPump] at own
              · rw [winds.books.paired (winds.ended rfl), winds.enables]
                simp
          exact ih between
        · rw [torn] at winds moved same
          dsimp only
          refine sound_update [.pop] sound at_ rfl rfl same.callId
            (kept_taken kept registered torn rfl rfl rfl rfl) sound.modem (fun _ => id)
            (absent ctx' same.pump) (List.Subset.refl _) (fun _ _ => rfl) (fun _ _ => rfl)
            (fun {other stage' rest'} is => ?_) ?_
          · obtain ⟨rfl, rfl, -⟩ := StopPc.teardown.inj is
            exact .inr ⟨rfl, stopStaged_taken kept registered torn⟩
          · refine Teardowns.Ok.mono (fun r runs => ?_) began
            rcases runs with old | rfl
            · exact (runs_between _ (moved r old)).2
            · exact ⟨ctx', (EdgeOrchestrator.update_at [.pop] at_).mpr (.inl ⟨rfl, rfl⟩),
                by rw [winds.enables], stage, rest, rfl⟩

/-- `stop` goes on with a call: its pump is done, and the context quietens. -/
theorem kept_resumed {stage : Stage} {next : Option Stage} (kept : l.Kept call ctx)
    (staged : StopStaged ctx stage) (resumed : ctx.resumeTeardown false stage = some (ctx', next))
    (calls : m.edge.calls = (l.edge.update call ctx' []).calls)
    (connected : m.connected = l.connected) (built : m.built = l.built)
    (left : m.left = l.left ++ if stage = .bridgeLeave then [call] else []) :
    m.Kept call ctx' ∧ ctx'.pump = .done := by
  have same := CallContext.resumeTeardown_same resumed
  obtain ⟨winds, bridge⟩ := CallContext.resumeTeardown_winds kept.books staged.1 resumed
  have dead : ctx.pump.live = false := by
    by_cases early : stage = .tasks
    · subst early
      simp only [CallContext.resumeTeardown] at resumed
      split at resumed
      · rename_i done
        simp only [CallContext.tasksDone, Bool.false_or, Bool.and_eq_true,
          Bool.not_eq_true'] at done
        exact done.2
      · cases resumed
    · rw [staged.2.2 early]
      rfl
  have done : ctx.pump = .done := by
    rcases staged.2.1 with done | ⟨⟨_, tearing⟩, -⟩ | ⟨live, -⟩
    · exact done
    · rw [tearing] at dead
      cases dead
    · rw [dead] at live
      cases live
  have done' : ctx'.pump = .done := same.pump.trans done
  refine ⟨⟨winds.books, fun enabling => ?_, fun unseen => ?_, fun joins => ?_, ?_, fun absent => ?_,
    fun via stage is => ?_, fun cancelled registered => ?_⟩, done'⟩
  · rw [done'] at enabling
    cases enabling
  · rw [winds.enables]
    exact kept.unseen (connected ▸ unseen)
  · rw [done'] at joins
    cases joins
  · have counted := kept.counted
    rw [built, left, counted, CallContext.bridges, CallContext.bridges, bridge, List.count_append]
    by_cases leaves : stage = .bridgeLeave
    · subst leaves
      have joined : ctx.bridge ≠ none := staged.1
      simp [joined]
    · simp [leaves]
  · rw [done'] at absent
    cases absent
  · rw [done'] at is
    cases is
  · refine kept.cancelled (same.pumpCancelled ▸ cancelled) ?_
    rw [EdgeOrchestrator.Registered, calls] at registered
    rw [EdgeOrchestrator.Registered, ← same.callId]
    exact EdgeOrchestrator.lookup_of_update registered

/-- A new context: it is registered under its id. -/
theorem sound_accept (sound : l.Sound stopping) (dial : DialCommand) (modemCallId : Option Nat)
    (edge : m.edge =
      { l.edge.accept dial modemCallId with handler := .acceptAck l.edge.contexts.length })
    (teardowns : m.teardowns = l.teardowns) (connected : m.connected = l.connected)
    (built : m.built = l.built) (left : m.left = l.left) : m.Sound stopping := by
  have at' : ∀ {other found}, m.edge.At other found ↔ l.edge.At other found ∨
      other = l.edge.contexts.length ∧ found = { dial := dial, modemCallId := modemCallId } := by
    intro other found
    rw [EdgeOrchestrator.At, edge]
    exact EdgeOrchestrator.accept_at
  have lookup : ∀ callId, m.edge.calls.lookup callId =
      if callId = dial.callId then some l.edge.contexts.length else l.edge.calls.lookup callId := by
    intro callId
    rw [edge]
    exact EdgeOrchestrator.accept_lookup callId
  have bound : ∀ {other found}, l.edge.At other found → other < l.edge.contexts.length :=
    fun got => (List.getElem?_eq_some_iff.mp got).1
  refine ⟨fun {callId call} is => ?_, fun {call ctx} got => ?_, fun call past => ?_, by rw [edge]; rfl,
    fun {call ctx} accepting got => ?_, fun {call stage rest} is => ?_, ?_⟩
  · rw [lookup] at is
    split at is
    · rename_i key
      obtain rfl := Option.some.inj is
      exact ⟨_, at'.mpr (.inr ⟨rfl, rfl⟩), key.symm⟩
    · obtain ⟨ctx, got, key⟩ := sound.keyed is
      exact ⟨ctx, at'.mpr (.inl got), key⟩
  · rcases at'.mp got with old | ⟨rfl, rfl⟩
    · refine kept_other (sound.each old) (by rw [connected]; exact List.Subset.refl _) (by rw [built])
        (by rw [left]) fun {callId} is => ?_
      rw [lookup] at is
      split at is
      · have past := bound old
        have := Option.some.inj is
        omega
      · exact is
    · refine ⟨⟨rfl, rfl, Nat.zero_le _, (fun bridge => absurd rfl bridge), fun _ => rfl⟩,
        (fun enabling => by cases enabling), fun _ => rfl, (fun joins => by cases joins), ?_,
        fun _ => ⟨rfl, rfl⟩, (fun via stage is => by cases is), (fun cancelled => by cases cancelled)⟩
      rw [built, left]
      exact sound.beyond _ (Nat.le_refl _)
  · rw [built, left]
    refine sound.beyond call ?_
    rw [edge] at past
    simp only [EdgeOrchestrator.accept, EdgeOrchestrator.record, EdgeOrchestrator.register,
      List.length_append, List.length_singleton] at past
    omega
  · rw [edge] at accepting
    rcases at'.mp got with old | ⟨-, rfl⟩
    · have := bound old
      have := Handler.acceptAck.inj accepting
      omega
    · rfl
  · obtain ⟨ctx, got, staged⟩ := sound.stop is
    exact ⟨ctx, at'.mpr (.inl got), staged⟩
  · rw [teardowns]
    refine sound.teardowns.mono fun r runs => ?_
    obtain ⟨ctx, got, rest⟩ := runs
    exact ⟨ctx, at'.mpr (.inl got), rest⟩

/-! ### The step -/

theorem sound_init : Sound {} .notCalled where
  keyed := fun is => by simp at is
  each := fun got => by simp [EdgeOrchestrator.At] at got
  beyond := fun _ _ => rfl
  modem := rfl
  unstarted := fun accepting => by cases accepting
  stop := fun is => by cases is
  teardowns := ⟨fun r listed => by simp at listed, fun r n listed => by simp at listed⟩

/-- A step that leaves the teardown of `stop` where it is. -/
theorem stop_stays {stage : Stage} {rest : List String} (sound : l.Sound stopping)
    (at_ : l.edge.At call ctx) (stays : StopStaged ctx stage → StopStaged ctx' stage)
    (is : stopping = .teardown other stage rest) :
    other ≠ call ∧ (∃ found, l.edge.At other found ∧ StopStaged found stage) ∨
      other = call ∧ StopStaged ctx' stage := by
  obtain ⟨found, got, staged⟩ := sound.stop is
  by_cases own : other = call
  · subst own
    obtain rfl := Option.some.inj (at_.symm.trans got)
    exact .inr ⟨rfl, stays staged⟩
  · exact .inl ⟨own, found, got, staged⟩

/-- `stop` and the pumps apart, no action touches a teardown or a bridge. -/
theorem sound_handler {action : EdgeAction} {edge : EdgeOrchestrator}
    (modem : cfg.devNoModem = false) (sound : l.Sound l.edge.stopping)
    (notPump : ∀ call input, action ≠ .pump call input) (notStop : action ≠ .stop)
    (notResume : action ≠ .stopResume) (stepped : l.edge.step cfg action = some edge) :
    Sound { l with edge := edge } edge.stopping := by
  have mode : ¬ cfg.devNoModem = true := by simp [modem]
  have calm : ∀ handler : Handler, l.edge.handler = handler → handler.dev = true → False := by
    rintro handler rfl dev
    rw [sound.modem] at dev
    cases dev
  cases EdgeOrchestrator.step_cases stepped with
  | start =>
      exact sound_same sound rfl rfl sound.modem (fun _ => id) rfl rfl rfl sound.stop sound.teardowns
  | duplicate | atDial | dialRaised =>
      exact sound_same sound rfl rfl rfl (fun _ is => by cases is) rfl rfl rfl sound.stop
        sound.teardowns
  | cancelIgnored => exact sound
  | settled =>
      exact sound_same sound rfl rfl rfl (fun _ is => by cases is) rfl rfl rfl sound.stop
        sound.teardowns
  | devDial _ _ dev => exact absurd dev mode
  | devHangup _ _ _ dev =>
      rcases dev with dev | held
      · exact absurd dev mode
      · exact absurd (calm _ held rfl) id
  | devConnected held | devSession held | devJoined _ held | devPopped held | devTornDown held =>
      exact absurd (calm _ held rfl) id
  | dialReturned modemCallId held => exact sound_accept sound _ (some modemCallId) rfl rfl rfl rfl rfl
  | @cancelModem call ctx _ _ _ at_ =>
      have onwards : ∀ {callId}, (l.edge.update call ctx [.atHangup]).calls.lookup callId = some call →
          l.edge.calls.lookup callId = some call := EdgeOrchestrator.lookup_of_update
      refine sound_update [.atHangup] sound at_ rfl rfl rfl
        (kept_other (sound.each at_) (List.Subset.refl _) rfl rfl onwards) rfl
        (fun _ is => by cases is) (fun is => by cases is) (List.Subset.refl _) (fun _ _ => rfl)
        (fun _ _ => rfl) (fun is => stop_stays sound at_ id is) ?_
      exact sound.teardowns.mono fun r runs =>
        runs_update [.atHangup] at_ rfl (fun _ => rfl) (fun own => (tearing_of_runs at_ runs own).1)
          runs
  | @accepted call ctx held at_ =>
      have kept := sound.each at_
      have absent := sound.unstarted held at_
      have onwards : ∀ {callId},
          (l.edge.update call { ctx with pump := .created } []).calls.lookup callId = some call →
            l.edge.calls.lookup callId = some call := EdgeOrchestrator.lookup_of_update
      refine sound_update [] sound at_ rfl rfl rfl ?_ rfl (fun _ is => by cases is)
        (fun is => by cases is) (List.Subset.refl _) (fun _ _ => rfl) (fun _ _ => rfl)
        (fun is => stop_stays sound at_ (fun staged => ?_) is) ?_
      · exact ⟨⟨kept.books.session, kept.books.balance, kept.books.once, kept.books.bridged,
          kept.books.dropped⟩, (fun is => by cases is), kept.unseen, (fun is => by cases is),
          kept.counted, (fun is => by cases is), (fun _ _ is => by cases is),
          fun cancelled registered => kept.cancelled cancelled (onwards registered)⟩
      · -- `stop` waits for no call whose pump is still to be created
        rcases staged.2.1 with done | ⟨⟨_, tearing⟩, -⟩ | ⟨live, -⟩
        · rw [absent] at done
          cases done
        · rw [absent] at tearing
          cases tearing
        · rw [absent] at live
          cases live
      · refine sound.teardowns.mono fun r runs =>
          runs_update [] at_ rfl (fun _ => rfl) (fun own => ?_) runs
        have tearing := (tearing_of_runs at_ runs own).1
        rw [absent] at tearing
        cases tearing
  | @audioEnd call ctx at_ =>
      have kept := sound.each at_
      have onwards : ∀ {callId}, (l.edge.update call
          { ctx with audioTasks := ctx.audioTasks - 1 } []).calls.lookup callId = some call →
            l.edge.calls.lookup callId = some call := EdgeOrchestrator.lookup_of_update
      have absent : l.edge.handler = .acceptAck call → ctx.pump = .absent :=
        fun accepting => sound.unstarted accepting at_
      have staged : ∀ stage, ctx.Staged stage →
          CallContext.Staged { ctx with audioTasks := ctx.audioTasks - 1 } stage := by
        intro stage staged
        cases stage <;> exact staged
      refine sound_update [] sound at_ rfl rfl rfl ?_ sound.modem (fun _ => id)
        (fun accepting => absent accepting) (List.Subset.refl _) (fun _ _ => rfl)
        (fun _ _ => rfl) (fun is => stop_stays sound at_ (fun old => ?_) is) ?_
      · refine ⟨⟨kept.books.session, kept.books.balance, kept.books.once, kept.books.bridged,
          kept.books.dropped⟩, kept.enabling, kept.unseen, kept.joining, kept.counted,
          fun absent => ⟨(kept.absent absent).1, ?_⟩, fun via stage is => ?_,
          fun cancelled registered => kept.cancelled cancelled (onwards registered)⟩
        · show ctx.audioTasks - 1 = 0
          rw [(kept.absent absent).2]
        · obtain ⟨old, running, gone⟩ := kept.staged via stage is
          exact ⟨staged stage old, running, fun registered => gone (onwards registered)⟩
      · exact ⟨staged _ old.1, old.2.1, old.2.2⟩
      · exact sound.teardowns.mono fun r runs =>
          runs_update [] at_ rfl (fun _ => rfl) (fun own => (tearing_of_runs at_ runs own).1) runs
  | pump => exact absurd rfl (notPump _ _)
  | stop => exact absurd rfl notStop
  | stopStage | stopCall | stopReturned => exact absurd rfl notResume

/-- `stop` goes on: its teardown reaches another await, or it returns and the
loop goes on. -/
theorem sound_resume {stage : Stage} {rest : List String} {next : Option Stage}
    (sound : l.Sound (.teardown call stage rest)) (at_ : l.edge.At call ctx)
    (resumed : ctx.resumeTeardown false stage = some (ctx', next)) :
    Sound
      { l with
        edge := l.edge.update call ctx' []
        teardowns := (returnMark call false (some (ctx', next))).foldl Teardowns.mark l.teardowns
        left := l.left ++ if stage = .bridgeLeave then [call] else [] }
      (match next with
        | some stage' => .teardown call stage' rest
        | none => .notCalled) := by
  obtain ⟨found, got, staged⟩ := sound.stop rfl
  obtain rfl := Option.some.inj (at_.symm.trans got)
  have kept := sound.each at_
  have same := CallContext.resumeTeardown_same resumed
  have winds := (CallContext.resumeTeardown_winds kept.books staged.1 resumed).1
  have after : Kept _ call ctx' ∧ ctx'.pump = .done :=
    kept_resumed (m := { l with
      edge := l.edge.update call ctx' []
      teardowns := (returnMark call false (some (ctx', next))).foldl Teardowns.mark l.teardowns
      left := l.left ++ if stage = .bridgeLeave then [call] else [] })
      kept staged resumed rfl rfl rfl rfl
  have stays : ∀ (stopping : StopPc) (r : TeardownRun),
      (r.byPump = false → ∃ stage rest, stopping = .teardown r.call stage rest) →
      l.edge.Runs (.teardown call stage rest) r → (l.edge.update call ctx' []).Runs stopping r := by
    intro stopping r byStop runs
    have moved := runs_update (t := l.edge.update call ctx' []) [] at_ rfl (fun _ => winds.enables)
      (fun own => same.pump ▸ (tearing_of_runs at_ runs own).1) runs
    obtain ⟨found, got, enabled, how⟩ := moved
    refine ⟨found, got, enabled, ?_⟩
    cases byPump : r.byPump with
    | true =>
        rw [byPump] at how
        exact how
    | false => exact byStop byPump
  refine sound_update [] sound at_ rfl rfl same.callId after.1 sound.modem (fun _ => id)
    (fun accepting => same.pump.trans (sound.unstarted accepting at_)) (List.Subset.refl _)
    (fun _ _ => rfl) (fun other ne => ?_) (fun {other stage' rest'} is => ?_) ?_
  · dsimp only
    split <;> simp [ne.symm]
  · cases next with
    | none => cases is
    | some following =>
        obtain ⟨rfl, rfl, -⟩ := StopPc.teardown.inj is
        exact .inr ⟨rfl, winds.staged following rfl, .inl after.2, fun _ => after.2⟩
  · cases next with
    | some following =>
        refine sound.teardowns.mono fun r runs => stays _ r (fun byStop => ?_) runs
        obtain ⟨_, -, -, how⟩ := runs
        rw [byStop] at how
        obtain ⟨stage', rest', is⟩ := how
        exact ⟨following, rest, by rw [(StopPc.teardown.inj is).1]⟩
    | none =>
        refine Teardowns.Ok.mono (fun r runs => ?_)
          (sound.teardowns.returns fun r runs own => ?_)
        · refine stays _ r (fun byStop => ?_) runs.1
          obtain ⟨⟨_, -, -, how⟩, other⟩ := runs
          rw [byStop] at how
          obtain ⟨stage', rest', is⟩ := how
          simp [TeardownRun.isOf, byStop, (StopPc.teardown.inj is).1] at other
        · simp only [TeardownRun.isOf, Bool.and_eq_true, decide_eq_true_eq] at own
          obtain ⟨found, got, enabled, -⟩ := runs
          rw [own.1] at got
          obtain rfl := Option.some.inj (at_.symm.trans got)
          rw [winds.books.paired (winds.ended rfl), winds.enables, enabled]
          simp

theorem leftBy_resume {s : EdgeOrchestrator} {stage : Stage} {rest : List String}
    (held : s.stopping = .teardown call stage rest) :
    s.leftBy .stopResume = if stage = .bridgeLeave then [call] else [] := by
  simp only [EdgeOrchestrator.leftBy, held]
  cases stage <;> rfl

theorem sound_stopResume {edge : EdgeOrchestrator} (sound : l.Sound l.edge.stopping)
    (stepped : l.edge.step cfg .stopResume = some edge) :
    Sound
      { edge := edge
        teardowns := (l.edge.marks cfg .stopResume).foldl Teardowns.mark l.teardowns
        connected := l.connected ++ connectedBy .stopResume
        built := l.built ++ l.edge.builtBy cfg .stopResume
        left := l.left ++ l.edge.leftBy .stopResume } edge.stopping := by
  have between : ∀ {call stage rest}, l.edge.stopping = .teardown call stage rest → ∀ {ctx next},
      l.edge.At call ctx → ctx.resumeTeardown false stage = some next →
      l.edge.marks cfg .stopResume = returnMark call false (some next) ++
        match next with
        | (_, some _) => []
        | (ctx', none) => (l.edge.update call ctx' []).stopMarks rest := by
    intro call stage rest held ctx next at_ resumed
    have got : l.edge.contexts[call]? = some ctx := at_
    rcases next with ⟨ctx', _ | stage'⟩ <;>
      simp [EdgeOrchestrator.marks, EdgeOrchestrator.resumeMarks, held, got, resumed, returnMark]
  have stepped : l.edge.resumeStop = some edge := stepped
  unfold EdgeOrchestrator.resumeStop at stepped
  split at stepped
  · rename_i call stage rest held
    obtain ⟨ctx, at_, moved⟩ := Option.bind_eq_some_iff.mp stepped
    obtain ⟨⟨ctx', next⟩, resumed, rfl⟩ := Option.map_eq_some_iff.mp moved
    have marks := between held at_ resumed
    rw [held] at sound
    have kept := sound_resume sound at_ resumed
    rw [marks, leftBy_resume held, List.foldl_append]
    cases next with
    | some stage' =>
        exact sound_same kept rfl rfl kept.modem (fun _ => id) (List.append_nil _)
          (List.append_nil _) rfl kept.stop kept.teardowns
    | none =>
        have onwards := sound_stopNext rest kept
        exact sound_same onwards rfl rfl onwards.modem (fun _ => id) (List.append_nil _)
          (List.append_nil _) rfl onwards.stop onwards.teardowns
  · rename_i held
    obtain rfl := Option.some.inj stepped
    have marks : l.edge.marks cfg .stopResume = [] := by
      simp [EdgeOrchestrator.marks, EdgeOrchestrator.resumeMarks, held]
    have left : l.edge.leftBy .stopResume = [] := by simp [EdgeOrchestrator.leftBy, held]
    rw [held] at sound
    rw [marks, left]
    refine sound_same sound rfl rfl sound.modem (fun _ => id) (List.append_nil _)
      (List.append_nil _) (List.append_nil _) (fun is => by cases is) ?_
    refine sound.teardowns.mono fun r runs => ?_
    obtain ⟨found, got, enabled, how⟩ := runs
    refine ⟨found, got, enabled, ?_⟩
    cases byPump : r.byPump with
    | true =>
        rw [byPump] at how
        exact how
    | false =>
        rw [byPump] at how
        obtain ⟨_, _, is⟩ := how
        cases is
  · cases stepped

/-- **One step.**  In modem mode, with one connected event a call, a step keeps
the books. -/
theorem sound_step {action : EdgeAction} (modem : cfg.devNoModem = false)
    (sound : l.Sound l.edge.stopping) (one : l.OneConnected action)
    (next : l.step cfg action = some m) : m.Sound m.edge.stopping := by
  obtain ⟨edge, stepped, rfl⟩ := Option.map_eq_some_iff.mp next
  cases action with
  | pump call input =>
      obtain ⟨ctx, at_, turned⟩ := Option.bind_eq_some_iff.mp stepped
      obtain ⟨⟨ctx', effects⟩, turn, rfl⟩ := Option.map_eq_some_iff.mp turned
      exact sound_pump sound at_ turn one
  | stop =>
      simp only [EdgeOrchestrator.step] at stepped
      split at stepped
      · rename_i first
        obtain rfl := Option.some.inj stepped
        rw [first] at sound
        have kept := sound_stopNext (l.edge.calls.map (·.1)) sound
        simpa [EdgeOrchestrator.marks, connectedBy, EdgeOrchestrator.builtBy,
          EdgeOrchestrator.leftBy] using kept
      · cases stepped
  | stopResume => exact sound_stopResume sound stepped
  | _ =>
      have kept := sound_handler modem sound (by simp) (by simp) (by simp) stepped
      simpa [EdgeOrchestrator.marks, connectedBy, EdgeOrchestrator.builtBy,
        EdgeOrchestrator.leftBy] using kept

theorem sound_run (modem : cfg.devNoModem = false)
    (run : Reachable (step cfg) OneConnected {} l) : l.Sound l.edge.stopping :=
  run.invariant (P := fun l => l.Sound l.edge.stopping) sound_init
    fun _ _ _ sound one next => sound_step modem sound one next

/-! ## CPCMREG -/

/-- **CPCMREG is paired.**  In modem mode, when the modem reports each call
connected at most once, every teardown that returned leaves one disable for an
enabled call and none for another, no call has more disables than enables, and
the disable follows the leave of every bridge of its call. -/
theorem cpcmreg_paired (cfg : Config) (modem : cfg.devNoModem = false) (l : PcmLog)
    (run : Reachable (step cfg) OneConnected {} l) : l.Paired := by
  have sound := sound_run modem run
  refine ⟨sound.teardowns.returned, fun ctx listed => ?_, fun call ctx at_ disabled => ?_⟩
  · obtain ⟨call, bound, got⟩ := List.mem_iff_getElem.mp listed
    have at_ : l.edge.At call ctx := by
      rw [EdgeOrchestrator.At, List.getElem?_eq_getElem bound, got]
    have balance := (sound.each at_).books.balance
    omega
  · have kept := sound.each at_
    have counted := kept.counted
    rw [CallContext.bridges, kept.books.dropped disabled, if_pos rfl] at counted
    omega

/-! ## Poles -/

/-- A call is connected and joined, and the far end hangs up. -/
def answeredActions : List EdgeAction :=
  [.start, .message (.dial { callId := "x", rtcUidEngine := "engine" }), .handler (.dialReturned 0),
    .handler (.sent true), .pump 0 .start, .pump 0 (.event .connected), .pump 0 (.sent true),
    .pump 0 (.enabled .ok true), .pump 0 .joined, .pump 0 (.event (.remoteHangup none)),
    .pump 0 (.sent true), .audioEnd 0, .audioEnd 0, .pump 0 .stageDone, .pump 0 .stageDone,
    .pump 0 .stageDone]

theorem answered_runs : (guardedRun (step {}) OneConnected {} answeredActions).isSome = true := by
  decide

theorem answered_pairs_cpcmreg :
    (Option.get _ answered_runs).teardowns.returned = [(⟨0, true, true⟩, 1)] ∧
      (Option.get _ answered_runs).Paired :=
  ⟨by decide, cpcmreg_paired {} rfl _ (reachable_guarded_get answered_runs)⟩

/-- The join of a call fails and the call is torn down, a second connected event
sets it up again, and after a retry of the dial the stream ends. -/
def reconnectedActions : List EdgeAction :=
  [.start, .message (.dial { callId := "x", rtcUidEngine := "engine" }), .handler (.dialReturned 0),
    .handler (.sent true), .pump 0 .start, .pump 0 (.event .connected), .pump 0 (.sent true),
    .pump 0 (.enabled .ok true), .pump 0 .joinFailed, .pump 0 (.sent true), .pump 0 .stageDone,
    .pump 0 .stageDone, .pump 0 (.event .connected), .pump 0 (.sent true),
    .pump 0 (.enabled .ok true), .pump 0 .joined,
    .message (.dial { callId := "x", rtcUidEngine := "engine" }), .handler (.dialReturned 1),
    .handler (.sent true), .pump 0 .streamEnd, .audioEnd 0, .audioEnd 0, .pump 0 .stageDone,
    .pump 0 .stageDone, .pump 0 .stageDone]

theorem reconnected_runs : (run (step {}) {} reconnectedActions).isSome = true := by decide

/-- **A second connected event disables twice.**  The teardown of the failed join
is followed by another for the same context, which sends CPCMREG=0 once more. -/
theorem second_connected_disables_twice :
    ¬ ∀ (cfg : Config) (l : PcmLog), cfg.devNoModem = false → Reachable (step cfg) Free {} l →
      l.Paired := by
  intro claim
  have paired := claim {} _ rfl (reachable_get reconnected_runs)
  exact absurd (paired.returned ⟨0, true, true⟩ 2 (by decide)) (by decide)

end PcmLog

end IsalesTelephony.Edge
