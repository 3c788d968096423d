/-
# Edge.AudioOwnership -- one call at a time on the audio backends

Capture and playback are shared by all calls, and nothing checks that only one call uses
them.  It follows from the slot of the AT client: the audio tasks of a call run only while
its pump does and its event stream is suspended half-way, and such a stream holds the slot.

A stream hands out `connected` once (`heard`), so a call is set up once; and the pump
awaits the audio tasks before it returns, because until then its call is in the map.
Both need that no two commands carry one call id (`DistinctCalls`), else a pump would find
the entry of another call in the map.
-/
import IsalesTelephony.Edge.SlotAgreement

namespace IsalesTelephony.Edge

set_option autoImplicit false

open IsalesTelephony.Modem (SerialAtClient SerialAction StreamPc StreamLog Call)
open IsalesTelephony.Theory IsalesTelephony.Theory.Transition

/-- The pump sets the call up: `_handle_connected` before its hangup paths. -/
def PumpPc.setup : PumpPc → Bool
  | .connectedSend => true
  | .cpcmregEnable => true
  | .alertSend => true
  | .join => true
  | _ => false

/-- Audio tasks may run while the call is in the map. -/
def PumpPc.plays : PumpPc → Bool
  | .nextEvent => true
  | .hangupSend _ => true
  | _ => false

/-- The pump is on a failure path of `_handle_connected`, and reads on afterwards. -/
def PumpPc.returns : PumpPc → Bool
  | .hangupSend .pcmFailed => true
  | .hangupSend .joinFailed => true
  | .teardown .pcmFailed _ => true
  | .teardown .joinFailed _ => true
  | .modemHangup => true
  | _ => false

/-- Audio tasks and a pump that awaits them in `teardown`. -/
def PumpPc.reaping : PumpPc → Bool
  | .teardown _ .tasks => true
  | _ => false

theorem PumpPc.of_dead {pump : PumpPc} (dead : pump.live = false) :
    pump = .absent ∨ pump = .done := by
  unfold PumpPc.live at dead
  split at dead
  · exact .inl rfl
  · exact .inr rfl
  · cases dead

namespace CallContext

variable {cfg : Config} {ctx ctx' : CallContext} {inCalls : Bool} {via : Via} {input : PumpInput}

/-! ## One turn of a pump -/

/-- What a turn does to the audio tasks, and where it leads. -/
structure Sounds (ctx : CallContext) (input : PumpInput) (turn : PumpStep) : Prop where
  audio : 0 < turn.1.audioTasks → 0 < ctx.audioTasks ∧ turn.1.pump.reaping = true ∨
    .pop ∉ turn.2 ∧ turn.1.pump.plays = true ∧ (0 < ctx.audioTasks ∨ ctx.pump = .join)
  setup : turn.1.pump.setup = true → .pop ∉ turn.2 ∧
    (ctx.pump.setup = true ∨ input = .event .connected)
  returns : turn.1.pump.returns = true → ctx.pump.returns = true ∨ ctx.pump.setup = true
  home : turn.1.pump = .nextEvent → ctx.pump = .created ∧ .pop ∉ turn.2 ∨
    ctx.pump.returns = true ∨ ctx.pump.setup = true
  present : turn.1.pump ≠ .absent ∧ turn.1.pump ≠ .created

/-- A turn to another await. -/
theorem sounds_to (pump : PumpPc) (effects : List Effect) (kept : .pop ∉ effects)
    (audio : 0 < ctx.audioTasks → pump.plays = true)
    (setup : pump.setup = true → ctx.pump.setup = true ∨ input = .event .connected)
    (returns : pump.returns = true → ctx.pump.returns = true ∨ ctx.pump.setup = true)
    (home : pump = .nextEvent → ctx.pump = .created ∨ ctx.pump.returns = true ∨
      ctx.pump.setup = true)
    (present : pump ≠ .absent ∧ pump ≠ .created) :
    ctx.Sounds input ({ ctx with pump := pump }, effects) where
  audio := fun playing => .inr ⟨kept, audio playing, .inl playing⟩
  setup := fun is => ⟨kept, setup is⟩
  returns := returns
  home := fun is => (home is).imp_left fun created => ⟨created, kept⟩
  present := present

/-- The teardown the pump begins waits for the audio tasks. -/
theorem beginTeardown_playing (playing : 0 < ctx.audioTasks) :
    ctx.beginTeardown true = (ctx, some .tasks) := by
  have busy : ctx.audioTasks ≠ 0 := by omega
  simp [beginTeardown, cancelTasks, awaitTasks, tasksDone, busy]

/-- A teardown of the pump that has left an audio task is at its first await. -/
theorem torn_playing {stage : Option Stage} (torn : ctx.beginTeardown true = (ctx', stage))
    (playing : 0 < ctx'.audioTasks) :
    0 < ctx.audioTasks ∧ ctx' = ctx ∧ stage = some .tasks := by
  have same := ctx.beginTeardown_same
  rw [torn] at same
  have before : 0 < ctx.audioTasks := same.audioTasks ▸ playing
  rw [beginTeardown_playing before] at torn
  obtain ⟨rfl, rfl⟩ := Prod.mk.inj torn
  exact ⟨before, rfl, rfl⟩

theorem exitPump_sounds (known : 0 < ctx.audioTasks → inCalls = true) :
    ctx.Sounds input (ctx.exitPump inCalls) := by
  unfold exitPump
  split
  · split
    · rename_i ctx' stage torn
      refine ⟨fun playing => .inl ?_, (fun is => by cases is), (fun is => by cases is),
        (fun is => by cases is), by simp⟩
      obtain ⟨before, -, await⟩ := torn_playing torn playing
      obtain rfl := Option.some.inj await
      exact ⟨before, rfl⟩
    · rename_i ctx' torn
      refine ⟨fun playing => ?_, (fun is => by cases is), (fun is => by cases is),
        (fun is => by cases is), by simp⟩
      cases (torn_playing torn playing).2.2
  · rename_i unknown
    refine ⟨fun playing => absurd (known playing) unknown, (fun is => by cases is),
      (fun is => by cases is), (fun is => by cases is), by simp⟩

/-- `_handle_remote_hangup` has returned; audio tasks are left after an event alone. -/
theorem afterHangup_sounds (known : 0 < ctx.audioTasks → via = .event ∧ inCalls = true)
    (failed : via = .pcmFailed ∨ via = .joinFailed →
      ctx.pump.returns = true ∨ ctx.pump.setup = true) :
    ctx.Sounds input (ctx.afterHangup inCalls via) := by
  cases via with
  | event => exact exitPump_sounds fun playing => (known playing).2
  | pcmFailed =>
      exact sounds_to _ _ (by simp) (fun playing => by cases (known playing).1)
        (fun is => by cases is) (fun _ => failed (.inl rfl)) (fun is => by cases is) (by simp)
  | joinFailed =>
      exact sounds_to _ _ (by simp) (fun playing => by cases (known playing).1)
        (fun is => by cases is) (fun is => by cases is) (fun _ => .inr (failed (.inr rfl))) (by simp)
  | final =>
      exact sounds_to _ _ (by simp) (fun playing => by cases (known playing).1)
        (fun is => by cases is) (fun is => by cases is) (fun is => by cases is) (by simp)

theorem handleRemoteHangup_sounds (cause : Option String)
    (known : 0 < ctx.audioTasks → via = .event ∧ inCalls = true)
    (failed : via = .pcmFailed ∨ via = .joinFailed →
      ctx.pump.returns = true ∨ ctx.pump.setup = true) :
    ctx.Sounds input (ctx.handleRemoteHangup inCalls via cause) := by
  unfold handleRemoteHangup
  split
  · exact afterHangup_sounds known failed
  · have sends : ctx.Sounds input ({ ctx with pump := .hangupSend via },
        [.send (sendCallEventRemoteHangup ctx.callId cause)]) := by
      refine sounds_to _ _ (by simp) (fun _ => rfl) (fun is => by cases is) (fun is => failed ?_)
        (fun is => by cases is) (by simp)
      cases via <;> first | exact .inl rfl | exact .inr rfl | cases is
    exact ⟨sends.audio, sends.setup, sends.returns, sends.home, sends.present⟩

/-- The context differs in nothing that counts here. -/
theorem Sounds.of_eq {turn : PumpStep} (pump : ctx'.pump = ctx.pump)
    (audio : ctx'.audioTasks = ctx.audioTasks) (sounds : ctx'.Sounds input turn) :
    ctx.Sounds input turn := by
  refine ⟨fun playing => ?_, fun is => ?_, fun is => ?_, fun is => ?_, sounds.present⟩
  · rw [← pump, ← audio]
    exact sounds.audio playing
  · rw [← pump]
    exact sounds.setup is
  · rw [← pump]
    exact sounds.returns is
  · rw [← pump]
    exact sounds.home is

/-- The CallEvent is sent. -/
theorem popAndTeardown_sounds (at_ : ctx.pump = .hangupSend via) :
    ctx.Sounds input (ctx.popAndTeardown via) := by
  have same := ctx.beginTeardown_same
  have failed : ∀ stage, (PumpPc.teardown via stage).returns = true → ctx.pump.returns = true := by
    intro stage is
    rw [at_]
    cases via <;> first | rfl | cases is
  unfold popAndTeardown
  split
  · rename_i ctx' stage torn
    refine ⟨fun playing => .inl ?_, (fun is => by cases is), fun is => .inl (failed stage is),
      (fun is => by cases is), by simp⟩
    obtain ⟨before, -, await⟩ := torn_playing torn playing
    obtain rfl := Option.some.inj await
    exact ⟨before, rfl⟩
  · rename_i ctx' torn
    rw [torn] at same
    have silent : ¬ 0 < ctx'.audioTasks := by
      intro playing
      cases (torn_playing torn playing).2.2
    have after : ctx'.Sounds input (ctx'.afterHangup false via) :=
      afterHangup_sounds (fun playing => absurd playing silent) fun is => .inl (by
        rw [same.pump, at_]
        rcases is with rfl | rfl <;> rfl)
    have after := Sounds.of_eq same.pump same.audioTasks after
    have quiet : ¬ 0 < (ctx'.afterHangup false via).1.audioTasks := by
      intro playing
      cases via <;> exact silent playing
    refine ⟨fun playing => absurd playing quiet, fun is => ?_, after.returns, fun is => .inr ?_,
      after.present⟩
    · cases via <;> cases is
    · cases via <;> first | exact .inl (by rw [at_]; rfl) | cases is

/-- The teardown of the pump goes on. -/
theorem resumed_sounds {stage : Stage} {next : Option Stage} (at_ : ctx.pump = .teardown via stage)
    (silent : ctx.audioTasks = 0) (resumed : ctx.resumeTeardown true stage = some (ctx', next)) :
    ctx.Sounds input (match (ctx', next) with
      | (ctx, some stage) => ({ ctx with pump := .teardown via stage }, [])
      | (ctx, none) => ctx.afterHangup inCalls via) := by
  have same := resumeTeardown_same resumed
  have silent : ¬ 0 < ctx'.audioTasks := by
    rw [same.audioTasks, silent]
    exact Nat.lt_irrefl 0
  refine Sounds.of_eq same.pump same.audioTasks ?_
  have at' : ctx'.pump = .teardown via stage := same.pump.trans at_
  cases next with
  | some stage' =>
      refine sounds_to _ _ (by simp) (fun playing => absurd playing silent) (fun is => by cases is)
        (fun is => .inl ?_) (fun is => by cases is) (by simp)
      rw [at']
      cases via <;> first | rfl | cases is
  | none =>
      refine afterHangup_sounds (fun playing => absurd playing silent) fun is => .inl ?_
      rw [at']
      rcases is with rfl | rfl <;> rfl

theorem buildAudioPath_sounds {begin_ : BeginCall} {factory : Bool} (at_ : ctx.pump = .cpcmregEnable)
    (silent : ¬ 0 < ctx.audioTasks) :
    ctx.Sounds input (ctx.buildAudioPath cfg inCalls begin_ factory) := by
  simp only [buildAudioPath]
  split
  · refine Sounds.of_eq ?_ ?_ (exitPump_sounds fun playing => absurd playing silent)
    · rfl
    · rfl
  · exact ⟨fun playing => absurd playing silent, fun _ => ⟨by simp, .inl (by rw [at_]; rfl)⟩,
      (fun is => by cases is), (fun is => by cases is), by simp⟩

/-- The pump goes on with its teardown once the audio tasks have ended. -/
theorem reaped {turn : PumpStep} (reaps : ctx.pump.reaping = true)
    (running : ctx.pumpCancelled = false) (stepped : ctx.pumpStep cfg inCalls input = some turn) :
    ctx.audioTasks = 0 := by
  obtain ⟨-, ⟨-, ran⟩ | ⟨cancelled, -⟩⟩ := pumpStep_cases stepped
  · unfold PumpPc.reaping at reaps
    split at reaps
    · rename_i via at_
      rw [at_] at ran
      cases input <;> simp [runPump, resumeTeardown, tasksDone] at ran
      exact ran.1
    · cases reaps
  · rw [running] at cancelled
    cases cancelled

theorem pumpStep_sounds {turn : PumpStep} (running : ctx.pumpCancelled = false)
    (playing : 0 < ctx.audioTasks → ctx.pump.plays = true ∧ inCalls = true)
    (heard : input ≠ .event .other) (quiet : input = .event .connected → ctx.audioTasks = 0)
    (stepped : ctx.pumpStep cfg inCalls input = some turn) :
    ctx.Sounds input turn := by
  obtain ⟨-, ⟨-, ran⟩ | ⟨cancelled, -⟩⟩ := pumpStep_cases stepped
  · have exits : ctx.Sounds input (ctx.exitPump inCalls) :=
      exitPump_sounds fun audio => (playing audio).2
    have silent : ctx.pump.plays = false → ¬ 0 < ctx.audioTasks := by
      intro quiet audio
      rw [(playing audio).1] at quiet
      cases quiet
    -- `_handle_connected` fails while no audio task runs yet
    have fails : ∀ (via : Via) (cause : Option String), ctx.pump.setup = true →
        ctx.Sounds input (ctx.handleRemoteHangup inCalls via cause) := by
      intro via cause sets
      refine handleRemoteHangup_sounds cause (fun audio => ?_) fun _ => .inr sets
      refine absurd audio (silent ?_)
      cases pump : ctx.pump <;> rw [pump] at sets <;> first | rfl | cases sets
    unfold runPump at ran
    split at ran
    case h_1 at_ =>
      rw [← Option.some.inj ran]
      exact sounds_to _ _ (by simp) (fun _ => rfl) (fun is => by cases is) (fun is => by cases is)
        (fun _ => .inl at_) (by simp)
    case h_2 at_ =>
      rw [← Option.some.inj ran]
      exact sounds_to _ _ (by simp) (fun audio => absurd (quiet rfl) (Nat.ne_of_gt audio))
        (fun _ => .inr rfl) (fun is => by cases is) (fun is => by cases is) (by simp)
    case h_3 cause at_ =>
      rw [← Option.some.inj ran]
      refine Sounds.of_eq ?_ ?_ (handleRemoteHangup_sounds cause
        (fun audio => ⟨rfl, (playing audio).2⟩) (fun is => by rcases is with is | is <;> cases is))
      · rfl
      · rfl
    case h_4 => exact absurd rfl heard
    case h_7 at_ =>
      rw [← Option.some.inj ran]
      exact sounds_to _ _ (by simp) (fun audio => absurd audio (silent (by rw [at_]; rfl)))
        (fun _ => .inl (by rw [at_]; rfl)) (fun is => by cases is) (fun is => by cases is) (by simp)
    case h_9 at_ =>
      rw [← Option.some.inj ran]
      exact buildAudioPath_sounds at_ (silent (by rw [at_]; rfl))
    case h_10 at_ =>
      rw [← Option.some.inj ran]
      exact sounds_to _ _ (by simp) (fun audio => absurd audio (silent (by rw [at_]; rfl)))
        (fun _ => .inl (by rw [at_]; rfl)) (fun is => by cases is) (fun is => by cases is) (by simp)
    case h_12 at_ | h_15 at_ =>
      rw [← Option.some.inj ran]
      exact fails _ _ (by rw [at_]; rfl)
    case h_14 at_ =>
      rw [← Option.some.inj ran]
      exact ⟨fun _ => .inr ⟨by simp, rfl, .inr at_⟩, (fun is => by cases is), (fun is => by cases is),
        fun _ => .inr (.inr (by rw [at_]; rfl)), by simp⟩
    case h_16 via at_ =>
      rw [← Option.some.inj ran]
      exact popAndTeardown_sounds at_
    case h_18 via stage at_ =>
      obtain ⟨⟨ctx', next⟩, resumed, moved⟩ := Option.map_eq_some_iff.mp ran
      rw [← moved]
      exact resumed_sounds at_ (Nat.eq_zero_of_not_pos (silent (by rw [at_]; rfl))) resumed
    case h_19 at_ =>
      rw [← Option.some.inj ran]
      exact sounds_to _ _ (by simp) (fun _ => rfl) (fun is => by cases is) (fun is => by cases is)
        (fun _ => .inr (.inl (by rw [at_]; rfl))) (by simp)
    case h_20 => cases ran
    all_goals
      rw [← Option.some.inj ran]
      exact exits
  · rw [running] at cancelled
    cases cancelled

end CallContext

/-! ## One call and its stream -/

/-- The stream has handed out `connected`, and runs. -/
def heard : StreamPc → Bool
  | .waiting _ seen => seen
  | .yielded _ seen _ => seen
  | _ => false

/-- The stream stands where it handed out `connected`. -/
def answered : StreamPc → Bool
  | .yielded _ seen (.connected _) => seen
  | _ => false

theorem heard_of_answered {stream : StreamPc} (connected : answered stream = true) :
    heard stream = true := by
  unfold answered at connected
  split at connected
  · exact connected
  · cases connected

/-- When the audio tasks of a call may run: its event stream has handed out `connected`
and still runs, and the call is in the map or its pump awaits them. -/
structure Sounding (registered : Prop) (ctx : CallContext) (stream : StreamPc) : Prop where
  playing : 0 < ctx.audioTasks → heard stream = true ∧
    (ctx.pump.reaping = true ∨ ctx.pump.plays = true ∧ registered)
  setup : ctx.pump.setup = true → answered stream = true ∧ registered
  returns : ctx.pump.returns = true → answered stream = true
  waiting : ctx.pump = .nextEvent → heard stream = false → registered
  early : ctx.pump = .absent ∨ ctx.pump = .created → registered
  refused : ∀ k, stream ≠ .single (.connected k)

/-- What a pump that asks for the next event may count on. -/
def Asking (registered : Prop) (ctx : CallContext) (stream : StreamPc) : Prop :=
  answered stream = true ∨ ctx.audioTasks = 0 ∧ registered

section Stream

variable {cfg : Config} {ctx ctx' : CallContext} {input : PumpInput} {effects : List Effect}
  {registered registered' : Prop} {stream stream' : StreamPc} {inCalls : Bool}

theorem Sounding.silent (sounding : Sounding registered ctx stream) (unheard : heard stream = false) :
    ctx.audioTasks = 0 := by
  by_contra audio
  have heard := (sounding.playing (Nat.pos_of_ne_zero audio)).1
  rw [unheard] at heard
  cases heard

theorem Sounding.mono (sounding : Sounding registered ctx stream) (keeps : registered → registered') :
    Sounding registered' ctx stream where
  playing := fun audio =>
    (sounding.playing audio).imp_right fun how => how.imp_right fun plays => plays.imp_right keeps
  setup := fun sets => (sounding.setup sets).imp_right keeps
  returns := sounding.returns
  waiting := fun asks unheard => keeps (sounding.waiting asks unheard)
  early := fun early => keeps (sounding.early early)
  refused := sounding.refused

/-- A turn of the pump. -/
theorem sounding_turned (sounding : Sounding registered ctx stream)
    (running : ctx.pumpCancelled = false)
    (turn : ctx.pumpStep cfg inCalls input = some (ctx', effects))
    (known : registered → inCalls = true) (keeps : registered → .pop ∉ effects → registered')
    (notOther : input ≠ .event .other)
    (connects : input = .event .connected →
      ctx.audioTasks = 0 ∧ registered ∧ answered stream = true) :
    Sounding registered' ctx' stream ∧
      (ctx'.pump = .nextEvent → Asking registered' ctx' stream) := by
  have playing : 0 < ctx.audioTasks → ctx.pump.plays = true ∧ registered := by
    intro audio
    refine (sounding.playing audio).2.resolve_left fun reaps => ?_
    exact absurd (CallContext.reaped reaps running turn) (Nat.ne_of_gt audio)
  have sounds := CallContext.pumpStep_sounds running (fun audio => (playing audio).imp_right known)
    notOther (fun is => (connects is).1) turn
  have joins : ctx.pump = .join → answered stream = true ∧ registered := by
    intro at_
    exact sounding.setup (by rw [at_]; rfl)
  have sets : ctx'.pump.setup = true → answered stream = true ∧ registered' := by
    intro is
    obtain ⟨kept, before⟩ := sounds.setup is
    have both : answered stream = true ∧ registered := by
      rcases before with sets | is
      · exact sounding.setup sets
      · exact ⟨(connects is).2.2, (connects is).2.1⟩
    exact both.imp_right fun known => keeps known kept
  have returned : ctx.pump.returns = true ∨ ctx.pump.setup = true → answered stream = true := by
    rintro (returns | sets)
    · exact sounding.returns returns
    · exact (sounding.setup sets).1
  have present : ¬ (ctx'.pump = .absent ∨ ctx'.pump = .created) := by
    rintro (absent | created)
    · exact sounds.present.1 absent
    · exact sounds.present.2 created
  refine ⟨⟨fun audio => ?_, sets, fun is => returned (sounds.returns is), fun is unheard => ?_,
    fun is => absurd is present, sounding.refused⟩, fun is => ?_⟩
  · rcases sounds.audio audio with ⟨before, reaps⟩ | ⟨kept, plays, before | at_⟩
    · exact ⟨(sounding.playing before).1, .inl reaps⟩
    · exact ⟨(sounding.playing before).1, .inr ⟨plays, keeps (playing before).2 kept⟩⟩
    · exact ⟨heard_of_answered (joins at_).1, .inr ⟨plays, keeps (joins at_).2 kept⟩⟩
  · rcases sounds.home is with ⟨created, kept⟩ | before
    · exact keeps (sounding.early (.inr created)) kept
    · rw [heard_of_answered (returned before)] at unheard
      cases unheard
  · rcases sounds.home is with ⟨created, kept⟩ | before
    · refine .inr ⟨?_, keeps (sounding.early (.inr created)) kept⟩
      by_contra audio
      rcases sounds.audio (Nat.pos_of_ne_zero audio) with ⟨-, reaps⟩ | ⟨-, -, before | at_⟩
      · rw [is] at reaps
        cases reaps
      · have plays := (playing before).1
        rw [created] at plays
        cases plays
      · rw [created] at at_
        cases at_
    · exact .inl (returned before)

/-- A pump that waits for its next event. -/
theorem sounding_asks (asks : ctx.pump = .nextEvent)
    (playing : 0 < ctx.audioTasks → heard stream = true ∧ registered)
    (waiting : heard stream = false → registered) (refused : ∀ k, stream ≠ .single (.connected k)) :
    Sounding registered ctx stream where
  playing := fun audio => (playing audio).imp_right fun known => .inr ⟨by rw [asks]; rfl, known⟩
  setup := fun is => by rw [asks] at is; cases is
  returns := fun is => by rw [asks] at is; cases is
  waiting := fun _ => waiting
  early := by simp [asks]
  refused := refused

theorem Sounding.plays (sounding : Sounding registered ctx stream) (asks : ctx.pump = .nextEvent)
    (audio : 0 < ctx.audioTasks) : heard stream = true ∧ registered := by
  obtain ⟨heard, reaps | ⟨-, known⟩⟩ := sounding.playing audio
  · rw [asks] at reaps
    cases reaps
  · exact ⟨heard, known⟩

/-- The stream is asked for its next event. -/
theorem sounding_next (sounding : Sounding registered ctx stream) (asks : ctx.pump = .nextEvent)
    (asking : Asking registered ctx stream) (moves : StreamLog.NextMoves stream stream') :
    Sounding registered ctx stream' := by
  have quiet : ∀ {after : StreamPc}, (∀ k, after ≠ .single (.connected k)) →
      answered stream = false → Sounding registered ctx after := by
    intro after refused unanswered
    obtain ⟨silent, known⟩ : ctx.audioTasks = 0 ∧ registered := by
      refine asking.resolve_left fun is => ?_
      rw [unanswered] at is
      cases is
    exact sounding_asks asks (fun audio => absurd silent (Nat.ne_of_gt audio)) (fun _ => known)
      refused
  cases moves with
  | started => exact quiet (by simp) rfl
  | shut => exact quiet (by simp) rfl
  | ended => exact quiet (by simp) rfl
  | single => exact quiet (by simp) rfl
  | singleEnded => exact quiet (by simp) rfl
  | resumed => exact sounding_asks asks (sounding.plays asks) (sounding.waiting asks) (by simp)

/-- The stream reads its queue, and goes on. -/
theorem sounding_wake (sounding : Sounding registered ctx stream) (asks : ctx.pump = .nextEvent)
    (moves : StreamLog.WakeMoves stream stream') (unended : stream' ≠ .closed) :
    Sounding registered ctx stream' := by
  cases moves with
  | connected =>
      exact sounding_asks asks (fun audio => absurd (sounding.silent rfl) (Nat.ne_of_gt audio))
        (fun is => by cases is) (by simp)
  | again => exact sounding
  | hangup => exact sounding_asks asks (sounding.plays asks) (sounding.waiting asks) (by simp)
  | sentinel => exact absurd rfl unended

end Stream

/-! ## Call ids -/

/-- The call id of the command whose `at.dial` was invoked. -/
def LogEntry.dialled : LogEntry → Option String
  | .atDial dial => some dial.callId
  | _ => none

/-- The call ids dialled so far. -/
def EdgeOrchestrator.dialled (e : EdgeOrchestrator) : List String := e.log.filterMap LogEntry.dialled

namespace EdgeStation

/-- `stop` is not called, and no two DialCommands carry one call id. -/
def DistinctCalls (s : EdgeStation) : StationAction → Prop
  | .edge .stop => False
  | .edge (.message (.dial dial)) => dial.callId ∉ s.edge.dialled
  | _ => True

instance (s : EdgeStation) (action : StationAction) : Decidable (s.DistinctCalls action) := by
  unfold DistinctCalls
  induction action using StationAction.casesOn with
  | edge action =>
      induction action using EdgeAction.casesOn with
      | message message => induction message using Cloud2Edge.casesOn <;> infer_instance
      | _ => infer_instance
  | _ => infer_instance

/-- Who may use the audio backends, and that the map tells the calls apart. -/
structure Owned (s : EdgeStation) : Prop where
  sounding : ∀ {call ctx number c}, s.edge.At call ctx → ctx.modemCallId = some number →
    s.modem.CallAt number c →
    Sounding (s.edge.calls.lookup ctx.callId = some call) ctx c.stream
  distinct : ∀ {call other ctx found}, s.edge.At call ctx → s.edge.At other found →
    ctx.callId = found.callId → call = other
  logged : ∀ {call ctx}, s.edge.At call ctx → ctx.callId ∈ s.edge.dialled
  dialling : ∀ {dial}, s.edge.handler = .atDial dial → dial.callId ∈ s.edge.dialled ∧
    ∀ {call ctx}, s.edge.At call ctx → ctx.callId ≠ dial.callId
  acking : ∀ {call ctx}, s.edge.handler = .acceptAck call → s.edge.At call ctx →
    ctx.pump = .absent

variable {cfg : Config} {s t : EdgeStation} {action : EdgeAction} {call number : Nat}
  {ctx ctx' : CallContext} {c : Call} {m : SerialAtClient} {e e' : EdgeOrchestrator}

theorem owned_init : Owned {} where
  sounding := fun at_ => by simp [EdgeOrchestrator.At] at at_
  distinct := fun at_ => by simp [EdgeOrchestrator.At] at at_
  logged := fun at_ => by simp [EdgeOrchestrator.At] at at_
  dialling := fun is => by cases is
  acking := fun is => by cases is

theorem dialled_grows (next : e.step cfg action = some e') {callId : String}
    (listed : callId ∈ e.dialled) : callId ∈ e'.dialled := by
  obtain ⟨more, log, -⟩ := EdgeOrchestrator.step_log next
  rw [EdgeOrchestrator.dialled, log, List.filterMap_append]
  exact List.mem_append_left _ listed

/-! ## A turn of the orchestrator -/

/-- A call stays in the map as long as its own pump does not pop it. -/
theorem stays_registered (goes : Goes cfg e e' action)
    (distinct : ∀ {other found}, e.At other found → found.callId = ctx.callId → other = call)
    (at_ : e.At call ctx) (moves : CtxMoves cfg e action call ctx ctx')
    (kept : ∀ input effects, action = .pump call input →
      ctx.pumpStep cfg (e.inCalls ctx.callId) input = some (ctx', effects) → .pop ∉ effects)
    (registered : e.calls.lookup ctx.callId = some call) :
    e'.calls.lookup ctx'.callId = some call := by
  rw [moves.continues.callId]
  rcases goes.calls ctx.callId with same | ⟨-, pops⟩
  · exact same.trans registered
  · obtain ⟨call', found, found', input, effects, is, got, turn, popped, callId⟩ := pops
    have own : found.callId = ctx.callId :=
      (CallContext.pumpStep_continues turn).callId.symm.trans callId
    obtain rfl := distinct got own
    obtain rfl := Option.some.inj (at_.symm.trans got)
    cases moves with
    | kept other => exact absurd is (other input)
    | created acked => rw [is] at acked; cases acked
    | audioEnded ends => rw [is] at ends; cases ends
    | @turned input' effects' is' turn' =>
        rw [is] at is'
        cases is'
        cases turn.symm.trans turn'
        exact absurd popped (kept input effects is turn)

/-- What an action does to the audio tasks of a call. -/
theorem sounding_moves {stream : StreamPc} (goes : Goes cfg e e' action)
    (distinct : ∀ {other found}, e.At other found → found.callId = ctx.callId → other = call)
    (at_ : e.At call ctx) (running : ctx.pumpCancelled = false)
    (acking : e.handler = .acceptAck call → ctx.pump = .absent)
    (moves : CtxMoves cfg e action call ctx ctx')
    (notOther : action ≠ .pump call (.event .other))
    (connects : action = .pump call (.event .connected) → ctx.audioTasks = 0 ∧
      e.calls.lookup ctx.callId = some call ∧ answered stream = true)
    (sounding : Sounding (e.calls.lookup ctx.callId = some call) ctx stream) :
    Sounding (e'.calls.lookup ctx'.callId = some call) ctx' stream ∧
      ∀ input, action = .pump call input → ctx'.pump = .nextEvent →
        Asking (e'.calls.lookup ctx'.callId = some call) ctx' stream := by
  have stays := stays_registered goes distinct at_ moves
  cases moves with
  | kept other same =>
      subst same
      exact ⟨sounding.mono (stays fun input _ is => absurd is (other input)),
        fun input is => absurd is (other input)⟩
  | created acked accepting made =>
      subst made
      have absent := acking accepting
      refine ⟨⟨fun audio => ?_, (fun is => by cases is), (fun is => by cases is),
        (fun is => by cases is), fun _ => ?_, sounding.refused⟩, fun input is => ?_⟩
      · rcases (sounding.playing audio).2 with reaps | ⟨plays, -⟩
        · rw [absent] at reaps
          cases reaps
        · rw [absent] at plays
          cases plays
      · refine stays (fun input _ is => ?_) (sounding.early (.inl absent))
        rw [acked] at is
        cases is
      · rw [acked] at is
        cases is
  | audioEnded ends ended =>
      subst ended
      have notPump : ∀ input, action ≠ .pump call input := by
        intro input is
        rw [ends] at is
        cases is
      have after := sounding.mono (stays fun input _ is => absurd is (notPump input))
      refine ⟨⟨fun audio => after.playing ?_, after.setup, after.returns, after.waiting, after.early,
        after.refused⟩, fun input is => absurd is (notPump input)⟩
      exact Nat.lt_of_lt_of_le audio (Nat.sub_le _ _)
  | @turned input effects is turn =>
      subst is
      have known : Sounding (e'.calls.lookup ctx'.callId = some call) ctx' stream ∧ _ :=
        sounding_turned sounding running turn
          (fun registered => by rw [EdgeOrchestrator.inCalls, registered]; rfl)
          (fun registered kept => stays (fun input' effects' is turn' => by
            cases is
            cases turn.symm.trans turn'
            exact kept) registered)
          (fun is => notOther (by rw [is])) (fun is => connects (by rw [is]))
      exact ⟨known.1, fun _ _ => known.2⟩

/-- The turn is none of a pump that reads an unknown event, and `connected` comes from a
stream that hands it out. -/
structure Fits (s : EdgeStation) (action : EdgeAction) : Prop where
  notOther : ∀ call, action ≠ .pump call (.event .other)
  connects : ∀ {call ctx number c}, action = .pump call (.event .connected) → s.edge.At call ctx →
    ctx.modemCallId = some number → s.modem.CallAt number c →
    ctx.audioTasks = 0 ∧ s.edge.calls.lookup ctx.callId = some call ∧ answered c.stream = true

/-- The pump of a call that waits for its next event may count on it. -/
def Asks (s : EdgeStation) (call : Nat) : Prop :=
  ∀ {ctx number c}, s.edge.At call ctx → ctx.modemCallId = some number → s.modem.CallAt number c →
    ctx.pump = .nextEvent → Asking (s.edge.calls.lookup ctx.callId = some call) ctx c.stream

theorem owned_dials {dial : DialCommand} (linked : s.Linked) (owned : s.Owned)
    (new : dial.callId ∉ s.edge.dialled)
    (edge : t.edge = { s.edge.record (.atDial dial) with handler := .atDial dial })
    (client : t.modem = s.modem.dial dial.number.toList) : t.Owned := by
  have at' : ∀ {call ctx}, t.edge.At call ctx ↔ s.edge.At call ctx := by
    intro call ctx
    rw [edge]
    exact Iff.rfl
  have dialled : t.edge.dialled = s.edge.dialled ++ [dial.callId] := by
    rw [edge]
    exact List.filterMap_append
  constructor
  · intro call ctx number c' at_ own known'
    obtain ⟨number', c, own', known, -⟩ := linked.bound (at'.mp at_)
    obtain rfl := Option.some.inj (own'.symm.trans own)
    obtain ⟨c₁, here, -, stream⟩ := dial_keeps linked.client dial.number.toList known
    rw [client] at known'
    obtain rfl := Option.some.inj (known'.symm.trans here)
    rw [stream, edge]
    exact owned.sounding (at'.mp at_) own known
  · intro call other ctx found at_ got
    exact owned.distinct (at'.mp at_) (at'.mp got)
  · intro call ctx at_
    rw [dialled]
    exact List.mem_append_left _ (owned.logged (at'.mp at_))
  · intro found is
    rw [edge] at is
    obtain rfl := Handler.atDial.inj is
    refine ⟨by rw [dialled]; exact List.mem_append_right _ List.mem_cons_self, ?_⟩
    intro call ctx at_ same
    exact new (same ▸ owned.logged (at'.mp at_))
  · intro call ctx is
    rw [edge] at is
    cases is

theorem owned_turn (modem : cfg.devNoModem = false) (linked : s.Linked) (owned : s.Owned)
    (plain : s.Plain action)
    (new : ∀ dial, action = .message (.dial dial) → dial.callId ∉ s.edge.dialled)
    (fits : s.Fits action) (next : s.turn cfg action = some t) :
    t.Owned ∧ ∀ call input, action = .pump call input → t.Asks call := by
  cases turn_cases next with
  | dials free fresh edge client =>
      exact ⟨owned_dials linked owned (new _ rfl) edge client, fun _ _ is => by cases is⟩
  | goes edge silent hung dialling unacked =>
      have goes := plain.goes modem linked silent edge
      obtain ⟨-, still⟩ := hung.onward linked.client
      have sounding : ∀ {call ctx' number c'}, t.edge.At call ctx' → ctx'.modemCallId = some number →
          t.modem.CallAt number c' →
          Sounding (t.edge.calls.lookup ctx'.callId = some call) ctx' c'.stream ∧
            ∀ input, action = .pump call input → ctx'.pump = .nextEvent →
              Asking (t.edge.calls.lookup ctx'.callId = some call) ctx' c'.stream := by
        intro call ctx' number c' at' own known'
        obtain ⟨ctx, at_, moves⟩ := goes.contexts at'
        obtain ⟨number', c, own', known, -⟩ := linked.bound at_
        obtain rfl := Option.some.inj (own'.symm.trans (moves.continues.modemCallId.symm.trans own))
        rw [still.back known known']
        exact sounding_moves goes (fun got same => owned.distinct got at_ same) at_
          (linked.running at_) (fun accepting => owned.acking accepting at_) moves (fits.notOther call)
          (fun is => fits.connects is at_ own' known) (owned.sounding at_ own' known)
      have asks : ∀ call input, action = .pump call input → t.Asks call := by
        intro call input is ctx number c at' own known' waits
        exact (sounding at' own known').2 input is waits
      refine ⟨?_, asks⟩
      constructor
      · intro call ctx number c at' own known'
        exact (sounding at' own known').1
      · intro call other ctx' found' at' got same
        obtain ⟨ctx, at_, moves⟩ := goes.contexts at'
        obtain ⟨found, got, moves'⟩ := goes.contexts got
        rw [moves.continues.callId, moves'.continues.callId] at same
        exact owned.distinct at_ got same
      · intro call ctx' at'
        obtain ⟨ctx, at_, moves⟩ := goes.contexts at'
        rw [moves.continues.callId]
        exact dialled_grows edge (owned.logged at_)
      · intro dial is
        obtain ⟨listed, others⟩ :=
          owned.dialling ((goes.dialling (by rw [is]; rfl)).1.trans is)
        refine ⟨dialled_grows edge listed, ?_⟩
        intro call ctx' at' same
        obtain ⟨ctx, at_, moves⟩ := goes.contexts at'
        exact others at_ (moves.continues.callId.symm.trans same)
      · intro call ctx' is at'
        obtain ⟨same, notHandler⟩ := goes.dialling (by rw [is]; rfl)
        obtain ⟨ctx, at_, moves⟩ := goes.contexts at'
        have absent := owned.acking (same.trans is) at_
        cases moves with
        | kept _ same => rw [same, absent]
        | created acked => exact absurd acked (notHandler _)
        | audioEnded _ ended => rw [ended]; exact absent
        | turned _ turn =>
            have live := (CallContext.pumpStep_cases turn).1
            rw [absent] at live
            cases live

theorem owned_accepts (linked : s.Linked) (owned : s.Owned) (dials : s.dialling = some number)
    (known : s.modem.CallAt number c) (returned : c.dial = .returned)
    (accepts : s.Accepts t number) : t.Owned := by
  obtain ⟨⟨dial, held, edge⟩, hung, -, -⟩ := accepts
  obtain ⟨-, still⟩ := hung.onward linked.client
  obtain ⟨-, ⟨c₀, known₀, dialled⟩, -⟩ := linked.dialling dials
  obtain rfl := Option.some.inj (known.symm.trans known₀)
  obtain ⟨listed, others⟩ := owned.dialling held
  have at' := @at_accepted _ _ _ _ edge
  have lookup : ∀ callId, t.edge.calls.lookup callId =
      if callId = dial.callId then some s.edge.contexts.length else s.edge.calls.lookup callId := by
    intro callId
    rw [edge]
    exact EdgeOrchestrator.accept_lookup callId
  have log : t.edge.dialled = s.edge.dialled := by
    rw [edge]
    exact List.filterMap_append.trans (List.append_nil _)
  constructor
  · intro call ctx other c' at_ own known'
    rcases at'.mp at_ with old | ⟨rfl, rfl⟩
    · obtain ⟨other', c₁, own', here, -⟩ := linked.bound old
      obtain rfl := Option.some.inj (own'.symm.trans own)
      rw [still.back here known', lookup, if_neg (others old)]
      exact owned.sounding old own here
    · obtain rfl := Option.some.inj own
      rw [still.back known known']
      refine ⟨(fun audio => by cases audio), (fun is => by cases is), (fun is => by cases is),
        (fun is => by cases is), fun _ => (lookup _).trans (if_pos rfl), fun k is => ?_⟩
      rcases dialled with waits | ⟨-, unstarted | ⟨⟨cause, single⟩, -⟩⟩
      · rw [returned] at waits
        cases waits
      · rw [unstarted] at is
        cases is
      · rw [single] at is
        cases is
  · intro call other ctx found at_ got same
    rcases at'.mp at_ with old | ⟨rfl, rfl⟩
    · rcases at'.mp got with old' | ⟨rfl, rfl⟩
      · exact owned.distinct old old' same
      · exact absurd same (others old)
    · rcases at'.mp got with old' | ⟨rfl, -⟩
      · exact absurd same.symm (others old')
      · rfl
  · intro call ctx at_
    rw [log]
    rcases at'.mp at_ with old | ⟨-, rfl⟩
    · exact owned.logged old
    · exact listed
  · intro dial is
    rw [edge] at is
    cases is
  · intro call ctx is at_
    rw [edge] at is
    obtain rfl := Handler.acceptAck.inj is
    rcases at'.mp at_ with old | ⟨-, rfl⟩
    · exact absurd (List.getElem?_eq_some_iff.mp old).1 (Nat.lt_irrefl _)
    · rfl

theorem owned_resumes (modem : cfg.devNoModem = false) (linked : s.Linked) (owned : s.Owned)
    (resumes : s.Resumes cfg t) : t.Owned := by
  cases resumes with
  | waits same => exact same ▸ owned
  | raises none_ turn =>
      exact (owned_turn modem linked owned (plain_raised none_ _) (fun _ is => by cases is)
        ⟨(fun _ is => by cases is), fun is => by cases is⟩ turn).1
  | accepts dials at_ returned accepts => exact owned_accepts linked owned dials at_ returned accepts

/-! ## The AT client moves -/

/-- A step of the AT client, and what it does to the stream that moves. -/
theorem owned_modem {action : SerialAction} (linked : s.Linked) (owned : s.Owned)
    (apart : s.Apart action)
    (moves : ∀ {call ctx number c'}, action.stream? = some number → s.edge.At call ctx →
      ctx.modemCallId = some number → m.CallAt number c' →
      Sounding (s.edge.calls.lookup ctx.callId = some call) ctx c'.stream)
    (next : s.modem.step action = some m) : Owned { s with modem := m } where
  sounding := by
    intro call ctx number c' at_ own known'
    obtain ⟨number', c, own', known, returned⟩ := linked.bound at_
    obtain rfl := Option.some.inj (own'.symm.trans own)
    by_cases stream : action.stream? = some number'
    · exact moves stream at_ own known'
    · obtain ⟨c₁, here, ⟨-, same⟩ | ⟨waits, -⟩⟩ :=
        SerialAtClient.call_other linked.client.wired next stream apart.uncut known
      · obtain rfl := Option.some.inj (known'.symm.trans here)
        rw [same]
        exact owned.sounding at_ own known
      · rw [returned] at waits
        cases waits
  distinct := owned.distinct
  logged := owned.logged
  dialling := owned.dialling
  acking := owned.acking

/-- A stream is finalised once no frame refers to it, so its call has no audio tasks. -/
theorem owned_close {action : SerialAction} (linked : s.Linked) (owned : s.Owned)
    (may : s.mayModem action = true) (next : s.modem.step action = some m) :
    Owned { s with modem := m } := by
  refine owned_modem linked owned (apart_of_may may) ?_ next
  intro call ctx number c' stream at_ own known'
  obtain ⟨rfl, unreferred⟩ : action = .close number ∧ s.referred number = false := by
    unfold mayModem at may
    unfold SerialAction.stream? at stream
    split at stream
    · cases may
    · cases may
    · obtain rfl := Option.some.inj stream
      exact ⟨rfl, by simpa using may⟩
    · cases stream
  obtain ⟨dead, -⟩ := not_referred unreferred at_ own
  obtain ⟨number', c, own', known, -⟩ := linked.bound at_
  obtain rfl := Option.some.inj (own'.symm.trans own)
  have sounding := owned.sounding at_ own known
  obtain ⟨found, here, closes⟩ := Option.bind_eq_some_iff.mp next
  rw [StreamLog.closeStream_stream closes known']
  have idle : ∀ {pc : PumpPc → Bool}, pc .absent = false → pc .done = false →
      pc ctx.pump = true → False := by
    intro pc absent done is
    rcases PumpPc.of_dead dead with pump | pump
    · rw [pump, absent] at is
      cases is
    · rw [pump, done] at is
      cases is
  exact ⟨fun audio => ((sounding.playing audio).2.elim (idle rfl rfl) fun plays =>
      idle rfl rfl plays.1).elim, fun is => (idle rfl rfl is).elim,
    fun is => (idle rfl rfl is).elim, (fun is => by rw [is] at dead; cases dead),
    sounding.early, by simp⟩

/-! ### A pump asks for the next event -/

/-- Only a queue hands out `connected`, and once. -/
theorem handed_connected {registered : Prop} {stream stream' : StreamPc}
    (sounding : Sounding registered ctx stream) (asks : ctx.pump = .nextEvent)
    (moves : StreamLog.NextMoves stream stream' ∨ StreamLog.WakeMoves stream stream')
    (hands : handed stream stream' = some (.event .connected)) :
    ctx.audioTasks = 0 ∧ registered ∧ answered stream' = true := by
  rcases moves with moves | moves
  · cases moves with
    | single event =>
        cases event with
        | connected k => exact absurd rfl (sounding.refused k)
        | remoteHangup => cases hands
    | started | shut | resumed | ended | singleEnded => cases hands
  · cases moves with
    | connected => exact ⟨sounding.silent rfl, sounding.waiting asks rfl, rfl⟩
    | again | hangup | sentinel => cases hands

theorem handed_other {stream stream' : StreamPc} : handed stream stream' ≠ some (.event .other) := by
  have known : ∀ event, told event ≠ .other := by
    intro event
    cases event <;> simp [told]
  unfold handed
  split <;> simp [known]

theorem owned_iterates {action : SerialAction} (modem : cfg.devNoModem = false)
    (linked : s.Linked) (owned : s.Owned) (iterated : s.iterated call = some number)
    (asks : action = .next number ∧ s.Asks call ∨ action = .wake number)
    (iterates : s.Iterates cfg t call number action) : t.Owned := by
  have apart : s.Apart action := by
    rcases asks with ⟨rfl, -⟩ | rfl <;>
      exact apart_of_iterated linked iterated rfl (by simp) (by simp) (by simp)
  obtain ⟨ctx₀, at₀, waits, own₀⟩ := iterated_iff.mp iterated
  obtain ⟨number₀, c₀, own₁, known₀, -⟩ := linked.bound at₀
  obtain rfl := Option.some.inj (own₁.symm.trans own₀)
  have sounding := owned.sounding at₀ own₀ known₀
  -- the stream moves, and its call stays in tune with it
  have moved : ∀ {m}, s.modem.step action = some m → ∃ c', m.CallAt number₀ c' ∧
      (StreamLog.NextMoves c₀.stream c'.stream ∨ StreamLog.WakeMoves c₀.stream c'.stream) ∧
      Sounding (s.edge.calls.lookup ctx₀.callId = some call) ctx₀ c'.stream := by
    intro m next
    rcases asks with ⟨rfl, asking⟩ | rfl
    · obtain ⟨c, c', known, known', -, moves⟩ := StreamLog.next_stream linked.client.wired next
      obtain rfl := Option.some.inj (known₀.symm.trans known)
      have asks := asking at₀ own₀ known₀ waits
      exact ⟨c', known', .inl moves, sounding_next sounding waits asks moves⟩
    · obtain ⟨c, c', known, known', -, moves⟩ := StreamLog.wake_stream linked.client.wired next
      obtain rfl := Option.some.inj (known₀.symm.trans known)
      have unended := StreamLog.wake_open linked.client.tidy linked.client.unclosed next known'
      exact ⟨c', known', .inr moves, sounding_wake sounding waits moves unended⟩
  have here : ∀ {m}, s.modem.step action = some m → Owned { s with modem := m } := by
    intro m next
    obtain ⟨c₁, known₁, -, after⟩ := moved next
    refine owned_modem linked owned apart ?_ next
    intro other ctx k c' stream at_ own known'
    obtain rfl : number₀ = k := by
      rcases asks with ⟨rfl, -⟩ | rfl <;> exact Option.some.inj stream
    obtain rfl := linked.apart at₀ at_ own₀ own
    obtain rfl := Option.some.inj (at₀.symm.trans at_)
    obtain rfl := Option.some.inj (known₁.symm.trans known')
    exact after
  cases iterates with
  | waits next _ same => exact same ▸ here next
  | @hands m input next some_ turn =>
      obtain ⟨c₁, known₁, moves, -⟩ := moved next
      rw [StreamLog.stream_eq known₀, StreamLog.stream_eq known₁] at some_
      refine (owned_turn modem (linked_modem linked apart next) (here next) plain_pump
        (fun _ is => by cases is) ⟨fun other is => ?_, ?_⟩ turn).1
      · cases is
        exact handed_other some_
      · intro other ctx k c is at_ own known
        cases is
        obtain rfl := Option.some.inj (at₀.symm.trans at_)
        obtain rfl := Option.some.inj (own₀.symm.trans own)
        obtain rfl := Option.some.inj (known₁.symm.trans known)
        exact handed_connected sounding waits moves some_

/-! ## The step -/

theorem noStop_of_distinct {action : StationAction} (distinct : s.DistinctCalls action) :
    s.NoStop action := by
  unfold DistinctCalls at distinct
  split at distinct
  · exact distinct.elim
  · trivial
  · rename_i notStop _
    unfold NoStop
    split
    · exact notStop rfl
    · trivial

/-- **One step.** -/
theorem owned_step {action : StationAction} (modem : cfg.devNoModem = false) (linked : s.Linked)
    (owned : s.Owned) (distinct : s.DistinctCalls action) (next : s.step cfg action = some t) :
    t.Owned := by
  have calm : ∀ {call input}, input.ofStream = false → s.Fits (.pump call input) := by
    intro call input own
    refine ⟨fun other is => ?_, fun is => ?_⟩ <;> (cases is; cases own)
  cases step_cases linked next with
  | @turned u action notPump notDial turn resumes =>
      have plain := plain_of (noStop_of_distinct distinct) notDial
      have turned := owned_turn modem linked owned plain (by rintro dial rfl; exact distinct)
        ⟨fun call => notPump call _, fun is => absurd is (notPump _ _)⟩ turn
      exact owned_resumes modem (linked_turn modem linked plain turn) turned.1 resumes
  | pumped own turn =>
      exact (owned_turn modem linked owned plain_pump (by simp) (calm own) turn).1
  | asked own turn asks iterates =>
      have turned := owned_turn modem linked owned plain_pump (by simp) (calm own) turn
      exact owned_iterates modem (linked_turn modem linked plain_pump turn) turned.1
        asks (.inl ⟨rfl, turned.2 _ _ rfl⟩) iterates
  | delivered asks iterates => exact owned_iterates modem linked owned asks (.inr rfl) iterates
  | client may stepped resumes =>
      exact owned_resumes modem (linked_modem linked (apart_of_may may) stepped)
        (owned_close linked owned may stepped) resumes

theorem owned_run (modem : cfg.devNoModem = false) (run : Reachable (step cfg) DistinctCalls {} s) :
    s.Linked ∧ s.Owned :=
  run.invariant (P := fun s => s.Linked ∧ s.Owned) ⟨linked_init, owned_init⟩
    fun _ _ _ ⟨linked, owned⟩ distinct next =>
      ⟨linked_step modem linked (noStop_of_distinct distinct) next,
        owned_step modem linked owned distinct next⟩

/-! ## The audio backends -/

/-- A stream that has handed out `connected` and runs. -/
theorem iterating_of_heard {stream : StreamPc} (is : heard stream = true) :
    stream.iterating = true := by
  cases stream <;> first | rfl | cases is

/-- **Exclusive audio ownership.**  In modem mode, before `stop` and with distinct call
ids, at most one call has audio tasks that run. -/
theorem one_call_plays (cfg : Config) (s : EdgeStation) (modem : cfg.devNoModem = false)
    (run : Reachable (step cfg) DistinctCalls {} s) (call other : Nat) (ctx found : CallContext)
    (at_ : s.edge.At call ctx) (got : s.edge.At other found) (plays : 0 < ctx.audioTasks)
    (plays' : 0 < found.audioTasks) : call = other := by
  obtain ⟨linked, owned⟩ := owned_run modem run
  have holds : ∀ {call ctx}, s.edge.At call ctx → 0 < ctx.audioTasks →
      ∃ number, ctx.modemCallId = some number ∧ s.modem.active = some number := by
    intro call ctx at_ plays
    obtain ⟨number, c, own, known, -⟩ := linked.bound at_
    have running := iterating_of_heard ((owned.sounding at_ own known).playing plays).1
    exact ⟨number, own, (linked.client.wired.running_active known running).1⟩
  obtain ⟨number, own, active⟩ := holds at_ plays
  obtain ⟨number', own', active'⟩ := holds got plays'
  obtain rfl := Option.some.inj (active.symm.trans active')
  exact linked.apart at_ got own own'

/-! ## Poles -/

/-- A call is dialled and answered, and joins its RTC channel. -/
def joins (call : Nat) (callId : String) : List StationAction :=
  [.edge (.message (.dial { callId := callId, rtcUidEngine := "engine" })),
    .modem (.serial .acquire), .modem (.serial .drained), .modem (.read "OK".toList),
    .modem (.serial .receive), .edge (.handler (.sent true)), .edge (.pump call .start),
    .modem (.poll call), .modem (.serial .acquire), .modem (.serial .drained),
    .modem (.read "+CLCC: 1,0,0,0,0".toList), .modem (.read "OK".toList),
    .modem (.serial .receive), .deliver call, .edge (.pump call (.sent true)),
    .edge (.pump call (.enabled .ok true)), .edge (.pump call .joined)]

/-- The peer hangs up, and the call is torn down with its audio tasks. -/
def ends (call : Nat) : List StationAction :=
  [.modem (.read "NO CARRIER".toList), .modem (.urc 0), .deliver call,
    .edge (.pump call (.sent true)), .edge (.audioEnd call), .edge (.audioEnd call),
    .edge (.pump call .stageDone), .edge (.pump call .stageDone), .edge (.pump call .stageDone),
    .modem (.close call)]

/-- Two calls, one after the other. -/
def joinedActions : List StationAction := .edge .start :: (joins 0 "x" ++ ends 0 ++ joins 1 "y")

theorem joined_runs : (guardedRun (step {}) DistinctCalls {} joinedActions).isSome = true := by decide

theorem joined_call_plays_alone : ∃ call other ctx found,
    (Option.get _ joined_runs).edge.At call ctx ∧ (Option.get _ joined_runs).edge.At other found ∧
      0 < ctx.audioTasks ∧ 0 < found.audioTasks ∧ call = other ∧
        (Option.get _ joined_runs).edge.contexts.map (·.audioTasks) = [0, 2] := by
  have plays : ∃ ctx, (Option.get _ joined_runs).edge.contexts[1]? = some ctx ∧ 0 < ctx.audioTasks :=
    ⟨_, rfl, by decide⟩
  obtain ⟨ctx, at_, plays⟩ := plays
  exact ⟨1, 1, ctx, ctx, at_, at_, plays, plays,
    one_call_plays {} _ rfl (reachable_guarded_get joined_runs) 1 1 ctx ctx at_ at_ plays plays,
    by decide⟩

end EdgeStation

end IsalesTelephony.Edge
