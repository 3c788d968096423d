/-
# Ui.QuitPath -- how the Windows application is quit

`_arun` of `main_windows.py` activates the edge or connects it, and then runs the orchestrator's
start, the watcher of the connection, the heartbeat and a task that waits for `stop_event` in
one task group.  "退出" in the tray's menu and the signals set `stop_event`, at which the last
of them raises `CancelledError`; after the group comes `_graceful_cleanup`.  A signal also
starts a timer that ends the process.

A cancellation does not abort a task group, and the watcher and the heartbeat do not return.
So the group is left, and the cleanup begun, only after a task has failed
(`quit_needs_failure`): an application that is quit keeps running, and one that gets a signal
is killed by the timer.
-/
import IsalesTelephony.Theory.TaskGroup
import IsalesTelephony.Theory.Transition

namespace IsalesTelephony.Ui

set_option autoImplicit false

open IsalesTelephony.Theory IsalesTelephony.Theory.Transition

/-- The tasks of the group. -/
inductive AppTask where
  | orchestrator
  | grpcWatcher
  | grpcHeartbeat
  | stopWaiter
  deriving DecidableEq, Repr

/-- The steps of `_graceful_cleanup`. -/
inductive CleanupStep where
  | orchestratorStop
  | grpcClientStop
  | eventBufferClose
  | atClientAclose
  deriving DecidableEq, Repr

structure AppConfig where
  /-- `ISALES_EDGE_DEVICE_TOKEN` is set -/
  token : Bool
  /-- `ISALES_DEVICE_ID` is set -/
  deviceId : Bool
  eventBuffer : Bool

/-- How `_arun` ends. -/
inductive AppEnd where
  | returned
  | raised
  deriving DecidableEq, Repr

/-- Where `_arun` is. -/
inductive AppPc where
  | starting
  /-- in `run_dialog` -/
  | activating
  /-- in `grpc_client.start` -/
  | connecting
  /-- at the end of the `async with` -/
  | grouped
  | cleaning (step : CleanupStep) (rest : List CleanupStep)
  | ended (how : AppEnd)
  deriving DecidableEq, Repr

structure WindowsApp where
  pc : AppPc := .starting
  /-- `stop_event` -/
  stop : Bool := false
  signals : Nat := 0
  /-- the process was ended, by the timer or by a signal -/
  exited : Bool := false
  group : TaskGroup AppTask := {}
  /-- history: the cleanup steps begun -/
  begun : List CleanupStep := []
  deriving DecidableEq, Repr

inductive AppAction where
  /-- "退出" -/
  | quit
  | signal
  /-- `_force_exit` -/
  | forceExit
  /-- `_arun` comes to the activation or the connection -/
  | proceed
  /-- the dialog is dismissed, or what was submitted is accepted or not -/
  | dialog (accepted : Option Bool)
  | dialogRaises
  /-- `grpc_client.start` returns or raises, which is logged -/
  | connected
  | taskEnds (task : AppTask) (outcome : Outcome)
  | leaveGroup
  /-- a cleanup step ends -/
  | cleaned (raises : Bool)
  deriving DecidableEq, Repr

namespace WindowsApp

/-- `_graceful_cleanup`. -/
def cleanup (cfg : AppConfig) : List CleanupStep :=
  [.orchestratorStop, .grpcClientStop] ++ (if cfg.eventBuffer then [.eventBufferClose] else []) ++
    [.atClientAclose]

/-- The group when its tasks are created. -/
def tasks (cfg : AppConfig) : TaskGroup AppTask :=
  let g := (({} : TaskGroup AppTask).create .orchestrator).create .grpcWatcher
  let g := if cfg.deviceId then g.create .grpcHeartbeat else g
  g.create .stopWaiter

def enterGroup (cfg : AppConfig) (s : WindowsApp) : WindowsApp :=
  { s with pc := .grouped, group := tasks cfg }

/-- The test of the activation loop. -/
def activate (cfg : AppConfig) (s : WindowsApp) : WindowsApp :=
  if s.stop then s.enterGroup cfg else { s with pc := .activating }

/-- How a task may end: the loops of the watcher and the heartbeat do not. -/
def mayEnd (stop asked : Bool) : AppTask → Outcome → Bool
  | .orchestrator, .returned => true
  | .stopWaiter, .cancelled => stop || asked
  | .stopWaiter, .failed => false
  | _, .failed => true
  | _, .cancelled => asked
  | _, .returned => false

/-- The next step of the cleanup, or its end: the group's exceptions are raised. -/
def cleanFrom (s : WindowsApp) : List CleanupStep → WindowsApp
  | [] => { s with pc := .ended (if s.group.errors = [] then .returned else .raised) }
  | step :: rest => { s with pc := .cleaning step rest, begun := s.begun ++ [step] }

/-- The process is over. -/
def finished (s : WindowsApp) : Bool :=
  s.exited || match s.pc with
    | .ended _ => true
    | _ => false

/-- `_request_stop`, and the default handler that it puts back. -/
def onSignal (s : WindowsApp) : WindowsApp :=
  match s.signals with
  | 0 => { s with stop := true, signals := 1 }
  | 1 => { s with signals := 2 }
  | n + 2 => { s with signals := n + 3, exited := true }

/-- One step of a process that is not over. -/
def go (cfg : AppConfig) (s : WindowsApp) : AppAction → Option WindowsApp
  | .quit => some { s with stop := true }
  | .signal => some s.onSignal
  | .forceExit => if 0 < s.signals then some { s with exited := true } else none
  | .proceed =>
      if s.pc = .starting then
        some (if cfg.token then { s with pc := .connecting } else s.activate cfg)
      else none
  | .dialog accepted =>
      if s.pc = .activating then
        match accepted with
        | none => some { s with stop := true, pc := .ended .returned }
        | some true => some (s.enterGroup cfg)
        | some false => some (s.activate cfg)
      else none
  | .dialogRaises => if s.pc = .activating then some { s with pc := .ended .raised } else none
  | .connected => if s.pc = .connecting then some (s.enterGroup cfg) else none
  | .taskEnds task outcome =>
      if s.pc = .grouped then
        match s.group.tasks.lookup task with
        | some (.running asked) =>
            if mayEnd s.stop asked task outcome then
              some { s with group := s.group.taskDone task outcome }
            else none
        | _ => none
      else none
  | .leaveGroup =>
      if s.pc = .grouped ∧ s.group.done = true then some (s.cleanFrom (cleanup cfg)) else none
  | .cleaned raises =>
      match s.pc with
      | .cleaning step rest =>
          -- `event_buffer.close()` is not guarded
          if raises = true ∧ step = .eventBufferClose then some { s with pc := .ended .raised }
          else some (s.cleanFrom rest)
      | _ => none

def step (cfg : AppConfig) (s : WindowsApp) (action : AppAction) : Option WindowsApp :=
  if s.finished then none else s.go cfg action

/-! ## One step -/

variable {cfg : AppConfig} {s t : WindowsApp} {action : AppAction}

/-- Before the tasks are created. -/
def Unstarted (s : WindowsApp) : Prop := s.group = {} ∧ s.begun = []

/-- What holds where `_arun` is. -/
def Phase (cfg : AppConfig) (s : WindowsApp) : Prop :=
  match s.pc with
  | .starting | .activating | .connecting => s.Unstarted
  -- the watcher runs until a task has failed
  | .grouped => s.begun = [] ∧
      (s.group.errors = [] → s.group.tasks.lookup .grpcWatcher = some (.running false))
  | .cleaning _ rest => s.group.errors ≠ [] ∧ s.begun ++ rest = cleanup cfg
  | .ended .returned => s.Unstarted
  | .ended .raised => s.Unstarted ∨ s.group.errors ≠ [] ∧ s.begun <+: cleanup cfg

/-- What holds in every state. -/
structure Sound (cfg : AppConfig) (s : WindowsApp) : Prop where
  group : s.group.Sound
  phase : s.Phase cfg
  exited : s.exited = true → 0 < s.signals

theorem sound_tasks (cfg : AppConfig) :
    (tasks cfg).Sound ∧ (tasks cfg).errors = [] ∧
      (tasks cfg).tasks.lookup .grpcWatcher = some (.running false) := by
  have two := TaskGroup.sound_create (TaskGroup.sound_create
    (TaskGroup.sound_empty : ({} : TaskGroup AppTask).Sound) rfl .orchestrator) rfl .grpcWatcher
  unfold tasks
  cases cfg.deviceId with
  | false => exact ⟨TaskGroup.sound_create two rfl .stopWaiter, rfl, rfl⟩
  | true =>
      exact ⟨TaskGroup.sound_create (TaskGroup.sound_create two rfl .grpcHeartbeat) rfl .stopWaiter,
        rfl, rfl⟩

theorem sound_enterGroup (unstarted : s.Unstarted) (exited : s.exited = true → 0 < s.signals) :
    (s.enterGroup cfg).Sound cfg := by
  obtain ⟨group, errors, watcher⟩ := sound_tasks cfg
  exact ⟨group, ⟨unstarted.2, fun _ => watcher⟩, exited⟩

theorem sound_activate (unstarted : s.Unstarted) (exited : s.exited = true → 0 < s.signals) :
    (s.activate cfg).Sound cfg := by
  unfold activate
  split
  · exact sound_enterGroup unstarted exited
  · refine ⟨?_, unstarted, exited⟩
    show s.group.Sound
    rw [unstarted.1]
    exact TaskGroup.sound_empty

theorem sound_end (sound : s.Sound cfg) (unstarted : s.Unstarted) (how : AppEnd) (stop : Bool) :
    Sound cfg { s with stop, pc := .ended how } := by
  refine ⟨sound.group, ?_, sound.exited⟩
  cases how with
  | returned => exact unstarted
  | raised => exact .inl unstarted

/-- After a failure the cleanup goes through its steps in their order. -/
theorem sound_cleanFrom (sound : s.Sound cfg) (failed : s.group.errors ≠ [])
    {rest : List CleanupStep} (progress : s.begun ++ rest = cleanup cfg) :
    (s.cleanFrom rest).Sound cfg := by
  cases rest with
  | nil =>
      refine ⟨sound.group, ?_, sound.exited⟩
      rw [List.append_nil] at progress
      simp only [cleanFrom, if_neg failed]
      exact .inr ⟨failed, progress ▸ List.prefix_rfl⟩
  | cons step rest =>
      refine ⟨sound.group, ⟨failed, ?_⟩, sound.exited⟩
      show (s.begun ++ [step]) ++ rest = cleanup cfg
      rw [List.append_assoc]
      exact progress

/-- Until a task has failed the watcher is not asked to cancel, and it ends in no other way. -/
theorem sound_taskEnds (sound : s.Sound cfg) (at_ : s.pc = .grouped) {task : AppTask}
    {outcome : Outcome} {asked : Bool} (runs : s.group.tasks.lookup task = some (.running asked))
    (may : mayEnd s.stop asked task outcome = true) :
    Sound cfg { s with group := s.group.taskDone task outcome } := by
  have phase := sound.phase
  simp only [Phase, at_] at phase
  refine ⟨TaskGroup.sound_taskDone sound.group task outcome, ?_, sound.exited⟩
  simp only [Phase, at_]
  refine ⟨phase.1, fun none => ?_⟩
  rw [TaskGroup.errors_taskDone] at none
  by_cases failed : outcome = .failed
  · simp [failed] at none
  · rw [if_neg failed] at none
    have watcher := phase.2 none
    have other : AppTask.grpcWatcher ≠ task := by
      rintro rfl
      obtain rfl : asked = false :=
        TaskPc.running.inj (Option.some.inj (runs.symm.trans watcher))
      cases outcome <;> simp_all [mayEnd]
    rw [TaskGroup.lookup_taskDone, if_neg other, if_neg (fun both => failed both.1)]
    exact watcher

theorem sound_go (sound : s.Sound cfg) (next : s.go cfg action = some t) : t.Sound cfg := by
  have phase := sound.phase
  cases action with
  | quit =>
      cases next
      exact ⟨sound.group, phase, sound.exited⟩
  | signal =>
      cases next
      unfold onSignal
      split
      · exact ⟨sound.group, phase, fun _ => Nat.one_pos⟩
      · exact ⟨sound.group, phase, fun _ => Nat.two_pos⟩
      · exact ⟨sound.group, phase, fun _ => Nat.succ_pos _⟩
  | forceExit =>
      obtain ⟨got, ⟨⟩⟩ := Option.ite_none_right_eq_some.mp next
      exact ⟨sound.group, phase, fun _ => got⟩
  | proceed =>
      obtain ⟨at_, done⟩ := Option.ite_none_right_eq_some.mp next
      simp only [Phase, at_] at phase
      obtain rfl := Option.some.inj done
      split
      · exact ⟨sound.group, phase, sound.exited⟩
      · exact sound_activate phase sound.exited
  | dialog accepted =>
      obtain ⟨at_, done⟩ := Option.ite_none_right_eq_some.mp next
      simp only [Phase, at_] at phase
      match accepted, done with
      | none, rfl => exact sound_end sound phase .returned true
      | some true, rfl => exact sound_enterGroup phase sound.exited
      | some false, rfl => exact sound_activate phase sound.exited
  | dialogRaises =>
      obtain ⟨at_, ⟨⟩⟩ := Option.ite_none_right_eq_some.mp next
      simp only [Phase, at_] at phase
      exact sound_end sound phase .raised s.stop
  | connected =>
      obtain ⟨at_, ⟨⟩⟩ := Option.ite_none_right_eq_some.mp next
      simp only [Phase, at_] at phase
      exact sound_enterGroup phase sound.exited
  | taskEnds task outcome =>
      obtain ⟨at_, done⟩ := Option.ite_none_right_eq_some.mp next
      split at done
      · rename_i asked runs
        obtain ⟨may, ⟨⟩⟩ := Option.ite_none_right_eq_some.mp done
        exact sound_taskEnds sound at_ runs may
      · cases done
  | leaveGroup =>
      obtain ⟨⟨at_, left⟩, ⟨⟩⟩ := Option.ite_none_right_eq_some.mp next
      simp only [Phase, at_] at phase
      have failed : s.group.errors ≠ [] := by
        intro none
        rw [TaskGroup.not_done (phase.2 none)] at left
        cases left
      exact sound_cleanFrom sound failed (by rw [phase.1]; rfl)
  | cleaned raises =>
      simp only [go] at next
      split at next
      · rename_i step rest at_
        simp only [Phase, at_] at phase
        split at next
        · cases next
          exact ⟨sound.group, .inr ⟨phase.1, ⟨rest, phase.2⟩⟩, sound.exited⟩
        · cases next
          exact sound_cleanFrom sound phase.1 phase.2
      · cases next

theorem sound_step (sound : s.Sound cfg) (next : step cfg s action = some t) : t.Sound cfg := by
  obtain ⟨-, next⟩ := Option.ite_none_left_eq_some.mp next
  exact sound_go sound next

/-! ## Every run -/

theorem sound_init (cfg : AppConfig) : Sound cfg {} :=
  ⟨TaskGroup.sound_empty, ⟨rfl, rfl⟩, nofun⟩

theorem sound_of_reachable (run : Reachable (step cfg) Free {} s) : s.Sound cfg :=
  run.invariant (sound_init cfg) fun _ _ _ sound _ next => sound_step sound next

/-- What quitting comes to when no task has failed. -/
structure Quits (cfg : AppConfig) (s : WindowsApp) : Prop where
  /-- the cleanup begins after a failure, and goes in its order -/
  begun : s.begun ≠ [] → s.group.errors ≠ [] ∧ s.begun <+: cleanup cfg
  /-- until then the group has its watcher, which is not asked to cancel -/
  grouped : s.pc = .grouped → s.group.errors = [] →
    s.group.tasks.lookup .grpcWatcher = some (.running false)
  /-- the other way out is the activation, before the group -/
  ended : ∀ how, s.pc = .ended how → s.group.errors = [] → s.group = {} ∧ s.begun = []
  /-- the process is killed after a signal only -/
  killed : s.exited = true → 0 < s.signals

theorem failed_of_begun (sound : s.Sound cfg) (begun : s.begun ≠ []) :
    s.group.errors ≠ [] ∧ s.begun <+: cleanup cfg := by
  have phase := sound.phase
  unfold Phase at phase
  split at phase
  · exact absurd phase.2 begun
  · exact absurd phase.2 begun
  · exact absurd phase.2 begun
  · exact absurd phase.1 begun
  · exact ⟨phase.1, ⟨_, phase.2⟩⟩
  · exact absurd phase.2 begun
  · exact phase.resolve_left fun unstarted => begun unstarted.2

/-- **Quitting waits for a failure.**  Whatever the user, the signals and the tasks do, the
cleanup is begun only after a task of the group has failed.  Until then the group, once
entered, is not left. -/
theorem quit_needs_failure (cfg : AppConfig) (s : WindowsApp)
    (run : Reachable (step cfg) Free {} s) : s.Quits cfg := by
  have sound := sound_of_reachable run
  have phase := sound.phase
  refine ⟨failed_of_begun sound, fun at_ none => ?_, fun how at_ none => ?_, sound.exited⟩
  · simp only [Phase, at_] at phase
    exact phase.2 none
  · cases how with
    | returned =>
        simp only [Phase, at_] at phase
        exact phase
    | raised =>
        simp only [Phase, at_] at phase
        have unstarted := phase.resolve_right fun failed => failed.1 none
        exact unstarted

/-! ## Poles -/

def activatedEdge : AppConfig where
  token := true
  deviceId := true
  eventBuffer := false

/-- "退出" when all is well. -/
def quitActions : List AppAction :=
  [.proceed, .connected, .taskEnds .orchestrator .returned, .quit, .taskEnds .stopWaiter .cancelled]

theorem quitActions_runs : (Transition.run (step activatedEdge) {} quitActions).isSome := by
  decide +kernel

def quitApp : WindowsApp :=
  (Transition.run (step activatedEdge) {} quitActions).get quitActions_runs

theorem quitApp_quits : quitApp.stop = true ∧ quitApp.Quits activatedEdge :=
  ⟨by decide +kernel, quit_needs_failure activatedEdge quitApp (reachable_get quitActions_runs)⟩

-- the application that was quit goes on, and its watcher neither returns nor is cancelled
example :
    quitApp.pc = .grouped ∧ quitApp.begun = [] ∧ step activatedEdge quitApp .leaveGroup = none ∧
      step activatedEdge quitApp (.taskEnds .grpcWatcher .returned) = none ∧
      step activatedEdge quitApp (.taskEnds .grpcWatcher .cancelled) = none := by
  decide +kernel

-- a signal ends the process by its timer, with no cleanup step begun
example :
    (Transition.run (step activatedEdge) {}
      [.proceed, .connected, .signal, .taskEnds .stopWaiter .cancelled, .forceExit]).map
      (fun s => (s.exited, s.pc, s.begun)) = some (true, .grouped, []) := by
  decide +kernel

-- a task that fails brings the group down, and the whole cleanup is run
example :
    (Transition.run (step activatedEdge) {}
      [.proceed, .connected, .taskEnds .orchestrator .returned, .taskEnds .grpcHeartbeat .failed,
        .taskEnds .grpcWatcher .cancelled, .taskEnds .stopWaiter .cancelled, .leaveGroup,
        .cleaned false, .cleaned true, .cleaned false]).map
      (fun s => (s.pc, s.begun)) = some (.ended .raised, cleanup activatedEdge) := by
  decide +kernel

end WindowsApp

end IsalesTelephony.Ui
