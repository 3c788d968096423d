/-
# Theory.TaskGroup -- tasks that are awaited together

`asyncio.TaskGroup`: the first task that fails aborts the group, which asks each task that runs
to cancel; the group is left when no task runs.  A task that ends cancelled fails nothing,
whether it was asked to or raised the cancellation itself.

So the group is aborted exactly when a task failed (`Sound.aborted`), and until then no task is
asked to cancel (`Sound.asked`).
-/
import IsalesTelephony.Theory.Dict

namespace IsalesTelephony.Theory

set_option autoImplicit false

universe u

/-- How a task ended. -/
inductive Outcome where
  | returned
  | cancelled
  | failed
  deriving DecidableEq, Repr

inductive TaskPc where
  /-- `asked` to cancel -/
  | running (asked : Bool)
  | finished (outcome : Outcome)
  deriving DecidableEq, Repr

structure TaskGroup (ι : Type u) where
  tasks : List (ι × TaskPc) := []
  aborting : Bool := false
  /-- the tasks whose exceptions the group raises when it is left -/
  errors : List ι := []
  deriving DecidableEq, Repr

namespace TaskGroup

variable {ι : Type u} [DecidableEq ι]

/-- `create_task`, before the group is aborted. -/
def create (g : TaskGroup ι) (i : ι) : TaskGroup ι :=
  { g with tasks := Dict.put g.tasks i (.running false) }

def ask : TaskPc → TaskPc
  | .running _ => .running true
  | .finished outcome => .finished outcome

/-- `_abort`. -/
def abort (g : TaskGroup ι) : TaskGroup ι :=
  { g with tasks := g.tasks.map fun e => (e.1, ask e.2), aborting := true }

/-- `_on_task_done`. -/
def taskDone (g : TaskGroup ι) (i : ι) (outcome : Outcome) : TaskGroup ι :=
  let g := { g with tasks := Dict.put g.tasks i (.finished outcome) }
  match outcome with
  | .returned | .cancelled => g
  | .failed =>
      let g := { g with errors := g.errors ++ [i] }
      if g.aborting then g else g.abort

/-- No task runs. -/
def done (g : TaskGroup ι) : Bool :=
  g.tasks.all fun e =>
    match e.2 with
    | .running _ => false
    | .finished _ => true

variable {g : TaskGroup ι} {i j : ι} {pc : TaskPc} {outcome : Outcome}

@[simp] theorem lookup_create (g : TaskGroup ι) (i j : ι) :
    (g.create i).tasks.lookup j = if j = i then some (.running false) else g.tasks.lookup j :=
  Dict.lookup_put ..

@[simp] theorem lookup_abort (g : TaskGroup ι) (j : ι) :
    g.abort.tasks.lookup j = (g.tasks.lookup j).map ask :=
  Dict.lookup_map ask g.tasks j

/-- What a task's end does to the tasks: in a group that it aborts those that run are asked. -/
theorem lookup_taskDone (g : TaskGroup ι) (i j : ι) (outcome : Outcome) :
    (g.taskDone i outcome).tasks.lookup j =
      if j = i then some (.finished outcome)
      else if outcome = .failed ∧ g.aborting = false then (g.tasks.lookup j).map ask
      else g.tasks.lookup j := by
  have put : (Dict.put g.tasks i (.finished outcome)).lookup j =
      if j = i then some (.finished outcome) else g.tasks.lookup j := Dict.lookup_put ..
  unfold taskDone
  cases outcome with
  | returned => simpa using put
  | cancelled => simpa using put
  | failed =>
      cases aborting : g.aborting with
      | true => simpa [aborting] using put
      | false =>
          simp only [Bool.false_eq_true, if_false, lookup_abort, put]
          split <;> rfl

theorem errors_taskDone (g : TaskGroup ι) (i : ι) (outcome : Outcome) :
    (g.taskDone i outcome).errors = if outcome = .failed then g.errors ++ [i] else g.errors := by
  unfold taskDone
  cases outcome with
  | returned | cancelled => rfl
  | failed =>
      dsimp only
      split <;> rfl

theorem aborting_taskDone (g : TaskGroup ι) (i : ι) (outcome : Outcome) :
    (g.taskDone i outcome).aborting = (g.aborting || decide (outcome = .failed)) := by
  unfold taskDone
  cases outcome with
  | returned | cancelled => simp
  | failed =>
      dsimp only
      split
      · rename_i already
        simp [already]
      · simp [abort]

/-- What holds of every group. -/
structure Sound (g : TaskGroup ι) : Prop where
  aborted : g.aborting = true ↔ g.errors ≠ []
  /-- a task that runs was asked to cancel exactly if the group is aborted -/
  asked : ∀ i asked, g.tasks.lookup i = some (.running asked) → asked = g.aborting

theorem sound_empty : Sound ({} : TaskGroup ι) := ⟨by simp, nofun⟩

theorem sound_create (sound : g.Sound) (going : g.aborting = false) (i : ι) :
    (g.create i).Sound := by
  refine ⟨sound.aborted, fun j asked runs => ?_⟩
  rw [lookup_create] at runs
  split at runs
  · obtain rfl := TaskPc.running.inj (Option.some.inj runs)
    exact going.symm
  · exact sound.asked j asked runs

theorem ask_eq_running {asked : Bool} (same : ask pc = .running asked) : asked = true := by
  cases pc with
  | running before => exact (TaskPc.running.inj same).symm
  | finished outcome => cases same

theorem sound_taskDone (sound : g.Sound) (i : ι) (outcome : Outcome) :
    (g.taskDone i outcome).Sound := by
  constructor
  · rw [aborting_taskDone, errors_taskDone]
    by_cases failed : outcome = .failed
    · simp [failed]
    · simpa [failed] using sound.aborted
  · intro j asked runs
    rw [aborting_taskDone]
    rw [lookup_taskDone] at runs
    split at runs
    · cases runs
    · split at runs
      · rename_i aborts
        obtain ⟨pc, -, same⟩ := Option.map_eq_some_iff.mp runs
        rw [ask_eq_running same, aborts.1]
        exact (Bool.or_true _).symm
      · rename_i stays
        have before := sound.asked j asked runs
        cases aborting : g.aborting with
        | true => simpa [aborting] using before
        | false =>
            have notFailed : outcome ≠ .failed := fun failed => stays ⟨failed, aborting⟩
            simpa [aborting, notFailed] using before

/-- A group with a task that runs is not left. -/
theorem not_done {asked : Bool} (runs : g.tasks.lookup i = some (.running asked)) :
    g.done = false := by
  rw [done, List.all_eq_false]
  exact ⟨_, Dict.mem_of_lookup runs, by simp⟩

end TaskGroup

end IsalesTelephony.Theory
