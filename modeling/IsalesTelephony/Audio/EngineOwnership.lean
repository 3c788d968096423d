/-
# Audio.EngineOwnership -- whose engine is alive, and what it was told

A future has what came first for its engine's `join`: a callback the loop ran, the timeout, or
the cancellation; a timeout also comes after a callback that the `join` has not gone on with.  So
a `join` that has waited returns if what came first was `OnJoinChannelResult(0)`, and raises that
or the timeout otherwise (`Told`).

As long as no `join` is made over an engine that an earlier one has left in the session
(`Fresh`), an engine is alive only while it is the session's, and none is once the session is
closed (`session_owns_engine`).  A `join` that is left while it waits may still return, to a
session that says it is joined and has no engine (`joined_without_engine`).
-/
import IsalesTelephony.Audio.WindowsSession
import IsalesTelephony.Theory.History

namespace IsalesTelephony.Audio.WindowsSession

set_option autoImplicit false

open IsalesTelephony.Theory
open IsalesTelephony.Theory.Transition

variable {config : WindowsSessionConfig} {ok : WindowsSession → Prop} {s t : WindowsSession}
  {event : JoinEvent} {notice : JoinNotice} {i a k : Nat} {teardown : Teardown}

/-- What came first for the `join` of an engine. -/
def told (s : WindowsSession) (a : Nat) : Option JoinNotice :=
  (s.came.find? fun entry => entry.1 = a).map Prod.snd

/-- What the `join` of an engine goes by: the timeout, or else what came first. -/
def goesBy (s : WindowsSession) (a : Nat) : Option JoinNotice :=
  if (a, .timeout) ∈ s.came then some .timeout else s.told a

/-- A future has what its `join` goes by. -/
def Agrees (by_ : Option JoinNotice) : JoinFuture → Prop
  | .pending => by_ = none
  | .result rc => by_ = some (.callback (.joinResult rc))
  | .exception code message => by_ = some (.callback (.error code message))
  | .cancelled => by_ = some .timeout ∨ by_ = some .cancelled

/-- The `join` of this engine raises the timeout that came for it, or what came first. -/
def SaidError (s : WindowsSession) (a : Nat) : JoinError → Prop
  | .timedOut => (a, .timeout) ∈ s.came
  | .joinError code message => s.told a = some (.callback (.error code message))
  | .joinResult rc => rc ≠ 0 ∧ s.told a = some (.callback (.joinResult rc))

def Said (s : WindowsSession) : SessionTask → Prop
  | .joined a => s.told a = some (.callback (.joinResult 0))
  | .failed a error | .stopping (.join a error) => s.SaidError a error
  | _ => True

/-- How a `join` ends that waits, by what it goes by. -/
def outcome (a : Nat) : JoinNotice → SessionTask
  | .callback (.joinResult rc) => if rc = 0 then .joined a else .failed a (.joinResult rc)
  | .callback (.error code message) => .failed a (.joinError code message)
  | .timeout => .failed a .timedOut
  | .cancelled => .cancelled

structure Told (s : WindowsSession) : Prop where
  futures : ∀ (a : Nat) (x : JoinAttempt), s.attempts[a]? = some x → Agrees (s.goesBy a) x.future
  came : ∀ entry ∈ s.came, entry.1 < s.attempts.length
  scheduled : ∀ entry ∈ s.scheduled, entry.1 < s.attempts.length
  waits : ∀ i a : Nat, s.tasks[i]? = some (.joining a) →
    a < s.attempts.length ∧ s.goesBy a ≠ some .cancelled
  apart : ∀ i j a : Nat, s.tasks[i]? = some (.joining a) → s.tasks[j]? = some (.joining a) → i = j
  tasks : ∀ (i : Nat) (task : SessionTask), s.tasks[i]? = some task → s.Said task

/-! ## What was told -/

theorem told_came (came : t.came = s.came ++ [(a, notice)]) :
    t.told k = (s.told k).or (if a = k then some notice else none) := by
  simp only [told, came, List.find?_append, Option.map_or, List.find?_singleton]
  by_cases here : a = k
  · simp [here]
  · simp [here]

theorem told_of_eq (came : t.came = s.came) : t.told k = s.told k := by
  rw [told, told, came]

theorem goesBy_of_eq (came : t.came = s.came) : t.goesBy k = s.goesBy k := by
  rw [goesBy, goesBy, told_of_eq came, came]

/-- A timeout takes the place of what came before it. -/
theorem goesBy_came (came : t.came = s.came ++ [(a, notice)]) :
    t.goesBy k = if a = k then
      if notice = .timeout then some .timeout else (s.goesBy k).or (some notice)
    else s.goesBy k := by
  have timeouts : (k, .timeout) ∈ t.came ↔ (k, .timeout) ∈ s.came ∨ a = k ∧ notice = .timeout := by
    rw [came, List.mem_append, List.mem_singleton, Prod.mk.injEq, @eq_comm _ k, @eq_comm _ _ notice]
  rw [goesBy, goesBy, told_came came]
  simp only [timeouts]
  by_cases here : a = k
  · by_cases late : notice = .timeout
    · simp [here, late]
    · by_cases before : (k, .timeout) ∈ s.came
      · simp [here, late, before]
      · simp [here, late, before]
  · simp [here]

theorem goesBy_timeout : s.goesBy a = some .timeout ↔ (a, .timeout) ∈ s.came := by
  unfold goesBy
  split
  · rename_i late
    exact ⟨fun _ => late, fun _ => rfl⟩
  · rename_i early
    refine ⟨fun first => absurd ?_ early, fun late => absurd late early⟩
    obtain ⟨entry, found, same⟩ := Option.map_eq_some_iff.mp first
    have own : entry.1 = a := by simpa using List.find?_some found
    rw [← own, ← same]
    exact List.mem_of_find?_eq_some found

theorem told_of_goesBy (by_ : s.goesBy a = some notice) (inTime : notice ≠ .timeout) :
    s.told a = some notice := by
  unfold goesBy at by_
  split at by_
  · exact absurd (Option.some.inj by_).symm inTime
  · exact by_

theorem came_teardownRest : (s.teardownRest i teardown).came = s.came := by
  obtain ⟨attempts, same, -⟩ := teardownRest_eq s i teardown
  rw [same]
  cases teardown <;> rfl

/-- What was told first stays so. -/
theorem told_move (move : Move config ok s t) (before : s.told k = some notice) :
    t.told k = some notice := by
  have first : ∀ {a : Nat} {other : JoinNotice}, t.came = s.came ++ [(a, other)] →
      t.told k = some notice := by
    intro a other came
    rw [told_came came, before]
    rfl
  cases move with
  | runs | timesOut | abandons => exact first rfl
  | tears i teardown who => exact (told_of_eq came_teardownRest).trans before
  | _ => exact before

/-- What came has come. -/
theorem came_move (move : Move config ok s t) {entry : Nat × JoinNotice} (before : entry ∈ s.came) :
    entry ∈ t.came := by
  cases move with
  | runs | timesOut | abandons => exact List.mem_append_left _ before
  | tears i teardown who => rwa [came_teardownRest]
  | _ => exact before

theorem SaidError.move {error : JoinError} (said : s.SaidError a error) (move : Move config ok s t) :
    t.SaidError a error := by
  cases error with
  | timedOut => exact came_move move said
  | joinError code message => exact told_move move said
  | joinResult rc => exact ⟨said.1, told_move move said.2⟩

theorem Said.move {task : SessionTask} (said : s.Said task) (move : Move config ok s t) :
    t.Said task := by
  cases task with
  | joined a => exact told_move move said
  | failed a error => exact SaidError.move said move
  | stopping teardown =>
      cases teardown with
      | join a error => exact SaidError.move said move
      | leave => trivial
  | _ => trivial

section
variable (holds : Told s)

include holds

/-- A `join` raises what it was told. -/
theorem saidError_of_explains {error : JoinError} (explains : s.Explains a error) :
    s.SaidError a error := by
  obtain ⟨⟨i, waiting⟩, x, here, future⟩ := explains
  have agrees := holds.futures a x here
  cases error with
  | timedOut =>
      rw [show x.future = .cancelled from future] at agrees
      exact goesBy_timeout.mp (agrees.resolve_right (holds.waits i a waiting).2)
  | joinError code message =>
      rw [show x.future = .exception code message from future] at agrees
      exact told_of_goesBy agrees nofun
  | joinResult rc =>
      rw [future.2] at agrees
      exact ⟨future.1, told_of_goesBy agrees nofun⟩

theorem said_of_fits {task : SessionTask} (fits : s.Fits task) : s.Said task := by
  cases task with
  | joined a => exact fits.elim
  | failed a error => exact fits.elim
  | stopping teardown =>
      cases teardown with
      | join a error => exact saidError_of_explains holds fits.1
      | leave => trivial
  | _ => trivial

/-- Nothing came for an engine that is not there. -/
theorem goesBy_new : s.goesBy s.attempts.length = none := by
  have unknown : ∀ entry ∈ s.came, entry.1 ≠ s.attempts.length := fun entry member =>
    Nat.ne_of_lt (holds.came entry member)
  rw [goesBy, if_neg fun late => unknown _ late rfl, told, Option.map_eq_none_iff,
    List.find?_eq_none]
  intro entry member
  simpa using unknown entry member

/-- The tasks are as they were, but for one that says what it was told. -/
theorem told_tasks (move : Move config ok s t) (same : t.came = s.came)
    (scheduled : t.scheduled = s.scheduled) (length : t.attempts.length = s.attempts.length)
    (futures : ∀ (a : Nat) (x : JoinAttempt), t.attempts[a]? = some x →
      ∃ old, s.attempts[a]? = some old ∧ x.future = old.future)
    (task : SessionTask) (said : t.Said task) (finished : ∀ a, task ≠ .joining a)
    (tasks : ∀ (i : Nat) (other : SessionTask), t.tasks[i]? = some other →
      s.tasks[i]? = some other ∨ other = task) : Told t := by
  have old : ∀ i a : Nat, t.tasks[i]? = some (.joining a) → s.tasks[i]? = some (.joining a) := by
    intro i a here
    exact (tasks i _ here).resolve_right fun isTask => finished a isTask.symm
  constructor
  case futures =>
    intro a x here
    obtain ⟨before, there, future⟩ := futures a x here
    rw [goesBy_of_eq same, future]
    exact holds.futures a before there
  case came =>
    rw [same, length]
    exact holds.came
  case scheduled =>
    rw [scheduled, length]
    exact holds.scheduled
  case waits =>
    intro i a here
    rw [length, goesBy_of_eq same]
    exact holds.waits i a (old i a here)
  case apart => exact fun i j a here there => holds.apart i j a (old i a here) (old j a there)
  case tasks =>
    intro i other here
    rcases tasks i other here with there | rfl
    · exact (holds.tasks i other there).move move
    · exact said

end

theorem tasks_addTask {task other : SessionTask} (here : (s.addTask task).tasks[i]? = some other) :
    s.tasks[i]? = some other ∨ i = s.tasks.length ∧ other = task :=
  getElem?_snoc_cases here

theorem tasks_setTask {task other : SessionTask} (here : (s.setTask k task).tasks[i]? = some other) :
    i ≠ k ∧ s.tasks[i]? = some other ∨ i = k ∧ other = task := by
  rw [setTask, List.getElem?_set] at here
  split at here
  · rename_i own
    split at here
    · exact .inr ⟨own.symm, (Option.some.inj here).symm⟩
    · cases here
  · rename_i away
    exact .inl ⟨fun same => away same.symm, here⟩

/-- A future that is done stays as it is, and so does what its `join` goes by. -/
theorem agrees_or {f : JoinFuture → JoinFuture}
    (kept : ∀ future, future ≠ .pending → f future = future)
    (first : Agrees (some notice) (f .pending)) {future : JoinFuture} {before : Option JoinNotice}
    (agrees : Agrees before future) : Agrees (before.or (some notice)) (f future) := by
  cases future with
  | pending =>
      rw [show before = none from agrees]
      exact first
  | result rc | exception code message =>
      rw [kept _ (by simp), show before = some _ from agrees]
      rfl
  | cancelled =>
      rw [kept _ (by simp)]
      rcases agrees with rfl | rfl
      · exact .inl rfl
      · exact .inr rfl

theorem settle_of_done {future : JoinFuture} (done : future ≠ .pending) :
    future.settle event = future := by
  cases future with
  | pending => exact absurd rfl done
  | _ => rfl

theorem cancel_of_done {future : JoinFuture} (done : future ≠ .pending) :
    future.cancel = future := by
  cases future with
  | pending => exact absurd rfl done
  | _ => rfl

/-- Something came for the `join` of an engine, and its future was told. -/
theorem told_comes (holds : Told s) (move : Move config ok s t) {f : JoinFuture → JoinFuture}
    (came : t.came = s.came ++ [(a, notice)]) (known : a < s.attempts.length)
    (attempts : t.attempts = (s.setFuture a f).attempts)
    (agrees : ∀ {future before}, Agrees before future →
      Agrees (if notice = .timeout then some .timeout else before.or (some notice)) (f future))
    (scheduled : ∀ entry ∈ t.scheduled, entry ∈ s.scheduled)
    (tasks : ∀ (i : Nat) (other : SessionTask), t.tasks[i]? = some other →
      s.tasks[i]? = some other ∨ other = .cancelled)
    (gone : ∀ i : Nat, t.tasks[i]? = some (.joining a) → notice ≠ .cancelled) : Told t := by
  have length : t.attempts.length = s.attempts.length := by
    rw [attempts]
    exact List.length_modify ..
  have old : ∀ i a : Nat, t.tasks[i]? = some (.joining a) → s.tasks[i]? = some (.joining a) :=
    fun i a here => (tasks i _ here).resolve_right nofun
  constructor
  case futures =>
    intro k x here
    rw [goesBy_came came]
    rw [attempts, attempts_setFuture] at here
    obtain ⟨old, there, rfl⟩ := Option.map_eq_some_iff.mp here
    have before := holds.futures k old there
    by_cases own : a = k
    · rw [if_pos own, if_pos own]
      exact agrees before
    · rw [if_neg own, if_neg own]
      exact before
  case came =>
    intro entry member
    rw [came] at member
    rw [length]
    rcases List.mem_append.mp member with old | new
    · exact holds.came entry old
    · rw [List.mem_singleton.mp new]
      exact known
  case scheduled =>
    intro entry member
    rw [length]
    exact holds.scheduled entry (scheduled entry member)
  case waits =>
    intro i b here
    obtain ⟨bound, before⟩ := holds.waits i b (old i b here)
    refine ⟨length ▸ bound, ?_⟩
    rw [goesBy_came came]
    split
    · rename_i own
      subst own
      split
      · nofun
      · cases first : s.goesBy a with
        | some other => rwa [first] at before
        | none => simpa using gone i here
    · exact before
  case apart => exact fun i j a here there => holds.apart i j a (old i a here) (old j a there)
  case tasks =>
    intro i other here
    rcases tasks i other here with there | rfl
    · exact (holds.tasks i other there).move move
    · trivial

/-- The futures are as they were. -/
theorem told_handles {f : EngineHandle → EngineHandle} (holds : Told s)
    (move : Move config ok s (s.setHandle a f)) : Told (s.setHandle a f) := by
  refine told_tasks holds move rfl rfl (List.length_modify ..) (fun k x here => ?_) .left trivial
    nofun fun i other here => .inl here
  rw [attempts_setHandle] at here
  obtain ⟨old, there, rfl⟩ := Option.map_eq_some_iff.mp here
  refine ⟨old, there, ?_⟩
  split <;> rfl

theorem told_tears (holds : Told s) (who : s.Tears i teardown)
    (move : Move config ok s (s.teardownRest i teardown)) : Told (s.teardownRest i teardown) := by
  have error : ∀ a error, teardown = .join a error →
      (s.teardownRest i teardown).SaidError a error := by
    rintro a error rfl
    rcases who with stopping | ⟨b, cause, same, -, -, explains⟩
    · exact SaidError.move (holds.tasks i _ stopping) move
    · cases same
      exact SaidError.move (saidError_of_explains holds explains) move
  have came : (s.teardownRest i teardown).came = s.came := came_teardownRest
  obtain ⟨attempts, same, length, before⟩ := teardownRest_eq s i teardown
  have futures : ∀ (k : Nat) (x : JoinAttempt), attempts[k]? = some x →
      ∃ old, s.attempts[k]? = some old ∧ x.future = old.future := by
    intro k x here
    obtain ⟨old, there, future, -⟩ := before k x here
    exact ⟨old, there, future⟩
  rw [same] at error came move ⊢
  cases teardown with
  | join a cause =>
      refine told_tasks holds move came rfl length futures (.failed a cause) (error a cause rfl)
        nofun ?_
      exact fun j other here => (tasks_setTask here).imp And.right And.right
  | leave =>
      refine told_tasks holds move came rfl length futures .left trivial nofun ?_
      exact fun j other here => (tasks_setTask here).imp And.right And.right

/-- A new attempt has been told nothing, and only its own `join` waits for it. -/
theorem told_append {x : JoinAttempt} (holds : Told s) (pending : x.future = .pending)
    (attempts : t.attempts = s.attempts ++ [x]) (came : t.came = s.came)
    (scheduled : t.scheduled = s.scheduled) (move : Move config ok s t)
    (tasks : ∀ (i : Nat) (other : SessionTask), t.tasks[i]? = some other →
      s.tasks[i]? = some other ∨ i = s.tasks.length ∧ other = .joining s.attempts.length) :
    Told t := by
  have length : t.attempts.length = s.attempts.length + 1 := by simp [attempts]
  constructor
  case futures =>
    intro k y here
    rw [goesBy_of_eq came]
    rw [attempts] at here
    rcases getElem?_snoc_cases here with there | ⟨rfl, rfl⟩
    · exact holds.futures k y there
    · rw [pending]
      exact goesBy_new holds
  case came =>
    rw [came, length]
    exact fun entry member => Nat.lt_succ_of_lt (holds.came entry member)
  case scheduled =>
    rw [scheduled, length]
    exact fun entry member => Nat.lt_succ_of_lt (holds.scheduled entry member)
  case waits =>
    intro i a here
    rw [length, goesBy_of_eq came]
    rcases tasks i _ here with there | ⟨-, isNew⟩
    · exact ⟨Nat.lt_succ_of_lt (holds.waits i a there).1, (holds.waits i a there).2⟩
    · cases isNew
      exact ⟨Nat.lt_succ_self _, by rw [goesBy_new holds]; nofun⟩
  case apart =>
    intro i j a here there
    rcases tasks i _ here with old | ⟨rfl, isNew⟩
    · rcases tasks j _ there with old' | ⟨-, isNew⟩
      · exact holds.apart i j a old old'
      · cases isNew
        exact absurd (holds.waits i _ old).1 (Nat.lt_irrefl _)
    · cases isNew
      rcases tasks j _ there with old' | ⟨rfl, -⟩
      · exact absurd (holds.waits j _ old').1 (Nat.lt_irrefl _)
      · rfl
  case tasks =>
    intro i other here
    rcases tasks i other here with there | ⟨-, rfl⟩
    · exact (holds.tasks i other there).move move
    · trivial

theorem told_step (holds : Told s) (move : Move config ok s t) : Told t := by
  have kept := move
  cases move with
  | adds task fits =>
      refine told_tasks holds kept rfl rfl rfl (fun a x here => ⟨x, here, rfl⟩) task
        ((said_of_fits holds fits).move kept) (fun a same => ?_) fun i other here =>
          (tasks_addTask here).imp id And.right
      subst same
      exact fits
  | sets i task fits =>
      refine told_tasks holds kept rfl rfl rfl (fun a x here => ⟨x, here, rfl⟩) task
        ((said_of_fits holds fits).move kept) (fun a same => ?_) fun i other here =>
          (tasks_setTask here).imp And.right And.right
      subst same
      exact fits
  | leaves a rc => exact told_handles holds kept
  | pushes a frame rc found => exact told_handles holds kept
  | tears i teardown who => exact told_tears holds who kept
  | calls a event known =>
      refine { holds with scheduled := fun entry member => ?_ }
      rcases List.mem_append.mp member with old | new
      · exact holds.scheduled entry old
      · rw [List.mem_singleton.mp new]
        exact known
  | runs a event rest first =>
      have known : a < s.attempts.length :=
        holds.scheduled (a, event) (first ▸ List.mem_cons_self)
      refine told_comes (f := fun future => future.settle event) holds kept rfl known rfl
        (agrees_or (fun _ done => settle_of_done done) (by cases event <;> rfl))
        (fun entry member => ?_) (fun _ _ there => .inl there) fun _ _ => nofun
      rw [first]
      exact List.mem_cons_of_mem _ member
  | timesOut a known =>
      have raises : Agrees (some .timeout) .cancelled := .inl rfl
      exact told_comes (f := fun _ => .cancelled) holds kept rfl known rfl (fun _ => raises)
        (fun _ => id) (fun _ _ there => .inl there) fun _ _ => nofun
  | abandons i a task =>
      have gives : Agrees (some .cancelled) .cancelled := .inr rfl
      refine told_comes (f := JoinFuture.cancel) holds kept rfl (holds.waits i a task).1 rfl
        (agrees_or (fun _ done => cancel_of_done done) gives) (fun _ => id)
        (fun _ _ there => (tasks_setTask there).imp And.right And.right) ?_
      -- no other `join` waits for this engine
      intro j there
      rcases tasks_setTask there with ⟨away, waiting⟩ | ⟨-, isCancelled⟩
      · exact absurd (holds.apart j i a waiting task) away
      · cases isCancelled
  | returns i a x task here zero =>
      have agrees := holds.futures a x here
      rw [zero] at agrees
      have zero : s.told a = some (.callback (.joinResult 0)) := told_of_goesBy agrees nofun
      refine told_tasks holds kept rfl rfl rfl (fun a x here => ⟨x, here, rfl⟩) (.joined a) zero
        nofun ?_
      intro j other there
      exact (tasks_setTask there).imp And.right And.right
  | rates sampleRate channels =>
      exact ⟨holds.futures, holds.came, holds.scheduled, holds.waits, holds.apart, holds.tasks⟩
  | fails call h error made =>
      exact told_append holds rfl rfl rfl rfl kept fun _ _ there => .inl there
  | joins call h made open_ allowed =>
      exact told_append holds rfl rfl rfl rfl kept fun _ _ there => tasks_addTask there

/-! ## Whose engine is alive -/

/-- `join` is not called over an engine of an earlier `join`, unless it is refused anyway. -/
def Fresh (s : WindowsSession) : SessionAction → Prop
  | .join _ => s.joined = false → s.closed = false → s.engine = none
  | _ => True

instance (s : WindowsSession) : (action : SessionAction) → Decidable (s.Fresh action)
  | .join _ =>
      inferInstanceAs (Decidable (s.joined = false → s.closed = false → s.engine = none))
  | .callback .. | .runCallback | .timeout _ | .resumes _ | .leave _ | .goesOn _ | .push .. |
    .pushResumes .. | .cancel _ => inferInstanceAs (Decidable True)

structure Owned (s : WindowsSession) : Prop where
  own : ∀ (a : Nat) (x : JoinAttempt), s.attempts[a]? = some x → x.handle.engine = true →
    s.engine = some a
  here : ∀ a : Nat, s.engine = some a → ∃ x, s.attempts[a]? = some x ∧ x.handle.engine = true
  closed : s.closed = true → s.engine = none
  drains : s.drainer ≠ none → s.joined = true ∨ s.closed = true
  joined : s.joined = true → s.closed = false →
    ∃ a, s.engine = some a ∧ s.drainer = some a ∧ s.told a = some (.callback (.joinResult 0))
  waits : ∀ i a : Nat, s.tasks[i]? = some (.joining a) →
    s.joined = false ∧ s.drainer = none ∧ (s.closed = false → s.engine = some a)
  single : ∀ i j a b : Nat, s.tasks[i]? = some (.joining a) → s.tasks[j]? = some (.joining b) → i = j
  stops : ∀ (i a : Nat) (error : JoinError), s.tasks[i]? ≠ some (.stopping (.join a error))
  pushes : ∀ (i a : Nat) (frames : List Handed), s.tasks[i]? = some (.pushing a frames) →
    s.told a = some (.callback (.joinResult 0))
  heard : ∀ (a : Nat) (x : JoinAttempt), s.attempts[a]? = some x → x.handle.heard ≠ [] →
    s.told a = some (.callback (.joinResult 0))

/-- No engine was given audio in its set-up. -/
theorem heard_makeEngine {call : JoinCall} {h : EngineHandle} {raised : Option DingRtcError}
    (made : makeEngine config call = (h, raised)) : h.heard = [] := by
  have quiet : (makeEngine config call).1.heard = [] := by
    unfold makeEngine
    cases given : call.given with
    | false => rfl
    | true =>
        refine EngineHandle.attempt_keeps (Q := fun h => h.heard = []) ?_ rfl
        simp only [setUp, List.cons_append, List.nil_append, List.forall_mem_cons]
        refine ⟨?_, ?_, ?_, ?_, ?_, ?_, ?_, ?_, ?_, List.forall_mem_nil _⟩ <;> intro h rc silent
        · exact (EngineHandle.heard_call rfl).trans silent
        · exact EngineHandle.heard_registerAudioObserver.trans silent
        all_goals exact (EngineHandle.heard_call rfl).trans silent
  rw [made] at quiet
  exact quiet

/-- An engine that an attempt has is found alive. -/
theorem engine_makeEngine {call : JoinCall} {h : EngineHandle}
    (made : makeEngine config call = (h, none)) : h.engine = true := by
  rcases kept_makeEngine made with ⟨-, l, o, lives⟩ | ⟨some_, -⟩
  · exact lives.engine
  · exact absurd rfl some_

section
variable (owned : Owned s)

include owned

/-- A push has found an engine whose `join` was told 0. -/
theorem Owned.told_of_pushes (found : s.Pushes a) : s.told a = some (.callback (.joinResult 0)) := by
  rcases found with ⟨joined, engine⟩ | ⟨i, frames, task⟩
  · cases closed : s.closed with
    | true =>
        rw [owned.closed closed] at engine
        cases engine
    | false =>
        obtain ⟨b, own, -, zero⟩ := owned.joined joined closed
        obtain rfl := Option.some.inj (engine.symm.trans own)
        exact zero
  · exact owned.pushes i a frames task

/-- The tasks are as they were, but for one that may come to be there. -/
theorem owned_tasks {tasks : List SessionTask} {task : SessionTask} (fits : s.Fits task)
    (old : ∀ (i : Nat) (other : SessionTask), tasks[i]? = some other →
      s.tasks[i]? = some other ∨ other = task) : Owned { s with tasks := tasks } := by
  have joining : ∀ i a : Nat, tasks[i]? = some (.joining a) → s.tasks[i]? = some (.joining a) := by
    intro i a here
    rcases old i _ here with there | rfl
    · exact there
    · exact fits.elim
  refine { owned with waits := ?_, single := ?_, stops := ?_, pushes := ?_ }
  · exact fun i a here => owned.waits i a (joining i a here)
  · exact fun i j a b here there => owned.single i j a b (joining i a here) (joining j b there)
  · intro i a error here
    rcases old i _ here with there | rfl
    · exact owned.stops i a error there
    · obtain ⟨⟨⟨j, waiting⟩, -⟩, drainer⟩ := fits
      exact drainer (owned.waits j a waiting).2.1
  · intro i a frames here
    rcases old i _ here with there | rfl
    · exact owned.pushes i a frames there
    · exact owned.told_of_pushes fits

/-- The attempts' engines are alive as they were. -/
theorem owned_attempts (engine : t.engine = s.engine) (drainer : t.drainer = s.drainer)
    (joined : t.joined = s.joined) (closed : t.closed = s.closed) (tasks : t.tasks = s.tasks)
    (toldSame : ∀ {a notice}, s.told a = some notice → t.told a = some notice)
    (back : ∀ (k : Nat) (x : JoinAttempt), t.attempts[k]? = some x →
      ∃ old, s.attempts[k]? = some old ∧ x.handle.engine = old.handle.engine ∧
        (x.handle.heard ≠ [] → old.handle.heard ≠ [] ∨ s.told k = some (.callback (.joinResult 0))))
    (on : ∀ (k : Nat) (old : JoinAttempt), s.attempts[k]? = some old →
      ∃ x, t.attempts[k]? = some x ∧ x.handle.engine = old.handle.engine) : Owned t where
  own := by
    intro a x here alive
    obtain ⟨old, there, same, -⟩ := back a x here
    rw [engine]
    exact owned.own a old there (same ▸ alive)
  here := by
    intro a own
    obtain ⟨old, there, alive⟩ := owned.here a (engine ▸ own)
    obtain ⟨x, here, same⟩ := on a old there
    exact ⟨x, here, same.trans alive⟩
  closed := by
    rw [closed, engine]
    exact owned.closed
  drains := by
    rw [drainer, joined, closed]
    exact owned.drains
  joined := by
    rw [joined, closed, engine, drainer]
    intro isJoined isOpen
    obtain ⟨a, own, drains, zero⟩ := owned.joined isJoined isOpen
    exact ⟨a, own, drains, toldSame zero⟩
  waits := by
    rw [tasks, joined, drainer, closed, engine]
    exact owned.waits
  single := by
    rw [tasks]
    exact owned.single
  stops := by
    rw [tasks]
    exact owned.stops
  pushes := by
    rw [tasks]
    exact fun i a frames here => toldSame (owned.pushes i a frames here)
  heard := by
    intro a x here audio
    obtain ⟨old, there, -, before⟩ := back a x here
    rcases before audio with heard | zero
    · exact toldSame (owned.heard a old there heard)
    · exact toldSame zero

theorem owned_setHandle {f : EngineHandle → EngineHandle} (alive : ∀ h, (f h).engine = h.engine)
    (heard : ∀ h, (f h).heard = h.heard ∨ s.told a = some (.callback (.joinResult 0))) :
    Owned (s.setHandle a f) := by
  refine owned_attempts owned rfl rfl rfl rfl rfl id (fun k x here => ?_) fun k old there => ?_
  · rw [attempts_setHandle] at here
    obtain ⟨old, there, rfl⟩ := Option.map_eq_some_iff.mp here
    refine ⟨old, there, ?_⟩
    by_cases own : a = k
    · simp only [own, if_true, alive, true_and]
      intro audio
      rcases heard old.handle with same | zero
      · exact .inl (same ▸ audio)
      · exact .inr (own ▸ zero)
    · simp only [own, if_false, true_and]
      exact .inl
  · rw [attempts_setHandle, there]
    refine ⟨_, rfl, ?_⟩
    split
    · exact alive _
    · rfl

/-- Something came for a `join`, and its future was told. -/
theorem owned_comes {f : JoinFuture → JoinFuture} (attempts : t.attempts = (s.setFuture a f).attempts)
    (engine : t.engine = s.engine) (drainer : t.drainer = s.drainer) (joined : t.joined = s.joined)
    (closed : t.closed = s.closed) (tasks : t.tasks = s.tasks)
    (toldSame : ∀ {a notice}, s.told a = some notice → t.told a = some notice) : Owned t := by
  refine owned_attempts owned engine drainer joined closed tasks toldSame (fun k x here => ?_)
    fun k old there => ?_
  · rw [attempts, attempts_setFuture] at here
    obtain ⟨old, there, rfl⟩ := Option.map_eq_some_iff.mp here
    refine ⟨old, there, ?_⟩
    split
    · exact ⟨rfl, .inl⟩
    · exact ⟨rfl, .inl⟩
  · rw [attempts, attempts_setFuture, there]
    refine ⟨_, rfl, ?_⟩
    split
    · rfl
    · rfl

/-- The session has no engine any more. -/
theorem owned_without (engine : t.engine = none) (drainer : t.drainer = none)
    (joined : t.joined = false)
    (toldSame : ∀ {a notice}, s.told a = some notice → t.told a = some notice)
    (back : ∀ (k : Nat) (x : JoinAttempt), t.attempts[k]? = some x → x.handle.engine = false ∧
      ∃ old, s.attempts[k]? = some old ∧ x.handle.heard = old.handle.heard)
    (task : SessionTask) (notJoining : ∀ a, task ≠ .joining a)
    (notStopping : ∀ a error, task ≠ .stopping (.join a error))
    (notPushing : ∀ a frames, task ≠ .pushing a frames)
    (tasks : ∀ (j : Nat) (other : SessionTask), t.tasks[j]? = some other →
      s.tasks[j]? = some other ∨ other = task)
    (waiting : ∀ j a : Nat, t.tasks[j]? = some (.joining a) → t.closed = true) : Owned t where
  own := by
    intro a x here alive
    rw [(back a x here).1] at alive
    cases alive
  here := by
    rw [engine]
    nofun
  closed := fun _ => engine
  drains := fun some_ => absurd drainer some_
  joined := by
    rw [joined]
    nofun
  waits := by
    intro j a here
    refine ⟨joined, drainer, fun isOpen => ?_⟩
    rw [waiting j a here] at isOpen
    cases isOpen
  single := by
    have old : ∀ j a : Nat, t.tasks[j]? = some (.joining a) → s.tasks[j]? = some (.joining a) := by
      intro j a here
      exact (tasks j _ here).resolve_right fun isTask => notJoining a isTask.symm
    exact fun i j a b here there => owned.single i j a b (old i a here) (old j b there)
  stops := by
    intro j a error here
    rcases tasks j _ here with there | same
    · exact owned.stops j a error there
    · exact notStopping a error same.symm
  pushes := by
    intro j a frames here
    rcases tasks j _ here with there | same
    · exact toldSame (owned.pushes j a frames there)
    · exact absurd same.symm (notPushing a frames)
  heard := by
    intro a x here audio
    obtain ⟨-, old, there, same⟩ := back a x here
    exact toldSame (owned.heard a old there (same ▸ audio))

theorem owned_tears (who : s.Tears i teardown) : Owned (s.teardownRest i teardown) := by
  have toldSame : ∀ {a notice}, s.told a = some notice →
      (s.teardownRest i teardown).told a = some notice := fun before =>
    (told_of_eq came_teardownRest).trans before
  obtain ⟨attempts, same, -, before⟩ := teardownRest_eq s i teardown
  have back : ∀ (k : Nat) (x : JoinAttempt), attempts[k]? = some x → x.handle.engine = false ∧
      ∃ old, s.attempts[k]? = some old ∧ x.handle.heard = old.handle.heard := by
    intro k x here
    obtain ⟨old, there, -, handle⟩ := before k x here
    rw [handle]
    split
    · refine ⟨EngineHandle.engine_destroy _, old, there, ?_⟩
      rw [EngineHandle.heard_destroy, EngineHandle.heard_unregister]
    · rename_i other
      refine ⟨Bool.eq_false_of_not_eq_true fun alive => other ?_, old, there, rfl⟩
      exact owned.own k old there alive
  cases teardown with
  | leave =>
      rw [same] at toldSame ⊢
      exact owned_without owned rfl rfl rfl toldSame back .left nofun nofun nofun
        (fun j other here => (tasks_setTask here).imp And.right And.right) fun _ _ _ => rfl
  | join a error =>
      rcases who with stopping | ⟨b, cause, isJoin, task, drainer, explains⟩
      · exact absurd stopping (owned.stops i a error)
      · cases isJoin
        rw [same] at toldSame ⊢
        refine owned_without owned rfl rfl (owned.waits i a task).1 toldSame back (.failed a error)
          nofun nofun nofun (fun j other here => (tasks_setTask here).imp And.right And.right) ?_
        -- the only `join` that waited is over
        intro j b here
        rcases tasks_setTask here with ⟨away, there⟩ | ⟨-, hasFailed⟩
        · exact absurd (owned.single j i b a there task) away
        · cases hasFailed

theorem owned_returns {x : JoinAttempt} (holds : Told s) (task : s.tasks[i]? = some (.joining a))
    (here : s.attempts[a]? = some x) (zero : x.future = .result 0) :
    Owned { s.setTask i (.joined a) with drainer := some a, joined := true } := by
  have agrees := holds.futures a x here
  rw [zero] at agrees
  have told : s.told a = some (.callback (.joinResult 0)) := told_of_goesBy agrees nofun
  have old : ∀ (j : Nat) (other : SessionTask), (s.setTask i (.joined a)).tasks[j]? = some other →
      j ≠ i ∧ s.tasks[j]? = some other ∨ j = i ∧ other = .joined a := fun j other => tasks_setTask
  have nobody : ∀ j b : Nat, (s.setTask i (.joined a)).tasks[j]? ≠ some (.joining b) := by
    intro j b waiting
    rcases old j _ waiting with ⟨away, there⟩ | ⟨-, isJoined⟩
    · exact away (owned.single j i b a there task)
    · cases isJoined
  refine { owned with drains := ?_, joined := ?_, waits := ?_, single := ?_, stops := ?_, pushes := ?_ }
  · exact fun _ => .inl rfl
  · exact fun _ isOpen => ⟨a, (owned.waits i a task).2.2 isOpen, rfl, told⟩
  · exact fun j b waiting => absurd waiting (nobody j b)
  · exact fun j k b c waiting => absurd waiting (nobody j b)
  · intro j b error stopping
    rcases old j _ stopping with ⟨-, there⟩ | ⟨-, isJoined⟩
    · exact owned.stops j b error there
    · cases isJoined
  · intro j b frames pushing
    rcases old j _ pushing with ⟨-, there⟩ | ⟨-, isJoined⟩
    · exact owned.pushes j b frames there
    · cases isJoined

theorem owned_fails {x : JoinAttempt} (dead : x.handle.engine = false) (silent : x.handle.heard = []) :
    Owned { s with attempts := s.attempts ++ [x] } := by
  refine { owned with own := ?_, here := ?_, heard := ?_ }
  · intro a y here alive
    rcases getElem?_snoc_cases here with there | ⟨-, rfl⟩
    · exact owned.own a y there alive
    · rw [dead] at alive
      cases alive
  · intro a own
    obtain ⟨y, there, alive⟩ := owned.here a own
    refine ⟨y, ?_, alive⟩
    exact (List.getElem?_append_left (List.getElem?_eq_some_iff.mp there).1).trans there
  · intro a y here audio
    rcases getElem?_snoc_cases here with there | ⟨-, rfl⟩
    · exact owned.heard a y there audio
    · exact absurd silent audio

theorem owned_joins {h : EngineHandle} (alive : h.engine = true) (silent : h.heard = [])
    (open_ : s.joined = false ∧ s.closed = false) (free : s.engine = none) :
    Owned { s.addTask (.joining s.attempts.length) with
      attempts := s.attempts ++ [{ handle := h }]
      engine := some s.attempts.length
      listener := some s.attempts.length } := by
  obtain ⟨joined, closed⟩ := open_
  -- no engine, so no `join` waits
  have nobody : ∀ j b : Nat, s.tasks[j]? ≠ some (.joining b) := by
    intro j b waiting
    have own := (owned.waits j b waiting).2.2 closed
    rw [free] at own
    cases own
  have drainer : s.drainer = none := by
    by_contra drains
    rcases owned.drains drains with isJoined | isClosed
    · rw [joined] at isJoined
      cases isJoined
    · rw [closed] at isClosed
      cases isClosed
  have new : ∀ (j : Nat) (other : SessionTask),
      (s.addTask (.joining s.attempts.length)).tasks[j]? = some other →
        s.tasks[j]? = some other ∨ j = s.tasks.length ∧ other = .joining s.attempts.length :=
    fun j other => tasks_addTask
  constructor
  case own =>
    intro a x here live
    rcases getElem?_snoc_cases here with there | ⟨rfl, -⟩
    · have own := owned.own a x there live
      rw [free] at own
      cases own
    · rfl
  case here =>
    intro a own
    obtain rfl := Option.some.inj own
    exact ⟨_, List.getElem?_concat_length, alive⟩
  case closed => exact fun isClosed => absurd (closed.symm.trans isClosed) nofun
  case drains => exact fun drains => absurd drainer drains
  case joined => exact fun isJoined => absurd (joined.symm.trans isJoined) nofun
  case waits =>
    intro j a waiting
    rcases new j _ waiting with there | ⟨-, isNew⟩
    · exact absurd there (nobody j a)
    · cases isNew
      exact ⟨joined, drainer, fun _ => rfl⟩
  case single =>
    intro i j a b first second
    rcases new i _ first with there | ⟨rfl, -⟩
    · exact absurd there (nobody i a)
    · rcases new j _ second with there | ⟨rfl, -⟩
      · exact absurd there (nobody j b)
      · rfl
  case stops =>
    intro j a error stopping
    rcases new j _ stopping with there | ⟨-, isNew⟩
    · exact owned.stops j a error there
    · cases isNew
  case pushes =>
    intro j a frames pushing
    rcases new j _ pushing with there | ⟨-, isNew⟩
    · exact owned.pushes j a frames there
    · cases isNew
  case heard =>
    intro a x here audio
    rcases getElem?_snoc_cases here with there | ⟨-, rfl⟩
    · exact owned.heard a x there audio
    · exact absurd silent audio

end

theorem owned_move (holds : Told s) (owned : Owned s)
    (move : Move config (fun s => s.engine = none) s t) : Owned t := by
  have toldSame : ∀ {a notice}, s.told a = some notice → t.told a = some notice := told_move move
  cases move with
  | adds task fits =>
      exact owned_tasks owned fits fun i other here => (tasks_addTask here).imp id And.right
  | sets i task fits =>
      exact owned_tasks owned fits fun j other here => (tasks_setTask here).imp And.right And.right
  | leaves a rc =>
      exact owned_setHandle owned (fun _ => EngineHandle.engine_leaveChannel) fun _ =>
        .inl (EngineHandle.heard_call rfl)
  | pushes a frame rc found =>
      exact owned_setHandle owned (fun _ => EngineHandle.engine_pushExternalAudio) fun _ =>
        .inr (owned.told_of_pushes found)
  | tears i teardown who => exact owned_tears owned who
  | calls a event known => exact { owned with }
  | runs a event rest first =>
      exact owned_comes (a := a) (f := fun future => future.settle event) owned rfl rfl rfl rfl rfl rfl
        toldSame
  | timesOut a =>
      exact owned_comes (a := a) (f := fun _ => .cancelled) owned rfl rfl rfl rfl rfl rfl toldSame
  | abandons i a task =>
      have given : Owned (s.giveUp a) :=
        owned_comes owned rfl rfl rfl rfl rfl rfl toldSame
      have fits : (s.giveUp a).Fits .cancelled := trivial
      exact owned_tasks given fits fun j other here => (tasks_setTask here).imp And.right And.right
  | returns i a x task here zero => exact owned_returns owned holds task here zero
  | rates sampleRate channels => exact { owned with }
  | fails call h error made =>
      refine owned_fails owned (EngineHandle.engine_destroy h) ?_
      rw [EngineHandle.heard_destroy]
      exact heard_makeEngine made
  | joins call h made open_ allowed =>
      exact owned_joins owned (engine_makeEngine made) (heard_makeEngine made) open_ allowed

theorem told_start : Told {} where
  futures := nofun
  came := nofun
  scheduled := nofun
  waits := nofun
  apart := nofun
  tasks := nofun

theorem owned_start : Owned {} where
  own := nofun
  here := nofun
  closed := nofun
  drains := fun drains => absurd rfl drains
  joined := nofun
  waits := nofun
  single := nofun
  stops := nofun
  pushes := nofun
  heard := nofun

theorem owned_step {action : SessionAction} (sound : Told s ∧ Owned s) (fresh : s.Fresh action)
    (ran : step config s action = some t) : Told t ∧ Owned t := by
  have moves : Relation.ReflTransGen (Move config fun s => s.engine = none) s t :=
    moves_of_step ran (fun call isJoin => by subst isJoin; exact fresh) fun _ _ free => free
  clear ran fresh
  induction moves with
  | refl => exact sound
  | tail _ last ih => exact ⟨told_step ih.1 last, owned_move ih.1 ih.2 last⟩

/-- `_teardown_partial` of a `join`, which has no drainer to await. -/
theorem teardown_join (error : JoinError) (drainer : s.drainer = none) (known : i < s.tasks.length) :
    (s.teardownPartial i (.join a error)).tasks[i]? = some (.failed a error) ∧
      (s.teardownPartial i (.join a error)).joined = s.joined ∧
        (s.teardownPartial i (.join a error)).engine = none := by
  obtain ⟨attempts, same, -, -⟩ := teardownRest_eq s i (.join a error)
  rw [teardownPartial, drainer, Option.isSome_none, if_neg (by decide), same]
  refine ⟨?_, rfl, rfl⟩
  simp only [finish, setTask]
  rw [List.getElem?_set_self known]

def demo : WindowsSessionConfig where
  appId := "a4zfr1hn"
  appId_nonempty := by decide

/-- Frames of one sample. -/
def demoCall : JoinCall where
  channel := "call-1"
  token := "token"
  uid := "edge-call-1"
  sendSampleRate := 100

/-- A `join` whose time is over when its result has just come, one that succeeds, and a push of
three frames that a `leave` breaks off after two. -/
def secondAttempt : List SessionAction :=
  [.join demoCall, .callback 0 (.joinResult 0), .runCallback, .timeout 0, .resumes 0,
    .join demoCall, .callback 1 (.joinResult 0), .callback 1 (.error 7 "late"), .runCallback,
    .runCallback, .resumes 1, .push [1, 2, 3, 4, 5, 6] 0 0, .leave 0, .pushResumes 2 0, .goesOn 3,
    .pushResumes 2 0]

theorem second_attempt_lawful :
    ∃ s, run (step demo) {} secondAttempt = some s ∧
      s.attempts.map (fun x => x.handle.heard.length) = [0, 2] ∧
      ∀ x ∈ s.attempts, ∃ life, run EngineLife.next .fresh x.handle.calls = some life ∧
        (x.handle.engine = true → ∃ listener observer, life = .channel listener observer) ∧
        (x.handle.engine = false → life = .fresh ∨ life = .gone) := by
  have ran : (run (step demo) {} secondAttempt).isSome = true := by decide
  exact ⟨_, (Option.some_get ran).symm, rfl, engine_calls_lawful demo _ (reachable_get ran)⟩

/-- The session is left while its `join` waits with the result already there: it is joined and
closed, and has no engine. -/
theorem joined_without_engine : ∃ s : WindowsSession, Reachable (step demo) Fresh {} s ∧
    s.joined = true ∧ s.closed = true ∧ s.engine = none := by
  have ran : (guardedRun (step demo) Fresh {}
      [.join demoCall, .callback 0 (.joinResult 0), .runCallback, .leave 0, .resumes 0]).isSome =
        true := by
    decide
  exact ⟨_, reachable_guarded_get ran, rfl, rfl, rfl⟩

end IsalesTelephony.Audio.WindowsSession
