/-
# Theory.Transition -- guarded runs of an executable step function

A program is a step function `step : σ → α → Option σ`: the action carries every
choice the scheduler, the peer and the clock make, and `none` says that the
action is not enabled.  A run is *guarded* when each of its steps meets a
condition `ok` on the state before the step and the action; `Reachable step ok`
is the reachability relation of such runs, and `Free` is the guard that admits
every step.

* `Reachable.invariant` is the induction every safety result rests on: a
  property of the first state that each guarded step preserves holds throughout;
* `reachable_run` turns a concrete list of actions into a reachability fact, so
  a counterexample is one evaluation;
* `answers_related` is refinement of systems that answer every request: related
  states give the same answers for ever.
-/
import Mathlib.Logic.Relation

namespace IsalesTelephony.Theory.Transition

set_option autoImplicit false

universe u v w

variable {σ : Type u} {α : Type v} {τ : Type w}

/-- One step whose action meets the guard in the state it is taken from. -/
def GuardedStep (step : σ → α → Option σ) (ok : σ → α → Prop) (s t : σ) : Prop :=
  ∃ a, ok s a ∧ step s a = some t

/-- `t` is reached from `s` by a run whose steps all meet the guard. -/
def Reachable (step : σ → α → Option σ) (ok : σ → α → Prop) (s t : σ) : Prop :=
  Relation.ReflTransGen (GuardedStep step ok) s t

/-- The guard of an unrestricted run. -/
def Free (_ : σ) (_ : α) : Prop := True

namespace Reachable

variable {step : σ → α → Option σ} {ok ok' : σ → α → Prop} {s t : σ}

theorem refl (s : σ) : Reachable step ok s s := Relation.ReflTransGen.refl

theorem snoc {a : α} {u : σ} (run : Reachable step ok s t) (allowed : ok t a)
    (next : step t a = some u) : Reachable step ok s u :=
  Relation.ReflTransGen.tail run ⟨a, allowed, next⟩

/-- **Invariance.**  What holds first and survives each guarded step holds of
every state reached. -/
theorem invariant {P : σ → Prop} (run : Reachable step ok s t) (start : P s)
    (preserve : ∀ s a t, P s → ok s a → step s a = some t → P t) : P t := by
  induction run with
  | refl => exact start
  | tail _ last ih =>
      obtain ⟨a, allowed, next⟩ := last
      exact preserve _ a _ ih allowed next

/-- Along an execution that is cut up in any way, what holds first holds at every cut. -/
theorem invariant_along {P : σ → Prop} {chain : Nat → σ}
    (goes : ∀ n, Reachable step ok (chain n) (chain (n + 1))) (start : P (chain 0))
    (preserve : ∀ s a t, P s → ok s a → step s a = some t → P t) (n : Nat) : P (chain n) := by
  induction n with
  | zero => exact start
  | succ n ih => exact (goes n).invariant ih preserve

theorem mono (weaker : ∀ s a, ok s a → ok' s a) (run : Reachable step ok s t) :
    Reachable step ok' s t :=
  Relation.ReflTransGen.mono (fun _ _ ⟨a, allowed, next⟩ => ⟨a, weaker _ a allowed, next⟩) _ _ run

theorem free (run : Reachable step ok s t) : Reachable step Free s t :=
  run.mono fun _ _ _ => trivial

end Reachable

/-- The state a list of actions leads to. -/
def run (step : σ → α → Option σ) : σ → List α → Option σ
  | s, [] => some s
  | s, a :: rest => (step s a).bind fun t => run step t rest

/-- **Invariance along a list of actions**, of a property that is about what the actions so
far come to. -/
theorem run_invariant {step : σ → α → Option σ} {s t : σ} {actions : List α} {note : τ → α → τ}
    {P : τ → σ → Prop} {x : τ} (ran : run step s actions = some t) (start : P x s)
    (preserve : ∀ x s a t, P x s → step s a = some t → P (note x a) t) :
    P (actions.foldl note x) t := by
  induction actions generalizing s x with
  | nil =>
      obtain rfl : s = t := by simpa [run] using ran
      exact start
  | cons a rest ih =>
      obtain ⟨u, first, later⟩ := Option.bind_eq_some_iff.mp ran
      exact ih later (preserve x s a u start first)

theorem run_append {step : σ → α → Option σ} {s : σ} {actions later : List α} :
    run step s (actions ++ later) = (run step s actions).bind fun t => run step t later := by
  induction actions generalizing s with
  | nil => rfl
  | cons a rest ih =>
      rw [List.cons_append, run, run, Option.bind_assoc]
      exact congrArg _ (funext fun t => ih)

theorem reachable_run {step : σ → α → Option σ} {s t : σ} {actions : List α}
    (ran : run step s actions = some t) : Reachable step Free s t := by
  induction actions generalizing s with
  | nil =>
      obtain rfl : s = t := by simpa [run] using ran
      exact Reachable.refl s
  | cons a rest ih =>
      obtain ⟨u, first, later⟩ := Option.bind_eq_some_iff.mp ran
      exact Relation.ReflTransGen.head ⟨a, trivial, first⟩ (ih later)

/-- The state a run that was evaluated ends in is reached. -/
theorem reachable_get {step : σ → α → Option σ} {s : σ} {actions : List α}
    (ran : (run step s actions).isSome = true) :
    Reachable step Free s ((run step s actions).get ran) :=
  reachable_run (Option.some_get ran).symm

/-- A guarded run given by its actions, the guard checked along the way. -/
def guardedRun (step : σ → α → Option σ) (ok : σ → α → Prop) [∀ s a, Decidable (ok s a)] :
    σ → List α → Option σ
  | s, [] => some s
  | s, a :: rest =>
      if ok s a then (step s a).bind fun t => guardedRun step ok t rest else none

theorem reachable_guardedRun {step : σ → α → Option σ} {ok : σ → α → Prop}
    [∀ s a, Decidable (ok s a)] {s t : σ} {actions : List α}
    (ran : guardedRun step ok s actions = some t) : Reachable step ok s t := by
  induction actions generalizing s with
  | nil =>
      obtain rfl : s = t := by simpa [guardedRun] using ran
      exact Reachable.refl s
  | cons a rest ih =>
      simp only [guardedRun] at ran
      split at ran
      · rename_i allowed
        obtain ⟨u, first, later⟩ := Option.bind_eq_some_iff.mp ran
        exact Relation.ReflTransGen.head ⟨a, allowed, first⟩ (ih later)
      · simp at ran

theorem reachable_guarded_get {step : σ → α → Option σ} {ok : σ → α → Prop}
    [∀ s a, Decidable (ok s a)] {s : σ} {actions : List α}
    (ran : (guardedRun step ok s actions).isSome = true) :
    Reachable step ok s ((guardedRun step ok s actions).get ran) :=
  reachable_guardedRun (Option.some_get ran).symm

/-! ## Systems that answer -/

/-- The state some requests lead to, and the answers along the way. -/
def answers {ι : Type v} {ρ : Type w} (answer : σ → ι → σ × ρ) : σ → List ι → σ × List ρ
  | s, [] => (s, [])
  | s, request :: rest =>
      let later := answers answer (answer s request).1 rest
      (later.1, (answer s request).2 :: later.2)

/-- **Refinement.**  A relation that each request keeps, and under which it has the same
answer, is kept by any requests, and they have the same answers. -/
theorem answers_related {τ : Type u} {ι : Type v} {ρ : Type w} {f : σ → ι → σ × ρ}
    {g : τ → ι → τ × ρ} {R : σ → τ → Prop}
    (kept : ∀ s t request, R s t →
      R (f s request).1 (g t request).1 ∧ (f s request).2 = (g t request).2)
    {s : σ} {t : τ} (related : R s t) (requests : List ι) :
    R (answers f s requests).1 (answers g t requests).1 ∧
      (answers f s requests).2 = (answers g t requests).2 := by
  induction requests generalizing s t with
  | nil => exact ⟨related, rfl⟩
  | cons request rest ih =>
      obtain ⟨next, same⟩ := kept s t request related
      obtain ⟨later, answered⟩ := ih next
      exact ⟨later, congrArg₂ List.cons same answered⟩

end IsalesTelephony.Theory.Transition
