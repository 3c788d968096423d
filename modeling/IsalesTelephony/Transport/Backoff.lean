/-
# Transport.Backoff -- how long the connect loop sleeps

`_connect_loop` sleeps `min(backoff, max_backoff_s)` after each attempt and then multiplies
`backoff`, up to the same maximum.  It goes back to `initial_backoff_s` only where
`_run_one_stream` returns, which is when the server closes the stream: an attempt that was
connected and then ended in an error leaves `backoff` where earlier failures had taken it.

`ConnectLoop` keeps `backoff` and the rounds of the loop beside the client.  Each delay is
the initial one grown by the rounds since the last clean end (`Sound`).  It is that grown by
the rounds since the last end of a connected stream exactly when no attempt but the first
was connected and failed, or the delay never grows (`delays_lawful_iff`).

A delay counts from where its sleep begins, so the last one may be cut short by `stop`.
-/
import IsalesTelephony.Theory.CappedGrowth
import IsalesTelephony.Transport.ClientSteps
import Mathlib.Algebra.Order.Field.Rat

namespace IsalesTelephony.Transport

set_option autoImplicit false

open IsalesTelephony.Theory
open IsalesTelephony.Theory.Transition

universe u

variable {F : Type u}

/-! ## The configuration -/

/-- The backoff arguments of `CloudEdgeGrpcClient`, as far as the loop relies on them. -/
structure BackoffConfig where
  initialBackoff : ℚ := 1
  maxBackoff : ℚ := 30
  backoffFactor : ℚ := 2
  initial_pos : 0 < initialBackoff := by decide +kernel
  initial_le_max : initialBackoff ≤ maxBackoff := by decide +kernel
  one_le_factor : 1 ≤ backoffFactor := by decide +kernel

namespace BackoffConfig

/-- The checks of `__init__`. -/
def ofArgs (initialBackoff maxBackoff backoffFactor : ℚ) : Except String BackoffConfig :=
  if positive : initialBackoff ≤ 0 then .error "initial_backoff_s must be positive"
  else if fits : maxBackoff < initialBackoff then
    .error "max_backoff_s must be ≥ initial_backoff_s"
  else if grows : backoffFactor ≤ 1 then .error "backoff_factor must be > 1"
  else
    .ok
      { initialBackoff, maxBackoff, backoffFactor
        initial_pos := not_le.mp positive
        initial_le_max := not_lt.mp fits
        one_le_factor := (not_le.mp grows).le }

theorem ofArgs_ok_iff {initialBackoff maxBackoff backoffFactor : ℚ} :
    (∃ config, ofArgs initialBackoff maxBackoff backoffFactor = .ok config) ↔
      0 < initialBackoff ∧ initialBackoff ≤ maxBackoff ∧ 1 < backoffFactor := by
  unfold ofArgs
  constructor
  · rintro ⟨config, accepted⟩
    split at accepted
    · cases accepted
    · rename_i positive
      split at accepted
      · cases accepted
      · rename_i fits
        split at accepted
        · cases accepted
        · rename_i grows
          exact ⟨not_le.mp positive, not_lt.mp fits, not_le.mp grows⟩
  · rintro ⟨positive, fits, grows⟩
    rw [dif_neg (not_le.mpr positive), dif_neg (not_lt.mpr fits), dif_neg (not_le.mpr grows)]
    exact ⟨_, rfl⟩

variable (config : BackoffConfig)

/-- The delay after `n` steps of growth. -/
def delay (n : Nat) : ℚ := capped config.initialBackoff config.backoffFactor config.maxBackoff n

theorem delay_zero : config.delay 0 = config.initialBackoff := capped_zero config.initial_le_max

theorem delay_le_max (n : Nat) : config.delay n ≤ config.maxBackoff := capped_le_cap n

theorem initial_le_delay (n : Nat) : config.initialBackoff ≤ config.delay n :=
  initial_le_capped config.initial_pos.le config.one_le_factor config.initial_le_max n

theorem delay_succ (n : Nat) :
    min (config.delay n * config.backoffFactor) config.maxBackoff = config.delay (n + 1) :=
  capped_succ config.initial_pos.le config.one_le_factor config.initial_le_max n

theorem delay_eq_initial_iff (n : Nat) :
    config.delay n = config.initialBackoff ↔
      n = 0 ∨ config.backoffFactor = 1 ∨ config.initialBackoff = config.maxBackoff :=
  capped_eq_initial_iff config.initial_pos config.one_le_factor config.initial_le_max n

end BackoffConfig

/-! ## The loop -/

/-- How an attempt ended that the loop sleeps after. -/
inductive AttemptEnd where
  /-- `initial_metadata` raised -/
  | unconnected
  /-- an error after `_connected.set()` -/
  | failed
  /-- the server closed the stream -/
  | clean
  deriving DecidableEq, Repr

namespace AttemptEnd

/-- `_run_one_stream` returned. -/
def isClean : AttemptEnd → Bool
  | .clean => true
  | .unconnected | .failed => false

/-- The attempt had got as far as a stream. -/
def wasConnected : AttemptEnd → Bool
  | .failed | .clean => true
  | .unconnected => false

end AttemptEnd

/-- An attempt, and the sleep after it. -/
structure Round where
  attempt : AttemptEnd
  delay : ℚ
  deriving DecidableEq, Repr

/-- A client with the local variable of its connect loop. -/
structure ConnectLoop (F : Type u) where
  client : GrpcClient F
  backoff : ℚ
  /-- history: the rounds so far, latest first -/
  rounds : List Round := []

inductive ConnectAction (F : Type u) where
  /-- an action of the client; `streamEnded` is the end with an error -/
  | client (action : ClientAction F)
  /-- the server closes the stream -/
  | streamClosed

namespace ConnectAction

def base : ConnectAction F → ClientAction F
  | .client action => action
  | .streamClosed => .streamEnded

/-- How the attempt that is running ends by an action. -/
def ends (c : GrpcClient F) : ConnectAction F → Option AttemptEnd
  | .client .metadataFailed => some .unconnected
  | .client (.metadataReady fault) => if (c.pending.flush fault).2.2 then none else some .failed
  | .client .streamEnded => some .failed
  | .streamClosed => some .clean
  | _ => none

end ConnectAction

namespace ConnectLoop

/-- From the end of an attempt to `asyncio.sleep`. -/
def endAttempt (config : BackoffConfig) (l : ConnectLoop F) (attempt : AttemptEnd) :
    ConnectLoop F :=
  let backoff := if attempt.isClean then config.initialBackoff else l.backoff
  { l with
    backoff := backoff
    rounds := { attempt, delay := min backoff config.maxBackoff } :: l.rounds }

/-- The statement after `asyncio.sleep`. -/
def grow (config : BackoffConfig) (l : ConnectLoop F) : ConnectLoop F :=
  { l with backoff := min (l.backoff * config.backoffFactor) config.maxBackoff }

/-- The loop's own part of an action. -/
def turn (config : BackoffConfig) (l : ConnectLoop F) : ConnectAction F → ConnectLoop F
  | .client .backoffElapsed => l.grow config
  | action =>
      match action.ends l.client with
      | some attempt => l.endAttempt config attempt
      | none => l

def step (config : BackoffConfig) (l : ConnectLoop F) (action : ConnectAction F) :
    Option (ConnectLoop F) :=
  (l.client.step action.base).map fun client => { l.turn config action with client }

def init (config : BackoffConfig) (pending : Pending (Sent F)) : ConnectLoop F :=
  { client := .init pending, backoff := config.initialBackoff }

def attempts (l : ConnectLoop F) : List AttemptEnd := l.rounds.map Round.attempt

/-! ## What the loop keeps -/

/-- Every delay is the initial one grown by the rounds since the last attempt that `resets`. -/
def Lawful (config : BackoffConfig) (resets : AttemptEnd → Bool) (rounds : List Round) : Prop :=
  ∀ r before, r :: before <:+ rounds →
    r.delay = config.delay (sinceReset resets r.attempt (before.map Round.attempt))

/-- The delays follow the clean ends, and `backoff` is the delay of an attempt that does not
end cleanly; during a sleep it still is the delay slept. -/
structure Sound (config : BackoffConfig) (l : ConnectLoop F) : Prop where
  lawful : Lawful config AttemptEnd.isClean l.rounds
  awake : l.client.phase ≠ .backoff → l.client.phase ≠ .stopped →
    l.backoff = config.delay (sinceReset AttemptEnd.isClean .failed l.attempts)
  asleep : l.client.phase = .backoff → ∃ r before, l.rounds = r :: before ∧ l.backoff = r.delay

variable {config : BackoffConfig} {l m : ConnectLoop F} {action : ConnectAction F}

theorem Lawful.snoc {resets : AttemptEnd → Bool} {r : Round} {rounds : List Round}
    (lawful : Lawful config resets rounds)
    (delay : r.delay = config.delay (sinceReset resets r.attempt (rounds.map Round.attempt))) :
    Lawful config resets (r :: rounds) := by
  intro r' before suffix
  rcases List.suffix_cons_iff.mp suffix with last | earlier
  · obtain ⟨rfl, rfl⟩ := List.cons_eq_cons.mp last
    exact delay
  · exact lawful r' before earlier

theorem sound_init (config : BackoffConfig) (pending : Pending (Sent F)) :
    Sound config (init config pending) where
  lawful := by
    intro r before suffix
    cases List.suffix_nil.mp suffix
  awake := fun _ _ => config.delay_zero.symm
  asleep := fun asleep => by cases asleep

/-- A turn that neither begins nor ends a sleep. -/
theorem sound_client {client : GrpcClient F} (sound : Sound config l)
    (phase : client.phase = .stopped ∨
      l.client.phase ≠ .stopped ∧ (client.phase = .backoff ↔ l.client.phase = .backoff)) :
    Sound config { l with client } where
  lawful := sound.lawful
  awake := by
    intro awake live
    rcases phase with stopped | ⟨running, same⟩
    · exact absurd stopped live
    · exact sound.awake (awake ∘ same.mpr) running
  asleep := by
    intro asleep
    rcases phase with stopped | ⟨-, same⟩
    · cases stopped.symm.trans asleep
    · exact sound.asleep (same.mp asleep)

/-- An attempt ends: the delay is at its place in the growth, which begins anew if the end
is clean. -/
theorem sound_endAttempt {client : GrpcClient F} (sound : Sound config l)
    (awake : l.client.phase ≠ .backoff) (live : l.client.phase ≠ .stopped)
    (sleeps : client.phase = .backoff) (attempt : AttemptEnd) :
    Sound config { l.endAttempt config attempt with client } := by
  have backoff : (l.endAttempt config attempt).backoff =
      config.delay (sinceReset AttemptEnd.isClean attempt l.attempts) := by
    cases attempt with
    | clean => rw [sinceReset_of_resets rfl, config.delay_zero]; rfl
    | unconnected => exact (sound.awake awake live).trans (by cases l.attempts <;> rfl)
    | failed => exact sound.awake awake live
  have capped := min_eq_left (backoff.trans_le (config.delay_le_max _))
  refine ⟨sound.lawful.snoc (capped.trans backoff), fun notSleeping => ?_, fun _ => ?_⟩
  · exact absurd sleeps notSleeping
  · exact ⟨_, _, rfl, capped.symm⟩

/-- A sleep ends: `backoff` moves on by one step of growth. -/
theorem sound_grow {client : GrpcClient F} (sound : Sound config l)
    (asleep : l.client.phase = .backoff) (ready : client.phase = .ready) :
    Sound config { l.grow config with client } := by
  obtain ⟨r, before, rounds, backoff⟩ := sound.asleep asleep
  refine ⟨sound.lawful, fun _ _ => ?_, fun asleep' => by cases ready.symm.trans asleep'⟩
  have slept := sound.lawful r before (rounds ▸ List.suffix_rfl)
  show min (l.backoff * config.backoffFactor) config.maxBackoff =
    config.delay (sinceReset AttemptEnd.isClean .failed (l.rounds.map Round.attempt))
  rw [backoff, slept, config.delay_succ, rounds]
  rfl

/-- **One step.** -/
theorem sound_step (sound : Sound config l) (next : step config l action = some m) :
    Sound config m := by
  obtain ⟨client, stepped, rfl⟩ := Option.map_eq_some_iff.mp next
  have goes := GrpcClient.goes_of_step stepped
  cases action with
  | streamClosed =>
      obtain ⟨streaming, sleeps⟩ := goes
      exact sound_endAttempt sound (by simp [streaming]) (by simp [streaming]) sleeps .clean
  | client action =>
      cases action with
      | backoffElapsed => exact sound_grow sound goes.1 goes.2
      | metadataFailed =>
          obtain ⟨opening, sleeps⟩ := goes
          exact sound_endAttempt sound (by simp [opening]) (by simp [opening]) sleeps .unconnected
      | streamEnded =>
          obtain ⟨streaming, sleeps⟩ := goes
          exact sound_endAttempt sound (by simp [streaming]) (by simp [streaming]) sleeps .failed
      | metadataReady fault =>
          obtain ⟨opening, after⟩ := goes
          by_cases flushed : (l.client.pending.flush fault).2.2 = true
          · rw [if_pos flushed] at after
            have turned : l.turn config (.client (.metadataReady fault)) = l := by
              simp [turn, ConnectAction.ends, flushed]
            rw [turned]
            exact sound_client sound (.inr (by simp [opening, after]))
          · rw [if_neg flushed] at after
            have turned : l.turn config (.client (.metadataReady fault)) =
                l.endAttempt config .failed := by
              simp [turn, ConnectAction.ends, flushed]
            rw [turned]
            exact sound_endAttempt sound (by simp [opening]) (by simp [opening]) after .failed
      | send | take =>
          refine sound_client (l := l) sound ?_
          by_cases stopped : l.client.phase = .stopped
          · exact .inl (goes.trans stopped)
          · exact .inr ⟨stopped, by rw [goes]⟩
      | start | openStream =>
          obtain ⟨before, after⟩ := goes
          exact sound_client (l := l) sound (.inr (by simp [before, after]))
      | stop => exact sound_client sound (.inl goes)

theorem sound_of_reachable {pending : Pending (Sent F)}
    (reached : Reachable (step config) Free (init config pending) l) : Sound config l :=
  reached.invariant (sound_init config pending) fun _ _ _ sound _ next => sound_step sound next

/-! ## Two readings of a reset -/

theorem Lawful.congr {resets resets' : AttemptEnd → Bool} {rounds : List Round}
    (lawful : Lawful config resets rounds)
    (agree : ∀ r ∈ rounds.dropLast, resets r.attempt = resets' r.attempt) :
    Lawful config resets' rounds := by
  intro r before suffix
  rw [lawful r before suffix]
  refine congrArg config.delay (sinceReset_congr fun attempt listed => ?_)
  rw [← List.map_cons, ← List.map_dropLast] at listed
  obtain ⟨r', member, rfl⟩ := List.mem_map.mp listed
  exact agree r' (mem_dropLast_of_suffix suffix member)

/-- A delay that does not grow is the initial one, whatever resets it. -/
theorem Lawful.of_flat {resets resets' : AttemptEnd → Bool} {rounds : List Round}
    (lawful : Lawful config resets rounds) (flat : ∀ n, config.delay n = config.initialBackoff) :
    Lawful config resets' rounds := by
  intro r before suffix
  rw [lawful r before suffix, flat, flat]

/-- A connected attempt that fails is no clean end: if it is not the first one, it sleeps
longer than the initial delay, unless no delay does. -/
theorem flat_of_failed {r : Round} {rounds : List Round}
    (clean : Lawful config AttemptEnd.isClean rounds)
    (connected : Lawful config AttemptEnd.wasConnected rounds) (member : r ∈ rounds.dropLast)
    (failed : r.attempt = .failed) :
    config.backoffFactor = 1 ∨ config.initialBackoff = config.maxBackoff := by
  obtain ⟨last, earlier, suffix⟩ := suffix_of_mem_dropLast member
  have initial : r.delay = config.initialBackoff := by
    have here : AttemptEnd.wasConnected r.attempt = true := by rw [failed]; rfl
    rw [connected r _ suffix, sinceReset_of_resets here, config.delay_zero]
  have grown : ∃ n, r.delay = config.delay (n + 1) := by
    rw [clean r _ suffix, failed]
    exact ⟨_, rfl⟩
  obtain ⟨n, grown⟩ := grown
  exact ((config.delay_eq_initial_iff (n + 1)).mp (grown.symm.trans initial)).resolve_left
    (Nat.succ_ne_zero n)

theorem delay_within (sound : Sound config l) {r : Round} (member : r ∈ l.rounds) :
    config.initialBackoff ≤ r.delay ∧ r.delay ≤ config.maxBackoff := by
  obtain ⟨later, before, rounds⟩ := List.append_of_mem member
  rw [sound.lawful r before ⟨later, rounds.symm⟩]
  exact ⟨config.initial_le_delay _, config.delay_le_max _⟩

end ConnectLoop

/-- **Reconnect backoff.**  In every state of every run the delays are within the bounds and
follow the ends of connected streams exactly when the delay cannot grow, or no attempt but
the first was connected and then ended in an error. -/
theorem delays_lawful_iff (config : BackoffConfig) (pending : Pending (Sent F))
    (l : ConnectLoop F)
    (reached : Reachable (ConnectLoop.step config) Free (ConnectLoop.init config pending) l) :
    ((∀ r ∈ l.rounds, config.initialBackoff ≤ r.delay ∧ r.delay ≤ config.maxBackoff) ∧
        ConnectLoop.Lawful config AttemptEnd.wasConnected l.rounds) ↔
      config.backoffFactor = 1 ∨ config.initialBackoff = config.maxBackoff ∨
        ∀ r ∈ l.rounds.dropLast, r.attempt ≠ .failed := by
  have sound := ConnectLoop.sound_of_reachable reached
  constructor
  · rintro ⟨-, lawful⟩
    by_cases healthy : ∀ r ∈ l.rounds.dropLast, r.attempt ≠ .failed
    · exact .inr (.inr healthy)
    · push Not at healthy
      obtain ⟨r, member, failed⟩ := healthy
      exact (ConnectLoop.flat_of_failed sound.lawful lawful member failed).imp_right .inl
  · intro condition
    refine ⟨fun r member => ConnectLoop.delay_within sound member, ?_⟩
    rcases condition with factor | bound | healthy
    · exact sound.lawful.of_flat fun n => (config.delay_eq_initial_iff n).mpr (.inr (.inl factor))
    · exact sound.lawful.of_flat fun n => (config.delay_eq_initial_iff n).mpr (.inr (.inr bound))
    · refine sound.lawful.congr fun r member => ?_
      have ended := healthy r member
      revert ended
      cases r.attempt with
      | unconnected => intro; rfl
      | clean => intro; rfl
      | failed => exact fun failed => absurd rfl failed

/-! ## Poles -/

def loopOfNone : ConnectLoop String := .init {} (.memory 3 smallLimit_pos [])

/-- The server refuses one attempt, accepts the next and closes it, and refuses again. -/
def closedStream : List (ConnectAction String) :=
  [.client .start, .client .openStream, .client .metadataFailed, .client .backoffElapsed,
    .client .openStream, .client (.metadataReady none), .streamClosed, .client .backoffElapsed,
    .client .openStream, .client .metadataFailed]

theorem closedStream_runs :
    (run (ConnectLoop.step {}) loopOfNone closedStream).isSome = true := by
  decide +kernel

/-- The delays are 1, 1 and 2. -/
theorem closed_stream_resets :
    (Option.get _ closedStream_runs).rounds.map Round.delay = [2, 1, 1] ∧
      ConnectLoop.Lawful {} AttemptEnd.wasConnected (Option.get _ closedStream_runs).rounds :=
  ⟨by decide +kernel,
    ((delays_lawful_iff {} (.memory 3 smallLimit_pos []) _ (reachable_get closedStream_runs)).mpr
      (.inr (.inr (by decide +kernel)))).2⟩

/-- The server refuses one attempt, accepts the next and then breaks it off. -/
def brokenStream : List (ConnectAction String) :=
  [.client .start, .client .openStream, .client .metadataFailed, .client .backoffElapsed,
    .client .openStream, .client (.metadataReady none), .client .streamEnded]

theorem brokenStream_runs :
    (run (ConnectLoop.step {}) loopOfNone brokenStream).isSome = true := by
  decide +kernel

/-- **A broken stream inherits the backoff.**  The delay after the stream is 2, where that
of an outage that begins there is 1. -/
theorem broken_stream_inherits :
    ¬ ∀ (config : BackoffConfig) (pending : Pending (Sent String)) (l : ConnectLoop String),
      Reachable (ConnectLoop.step config) Free (ConnectLoop.init config pending) l →
        (∀ r ∈ l.rounds, config.initialBackoff ≤ r.delay ∧ r.delay ≤ config.maxBackoff) ∧
          ConnectLoop.Lawful config AttemptEnd.wasConnected l.rounds := by
  intro claim
  have lawful := (claim {} _ _ (reachable_get brokenStream_runs)).2
  have rounds : (Option.get _ brokenStream_runs).rounds =
      [⟨.failed, 2⟩, ⟨.unconnected, 1⟩] := by
    decide +kernel
  rw [rounds] at lawful
  have delay := lawful ⟨.failed, 2⟩ [⟨.unconnected, 1⟩] List.suffix_rfl
  exact absurd delay (by decide +kernel)

end IsalesTelephony.Transport
