/-
# Transport.Channels -- which gRPC channels have been closed

`_run_one_stream` closes its channel in the `finally` of the read loop.  The two
awaits before the loop, `initial_metadata` and the flush, are outside that `try`:
an attempt that fails there leaves its channel open, and the next attempt
overwrites the one reference to it.  `stop` closes the last channel only.

`AttemptLog` keeps the outcome of each attempt beside the client.  Channel `k` is
that of attempt `k`, so what is closed can be read off the outcomes (`Tracked`),
and the channels are closed in turn exactly when each attempt that another one
follows got as far as its read loop (`channels_closed_in_turn`).
-/
import IsalesTelephony.Transport.GrpcClient

namespace IsalesTelephony.Transport

set_option autoImplicit false

open IsalesTelephony.Theory.Transition

universe u

variable {F : Type u}

namespace GrpcClient

/-- `channel.close()` was called on every channel opened so far. -/
def AllClosed (c : GrpcClient F) : Prop := ∀ k < c.nextChannel, k ∈ c.closedChannels

instance (c : GrpcClient F) : Decidable c.AllClosed := inferInstanceAs (Decidable (∀ k < _, _))

/-- `_run_one_stream` is running. -/
def attempting (c : GrpcClient F) : Bool := c.phase = .opening || c.phase = .streaming

variable (c : GrpcClient F)

@[simp] theorem closeChannel_channel : c.closeChannel.channel = none := by
  unfold closeChannel
  split
  · rfl
  · assumption

@[simp] theorem closeChannel_nextChannel : c.closeChannel.nextChannel = c.nextChannel := by
  unfold closeChannel
  split <;> rfl

theorem mem_closeChannel {k : Nat} :
    k ∈ c.closeChannel.closedChannels ↔ k ∈ c.closedChannels ∨ c.channel = some k := by
  unfold closeChannel
  split
  · rename_i channel isOpen
    simp [isOpen, eq_comm]
  · rename_i isNone
    simp [isNone]

end GrpcClient

/-- How an attempt ended. -/
inductive Outcome where
  /-- `initial_metadata` raised -/
  | metadataRaised
  /-- `_flush_buffer` raised -/
  | flushRaised
  /-- the read loop ended, cleanly or with an error -/
  | streamEnded
  /-- `stop` cancelled the connect task -/
  | cancelled
  deriving DecidableEq, Repr

/-- The outcome an action gives the attempt that is running. -/
def outcomeOf (c : GrpcClient F) : ClientAction F → Option Outcome
  | .metadataFailed => some .metadataRaised
  | .metadataReady fault => if (c.pending.flush fault).2.2 then none else some .flushRaised
  | .streamEnded => some .streamEnded
  | .stop => if c.attempting then some .cancelled else none
  | _ => none

/-- A client with the outcomes of its attempts, oldest first. -/
structure AttemptLog (F : Type u) where
  client : GrpcClient F
  outcomes : List Outcome := []

namespace AttemptLog

def step (l : AttemptLog F) (action : ClientAction F) : Option (AttemptLog F) :=
  (l.client.step action).map fun c => ⟨c, l.outcomes ++ (outcomeOf l.client action).toList⟩

def init (pending : Pending (Sent F)) : AttemptLog F := { client := .init pending }

/-! ## What is closed -/

/-- The read loop of attempt `k` has ended. -/
def Ended (l : AttemptLog F) (k : Nat) : Prop := l.outcomes[k]? = some .streamEnded

/-- Attempt `k` opened channel `k`.  Its channel is closed once its read loop
ended, or when `stop` found it as the last one; till then the last channel is
the one the client refers to. -/
structure Tracked (l : AttemptLog F) : Prop where
  counted : l.client.nextChannel = l.outcomes.length + if l.client.attempting then 1 else 0
  closed : ∀ k, k ∈ l.client.closedChannels ↔
    l.Ended k ∨ l.client.phase = .stopped ∧ k + 1 = l.client.nextChannel
  current : ∀ k, l.client.channel = some k ↔
    k + 1 = l.client.nextChannel ∧ ¬ l.Ended k ∧ l.client.phase ≠ .stopped

variable {l m : AttemptLog F} {action : ClientAction F} {k : Nat}

theorem ended_lt (ended : l.Ended k) : k < l.outcomes.length :=
  (List.getElem?_eq_some_iff.mp ended).1

/-- One more outcome is that of the next attempt. -/
theorem ended_snoc (outcome : Outcome) (outcomes : m.outcomes = l.outcomes ++ [outcome]) :
    m.Ended k ↔ l.Ended k ∨ k = l.outcomes.length ∧ outcome = .streamEnded := by
  unfold Ended
  rw [outcomes, List.getElem?_append]
  split
  · rename_i before
    exact ⟨.inl, fun h => h.resolve_right fun here => by omega⟩
  · rename_i past
    rw [List.getElem?_eq_none (by omega : l.outcomes.length ≤ k), List.getElem?_singleton]
    by_cases here : k = l.outcomes.length
    · simp [here]
    · have beyond : k - l.outcomes.length ≠ 0 := by omega
      simp [here, beyond]

theorem tracked_init (pending : Pending (Sent F)) : Tracked (init pending) where
  counted := rfl
  closed := by simp [init, GrpcClient.init, Ended]
  current := by simp [init, GrpcClient.init, Ended]

/-- A step that leaves the channels and the attempt alone. -/
theorem tracked_congr (tracked : Tracked l) (channel : m.client.channel = l.client.channel)
    (next : m.client.nextChannel = l.client.nextChannel)
    (closed : m.client.closedChannels = l.client.closedChannels)
    (attempting : m.client.attempting = l.client.attempting)
    (stopped : m.client.phase = .stopped ↔ l.client.phase = .stopped)
    (outcomes : m.outcomes = l.outcomes) : Tracked m where
  counted := by rw [next, outcomes, attempting, tracked.counted]
  closed := by
    intro k
    simp only [Ended, closed, outcomes, next, stopped]
    exact tracked.closed k
  current := by
    intro k
    simp only [Ended, channel, outcomes, next, ne_eq, stopped]
    exact tracked.current k

/-- An attempt that fails before its read loop leaves its channel where it is. -/
theorem tracked_failed (outcome : Outcome) (tracked : Tracked l)
    (running : l.client.attempting = true) (live : l.client.phase ≠ .stopped)
    (failed : outcome ≠ .streamEnded) (channel : m.client.channel = l.client.channel)
    (next : m.client.nextChannel = l.client.nextChannel)
    (closed : m.client.closedChannels = l.client.closedChannels)
    (backoff : m.client.phase = .backoff) (outcomes : m.outcomes = l.outcomes ++ [outcome]) :
    Tracked m where
  counted := by
    have counted := tracked.counted
    rw [running] at counted
    simp [next, counted, outcomes, GrpcClient.attempting, backoff]
  closed := by
    intro k
    rw [closed, tracked.closed k, ended_snoc outcome outcomes]
    simp [backoff, live, failed]
  current := by
    intro k
    rw [channel, tracked.current k, next, ended_snoc outcome outcomes]
    simp [backoff, live, failed]

/-- The read loop of the last attempt ends: its `finally` closes the channel. -/
theorem tracked_streamEnded (tracked : Tracked l) (streaming : l.client.phase = .streaming) :
    Tracked ⟨{ l.client.closeChannel with connected := false, phase := .backoff },
      l.outcomes ++ [.streamEnded]⟩ := by
  have counted : l.client.nextChannel = l.outcomes.length + 1 := by
    simpa [GrpcClient.attempting, streaming] using tracked.counted
  have running : ¬ l.Ended l.outcomes.length := fun ended => by
    have := ended_lt ended
    omega
  refine ⟨by simpa [GrpcClient.attempting] using counted, fun k => ?_, fun k => ?_⟩
  · rw [ended_snoc (l := l) .streamEnded rfl]
    simp only [GrpcClient.mem_closeChannel, tracked.closed k, tracked.current k, streaming,
      counted]
    constructor
    · rintro ((ended | ⟨⟨⟩, -⟩) | ⟨last, -, -⟩)
      · exact .inl (.inl ended)
      · exact .inl (.inr ⟨by omega, trivial⟩)
    · rintro ((ended | ⟨rfl, -⟩) | ⟨⟨⟩, -⟩)
      · exact .inl (.inl ended)
      · exact .inr ⟨rfl, running, by simp⟩
  · rw [ended_snoc (l := l) .streamEnded rfl]
    simp only [GrpcClient.closeChannel_channel, GrpcClient.closeChannel_nextChannel, counted]
    constructor
    · intro isSome
      cases isSome
    · rintro ⟨last, notEnded, -⟩
      exact absurd (.inr ⟨by omega, trivial⟩) notEnded

/-- A new attempt opens the next channel and drops the reference to the last. -/
theorem tracked_openStream (tracked : Tracked l) (ready : l.client.phase = .ready) :
    Tracked ⟨l.client.openStream, l.outcomes⟩ := by
  have counted : l.client.nextChannel = l.outcomes.length := by
    simpa [GrpcClient.attempting, ready] using tracked.counted
  refine ⟨by simpa [GrpcClient.attempting, GrpcClient.openStream] using counted, fun k => ?_,
    fun k => ?_⟩
  · simp only [GrpcClient.openStream]
    rw [tracked.closed k]
    simp [Ended, ready]
  · simp only [GrpcClient.openStream, counted, Option.some.injEq]
    constructor
    · rintro rfl
      exact ⟨rfl, fun ended => absurd (ended_lt ended) (Nat.lt_irrefl _), by simp⟩
    · rintro ⟨last, -⟩
      omega

/-- `stop` closes the channel the client refers to, if any. -/
theorem tracked_stop (tracked : Tracked l) (stopped : m.client.phase = .stopped)
    (channel : m.client.channel = none) (next : m.client.nextChannel = l.client.nextChannel)
    (closed : m.client.closedChannels = l.client.closeChannel.closedChannels)
    (outcomes : m.outcomes = l.outcomes ++ (outcomeOf l.client .stop).toList) : Tracked m := by
  have idle : m.client.attempting = false := by simp [GrpcClient.attempting, stopped]
  have counted := tracked.counted
  rw [outcomeOf] at outcomes
  have same : (∀ k, m.Ended k ↔ l.Ended k) ∧ m.outcomes.length = l.client.nextChannel := by
    by_cases running : l.client.attempting = true
    · rw [if_pos running] at outcomes counted
      refine ⟨fun k => ?_, by rw [counted, outcomes, List.length_append]; rfl⟩
      rw [ended_snoc .cancelled outcomes]
      simp
    · rw [if_neg running] at outcomes counted
      simp only [Option.toList_none, List.append_nil] at outcomes
      refine ⟨fun k => by rw [Ended, outcomes]; rfl, by rw [counted, outcomes]; rfl⟩
  refine ⟨by rw [next, idle, same.2]; rfl, fun k => ?_, fun k => by simp [channel, stopped]⟩
  rw [same.1 k, closed, GrpcClient.mem_closeChannel, tracked.closed k, tracked.current k, next]
  constructor
  · rintro ((ended | ⟨-, last⟩) | ⟨last, -⟩)
    · exact .inl ended
    · exact .inr ⟨stopped, last⟩
    · exact .inr ⟨stopped, last⟩
  · rintro (ended | ⟨-, last⟩)
    · exact .inl (.inl ended)
    · by_cases ended : l.Ended k
      · exact .inl (.inl ended)
      · by_cases already : l.client.phase = .stopped
        · exact .inl (.inr ⟨already, last⟩)
        · exact .inr ⟨last, ended, already⟩

theorem tracked_step (tracked : Tracked l) (next : l.step action = some m) : Tracked m := by
  obtain ⟨c, stepped, rfl⟩ := Option.map_eq_some_iff.mp next
  cases action with
  | send frame critical fault =>
      obtain rfl := Option.some.inj stepped
      have same : ∀ c' : GrpcClient F, c'.channel = l.client.channel →
          c'.nextChannel = l.client.nextChannel → c'.closedChannels = l.client.closedChannels →
          c'.phase = l.client.phase → Tracked ⟨c', l.outcomes ++ []⟩ := by
        intro c' channel nextChannel closed phase
        exact tracked_congr tracked channel nextChannel closed
          (by simp only [GrpcClient.attempting, phase]) (by rw [phase]) (List.append_nil _)
      show Tracked ⟨_, l.outcomes ++ []⟩
      unfold GrpcClient.send
      dsimp only
      split
      · exact same _ rfl rfl rfl rfl
      · split
        · exact same _ rfl rfl rfl rfl
        · split <;> exact same _ rfl rfl rfl rfl
  | start | backoffElapsed =>
      simp only [GrpcClient.step] at stepped
      split at stepped
      · rename_i phase
        obtain rfl := Option.some.inj stepped
        exact tracked_congr tracked rfl rfl rfl (by simp [GrpcClient.attempting, phase])
          (by simp [phase]) (List.append_nil _)
      · cases stepped
  | openStream =>
      simp only [GrpcClient.step] at stepped
      split at stepped
      · rename_i ready
        obtain rfl := Option.some.inj stepped
        exact tracked_congr (tracked_openStream tracked ready) rfl rfl rfl rfl Iff.rfl
          (List.append_nil _)
      · cases stepped
  | metadataFailed =>
      simp only [GrpcClient.step] at stepped
      split at stepped
      · rename_i opening
        obtain rfl := Option.some.inj stepped
        exact tracked_failed .metadataRaised tracked (by simp [GrpcClient.attempting, opening])
          (by simp [opening]) (by simp) rfl rfl rfl rfl rfl
      · cases stepped
  | metadataReady fault =>
      simp only [GrpcClient.step] at stepped
      split at stepped
      · rename_i opening
        obtain rfl := Option.some.inj stepped
        simp only [GrpcClient.metadataReady]
        split
        · rename_i flushed
          exact tracked_congr tracked rfl rfl rfl (by simp [GrpcClient.attempting, opening])
            (by simp [opening]) (by simp [outcomeOf, flushed])
        · rename_i raised
          exact tracked_failed .flushRaised tracked (by simp [GrpcClient.attempting, opening])
            (by simp [opening]) (by simp) rfl rfl rfl rfl
            (by simp [outcomeOf, raised])
      · cases stepped
  | streamEnded =>
      simp only [GrpcClient.step] at stepped
      split at stepped
      · rename_i streaming
        obtain rfl := Option.some.inj stepped
        exact tracked_streamEnded tracked streaming
      · cases stepped
  | take =>
      simp only [GrpcClient.step] at stepped
      split at stepped
      · obtain rfl := Option.some.inj stepped
        exact tracked_congr tracked rfl rfl rfl rfl Iff.rfl (List.append_nil _)
      · obtain rfl := Option.some.inj stepped
        exact tracked_congr tracked rfl rfl rfl rfl Iff.rfl (List.append_nil _)
      · cases stepped
  | stop =>
      obtain rfl := Option.some.inj stepped
      exact tracked_stop tracked rfl (GrpcClient.closeChannel_channel _)
        (GrpcClient.closeChannel_nextChannel _) rfl rfl

/-- What closing in turn comes to when the next attempt is due. -/
theorem allClosed_ready (tracked : Tracked l) (ready : l.client.phase = .ready) :
    l.client.AllClosed ↔ ∀ o ∈ l.outcomes, o = .streamEnded := by
  have counted : l.client.nextChannel = l.outcomes.length := by
    simpa [GrpcClient.attempting, ready] using tracked.counted
  simp only [GrpcClient.AllClosed, counted, tracked.closed, ready, Ended]
  constructor
  · intro closed o listed
    obtain ⟨k, bound, rfl⟩ := List.mem_iff_getElem.mp listed
    simpa [List.getElem?_eq_getElem bound] using closed k bound
  · intro ended k bound
    rw [List.getElem?_eq_getElem bound, ended _ (List.getElem_mem bound)]
    exact .inl rfl

/-- What closing in turn comes to once the client is stopped. -/
theorem allClosed_stopped (tracked : Tracked l) (stopped : l.client.phase = .stopped) :
    l.client.AllClosed ↔ ∀ o ∈ l.outcomes.dropLast, o = .streamEnded := by
  have counted : l.client.nextChannel = l.outcomes.length := by
    simpa [GrpcClient.attempting, stopped] using tracked.counted
  simp only [GrpcClient.AllClosed, counted, tracked.closed, stopped, Ended]
  constructor
  · intro closed o listed
    obtain ⟨k, bound, rfl⟩ := List.mem_iff_getElem.mp listed
    rw [List.getElem_dropLast]
    rw [List.length_dropLast] at bound
    have before : k < l.outcomes.length := by omega
    rcases closed k before with ended | ⟨-, last⟩
    · simpa [List.getElem?_eq_getElem before] using ended
    · omega
  · intro ended k bound
    by_cases last : k + 1 = l.outcomes.length
    · exact .inr ⟨trivial, last⟩
    · have before : k < l.outcomes.dropLast.length := by
        rw [List.length_dropLast]
        omega
      have isEnded := ended _ (List.getElem_mem before)
      rw [List.getElem_dropLast] at isEnded
      rw [List.getElem?_eq_getElem bound, isEnded]
      exact .inl rfl

end AttemptLog

/-- **Channels are closed in turn.**  In any run, when the next channel is opened
every earlier one has been closed exactly when every attempt so far got as far as
its read loop; when `stop` returns every channel has been closed exactly when
every attempt but the last did. -/
theorem channels_closed_in_turn (pending : Pending (Sent F)) (l m : AttemptLog F)
    (action : ClientAction F)
    (run : Reachable AttemptLog.step Free (AttemptLog.init pending) l)
    (next : l.step action = some m) :
    (action = .openStream →
      (l.client.AllClosed ↔ ∀ o ∈ l.outcomes, o = .streamEnded)) ∧
    (action = .stop →
      (m.client.AllClosed ↔ ∀ o ∈ m.outcomes.dropLast, o = .streamEnded)) := by
  have tracked : l.Tracked := run.invariant (AttemptLog.tracked_init pending)
    fun _ _ _ tracked _ stepped => AttemptLog.tracked_step tracked stepped
  refine ⟨?_, ?_⟩
  · rintro rfl
    obtain ⟨c, stepped, -⟩ := Option.map_eq_some_iff.mp next
    refine AttemptLog.allClosed_ready tracked ?_
    by_contra notReady
    simp [GrpcClient.step, notReady] at stepped
  · rintro rfl
    have tracked' := AttemptLog.tracked_step tracked next
    obtain ⟨c, stepped, rfl⟩ := Option.map_eq_some_iff.mp next
    obtain rfl := Option.some.inj stepped
    exact AttemptLog.allClosed_stopped tracked' rfl

/-! ## Poles -/

/-- A client over an empty in-memory buffer. -/
def attemptsOfNone : AttemptLog String := AttemptLog.init (.memory 3 smallLimit_pos [])

/-- A stream that ends, and a second attempt that is stopped while it opens. -/
def reconnectAndStop : List (ClientAction String) :=
  [.start, .openStream, .metadataReady none, .streamEnded, .backoffElapsed, .openStream]

theorem reconnectAndStop_runs :
    (run AttemptLog.step attemptsOfNone reconnectAndStop).isSome = true := by decide

theorem stopped_after_reconnect : ((Option.get _ reconnectAndStop_runs).step .stop).isSome = true := by
  decide

/-- Both channels are closed when `stop` returns. -/
theorem reconnect_closes_channels :
    (Option.get _ stopped_after_reconnect).client.AllClosed :=
  ((channels_closed_in_turn (.memory 3 (by decide) []) _ _ .stop
    (reachable_get reconnectAndStop_runs) (Option.some_get stopped_after_reconnect).symm).2 rfl).mpr
    (by decide)

/-- The server refuses the RPC, and the connect loop tries again. -/
def refusedActions : List (ClientAction String) :=
  [.start, .openStream, .metadataFailed, .backoffElapsed]

theorem refused_runs : (run AttemptLog.step attemptsOfNone refusedActions).isSome = true := by
  decide

theorem retry_opens : ((Option.get _ refused_runs).step .openStream).isSome = true := by decide

/-- **A refused attempt leaks its channel.**  Channel 0 is still open when the
retry opens channel 1 in its place. -/
theorem refused_attempt_leaks_channel :
    ¬ ∀ (pending : Pending (Sent String)) (l m : AttemptLog String) (action : ClientAction String),
      Reachable AttemptLog.step Free (AttemptLog.init pending) l → l.step action = some m →
        (action = .openStream → l.client.AllClosed) ∧ (action = .stop → m.client.AllClosed) := by
  intro claim
  have closed := (claim _ _ _ .openStream (reachable_get refused_runs)
    (Option.some_get retry_opens).symm).1 rfl
  exact absurd closed (by decide)

end IsalesTelephony.Transport
