/-
# Audio.Uplink -- what the channel is given of the modem's audio, and what a left bridge leaves

The bridge pushes each chunk it takes, resampled and filled up to frames of 10 ms, and a chunk
is pushed once or up to the frame that the SDK refused or the cancellation fell behind.  So in
every run the frames the SDK was given are those of the chunks taken, in order, the last one in
part (`uplink_conveys`); of chunks of 10 ms nothing is filled up.

After `leave` no loop runs and no push is under way, and no engine is alive unless `join` was
cancelled: then the session is not joined, and `leave` passes it over (`bridge_leaves_clean`,
`cancelled_join_keeps_engine`).
-/
import IsalesTelephony.Audio.BridgeSteps

namespace IsalesTelephony.Audio

set_option autoImplicit false

open IsalesTelephony.Theory
open IsalesTelephony.Theory.Transition

namespace AudioBridge

variable {config : WindowsSessionConfig} {sp : Scipy} {s t : AudioBridge} {capacity : Nat}
  {positive : 0 < capacity} {name : String} {r : Recorder} {recordCallId : Option String}

theorem sound_init : (init capacity positive name r recordCallId).Sound sp := by
  have started : Upstream.Sound sp (Upstream.started capacity positive name r recordCallId) :=
    Upstream.sound_started capacity positive name r recordCallId
  refine ⟨⟨⟨WindowsSession.told_start, WindowsSession.owned_start⟩, Nat.zero_le 1, ⟨rfl, rfl⟩, nofun,
    nofun, ⟨started, nofun⟩, .rests rfl (.inl rfl) rfl, nofun, nofun⟩, rfl, rfl⟩

theorem sound_of_reachable
    (run : Reachable (step config sp) Free (init capacity positive name r recordCallId) s) :
    s.Sound sp :=
  run.invariant sound_init fun _ _ _ sound _ ran => sound_step sound ran

/-- What the channel is given of what the modem gave. -/
structure Conveys (sp : Scipy) (s : AudioBridge) : Prop where
  /-- the SDK is given frames of 10 ms only -/
  grid : ∀ frame ∈ s.session.heard, WindowsSession.Grid frame
  /-- those of the chunks pushed, and a part of those of the chunk in hand -/
  line : ∃ part, s.given = s.done ++ part ∧ (part = [] ∨
    ∃ chunk resampled, s.up.inHand = some chunk ∧
      Resampler.upstream.resample sp chunk = .ok resampled ∧ part <+: WindowsSession.padded resampled)
  pushed : (Upstream.nonempty s.up.passed).map (Resampler.upstream.resample sp) = s.up.pushed.map .ok
  taken : s.up.taken = s.up.passed ++ s.up.inHand.toList
  inOrder : s.up.taken.Sublist s.up.log.belt.joined
  /-- no silence is put between chunks of 10 ms -/
  whole : (∀ chunk ∈ s.up.taken, 160 ∣ chunk.length) → s.done = s.up.pushed.flatten
  /-- what ends the loop -/
  ends : ∀ why inHand, s.up.pc = .ended why inHand →
    (∃ chunk, inHand = some chunk ∧ ¬ 2 ∣ chunk.length) ∨ s.up.stopEvent = true ∨
      s.up.log.ring.closed = true ∨ ∃ rc, rc ≠ 0 ∧ s.refused = some rc

/-- Chunks of 10 ms are pushed as they are. -/
theorem done_whole (sound : Upstream.Sound sp s.up)
    (whole : ∀ chunk ∈ s.up.passed, 160 ∣ chunk.length) : s.done = s.up.pushed.flatten := by
  have same : ∀ resampled ∈ s.up.pushed, WindowsSession.padded resampled = resampled := by
    intro resampled member
    refine WindowsSession.padded_whole ?_
    have listed : .ok resampled ∈ (Upstream.nonempty s.up.passed).map
        (Resampler.upstream.resample sp) := by
      rw [sound.once]
      exact List.mem_map_of_mem member
    obtain ⟨chunk, passed, converts⟩ := List.mem_map.mp listed
    have fits := whole chunk (List.mem_filter.mp passed).1
    obtain ⟨form, same, length⟩ :=
      @Resampler.resample_upstream sp chunk (Nat.dvd_trans (by decide) fits)
    obtain rfl := Except.ok.inj (same.symm.trans converts)
    omega
  rw [done, List.flatMap_def, List.map_congr_left same, List.map_id']

/-- **The way up.**  In every run of the bridge, its session, the SDK and the modem's side: the
frames that the SDK was given are of 10 ms and make up the chunks taken from the ring, in order
and each once, filled up to whole frames, the last one in part; the loop ends only at a chunk of
half a sample, on `leave`, with the ring, or at a frame that the SDK refused. -/
theorem uplink_conveys (config : WindowsSessionConfig) (sp : Scipy) (s : AudioBridge)
    (run : Reachable (step config sp) Free (init capacity positive name r recordCallId) s) :
    s.Conveys sp := by
  have core := (sound_of_reachable run).core
  have sound := core.fed.sound
  constructor
  case grid => exact core.grid
  case line =>
    cases core.feeds with
    | rests _ _ line => exact ⟨[], line.trans (List.append_nil _).symm, .inl rfl⟩
    | pushes n chunk resampled part frames _ pc _ _ _ line rest =>
        have converts := (sound.pending chunk resampled (.inl pc)).2
        exact ⟨part, line,
          .inr ⟨chunk, resampled, Upstream.inHand_held (.inl pc), converts, _, rest⟩⟩
    | ends why chunk part _ pc line begun =>
        refine ⟨part, line, begun.imp_right fun ⟨resampled, converts, prefix_⟩ => ?_⟩
        exact ⟨chunk, resampled, by simp [Upstream.inHand, pc], converts, prefix_⟩
  case pushed => exact sound.once
  case taken => exact sound.taken
  case inOrder =>
    have delivered : s.up.log.belt.left .taken = s.up.taken := sound.accounts.delivered.symm
    rw [← delivered]
    exact s.up.log.belt.left_sublist .taken
  case whole =>
    intro whole
    have stopped : Upstream.Sound sp
        { s.up with stopEvent := s.up.stopEvent || s.refused.isSome } := sound
    refine done_whole (s := { s with
      up := { s.up with stopEvent := s.up.stopEvent || s.refused.isSome } }) stopped
      fun chunk passed => ?_
    refine whole chunk ?_
    rw [show s.up.taken = s.up.passed ++ s.up.inHand.toList from sound.taken]
    exact List.mem_append_left _ passed
  case ends =>
    intro why inHand ended
    have stopped : (s.up.stopEvent || s.refused.isSome) = true →
        s.up.stopEvent = true ∨ s.up.log.ring.closed = true ∨ ∃ rc, rc ≠ 0 ∧ s.refused = some rc := by
      intro either
      rcases Bool.or_eq_true_iff.mp either with stop | refused
      · exact .inl stop
      · obtain ⟨rc, isRc⟩ := Option.isSome_iff_exists.mp refused
        exact .inr (.inr ⟨rc, core.refused rc isRc, isRc⟩)
    rcases sound.ends why inHand ended with odd | ⟨rightly, -⟩
    · exact .inl odd
    · refine .inr ?_
      cases why with
      | left | notJoined | pushFailed => exact stopped rightly
      | ringClosed => exact .inr (.inl rightly)
      | cancelled => exact .inl (core.cancelled inHand ended)
      | notResampled => exact rightly.elim

/-- What a bridge that has left leaves behind. -/
structure Clean (s : AudioBridge) : Prop where
  /-- the loop never ran or is over -/
  finished : s.up.pc = .loop ∨ ∃ why inHand, s.up.pc = .ended why inHand
  pushes : ∀ (i a : Nat) (frames : List Handed), s.session.tasks[i]? ≠ some (.pushing a frames)
  engines : s.cancelled = false → ∀ x ∈ s.session.attempts, x.handle.engine = false

/-- A bridge that has left does nothing more. -/
theorem left_step {action : BridgeAction} (left : s.bridge = .left) (none_ : s.push = none)
    (ran : s.step config sp action = some t) :
    t.bridge = .left ∧ t.push = none ∧ t.session.heard = s.session.heard := by
  have quiet : ∀ {moved : SessionAction} {session : WindowsSession},
      s.session.step config moved = some session → WindowsSession.SessionAction.Aside moved →
        session.heard = s.session.heard := fun ran aside => (WindowsSession.quiet_step aside ran).heard
  cases action with
  | callback a event =>
      obtain ⟨session, moved, rfl⟩ := Option.map_eq_some_iff.mp ran
      exact ⟨left, none_, quiet moved trivial⟩
  | runCallback =>
      obtain ⟨session, moved, rfl⟩ := Option.map_eq_some_iff.mp ran
      exact ⟨left, none_, quiet moved trivial⟩
  | read | put | close | tapAi =>
      simp only [step] at ran
      obtain ⟨up, moved, rfl⟩ := Option.map_eq_some_iff.mp ran
      exact ⟨left, none_, rfl⟩
  | join | timeout | joinResumes | cancelJoin | turn | wake | pushResumes | leave | sessionLeft =>
      simp [step, left, none_, looping] at ran

/-- **After `leave`.**  In every run in which the bridge has left: its loop runs no more, no
push is under way, no engine is alive unless `join` was cancelled, and whatever happens later
the SDK is given nothing more. -/
theorem bridge_leaves_clean (config : WindowsSessionConfig) (sp : Scipy) (s : AudioBridge)
    (run : Reachable (step config sp) Free (init capacity positive name r recordCallId) s)
    (left : s.bridge = .left) :
    s.Clean ∧ ∀ t, Reachable (step config sp) Free s t → t.session.heard = s.session.heard := by
  obtain ⟨core, phase⟩ := sound_of_reachable run
  unfold Phase at phase
  simp only [left] at phase
  obtain ⟨engine, push, -, finished⟩ := phase
  refine ⟨⟨finished, fun i a frames task => ?_, fun unCancelled x member => ?_⟩, fun t later => ?_⟩
  · cases push.symm.trans (core.pushing i a frames task)
  · obtain ⟨a, here⟩ := List.mem_iff_getElem?.mp member
    by_contra alive
    have own := core.session.2.own a x here (by simpa using alive)
    rw [engine unCancelled] at own
    cases own
  · have still : t.bridge = .left ∧ t.push = none ∧ t.session.heard = s.session.heard := by
      refine later.invariant (P := fun t => t.bridge = .left ∧ t.push = none ∧
        t.session.heard = s.session.heard) ⟨left, push, rfl⟩ ?_
      rintro t action u ⟨left, none_, heard⟩ - ran
      obtain ⟨left', none', same⟩ := left_step left none_ ran
      exact ⟨left', none', same.trans heard⟩
    exact still.2.2

/-! ## Poles -/

/-- A bridge that does not record. -/
def idle : AudioBridge := init 16384 (Nat.zero_lt_succ 16383) "modem_upstream" {} none

/-- `join` succeeds; a chunk of one sample is pushed, and one of 82 samples, of which the SDK has
one frame when the bridge is left. -/
def leftInPush : List BridgeAction :=
  [.join WindowsSession.demoCall, .callback 0 (.joinResult 0), .runCallback, .joinResumes,
    .read [0, 0], .turn 0 0, .put (List.replicate 164 0), .turn 20 0, .leave 0, .sessionLeft true]

theorem leftInPush_runs :
    (run (step WindowsSession.demo Upstream.silent) idle leftInPush).isSome = true := by
  decide +kernel

theorem leftInPush_conveys :
    Conveys Upstream.silent (Option.get _ leftInPush_runs) ∧
      (Option.get _ leftInPush_runs).session.heard.length = 2 ∧
        (Option.get _ leftInPush_runs).up.pushed.length = 1 :=
  ⟨uplink_conveys WindowsSession.demo Upstream.silent _ (reachable_get leftInPush_runs),
    by decide +kernel, by decide +kernel⟩

theorem leftInPush_clean :
    Clean (Option.get _ leftInPush_runs) ∧
      ∀ t, Reachable (step WindowsSession.demo Upstream.silent) Free (Option.get _ leftInPush_runs) t →
        t.session.heard = (Option.get _ leftInPush_runs).session.heard :=
  bridge_leaves_clean WindowsSession.demo Upstream.silent _ (reachable_get leftInPush_runs)
    (by decide +kernel)

/-- The SDK refuses one frame. -/
def refusal : List BridgeAction :=
  [.join WindowsSession.demoCall, .callback 0 (.joinResult 0), .runCallback, .joinResumes,
    .read [0, 0], .turn 0 (-5)]

/-- **A refused frame ends the way up** for the rest of the call: the session stays joined. -/
theorem refused_frame_silences : ∃ s, Reachable (step WindowsSession.demo Upstream.silent) Free idle s ∧
    s.bridge = .joined ∧ s.session.joined = true ∧ s.up.pc = .ended .pushFailed (some [0, 0]) := by
  have ran : (run (step WindowsSession.demo Upstream.silent) idle refusal).isSome = true := by
    decide +kernel
  exact ⟨_, reachable_get ran, rfl, rfl, rfl⟩

/-- **A cancelled `join` keeps its engine**: `leave` does not leave a session that is not joined. -/
theorem cancelled_join_keeps_engine :
    ∃ s, Reachable (step WindowsSession.demo Upstream.silent) Free idle s ∧ s.bridge = .left ∧
      ∃ x ∈ s.session.attempts, x.handle.engine = true := by
  have ran : (run (step WindowsSession.demo Upstream.silent) idle
      [.join WindowsSession.demoCall, .cancelJoin, .leave 0]).isSome = true := by decide +kernel
  exact ⟨_, reachable_get ran, rfl, _, List.mem_cons_self, rfl⟩

end AudioBridge

end IsalesTelephony.Audio
