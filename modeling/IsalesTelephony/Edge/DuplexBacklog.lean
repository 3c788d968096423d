/-
# Edge.DuplexBacklog -- what waits for the modem

The ring drops the oldest chunks to stay within its capacity, but `run_duplex_pump` empties
it into a buffer of its own in each iteration and writes one frame of that, so what is pending
is beyond the ring's bound.  An iteration adds nothing to what waits (`unwritten_write`);
only a put can take it past the ring's capacity and a frame.  No put does while at most a
frame is pending, and while more is pending a chunk of the ring's capacity does
(`light_iff`): hence `backlog_bounded`.

A pump that never finds more than two frames is bounded (`paced_bounded`).
-/
import IsalesTelephony.Edge.DuplexPump

namespace IsalesTelephony.Edge

set_option autoImplicit false

open IsalesTelephony.Audio
open IsalesTelephony.Theory
open IsalesTelephony.Theory.Transition

namespace DuplexPump

/-- The bound of the ring and a frame. -/
def Bounded (s : DuplexPump) : Prop :=
  s.unwritten ≤ s.downstream.ring.capacity + duplexFrame

/-- At most a frame is pending. -/
def Light (s : DuplexPump) : Prop := s.pending.length ≤ duplexFrame

/-- A chunk is put while at most a frame is pending. -/
def PutsLight (s : DuplexPump) : DuplexAction → Prop
  | .put _ => s.Light
  | _ => True

/-- The chunks put fit the ring. -/
def Fitting (s : DuplexPump) : DuplexAction → Prop
  | .put chunk => chunk.length ≤ s.downstream.ring.capacity
  | _ => True

/-- An iteration finds at most two frames in the ring and the pump. -/
def Paced (s : DuplexPump) : DuplexAction → Prop
  | .read _ => s.unwritten ≤ 2 * duplexFrame
  | _ => True

variable {s t : DuplexPump} {action : DuplexAction}

theorem downstream_write : s.write.downstream = s.downstream := by rw [write_eq]

/-- A write leaves a frame less, or less than one. -/
theorem length_kept :
    s.kept.length ≤ s.pending.length - duplexFrame ∨ s.kept.length ≤ s.pending.length ∧
      s.kept.length < duplexFrame := by
  unfold kept
  split
  · exact .inl List.length_drop.le
  · rename_i few
    exact .inr ⟨Nat.le_refl _, Nat.not_le.mp few⟩

theorem unwritten_write : s.write.unwritten ≤ s.unwritten := by
  have less := s.length_kept
  rw [write_eq]
  simp only [unwritten]
  omega

/-- Draining moves bytes from the ring to the pump. -/
theorem unwritten_drained {down : Traffic} {pending : Pcm} (sound : Sound s)
    (drained : Drained s.downstream s.downstream.ring.chunks down)
    (moved : pending = s.pending ++ s.downstream.ring.chunks.flatten) :
    down.ring.size = 0 ∧ (pending.length : Int) = s.unwritten := by
  have counted := sound.down.counted
  have empty := drained.accounts.counted
  rw [drained.empty, bytes_nil] at empty
  have length : pending.length = s.pending.length + bytes s.downstream.ring.chunks := by
    rw [moved, List.length_append, List.length_flatten, bytes]
  simp only [unwritten]
  omega

/-- The ring's own bound and the frame that is pending. -/
theorem bounded_of_light (sound : Sound s) (light : Light s) : Bounded s := by
  have bounded := sound.down.bounded
  have pending : s.pending.length ≤ duplexFrame := light
  unfold Bounded unwritten
  omega

/-- **One step.** -/
theorem bounded_step (sound : Sound s) (bounded : Bounded s) (ok : s.PutsLight action)
    (ran : s.step action = some t) : Bounded t := by
  cases step_cases sound.up sound.down ran with
  | aside up down offers delivered puts =>
      rcases puts with rfl | rfl | ⟨chunk, rfl, rfl⟩
      · exact bounded
      · exact bounded
      · have light : Light { s with downstream := s.downstream.put chunk } := ok
        exact bounded_of_light (sound_step sound ran) light
  | ends => exact bounded
  | refused => exact bounded
  | @writes chunk down pending reading accounts drained moved =>
      obtain ⟨empty, all⟩ := unwritten_drained sound drained moved
      refine (unwritten_write.trans ?_).trans bounded |>.trans ?_
      · show down.ring.size + pending.length ≤ s.unwritten
        omega
      · rw [downstream_write]
        show (s.downstream.ring.capacity : Int) + duplexFrame ≤ down.ring.capacity + duplexFrame
        rw [drained.capacity]
  | wrote => exact bounded

/-- A chunk of the ring's capacity takes the place of all that is queued. -/
theorem size_put_whole {log : Traffic} {chunk : Pcm} (accounts : Traffic.Accounts log)
    (isOpen : log.ring.closed = false) (whole : chunk.length = log.ring.capacity) :
    (log.put chunk).ring.size = (log.put chunk).ring.capacity := by
  have moves := Traffic.moves_put accounts.counted chunk
  generalize log.put chunk = after at moves ⊢
  cases moves with
  | refused closed => exact absurd (isOpen.symm.trans closed) (by simp)
  | oversize _ large => exact absurd whole (Nat.ne_of_gt large)
  | @accepted _ room dropped _ _ made =>
      have counted := made.counted
      have fits := made.fits
      have capacity : room.capacity = log.ring.capacity := by rw [made.same]
      show room.size + chunk.length = (room.capacity : Int)
      omega
  | takes calls => exact absurd calls (by simp)
  | ends aside | waits aside => exact absurd rfl (aside chunk)

/-- Each chunk that fits the ring is put within the bound exactly when at most a frame is
pending. -/
theorem light_iff (sound : Sound s) (isOpen : s.downstream.ring.closed = false) :
    (∀ chunk t, s.Fitting (.put chunk) → s.step (.put chunk) = some t → Bounded t) ↔ s.Light := by
  constructor
  · intro within
    have whole := List.length_replicate (n := s.downstream.ring.capacity) (a := (0 : UInt8))
    have full := size_put_whole sound.down isOpen whole
    have bounded : Bounded _ := within _ _ (Nat.le_of_eq whole) rfl
    simp only [Bounded, unwritten] at bounded
    unfold Light
    omega
  · intro light chunk t _ ran
    have after := sound_step sound ran
    obtain rfl := Option.some.inj ran
    exact bounded_of_light after light

/-! ### A paced pump -/

theorem light_step (sound : Sound s) (light : Light s) (ok : s.Paced action)
    (ran : s.step action = some t) : Light t := by
  cases step_cases sound.up sound.down ran with
  | @writes chunk down pending reading accounts drained moved =>
      obtain ⟨empty, all⟩ := unwritten_drained sound drained moved
      have two : s.unwritten ≤ 2 * duplexFrame := ok
      have less := length_kept (s := { s with
        upstream := s.upstream.put chunk, captured := s.captured ++ [chunk], downstream := down,
        pending := pending })
      rw [write_eq]
      simp only [Light] at less ⊢
      omega
  | _ => exact light

variable {up down : Nat} {upPositive : 0 < up} {downPositive : 0 < down}

theorem bounded_started : Bounded (started up down upPositive downPositive) := by
  show (0 : Int) + 0 ≤ down + duplexFrame
  omega

/-- A pump that never finds more than two frames keeps within the bound. -/
theorem paced_bounded (run : Reachable step Paced (started up down upPositive downPositive) s) :
    Bounded s := by
  have light := run.invariant (P := fun s => Sound s ∧ Light s) ⟨sound_started, Nat.zero_le _⟩
    fun _ _ _ both ok ran => ⟨sound_step both.1 ran, light_step both.1 both.2 ok ran⟩
  exact bounded_of_light light.1 light.2

/-! ### Main result -/

/-- **The backlog.**  In every run whose chunks are put while at most a frame is pending, the
bytes that wait stay within the ring's capacity and a frame, and so they do in every run whose
iterations find at most two frames; and in every state of every run in which the ring is
open, each chunk that fits it is put within that bound if and only if at most a frame is
pending. -/
theorem backlog_bounded (upPositive : 0 < up) (downPositive : 0 < down) :
    (∀ s, Reachable step PutsLight (started up down upPositive downPositive) s → Bounded s) ∧
    (∀ s, Reachable step Paced (started up down upPositive downPositive) s → Bounded s) ∧
    ∀ s, Reachable step Free (started up down upPositive downPositive) s →
      s.downstream.ring.closed = false →
        ((∀ chunk t, s.Fitting (.put chunk) → s.step (.put chunk) = some t → Bounded t) ↔
          s.Light) := by
  refine ⟨?_, fun s run => paced_bounded run, ?_⟩
  · intro s run
    exact (run.invariant (P := fun s => Sound s ∧ Bounded s) ⟨sound_started, bounded_started⟩
      fun _ _ _ both ok ran => ⟨sound_step both.1 ran, bounded_step both.1 both.2 ok ran⟩).2
  · intro s run isOpen
    exact light_iff (sound_of_reachable run) isOpen

/-! ## Poles -/

instance (s : DuplexPump) : Decidable s.Light := by
  unfold Light
  infer_instance

instance (s : DuplexPump) (action : DuplexAction) : Decidable (s.PutsLight action) := by
  cases action <;> unfold PutsLight <;> infer_instance

instance (s : DuplexPump) (action : DuplexAction) : Decidable (s.Fitting action) := by
  cases action <;> unfold Fitting <;> infer_instance

instance (s : DuplexPump) : Decidable (Bounded s) := by
  unfold Bounded
  infer_instance

/-- A ring of two frames. -/
def twoFrameRing : DuplexPump := started 4096 640 (by decide) (by decide)

/-- Two frames are put before each of two iterations. -/
def outrun : List DuplexAction :=
  [.put (List.replicate 640 1), .read [0, 0], .wrote, .put (List.replicate 640 1), .read [0, 0],
    .wrote]

theorem outrun_runs : (guardedRun step PutsLight twoFrameRing outrun).isSome = true := by
  decide +kernel

def outpaced : DuplexPump := (guardedRun step PutsLight twoFrameRing outrun).get outrun_runs

/-- Two frames are pending then, so not every chunk that fits can be put. -/
theorem outrun_bounded :
    Bounded outpaced ∧ ¬ ∀ chunk t, outpaced.Fitting (.put chunk) →
      outpaced.step (.put chunk) = some t → Bounded t :=
  ⟨(backlog_bounded (by decide) (by decide)).1 _ (reachable_guarded_get outrun_runs),
    fun within => absurd
      (((backlog_bounded (by decide) (by decide)).2.2 outpaced
        (reachable_guarded_get outrun_runs).free (by decide +kernel)).mp within)
      (by decide +kernel)⟩

theorem overrun_runs :
    (guardedRun step Fitting twoFrameRing
      (outrun ++ [.put (List.replicate 640 1)])).isSome = true := by decide +kernel

/-- **The backlog grows** past the ring's bound. -/
theorem backlog_outgrows_ring :
    ¬ ∀ (up down : Nat) (upPositive : 0 < up) (downPositive : 0 < down) (s : DuplexPump),
      Reachable step Fitting (started up down upPositive downPositive) s →
        s.unwritten ≤ down + 320 := by
  intro claim
  have bound := claim 4096 640 (by decide) (by decide) _ (reachable_guarded_get overrun_runs)
  exact absurd bound (by decide +kernel)

end DuplexPump

end IsalesTelephony.Edge
