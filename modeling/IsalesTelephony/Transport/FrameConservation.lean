/-
# Transport.FrameConservation -- where a frame can be

Every frame that reaches the client is in one place: evicted by the buffer,
pending, on the current outbound queue, stranded on a queue that was replaced,
or taken by an outbound iterator.  As multisets these add up to what entered
(`Accounted`), and each step keeps the sum.

Stranded is where frames are lost.  `_run_one_stream` installs a fresh queue
without looking at the old one, so a frame still on it when the next attempt
starts is in no place any code reads.  With no frame left on the queue at each
new attempt, and no failing delete in a flush, an accepted frame that was not
evicted is pending, queued or taken, and only once (`accepted_frame_held_once`).
-/
import IsalesTelephony.Transport.GrpcClient
import Mathlib.Algebra.Order.Group.Multiset
import Mathlib.Tactic.Abel

namespace IsalesTelephony.Transport

set_option autoImplicit false

open IsalesTelephony.Theory IsalesTelephony.Theory.Transition

universe u

variable {F : Type u}

namespace GrpcClient

/-- What the buffer keeps, the live queue has and the streams took. -/
def held (c : GrpcClient F) : List (Sent F) := c.pending.frames ++ c.queued ++ c.taken

/-- The call stamped like `m` has its frame in one of those places, once. -/
def HeldOnce (c : GrpcClient F) (m : Sent F) : Prop :=
  (c.held.map Sent.stamp).count m.stamp = 1

instance (c : GrpcClient F) (m : Sent F) : Decidable (c.HeldOnce m) :=
  inferInstanceAs (Decidable (_ = _))

/-- Entered is evicted, held or stranded; stamps are the numbers of past calls,
each used once. -/
structure Accounted (c : GrpcClient F) : Prop where
  places : (c.evicted : Multiset (Sent F)) + c.held + c.stranded = c.entered
  fresh : ∀ m ∈ c.entered, m.stamp < c.nextSend
  distinct : (c.entered.map Sent.stamp).Nodup
  accepted : ∀ m ∈ c.accepted, m ∈ c.entered

theorem stamp_lt_foldr_max {m : Sent F} {frames : List (Sent F)} (member : m ∈ frames) :
    m.stamp < (frames.map fun m => m.stamp + 1).foldr max 0 := by
  induction frames with
  | nil => cases member
  | cons x rest ih =>
      simp only [List.map_cons, List.foldr_cons]
      rcases List.mem_cons.mp member with rfl | later
      · omega
      · have := ih later
        omega

theorem accounted_init {pending : Pending (Sent F)}
    (named : (pending.frames.map Sent.stamp).Nodup) : Accounted (init pending) where
  places := by simp [init, held, queued]
  fresh := fun m member => stamp_lt_foldr_max member
  distinct := named
  accepted := by simp [init]

/-- A frame that enters with the next stamp keeps the stamps distinct. -/
theorem accounted_enter {c d : GrpcClient F} {m : Sent F} (accounted : Accounted c)
    (stamped : m.stamp = c.nextSend) (next : d.nextSend = c.nextSend + 1)
    (entered : d.entered = c.entered ++ [m])
    (places : (d.evicted : Multiset (Sent F)) + d.held + d.stranded =
      (c.evicted : Multiset (Sent F)) + c.held + c.stranded + {m})
    (accepted : ∀ x ∈ d.accepted, x ∈ c.accepted ∨ x = m) : Accounted d where
  places := by
    rw [places, accounted.places, entered]
    rfl
  fresh := by
    intro x member
    rw [entered] at member
    rw [next]
    rcases List.mem_append.mp member with old | new
    · exact Nat.lt_succ_of_lt (accounted.fresh x old)
    · rw [List.mem_singleton.mp new, stamped]
      exact Nat.lt_succ_self _
  distinct := by
    rw [entered, List.map_append, List.map_singleton]
    refine List.nodup_append.mpr ⟨accounted.distinct, List.nodup_singleton _, ?_⟩
    intro stamp used other isNew same
    obtain ⟨x, member, rfl⟩ := List.mem_map.mp used
    have := accounted.fresh x member
    rw [List.mem_singleton.mp isNew, stamped] at same
    omega
  accepted := by
    intro x member
    rw [entered]
    rcases accepted x member with old | rfl
    · exact List.mem_append_left _ (accounted.accepted x old)
    · exact List.mem_append_right _ (List.mem_singleton_self _)

/-- A step that only moves frames between places keeps the account. -/
theorem accounted_move {c d : GrpcClient F} (accounted : Accounted c)
    (next : c.nextSend ≤ d.nextSend) (entered : d.entered = c.entered)
    (accepted : d.accepted = c.accepted)
    (places : (d.evicted : Multiset (Sent F)) + d.held + d.stranded =
      (c.evicted : Multiset (Sent F)) + c.held + c.stranded) : Accounted d where
  places := by rw [places, entered, accounted.places]
  fresh := fun m member => lt_of_lt_of_le (accounted.fresh m (entered ▸ member)) next
  distinct := entered ▸ accounted.distinct
  accepted := fun m member => entered ▸ accounted.accepted m (accepted ▸ member)

theorem accounted_send {c : GrpcClient F} (accounted : Accounted c) (frame : F)
    (critical : Bool) (fault : Option AppendFault) :
    Accounted (c.send frame critical fault).1 := by
  simp only [send]
  split
  · refine accounted_enter (m := ⟨c.nextSend, critical, frame⟩) accounted rfl rfl rfl ?_ ?_
    · simp only [held, queued, List.filterMap_append, List.filterMap_cons, List.filterMap_nil,
        id_eq, ← Multiset.coe_add, Multiset.coe_singleton]
      abel
    · exact fun x member => by simpa using member
  · split
    · exact accounted_move accounted (Nat.le_succ _) rfl rfl rfl
    · have moved := c.pending.append_frames ⟨c.nextSend, critical, frame⟩ fault
      by_cases stores : c.pending.appendStores fault = true
      · rw [if_pos stores] at moved
        have places : ∀ d : GrpcClient F,
            d.evicted = c.evicted ++ c.pending.appendEvicts ⟨c.nextSend, critical, frame⟩ fault →
            d.pending = (c.pending.append ⟨c.nextSend, critical, frame⟩ fault).1 →
            d.outbound = c.outbound → d.taken = c.taken → d.stranded = c.stranded →
            (d.evicted : Multiset (Sent F)) + d.held + d.stranded =
              (c.evicted : Multiset (Sent F)) + c.held + c.stranded +
                {⟨c.nextSend, critical, frame⟩} := by
          intro d evicted pending outbound taken stranded
          have sum := congrArg (fun l : List (Sent F) => (l : Multiset (Sent F))) moved
          simp only [← Multiset.coe_add, Multiset.coe_singleton] at sum
          simp only [held, queued, evicted, pending, outbound, taken, stranded,
            ← Multiset.coe_add]
          rw [add_assoc (c.evicted : Multiset (Sent F)), ← add_assoc (Multiset.ofList
            (c.pending.appendEvicts _ _)), ← add_assoc (Multiset.ofList
            (c.pending.appendEvicts _ _)), sum]
          abel
        split
        · refine accounted_enter (m := ⟨c.nextSend, critical, frame⟩) accounted rfl rfl
            rfl (places _ rfl rfl rfl rfl rfl) ?_
          exact fun x member => by simpa using member
        · refine accounted_enter (m := ⟨c.nextSend, critical, frame⟩) accounted rfl rfl
            rfl (places _ rfl rfl rfl rfl rfl) ?_
          exact fun x member => Or.inl member
      · have raises : (c.pending.append ⟨c.nextSend, critical, frame⟩ fault).2 = false := by
          by_contra returned
          exact stores (Pending.appendStores_of_append (by simpa using returned))
        rw [if_neg stores] at moved
        rw [raises, if_neg (by simp)]
        refine accounted_move accounted (Nat.le_succ _) (by simp [stores]) rfl ?_
        have sum := congrArg (fun l : List (Sent F) => (l : Multiset (Sent F))) moved
        simp only [← Multiset.coe_add, List.append_nil] at sum
        simp only [held, queued, ← Multiset.coe_add]
        rw [← sum]
        abel

/-- Each step keeps the account, a flush that fails at a delete excepted. -/
theorem accounted_step {c d : GrpcClient F} {action : ClientAction F} (accounted : Accounted c)
    (healthy : ∀ fault, action = .metadataReady (some fault) → ¬ fault.AtDelete)
    (next : c.step action = some d) : Accounted d := by
  cases action with
  | send frame critical fault =>
      obtain rfl := Option.some.inj next
      exact accounted_send accounted frame critical fault
  | start | metadataFailed | backoffElapsed =>
      simp only [step] at next
      split at next
      · obtain rfl := Option.some.inj next
        exact accounted_move accounted le_rfl rfl rfl rfl
      · cases next
  | openStream =>
      simp only [step] at next
      split at next
      · obtain rfl := Option.some.inj next
        refine accounted_move accounted le_rfl rfl rfl ?_
        simp only [openStream, held, queued, List.filterMap_nil, ← Multiset.coe_add,
          Multiset.coe_nil]
        abel
      · cases next
  | metadataReady fault =>
      simp only [step] at next
      split at next
      · obtain rfl := Option.some.inj next
        have moved := c.pending.flush_conserves fault fun f isF =>
          healthy f (by rw [isF])
        have sum := congrArg (fun l : List (Sent F) => (l : Multiset (Sent F))) moved
        simp only [← Multiset.coe_add] at sum
        have places : ∀ d : GrpcClient F, d.pending = (c.pending.flush fault).1 →
            d.outbound = c.outbound ++ (c.pending.flush fault).2.1.map some →
            d.taken = c.taken → d.evicted = c.evicted → d.stranded = c.stranded →
            (d.evicted : Multiset (Sent F)) + d.held + d.stranded =
              (c.evicted : Multiset (Sent F)) + c.held + c.stranded := by
          intro d pending outbound taken evicted stranded
          simp only [held, queued, pending, outbound, taken, evicted, stranded,
            List.filterMap_append, List.filterMap_map, Function.id_comp, List.filterMap_some,
            ← Multiset.coe_add]
          rw [← sum]
          abel
        simp only [metadataReady]
        split
        · exact accounted_move accounted le_rfl rfl rfl (places _ rfl rfl rfl rfl rfl)
        · exact accounted_move accounted le_rfl rfl rfl (places _ rfl rfl rfl rfl rfl)
      · cases next
  | streamEnded =>
      simp only [step] at next
      split at next
      · obtain rfl := Option.some.inj next
        unfold closeChannel
        split <;> exact accounted_move accounted le_rfl rfl rfl rfl
      · cases next
  | take =>
      simp only [step] at next
      split at next
      · rename_i m rest head
        obtain rfl := Option.some.inj next
        refine accounted_move accounted le_rfl rfl rfl ?_
        simp only [held, queued, head, List.filterMap_cons, id_eq, ← Multiset.coe_add,
          ← Multiset.cons_coe, ← Multiset.singleton_add]
        abel
      · rename_i rest head
        obtain rfl := Option.some.inj next
        refine accounted_move accounted le_rfl rfl rfl ?_
        simp [held, queued, head]
      · cases next
  | stop =>
      obtain rfl := Option.some.inj next
      have same : (c.outbound ++ [none]).filterMap id = c.outbound.filterMap id := by simp
      unfold closeChannel
      split <;>
        exact accounted_move accounted le_rfl rfl rfl (by simp only [held, queued, same])

/-! ## No loss -/

/-- An accepted frame that was not evicted is in one place, and is held unless it
was left on a replaced queue. -/
theorem heldOnce_iff {c : GrpcClient F} (accounted : Accounted c) {m : Sent F}
    (accepted : m ∈ c.accepted) (kept : m ∉ c.evicted) : c.HeldOnce m ↔ m ∉ c.stranded := by
  have perm : (c.evicted ++ c.held ++ c.stranded).Perm c.entered :=
    Multiset.coe_eq_coe.mp (by simpa [← Multiset.coe_add, add_assoc] using accounted.places)
  have entered := accounted.accepted m accepted
  -- a frame with the stamp of `m` is `m`
  have same : ∀ x ∈ c.entered, x.stamp = m.stamp → x = m := fun x member eq =>
    List.inj_on_of_nodup_map accounted.distinct member entered eq
  have total : (c.evicted.map Sent.stamp).count m.stamp +
      (c.held.map Sent.stamp).count m.stamp + (c.stranded.map Sent.stamp).count m.stamp = 1 := by
    rw [← List.count_append, ← List.count_append, ← List.map_append, ← List.map_append,
      (perm.map Sent.stamp).count_eq]
    exact List.count_eq_one_of_mem accounted.distinct (List.mem_map_of_mem entered)
  have absent : ∀ place : List (Sent F), place ⊆ c.entered → m ∉ place →
      (place.map Sent.stamp).count m.stamp = 0 := by
    intro place within missing
    refine List.count_eq_zero.mpr fun member => ?_
    obtain ⟨x, inPlace, eq⟩ := List.mem_map.mp member
    exact missing (same x (within inPlace) eq ▸ inPlace)
  have notEvicted := absent c.evicted (fun x h => perm.subset (by simp [h])) kept
  unfold HeldOnce
  constructor
  · intro once stranded
    have : 0 < (c.stranded.map Sent.stamp).count m.stamp :=
      List.count_pos_iff.mpr (List.mem_map_of_mem stranded)
    omega
  · intro notStranded
    have := absent c.stranded (fun x h => perm.subset (by simp [h])) notStranded
    omega

/-- The steps that keep frames: a new attempt starts with no non-critical frame
on the queue it replaces, no flush fails at a delete, and there is no `stop`. -/
def KeepsFrames (c : GrpcClient F) : ClientAction F → Prop
  | .openStream => ∀ m ∈ c.queued, m.critical = true
  | .metadataReady (some fault) => ¬ fault.AtDelete
  | .stop => False
  | _ => True

instance (c : GrpcClient F) (action : ClientAction F) : Decidable (KeepsFrames c action) := by
  unfold KeepsFrames
  split <;> infer_instance

/-- Nothing but a new attempt strands frames. -/
theorem stranded_step {c d : GrpcClient F} {action : ClientAction F}
    (next : c.step action = some d) :
    d.stranded = c.stranded ∨ action = .openStream ∧ d.stranded = c.stranded ++ c.queued := by
  cases action with
  | send frame critical fault =>
      obtain rfl := Option.some.inj next
      refine Or.inl ?_
      simp only [send]
      repeat' split
      all_goals rfl
  | openStream =>
      simp only [step] at next
      split at next
      · obtain rfl := Option.some.inj next
        exact Or.inr ⟨rfl, rfl⟩
      · cases next
  | metadataReady fault =>
      simp only [step] at next
      split at next
      · obtain rfl := Option.some.inj next
        refine Or.inl ?_
        simp only [metadataReady]
        split <;> rfl
      · cases next
  | streamEnded =>
      simp only [step] at next
      split at next
      · obtain rfl := Option.some.inj next
        refine Or.inl ?_
        unfold closeChannel
        split <;> rfl
      · cases next
  | stop =>
      obtain rfl := Option.some.inj next
      refine Or.inl ?_
      unfold closeChannel
      split <;> rfl
  | start | metadataFailed | backoffElapsed =>
      simp only [step] at next
      split at next
      · obtain rfl := Option.some.inj next
        exact Or.inl rfl
      · cases next
  | take =>
      simp only [step] at next
      split at next
      · obtain rfl := Option.some.inj next
        exact Or.inl rfl
      · obtain rfl := Option.some.inj next
        exact Or.inl rfl
      · cases next

theorem accounted_run {pending : Pending (Sent F)} {c : GrpcClient F}
    (named : (pending.frames.map Sent.stamp).Nodup)
    (run : Reachable step KeepsFrames (init pending) c) :
    Accounted c ∧ ∀ m ∈ c.stranded, m.critical = true := by
  refine run.invariant (P := fun c => Accounted c ∧ ∀ m ∈ c.stranded, m.critical = true)
    ⟨accounted_init named, by simp [init]⟩ ?_
  rintro c action d ⟨accounted, harmless⟩ keeps next
  refine ⟨accounted_step accounted (fun fault isReady => ?_) next, fun m member => ?_⟩
  · subst isReady
    exact keeps
  · rcases stranded_step next with same | ⟨rfl, grown⟩
    · exact harmless m (same ▸ member)
    · rw [grown] at member
      rcases List.mem_append.mp member with old | left
      · exact harmless m old
      · exact keeps m left

end GrpcClient

/-- **No accepted frame is lost.**  When every new attempt finds no non-critical
frame on the queue it replaces, a non-critical frame whose `send` returned and
that was not evicted is pending, on the current outbound queue, or taken by an
outbound iterator -- exactly one of the three, and once. -/
theorem accepted_frame_held_once (pending : Pending (Sent F))
    (named : (pending.frames.map Sent.stamp).Nodup) (c : GrpcClient F)
    (run : Reachable GrpcClient.step GrpcClient.KeepsFrames (GrpcClient.init pending) c)
    (m : Sent F) (accepted : m ∈ c.accepted) (nonCritical : m.critical = false)
    (kept : m ∉ c.evicted) : c.HeldOnce m := by
  obtain ⟨accounted, harmless⟩ := GrpcClient.accounted_run named run
  refine (GrpcClient.heldOnce_iff accounted accepted kept).mpr fun stranded => ?_
  simp [harmless m stranded] at nonCritical

/-! ## Poles -/

/-- A client on an in-memory buffer of three frames. -/
def smallClient : GrpcClient String := GrpcClient.init (.memory 3 smallLimit_pos [])

/-- One frame buffered and flushed, one sent while connected, both taken before
the stream ends; a third waits for the next stream. -/
def drainedActions : List (ClientAction String) :=
  [.send "alert" false none, .start, .openStream, .metadataReady none,
    .send "connected" false none, .take, .take, .streamEnded, .send "hangup" false none,
    .backoffElapsed, .openStream]

theorem drained_keeps : (guardedRun GrpcClient.step GrpcClient.KeepsFrames smallClient
    drainedActions).isSome = true := by decide

theorem drained_frames_held_once :
    GrpcClient.HeldOnce (Option.get _ drained_keeps) ⟨1, false, "connected"⟩ :=
  accepted_frame_held_once (.memory 3 (by decide) []) (by decide) _
    (reachable_guarded_get drained_keeps) ⟨1, false, "connected"⟩ (by decide) rfl (by decide)

/-- The stream dies before its iterator takes the frame; the next attempt
installs a fresh queue. -/
def reconnectActions : List (ClientAction String) :=
  [.start, .openStream, .metadataReady none, .send "hangup" false none, .streamEnded,
    .backoffElapsed, .openStream]

theorem reconnect_runs : (guardedRun GrpcClient.step (fun _ action => action ≠ .stop)
    smallClient reconnectActions).isSome = true := by decide

/-- **A queued frame is lost at a reconnect.**  The send returned and nothing was
evicted, yet the frame is in none of the three places. -/
theorem queued_frame_lost_at_reconnect :
    ¬ ∀ (pending : Pending (Sent String)) (c : GrpcClient String),
      (pending.frames.map Sent.stamp).Nodup →
      Reachable GrpcClient.step (fun _ action => action ≠ .stop) (GrpcClient.init pending) c →
        ∀ m ∈ c.accepted, m.critical = false → m ∉ c.evicted → c.HeldOnce m := by
  intro claim
  have held := claim _ _ (by decide) (reachable_guarded_get reconnect_runs) ⟨0, false, "hangup"⟩
    (by decide) rfl (by decide)
  exact absurd held (by decide)

end IsalesTelephony.Transport
