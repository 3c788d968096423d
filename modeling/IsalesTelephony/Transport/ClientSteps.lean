/-
# Transport.ClientSteps -- what a step of the client does to the waiting frames

A frame waits when it is pending, or was put on a queue by a flush.  Only `send`
makes a frame wait, and only while disconnected; the connect loop and the
iterators move frames (`Moves`).  `Goes` says between which phases each action takes the
connect loop.
-/
import IsalesTelephony.Transport.GrpcClient

namespace IsalesTelephony.Transport

set_option autoImplicit false

universe u

variable {F : Type u}

namespace Pending

variable {p : Pending F} {message : F} {fault : Option AppendFault}

/-- What was pending is still so after an append, or evicted by it. -/
theorem append_keeps (p : Pending F) (message : F) (fault : Option AppendFault) {m : F}
    (stored : m ∈ p.frames) :
    m ∈ p.appendEvicts message fault ∨ m ∈ (p.append message fault).1.frames := by
  rw [← List.mem_append, p.append_frames]
  exact List.mem_append_left _ stored

/-- Nothing but the appended frame is new. -/
theorem append_adds {m : F} (stored : m ∈ (p.append message fault).1.frames) :
    m ∈ p.frames ∨ m = message := by
  have listed := List.mem_append_right (p.appendEvicts message fault) stored
  rw [p.append_frames] at listed
  refine (List.mem_append.mp listed).imp_right fun new => ?_
  split at new
  · exact List.mem_singleton.mp new
  · cases new

theorem append_stores (stores : p.appendStores fault = true) :
    message ∈ p.appendEvicts message fault ∨ message ∈ (p.append message fault).1.frames := by
  rw [← List.mem_append, p.append_frames, if_pos stores]
  exact List.mem_append_right _ (List.mem_singleton_self _)

end Pending

namespace GrpcClient

/-- The frame is in the pending buffer, or was put on a queue from there. -/
def Waits (c : GrpcClient F) (m : Sent F) : Prop := m ∈ c.pending.frames ∨ m ∈ c.replayed

instance [DecidableEq F] (c : GrpcClient F) (m : Sent F) : Decidable (c.Waits m) :=
  inferInstanceAs (Decidable (_ ∨ _))

/-- The frame was buffered, or the buffer raised. -/
def Buffered (c : GrpcClient F) (m : Sent F) : Prop :=
  c.Waits m ∨ m ∈ c.evicted ∨ (m, .storage) ∈ c.refused

instance [DecidableEq F] (c : GrpcClient F) (m : Sent F) : Decidable (c.Buffered m) :=
  inferInstanceAs (Decidable (_ ∨ _))

/-- What a call of `send` does to the waiting and the refused frames. -/
structure Sends (c c' : GrpcClient F) (message : Sent F) : Prop where
  connected : c'.connected = c.connected
  phase : c'.phase = c.phase
  waits : ∀ m, c'.Waits m → c.Waits m ∨ m = message ∧ c.connected = false
  buffered : ∀ m, c.Buffered m → c'.Buffered m
  offline : c.connected = false → message.critical = false → c'.Buffered message
  refused : ∀ m, (m, .notConnected) ∈ c'.refused →
    (m, .notConnected) ∈ c.refused ∨ m = message ∧ c.connected = false

/-- What waits once a frame has been appended to the pending buffer. -/
theorem waits_append {c c' : GrpcClient F} {message m : Sent F} {fault : Option AppendFault}
    (waits : c'.Waits m) (pending : c'.pending = (c.pending.append message fault).1)
    (replayed : c'.replayed = c.replayed) : c.Waits m ∨ m = message := by
  rcases waits with stored | moved
  · rw [pending] at stored
    exact (Pending.append_adds stored).imp_left .inl
  · rw [replayed] at moved
    exact .inl (.inr moved)

/-- An append loses track of no frame. -/
theorem buffered_append {c c' : GrpcClient F} {message m : Sent F} {fault : Option AppendFault}
    (pending : c'.pending = (c.pending.append message fault).1)
    (replayed : c'.replayed = c.replayed)
    (evicted : c'.evicted = c.evicted ++ c.pending.appendEvicts message fault)
    (refused : c.refused ⊆ c'.refused) (buffered : c.Buffered m) : c'.Buffered m := by
  unfold Buffered Waits
  rw [pending, replayed, evicted]
  rcases buffered with (stored | moved) | gone | raised
  · rcases c.pending.append_keeps message fault stored with out | kept
    · exact .inr (.inl (List.mem_append_right _ out))
    · exact .inl (.inl kept)
  · exact .inl (.inr moved)
  · exact .inr (.inl (List.mem_append_left _ gone))
  · exact .inr (.inr (refused raised))

theorem send_sends (c : GrpcClient F) (frame : F) (critical : Bool) (fault : Option AppendFault) :
    Sends c (c.send frame critical fault).1 ⟨c.nextSend, critical, frame⟩ := by
  simp only [send]
  split
  · rename_i up
    exact ⟨rfl, rfl, fun _ => .inl, fun _ => id, (fun down => by rw [up] at down; cases down),
      fun _ => .inl⟩
  · rename_i down
    replace down : c.connected = false := by simpa using down
    split
    · rename_i isCritical
      refine ⟨rfl, rfl, fun _ => .inl, fun m => ?_, fun _ free => ?_, fun m refused => ?_⟩
      · rintro (waits | evicted | raised)
        · exact .inl waits
        · exact .inr (.inl evicted)
        · exact .inr (.inr (List.mem_append_left _ raised))
      · rw [isCritical] at free
        cases free
      · rcases List.mem_append.mp refused with old | new
        · exact .inl old
        · exact .inr ⟨(Prod.mk.inj (List.mem_singleton.mp new)).1, down⟩
    · split
      · rename_i returned
        refine ⟨rfl, rfl, fun m waits => ?_, fun m => ?_, fun _ _ => ?_, fun _ => .inl⟩
        · have added : c.Waits m ∨ m = ⟨c.nextSend, critical, frame⟩ := waits_append waits rfl rfl
          exact added.imp_right fun new => ⟨new, down⟩
        · exact buffered_append rfl rfl rfl (List.Subset.refl _)
        · rcases Pending.append_stores (Pending.appendStores_of_append returned) with evicted | kept
          · exact .inr (.inl (List.mem_append_right _ evicted))
          · exact .inl (.inl kept)
      · refine ⟨rfl, rfl, fun m waits => ?_, fun m => ?_, fun _ _ => ?_, fun m refused => ?_⟩
        · have added : c.Waits m ∨ m = ⟨c.nextSend, critical, frame⟩ := waits_append waits rfl rfl
          exact added.imp_right fun new => ⟨new, down⟩
        · exact buffered_append rfl rfl rfl (List.subset_append_left _ _)
        · exact .inr (.inr (List.mem_append_right _ (List.mem_singleton_self _)))
        · rcases List.mem_append.mp refused with old | new
          · exact .inl old
          · simp at new

/-! ## Phases -/

/-- The phase an action needs and the one it leaves the connect loop in. -/
def Goes (c d : GrpcClient F) : ClientAction F → Prop
  | .send _ _ _ | .take => d.phase = c.phase
  | .start => c.phase = .idle ∧ d.phase = .ready
  | .openStream => c.phase = .ready ∧ d.phase = .opening
  | .metadataFailed => c.phase = .opening ∧ d.phase = .backoff
  | .metadataReady fault =>
      c.phase = .opening ∧
        d.phase = if (c.pending.flush fault).2.2 then .streaming else .backoff
  | .streamEnded => c.phase = .streaming ∧ d.phase = .backoff
  | .backoffElapsed => c.phase = .backoff ∧ d.phase = .ready
  | .stop => d.phase = .stopped

theorem goes_of_step {c d : GrpcClient F} {action : ClientAction F}
    (next : c.step action = some d) : c.Goes d action := by
  cases action with
  | send frame critical fault =>
      obtain rfl := Option.some.inj next
      exact (c.send_sends frame critical fault).phase
  | metadataReady fault =>
      simp only [step, Option.ite_none_right_eq_some, Option.some.injEq] at next
      obtain ⟨opening, rfl⟩ := next
      refine ⟨opening, ?_⟩
      simp only [metadataReady]
      split
      · rfl
      · rfl
  | take =>
      simp only [step] at next
      split at next
      · obtain rfl := Option.some.inj next
        rfl
      · obtain rfl := Option.some.inj next
        rfl
      · cases next
  | stop =>
      obtain rfl := Option.some.inj next
      rfl
  | start | openStream | metadataFailed | streamEnded | backoffElapsed =>
      simp only [step, Option.ite_none_right_eq_some, Option.some.injEq] at next
      obtain ⟨before, rfl⟩ := next
      exact ⟨before, rfl⟩

/-! ## Moves -/

/-- A move of the connect loop or of an iterator. -/
structure Moves (c c' : GrpcClient F) : Prop where
  waits : ∀ m, c'.Waits m ↔ c.Waits m
  evicted : c'.evicted = c.evicted
  refused : c'.refused = c.refused
  up : (c.connected = true ↔ c.phase = .streaming) →
    (c'.connected = true ↔ c'.phase = .streaming)

theorem Moves.buffered {c c' : GrpcClient F} (moves : Moves c c') {m : Sent F}
    (buffered : c.Buffered m) : c'.Buffered m := by
  simpa only [Buffered, moves.waits, moves.evicted, moves.refused] using buffered

theorem moves_of_step {c c' : GrpcClient F} {action : ClientAction F}
    (own : ∀ frame critical fault, action ≠ .send frame critical fault)
    (next : c.step action = some c') : Moves c c' := by
  have same : ∀ m : Sent F, c.Waits m ↔ c.Waits m := fun _ => Iff.rfl
  cases action with
  | send frame critical fault => exact absurd rfl (own frame critical fault)
  | start =>
      simp only [step] at next
      split at next
      · rename_i idle
        obtain rfl := Option.some.inj next
        exact ⟨same, rfl, rfl, fun up => by simpa [idle] using up⟩
      · cases next
  | openStream =>
      simp only [step] at next
      split at next
      · rename_i ready
        obtain rfl := Option.some.inj next
        exact ⟨same, rfl, rfl, fun up => by simpa [openStream, ready] using up⟩
      · cases next
  | metadataFailed =>
      simp only [step] at next
      split at next
      · obtain rfl := Option.some.inj next
        exact ⟨same, rfl, rfl, fun _ => by simp⟩
      · cases next
  | metadataReady fault =>
      simp only [step] at next
      split at next
      · obtain rfl := Option.some.inj next
        have flushed : ∀ m, m ∈ (c.pending.flush fault).1.frames ∨
            m ∈ c.replayed ++ (c.pending.flush fault).2.1 ↔ c.Waits m := by
          intro m
          rw [Waits, ← c.pending.flush_mem fault m, List.mem_append]
          tauto
        simp only [metadataReady]
        split
        · exact ⟨flushed, rfl, rfl, fun _ => by simp⟩
        · exact ⟨flushed, rfl, rfl, fun _ => by simp⟩
      · cases next
  | streamEnded =>
      simp only [step] at next
      split at next
      · obtain rfl := Option.some.inj next
        unfold closeChannel
        split <;> exact ⟨same, rfl, rfl, fun _ => by simp⟩
      · cases next
  | backoffElapsed =>
      simp only [step] at next
      split at next
      · rename_i waiting
        obtain rfl := Option.some.inj next
        exact ⟨same, rfl, rfl, fun up => by simpa [waiting] using up⟩
      · cases next
  | take =>
      simp only [step] at next
      split at next
      · obtain rfl := Option.some.inj next
        exact ⟨same, rfl, rfl, id⟩
      · obtain rfl := Option.some.inj next
        exact ⟨same, rfl, rfl, id⟩
      · cases next
  | stop =>
      obtain rfl := Option.some.inj next
      unfold closeChannel
      split <;> exact ⟨same, rfl, rfl, fun _ => by simp⟩

end GrpcClient

end IsalesTelephony.Transport
