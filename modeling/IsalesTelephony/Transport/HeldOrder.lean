/-
# Transport.HeldOrder -- the frames a client holds stay in order

What the outbound iterators took, then what is queued, then what is pending, is
in the order in which the frames entered the client (`Ordered`).  A frame pends
only while disconnected, and a flush that runs to its end leaves none pending
(`flush_done_empties`), so a frame sent while connected cannot overtake one that
waits.  A flush that fails at a page read leaves the client disconnected.
-/
import IsalesTelephony.Transport.FrameConservation

namespace IsalesTelephony.Transport

set_option autoImplicit false

open IsalesTelephony.Theory

universe u

variable {F : Type u}

namespace SqliteEventBuffer

/-- A flush that runs to its end did not meet its fault. -/
theorem drainRows_done {fuel : Nat} {fault : Option FlushFault} {table : SeqLog (Option F)}
    {cursor : Int} {page : List (Nat × Option F)} {put : List F}
    (done : (drainRows fuel fault table cursor page put).done = true) :
    drainRows fuel fault table cursor page put = drainRows fuel none table cursor page put := by
  induction fuel generalizing fault table cursor page put with
  | zero => rfl
  | succ fuel ih =>
      match page with
      | [] =>
          simp only [drainRows, reduceCtorEq, if_false] at done ⊢
          split at done
          · cases done
          · rename_i unmet
            rw [if_neg unmet]
            cases read : (table.ahead cursor).take pageSize with
            | nil => rfl
            | cons row rows =>
                simp only [read] at done
                exact ih done
      | (seq, none) :: page =>
          simp only [drainRows] at done ⊢
          exact ih done
      | (seq, some message) :: page =>
          simp only [drainRows, reduceCtorEq, if_false] at done ⊢
          split at done
          · cases done
          · rename_i unmet
            rw [if_neg unmet]
            exact ih done

end SqliteEventBuffer

/-- A flush that runs to its end leaves no frame pending. -/
theorem Pending.flush_done_empties {p : Pending F} {fault : Option FlushFault}
    (done : (p.flush fault).2.2 = true) : (p.flush fault).1.frames = [] := by
  cases p with
  | memory limit pos queued => rfl
  | durable buffer =>
      by_cases opened : buffer.isOpen = true
      · simp only [flush, opened, if_true] at done ⊢
        change SqliteEventBuffer.frames (SqliteEventBuffer.drain fault buffer.table).table = []
        rw [show SqliteEventBuffer.drain fault buffer.table = SqliteEventBuffer.drain none buffer.table
          from SqliteEventBuffer.drainRows_done done]
        exact (SqliteEventBuffer.drain_empties buffer.table).2
      · simp [flush, opened] at done

namespace GrpcClient

/-- Taken, then queued, then pending, is in the order of entry; nothing pends
while connected. -/
structure Ordered (c : GrpcClient F) : Prop where
  order : (c.taken ++ c.queued ++ c.pending.frames).Sublist c.entered
  flushed : c.connected = true → c.pending.frames = []

variable {c d : GrpcClient F}

theorem ordered_init (pending : Pending (Sent F)) : Ordered (init pending) where
  order := List.Sublist.refl _
  flushed := fun up => by cases up

/-- A step that enters nothing and only takes frames out of the line. -/
theorem ordered_move (ordered : Ordered c)
    (line : (d.taken ++ d.queued ++ d.pending.frames).Sublist
      (c.taken ++ c.queued ++ c.pending.frames))
    (entered : d.entered = c.entered)
    (flushed : d.connected = true → d.pending.frames = []) : Ordered d where
  order := entered ▸ line.trans ordered.order
  flushed := flushed

theorem ordered_send (ordered : Ordered c) (frame : F) (critical : Bool)
    (fault : Option AppendFault) : Ordered (c.send frame critical fault).1 := by
  simp only [send]
  split
  · rename_i up
    refine ⟨?_, fun _ => ordered.flushed up⟩
    have order := ordered.order
    rw [ordered.flushed up, List.append_nil] at order
    simp only [queued, List.filterMap_append, List.filterMap_cons, List.filterMap_nil, id_eq]
    rw [ordered.flushed up, List.append_nil, ← List.append_assoc]
    exact order.append (List.Sublist.refl _)
  · rename_i down
    split
    · exact ordered_move ordered (List.Sublist.refl _) rfl ordered.flushed
    · have moved := c.pending.append_frames ⟨c.nextSend, critical, frame⟩ fault
      have kept : (c.pending.append ⟨c.nextSend, critical, frame⟩ fault).1.frames.Sublist
          (c.pending.frames ++
            if c.pending.appendStores fault then [⟨c.nextSend, critical, frame⟩] else []) := by
        rw [← moved]
        exact List.sublist_append_right _ _
      have order : (c.taken ++ c.queued ++
          (c.pending.append ⟨c.nextSend, critical, frame⟩ fault).1.frames).Sublist
          (c.entered ++
            if c.pending.appendStores fault then [⟨c.nextSend, critical, frame⟩] else []) := by
        refine ((List.Sublist.refl _).append kept).trans ?_
        rw [← List.append_assoc]
        exact ordered.order.append (List.Sublist.refl _)
      split
      · exact ⟨order, fun up => absurd up down⟩
      · exact ⟨order, fun up => absurd up down⟩

/-- Only a call of `send` makes a frame enter. -/
theorem entered_move {action : ClientAction F}
    (own : ∀ frame critical fault, action ≠ .send frame critical fault)
    (next : c.step action = some d) : d.entered = c.entered := by
  cases action with
  | send frame critical fault => exact absurd rfl (own frame critical fault)
  | start | openStream | metadataFailed | backoffElapsed =>
      simp only [step, Option.ite_none_right_eq_some, Option.some.injEq] at next
      obtain ⟨-, rfl⟩ := next
      rfl
  | metadataReady fault =>
      simp only [step, Option.ite_none_right_eq_some, Option.some.injEq] at next
      obtain ⟨-, rfl⟩ := next
      simp only [metadataReady]
      split <;> rfl
  | streamEnded =>
      simp only [step, Option.ite_none_right_eq_some, Option.some.injEq] at next
      obtain ⟨-, rfl⟩ := next
      unfold closeChannel
      split <;> rfl
  | take =>
      simp only [step] at next
      split at next
      · obtain rfl := Option.some.inj next
        rfl
      · obtain rfl := Option.some.inj next
        rfl
      · cases next
  | stop =>
      obtain rfl := Option.some.inj next
      unfold closeChannel
      split <;> rfl

/-- **One step.**  Each step keeps the order, a flush that fails at a delete excepted. -/
theorem ordered_step {action : ClientAction F} (ordered : Ordered c)
    (healthy : ∀ fault, action = .metadataReady (some fault) → ¬ fault.AtDelete)
    (next : c.step action = some d) : Ordered d := by
  have same : (c.taken ++ c.queued ++ c.pending.frames).Sublist
      (c.taken ++ c.queued ++ c.pending.frames) := List.Sublist.refl _
  cases action with
  | send frame critical fault =>
      obtain rfl := Option.some.inj next
      exact ordered_send ordered frame critical fault
  | metadataFailed =>
      simp only [step, Option.ite_none_right_eq_some, Option.some.injEq] at next
      obtain ⟨-, rfl⟩ := next
      exact ordered_move ordered same rfl fun up => by cases up
  | start | backoffElapsed =>
      simp only [step, Option.ite_none_right_eq_some, Option.some.injEq] at next
      obtain ⟨-, rfl⟩ := next
      exact ordered_move ordered same rfl ordered.flushed
  | openStream =>
      simp only [step, Option.ite_none_right_eq_some, Option.some.injEq] at next
      obtain ⟨-, rfl⟩ := next
      refine ordered_move ordered ?_ rfl ordered.flushed
      refine List.Sublist.append ?_ (List.Sublist.refl _)
      exact (List.Sublist.refl _).append (List.nil_sublist _)
  | metadataReady fault =>
      simp only [step, Option.ite_none_right_eq_some, Option.some.injEq] at next
      obtain ⟨-, rfl⟩ := next
      have moved := c.pending.flush_conserves fault fun f isF => healthy f (by rw [isF])
      have line : (c.taken ++ (c.outbound ++ (c.pending.flush fault).2.1.map some).filterMap id ++
          (c.pending.flush fault).1.frames) = c.taken ++ c.queued ++ c.pending.frames := by
        rw [← moved]
        simp [queued]
      simp only [metadataReady]
      split
      · rename_i done
        exact ordered_move ordered (line ▸ same) rfl fun _ => Pending.flush_done_empties done
      · exact ordered_move ordered (line ▸ same) rfl fun up => by cases up
  | streamEnded =>
      simp only [step, Option.ite_none_right_eq_some, Option.some.injEq] at next
      obtain ⟨-, rfl⟩ := next
      unfold closeChannel
      split
      · exact ordered_move ordered same rfl fun up => by cases up
      · exact ordered_move ordered same rfl fun up => by cases up
  | take =>
      simp only [step] at next
      split at next
      · rename_i message rest head
        obtain rfl := Option.some.inj next
        refine ordered_move ordered ?_ rfl ordered.flushed
        simp [queued, head]
      · rename_i rest head
        obtain rfl := Option.some.inj next
        refine ordered_move ordered ?_ rfl ordered.flushed
        simp [queued, head]
      · cases next
  | stop =>
      obtain rfl := Option.some.inj next
      have line : (c.outbound ++ [none]).filterMap id = c.outbound.filterMap id := by simp
      unfold closeChannel
      split
      · refine ordered_move ordered ?_ rfl fun up => by cases up
        simp only [queued, line]
        exact same
      · refine ordered_move ordered ?_ rfl fun up => by cases up
        simp only [queued, line]
        exact same

end GrpcClient

end IsalesTelephony.Transport
