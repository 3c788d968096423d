/-
# Modem.SendOrder -- the order of the calls of AtClient.send

Calls of `send` are numbered in call order and the lock is FIFO, so commands are
written in the order of their numbers (`Ordered`).  A step ends at most one call
(`ends`), one that is pending; the call is pending no longer
(`step_pending`).  A call that ended otherwise than by a cancellation, an
encoding error or a closed client has written its command (`wrote_of_ends`).
-/
import IsalesTelephony.Modem.SerialProtocol

namespace IsalesTelephony.Modem

set_option autoImplicit false

namespace AtClient

/-- The call waits for the lock or holds it. -/
def Pending (c : AtClient) (id : Nat) : Prop :=
  (∃ h, c.holder = some h ∧ h.id = id) ∨ ∃ w ∈ c.lockWaiters, w.1 = id

/-- The call that an action ends, and how. -/
def ends (c : AtClient) : AtAction → Option (Nat × SendOutcome)
  | .send _ => if c.closed then some (c.nextSend, .clientClosed) else none
  | .acquire =>
      match c.lockWaiters with
      | (id, command) :: _ =>
          if isAscii (commandLine command) then none
          else some (id, .encodeFailed (commandLine command))
      | [] => none
  | .drained => none
  | .drainFailed message => c.holder.map fun h => (h.id, .drainFailed message)
  | .receive =>
      match c.holder, c.responseQueue with
      | some h, response :: _ => some (h.id, outcomeOf response)
      | _, _ => none
  | .timeout => c.holder.map fun h => (h.id, .timedOut h.command)
  | .cancel id => some (id, .cancelled)
  | .aclose => none

/-- Written and waiting, in the order of the calls. -/
structure Ordered (c : AtClient) : Prop where
  sorted : (c.written ++ c.lockWaiters).Pairwise fun earlier later => earlier.1 < later.1
  fresh : ∀ w ∈ c.written ++ c.lockWaiters, w.1 < c.nextSend
  holder : ∀ h, c.holder = some h → (h.id, h.command) ∈ c.written

/-- The reader, and the URC handler tasks, leave the calls of `send` alone. -/
structure SameSends (c c' : AtClient) : Prop where
  written : c'.written = c.written
  lockWaiters : c'.lockWaiters = c.lockWaiters
  holder : c'.holder = c.holder
  nextSend : c'.nextSend = c.nextSend

theorem readLine_sameSends (c : AtClient) (raw : Text) : SameSends c (c.readLine raw) := by
  unfold readLine dispatchLine
  repeat' split
  all_goals exact ⟨rfl, rfl, rfl, rfl⟩

theorem readEof_sameSends (c : AtClient) : SameSends c c.readEof := by
  unfold readEof
  dsimp only
  split <;> exact ⟨rfl, rfl, rfl, rfl⟩

variable {c c' : AtClient} {action : AtAction} {id : Nat} {outcome : SendOutcome}

theorem SameSends.ordered (same : SameSends c c') (ordered : Ordered c) : Ordered c' :=
  ⟨by rw [same.written, same.lockWaiters]; exact ordered.sorted,
    by rw [same.written, same.lockWaiters, same.nextSend]; exact ordered.fresh,
    by rw [same.written, same.holder]; exact ordered.holder⟩

theorem SameSends.pending (same : SameSends c c') (pending : c'.Pending id) : c.Pending id := by
  simpa only [Pending, same.holder, same.lockWaiters] using pending

theorem ordered_init (handlers : Nat) : Ordered { urcHandlers := handlers } :=
  ⟨List.Pairwise.nil, by simp, by simp⟩

theorem ordered_finish (ordered : Ordered c) : Ordered (c.finish id outcome) := by
  have fewer : List.Sublist (c.written ++ (c.lockWaiters.filter fun w => w.1 ≠ id))
      (c.written ++ c.lockWaiters) := List.Sublist.append_left List.filter_sublist _
  refine ⟨ordered.sorted.sublist fewer, fun w listed => ordered.fresh w (fewer.subset listed), ?_⟩
  intro h held
  exact ordered.holder h (of_finish_holder held).1

theorem pending_lt (ordered : Ordered c) (pending : c.Pending id) : id < c.nextSend := by
  rcases pending with ⟨h, held, rfl⟩ | ⟨w, listed, rfl⟩
  · exact ordered.fresh _ (List.mem_append_left _ (ordered.holder h held))
  · exact ordered.fresh w (List.mem_append_right _ listed)

theorem ordered_step (ordered : Ordered c) (next : c.step action = some c') : Ordered c' := by
  obtain ⟨sorted, fresh, holder⟩ := ordered
  cases step_cases next with
  | send command =>
      unfold callSend
      split
      · exact ⟨sorted, fun w listed => Nat.lt_succ_of_lt (fresh w listed), holder⟩
      · refine ⟨?_, fun w listed => ?_, holder⟩
        · rw [← List.append_assoc, List.pairwise_append]
          refine ⟨sorted, List.pairwise_singleton _ _, fun earlier old later new => ?_⟩
          rw [List.mem_singleton.mp new]
          exact fresh earlier old
        · rw [← List.append_assoc, List.mem_append, List.mem_singleton] at listed
          rcases listed with old | rfl
          · exact Nat.lt_succ_of_lt (fresh w old)
          · exact Nat.lt_succ_self _
  | @acquire id command rest free first =>
      rw [first] at sorted fresh
      unfold grant
      split
      · have moved : c.written ++ (id, command) :: rest = c.written ++ [(id, command)] ++ rest := by
          simp
        rw [moved] at sorted fresh
        refine ⟨sorted, fresh, fun h held => ?_⟩
        obtain rfl := Option.some.inj held
        exact List.mem_append_right _ (List.mem_singleton_self _)
      · have fewer : List.Sublist (c.written ++ rest) (c.written ++ (id, command) :: rest) :=
          List.Sublist.append_left (List.sublist_cons_self ..) _
        refine ⟨sorted.sublist fewer, fun w listed => fresh w (fewer.subset listed), fun h held => ?_⟩
        rw [show c.holder = some h from held] at free
        cases free
  | drained held =>
      refine ⟨sorted, fresh, fun h now => ?_⟩
      obtain rfl := Option.some.inj now
      have written := holder _ held
      exact written
  | drainFailed | timeout | cancel => exact ordered_finish ⟨sorted, fresh, holder⟩
  | @receive id command response rest held queued =>
      have same : Ordered { c with responseQueue := rest } := ⟨sorted, fresh, holder⟩
      exact ordered_finish same
  | aclose => exact ⟨sorted, fresh, holder⟩

/-- Only a call of `send` is new among the written and waiting commands. -/
theorem listed_step {w : Nat × Text} (next : c.step action = some c')
    (listed : w ∈ c'.written ++ c'.lockWaiters) :
    w ∈ c.written ++ c.lockWaiters ∨ action = .send w.2 ∧ w.1 = c.nextSend := by
  cases step_cases next with
  | send command =>
      unfold callSend at listed
      split at listed
      · exact .inl listed
      · rw [← List.append_assoc, List.mem_append, List.mem_singleton] at listed
        exact listed.imp_right fun new => by simp [new]
  | acquire free first =>
      unfold grant at listed
      rw [first]
      split at listed
      · exact .inl (by simpa using listed)
      · refine .inl ?_
        rcases List.mem_append.mp listed with old | waits
        · exact List.mem_append_left _ old
        · exact List.mem_append_right _ (List.mem_cons_of_mem _ waits)
  | drained | aclose => exact .inl listed
  | drainFailed | timeout | cancel | receive =>
      rcases List.mem_append.mp listed with old | waits
      · exact .inl (List.mem_append_left _ old)
      · exact .inl (List.mem_append_right _ (List.mem_filter.mp waits).1)

theorem nextSend_step (next : c.step action = some c') (own : ∀ command, action ≠ .send command) :
    c'.nextSend = c.nextSend := by
  cases step_cases next with
  | send command => exact absurd rfl (own command)
  | acquire =>
      unfold grant
      split <;> rfl
  | _ => rfl

/-- What is written was, or waited for the lock. -/
theorem written_step {w : Nat × Text} (next : c.step action = some c') (wrote : w ∈ c'.written) :
    w ∈ c.written ∨ w ∈ c.lockWaiters := by
  cases step_cases next with
  | send command =>
      unfold callSend at wrote
      split at wrote <;> exact .inl wrote
  | acquire free first =>
      unfold grant at wrote
      split at wrote
      · refine (List.mem_append.mp wrote).imp_right fun new => ?_
        rw [first, List.mem_singleton.mp new]
        exact List.mem_cons_self ..
      · exact .inl wrote
  | _ => exact .inl wrote

/-- What is on the wire stays there, in its order. -/
theorem written_prefix (next : c.step action = some c') : c.written <+: c'.written := by
  cases step_cases next with
  | send command =>
      unfold callSend
      split <;> exact List.prefix_rfl
  | acquire =>
      unfold grant
      split
      · exact List.prefix_append _ _
      · exact List.prefix_rfl
  | _ => exact List.prefix_rfl

/-- The outcome of the call a step ends is its only new one. -/
theorem step_outcomes (next : c.step action = some c') :
    c'.outcomes = c.outcomes ++ (c.ends action).toList := by
  cases step_cases next with
  | send command =>
      unfold callSend
      split <;> simp [ends, *]
  | acquire free first =>
      unfold grant
      split <;> simp [ends, *]
  | drained | aclose => simp [ends]
  | drainFailed _ held | timeout held => simp [ends, finish, held]
  | receive held queued => simp [ends, finish, held, queued]
  | cancel => simp [ends, finish]

/-- A step ends a call that was pending, or one that begins on a closed client. -/
theorem ends_pending (next : c.step action = some c')
    (ended : c.ends action = some (id, outcome)) :
    c.Pending id ∨ (∃ command, action = .send command) ∧ id = c.nextSend ∧
      outcome = .clientClosed := by
  cases action with
  | send command =>
      simp only [ends] at ended
      split at ended
      · obtain ⟨rfl, rfl⟩ := Prod.mk.inj (Option.some.inj ended)
        exact .inr ⟨⟨command, rfl⟩, rfl, rfl⟩
      · cases ended
  | acquire =>
      simp only [ends] at ended
      split at ended
      · rename_i first
        split at ended
        · cases ended
        · obtain ⟨rfl, -⟩ := Prod.mk.inj (Option.some.inj ended)
          exact .inl (.inr ⟨_, by rw [first]; exact List.mem_cons_self .., rfl⟩)
      · cases ended
  | drained | aclose => cases ended
  | drainFailed | timeout =>
      obtain ⟨h, held, same⟩ := Option.map_eq_some_iff.mp ended
      exact .inl (.inl ⟨h, held, (Prod.mk.inj same).1⟩)
  | receive =>
      simp only [ends] at ended
      split at ended
      · rename_i h _ _ held _
        exact .inl (.inl ⟨h, held, (Prod.mk.inj (Option.some.inj ended)).1⟩)
      · cases ended
  | cancel id =>
      obtain ⟨rfl, -⟩ := Prod.mk.inj (Option.some.inj ended)
      simp only [step] at next
      split at next
      · rename_i present
        rcases Bool.or_eq_true_iff.mp present with held | waits
        · obtain ⟨h, held, same⟩ := (Option.any_eq_true _ _).mp held
          exact .inl (.inl ⟨h, held, of_decide_eq_true same⟩)
        · obtain ⟨w, listed, same⟩ := List.any_eq_true.mp waits
          exact .inl (.inr ⟨w, listed, of_decide_eq_true same⟩)
      · cases next

/-- A call is pending because it was, or because it begins now. -/
theorem pending_step (next : c.step action = some c') (pending : c'.Pending id) :
    c.Pending id ∨ id = c.nextSend := by
  cases step_cases next with
  | send command =>
      unfold callSend at pending
      split at pending
      · exact .inl pending
      · rcases pending with held | ⟨w, listed, rfl⟩
        · exact .inl (.inl held)
        · rcases List.mem_append.mp listed with old | new
          · exact .inl (.inr ⟨w, old, rfl⟩)
          · exact .inr (by rw [List.mem_singleton.mp new])
  | @acquire first command rest free waiters =>
      have waited : ∀ w ∈ rest, c.Pending w.1 := fun w listed =>
        .inr ⟨w, by rw [waiters]; exact List.mem_cons_of_mem _ listed, rfl⟩
      unfold grant at pending
      split at pending
      · rcases pending with ⟨h, held, rfl⟩ | ⟨w, listed, rfl⟩
        · obtain rfl := Option.some.inj held
          exact .inl (.inr ⟨_, by rw [waiters]; exact List.mem_cons_self .., rfl⟩)
        · exact .inl (waited w listed)
      · rcases pending with ⟨h, held, rfl⟩ | ⟨w, listed, rfl⟩
        · rw [show c.holder = some h from held] at free
          cases free
        · exact .inl (waited w listed)
  | @drained holder command held =>
      rcases pending with ⟨h, now, rfl⟩ | waits
      · obtain rfl := Option.some.inj now
        exact .inl (.inl ⟨_, held, rfl⟩)
      · exact .inl (.inr waits)
  | drainFailed | timeout | cancel | receive =>
      rcases pending with ⟨h, held, rfl⟩ | ⟨w, listed, rfl⟩
      · exact .inl (.inl ⟨h, (of_finish_holder held).1, rfl⟩)
      · exact .inl (.inr ⟨w, (List.mem_filter.mp listed).1, rfl⟩)
  | aclose => exact .inl pending

/-- The call a step ends is pending no longer. -/
theorem not_pending_of_ends (ordered : Ordered c) (next : c.step action = some c')
    (ended : c.ends action = some (id, outcome)) : ¬ c'.Pending id := by
  have isOver : ∀ (d : AtClient), ¬ (d.finish id outcome).Pending id := by
    rintro d (⟨h, held, same⟩ | ⟨w, listed, same⟩)
    · exact (of_finish_holder held).2 same
    · exact absurd same (by simpa using (List.mem_filter.mp listed).2)
  cases step_cases next with
  | send command =>
      simp only [ends] at ended
      split at ended
      · rename_i closed
        obtain ⟨rfl, -⟩ := Prod.mk.inj (Option.some.inj ended)
        intro pending
        rw [callSend, if_pos closed] at pending
        have same : c.Pending c.nextSend := pending
        exact Nat.lt_irrefl _ (pending_lt ordered same)
      · cases ended
  | @acquire first command rest free waiters =>
      simp only [ends, waiters] at ended
      split at ended
      · cases ended
      · rename_i garbled
        obtain ⟨rfl, -⟩ := Prod.mk.inj (Option.some.inj ended)
        unfold grant
        rw [if_neg garbled]
        rintro (⟨h, held, same⟩ | ⟨w, listed, same⟩)
        · rw [show c.holder = some h from held] at free
          cases free
        · have sorted := ordered.sorted
          rw [waiters, List.pairwise_append] at sorted
          have later := (List.pairwise_cons.mp sorted.2.1).1 w listed
          exact absurd same (Nat.ne_of_gt later)
  | drained | aclose => cases ended
  | drainFailed _ held | timeout held =>
      simp only [ends, held, Option.map_some, Option.some.injEq, Prod.mk.injEq] at ended
      obtain ⟨rfl, rfl⟩ := ended
      exact isOver c
  | receive held queued =>
      simp only [ends, held, queued, Option.some.injEq, Prod.mk.injEq] at ended
      obtain ⟨rfl, rfl⟩ := ended
      exact isOver _
  | cancel =>
      obtain ⟨rfl, rfl⟩ := Prod.mk.inj (Option.some.inj ended)
      exact isOver c

/-- A closed client is what a call of `send` finds as it begins. -/
theorem unclosed_of_ends (ended : c.ends action = some (id, outcome))
    (own : ∀ command, action ≠ .send command) : outcome ≠ .clientClosed := by
  rintro rfl
  cases action with
  | send command => exact own command rfl
  | acquire | receive =>
      simp only [ends, outcomeOf] at ended
      repeat' split at ended
      all_goals simp at ended
  | _ => simp [ends] at ended

/-- A call that ended at or past its write has written. -/
theorem wrote_of_ends (ordered : Ordered c) (ended : c.ends action = some (id, outcome))
    (past : outcome ≠ .clientClosed ∧ outcome ≠ .cancelled ∧ ∀ line, outcome ≠ .encodeFailed line) :
    ∃ command, (id, command) ∈ c.written := by
  have wrote : ∀ h, c.holder = some h → h.id = id → ∃ command, (id, command) ∈ c.written := by
    rintro h held rfl
    exact ⟨_, ordered.holder h held⟩
  cases action with
  | send command =>
      simp only [ends] at ended
      split at ended
      · exact absurd (Prod.mk.inj (Option.some.inj ended)).2.symm past.1
      · cases ended
  | acquire =>
      simp only [ends] at ended
      split at ended
      · split at ended
        · cases ended
        · exact absurd (Prod.mk.inj (Option.some.inj ended)).2.symm (past.2.2 _)
      · cases ended
  | drained | aclose => cases ended
  | drainFailed | timeout =>
      obtain ⟨h, held, same⟩ := Option.map_eq_some_iff.mp ended
      exact wrote h held (Prod.mk.inj same).1
  | receive =>
      simp only [ends] at ended
      split at ended
      · rename_i h _ _ held _
        exact wrote h held (Prod.mk.inj (Option.some.inj ended)).1
      · cases ended
  | cancel => exact absurd (Prod.mk.inj (Option.some.inj ended)).2.symm past.2.1

/-- A call that ended before its write has written nothing. -/
theorem unwritten_of_ends (ordered : Ordered c) (next : c.step action = some c')
    (ended : c.ends action = some (id, outcome))
    (early : outcome = .clientClosed ∨ ∃ line, outcome = .encodeFailed line) (command : Text) :
    (id, command) ∉ c'.written := by
  cases step_cases next with
  | send =>
      simp only [ends] at ended
      split at ended
      · rename_i closed
        obtain ⟨rfl, -⟩ := Prod.mk.inj (Option.some.inj ended)
        rw [callSend, if_pos closed]
        exact fun wrote => Nat.lt_irrefl _ (ordered.fresh _ (List.mem_append_left _ wrote))
      · cases ended
  | acquire free first =>
      simp only [ends, first] at ended
      split at ended
      · cases ended
      · rename_i garbled
        obtain ⟨rfl, -⟩ := Prod.mk.inj (Option.some.inj ended)
        rw [grant, if_neg garbled]
        intro wrote
        have sorted := ordered.sorted
        rw [first, List.pairwise_append] at sorted
        have later := sorted.2.2 (_, command) wrote (_, _) (List.mem_cons_self ..)
        exact Nat.lt_irrefl _ later
  | drained | aclose => cases ended
  | drainFailed _ held | timeout held =>
      simp only [ends, held, Option.map_some, Option.some.injEq, Prod.mk.injEq] at ended
      obtain ⟨-, rfl⟩ := ended
      simp at early
  | receive held queued =>
      simp only [ends, held, queued, Option.some.injEq, Prod.mk.injEq, outcomeOf] at ended
      obtain ⟨-, rfl⟩ := ended
      split at early <;> simp at early
  | cancel =>
      obtain ⟨-, rfl⟩ := Prod.mk.inj (Option.some.inj ended)
      simp at early

end AtClient

end IsalesTelephony.Modem
