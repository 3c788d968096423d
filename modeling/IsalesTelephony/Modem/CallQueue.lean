/-
# Modem.CallQueue -- whose events are on a call's queue

The CLCC poller, the URC handlers and `hangup` all put events on a queue they look
up at different moments.  `Tidy` says that what they put is the call's own: a
poller that is awake and not cancelled is the poller task of the active call, so a
late one never reports for a call that has taken the slot since; and the sentinel
is there only once `aclose` was called.
-/
import IsalesTelephony.Modem.SerialSteps

namespace IsalesTelephony.Modem

set_option autoImplicit false

/-- An event of the call, or the sentinel of `aclose`. -/
def Own (closing : Bool) (call : Nat) : Option AtEvent → Prop
  | none => closing = true
  | some (.connected k) => k = call
  | some (.remoteHangup k _) => k = call

/-- The task has not ended. -/
def PollerPc.live : PollerPc → Bool
  | .sleeping => true
  | .polling => true
  | _ => false

namespace SerialAtClient

variable {s t : SerialAtClient} {call k : Nat} {c c' : Call} {f : Call → Call}

/-- What holds of the queue and of the poller of a call. -/
structure CallTidy (s : SerialAtClient) (call : Nat) (c : Call) : Prop where
  own : ∀ item ∈ c.queue, Own s.closing call item
  poller : c.poller.live = true → c.pollerCancelled = false →
    s.active = some call ∧ s.pollerTask = some call
  unpolled : c.dial = .awaiting → c.poller = .absent

structure Tidy (s : SerialAtClient) : Prop where
  calls : ∀ call c, s.CallAt call c → CallTidy s call c
  polling : ∀ {id call}, s.owners[id]? = some (.poll call) → s.atClient.Pending id →
    ∃ c, s.CallAt call c ∧ c.poller = .polling
  once : ∀ {id id' call}, s.owners[id]? = some (.poll call) → s.owners[id']? = some (.poll call) →
    s.atClient.Pending id → s.atClient.Pending id' → id = id'

theorem tidy_init : Tidy {} where
  calls := fun _ _ at_ => by simp [CallAt] at at_
  polling := fun owner => by simp at owner
  once := fun owner => by simp at owner

/-- No AT+CLCC of the call is pending. -/
def Unasked (s : SerialAtClient) (call : Nat) : Prop :=
  ∀ id, s.owners[id]? = some (.poll call) → ¬ s.atClient.Pending id

/-! ## Parts of a step -/

/-- The calls move on, and the sends stay as they are. -/
theorem tidy_calls (tidy : Tidy s) (atClient : t.atClient = s.atClient) (owners : t.owners = s.owners)
    (calls : ∀ k c', t.CallAt k c' → CallTidy t k c')
    (present : ∀ k c, s.CallAt k c → c.poller = .polling → ¬ Unasked s k →
      ∃ c', t.CallAt k c' ∧ c'.poller = .polling) : Tidy t where
  calls := calls
  polling := by
    intro id call owner pending
    rw [owners] at owner
    rw [atClient] at pending
    obtain ⟨c, at_, asks⟩ := tidy.polling owner pending
    exact present call c at_ asks fun unasked => unasked id owner pending
  once := by
    intro id id' call owner owner' pending pending'
    rw [owners] at owner owner'
    rw [atClient] at pending pending'
    exact tidy.once owner owner' pending pending'

/-- A change of one call. -/
theorem tidy_modify (tidy : Tidy s)
    (one : ∀ c, s.CallAt call c → CallTidy s call c → CallTidy s call (f c))
    (asks : ∀ c, s.CallAt call c → (f c).poller = c.poller ∨ Unasked s call) :
    Tidy (s.modify call f) := by
  refine tidy_calls tidy rfl rfl (fun k c' at' => ?_) fun k c at_ polling asked => ?_
  · obtain ⟨c, at_, rfl⟩ := modify_callAt.mp at'
    have before := tidy.calls k c at_
    split
    · rename_i here
      subst here
      have after := one c at_ before
      exact ⟨after.own, after.poller, after.unpolled⟩
    · exact ⟨before.own, before.poller, before.unpolled⟩
  · refine ⟨_, modify_callAt.mpr ⟨c, at_, rfl⟩, ?_⟩
    split
    · rename_i here
      subst here
      rcases asks c at_ with same | unasked
      · exact same.trans polling
      · exact absurd unasked asked
    · exact polling

theorem tidy_put (tidy : Tidy s) {item : Option AtEvent} (own : Own s.closing call item) :
    Tidy (s.put call item) := by
  refine tidy_modify tidy (fun c at_ before => ⟨fun other listed => ?_, before.poller, before.unpolled⟩)
    fun _ _ => .inl rfl
  rcases List.mem_append.mp listed with old | new
  · exact before.own other old
  · rw [List.mem_singleton.mp new]
    exact own

/-- A change of the stream. -/
theorem tidy_setStream (tidy : Tidy s) (stream : StreamPc) : Tidy (s.setStream call stream) :=
  tidy_modify tidy (fun _ _ before => ⟨before.own, before.poller, before.unpolled⟩) fun _ _ => .inl rfl

/-- What is known does not depend on the lines read. -/
theorem tidy_sameSends {a : AtClient} (tidy : Tidy s) (same : AtClient.SameSends s.atClient a) :
    Tidy { s with atClient := a } where
  calls := fun call c at_ =>
    have before := tidy.calls call c at_
    ⟨before.own, before.poller, before.unpolled⟩
  polling := fun owner pending => tidy.polling owner (same.pending pending)
  once := fun owner owner' pending pending' =>
    tidy.once owner owner' (same.pending pending) (same.pending pending')

/-- `task.cancel()` on the poller task, when the slot is let go or the client closes. -/
theorem tidy_cancelPoller (tidy : Tidy s) : Tidy s.cancelPoller := by
  unfold cancelPoller
  split
  · refine tidy_modify tidy (fun c at_ before => ?_) fun c at_ => .inl ?_
    · split
      · exact before
      · exact ⟨before.own, (fun _ running => by cases running), before.unpolled⟩
    · split <;> rfl
  · exact tidy

theorem tidy_resetCallState (tidy : Tidy s) : Tidy s.resetCallState := by
  have cancelled := tidy_cancelPoller tidy
  refine tidy_calls cancelled rfl rfl (fun k c' at' => ?_) fun k c at_ polling _ => ⟨c, at_, polling⟩
  have after := cancelled.calls k c' at'
  refine ⟨fun item listed => ?_, fun live running => ?_, after.unpolled⟩
  · exact after.own item listed
  · -- an awake poller that is not cancelled is the poller task, which is cancelled now
    exfalso
    have task := (after.poller live running).2
    have task : s.pollerTask = some k := by
      unfold cancelPoller at task
      split at task <;> exact task
    have at' : s.cancelPoller.CallAt k c' := at'
    unfold cancelPoller at at'
    rw [task] at at'
    obtain ⟨c, at_, rfl⟩ := modify_callAt.mp at'
    rw [if_pos rfl] at live running
    split at running
    · rename_i done
      rw [if_pos done, done] at live
      cases live
    · cases running

theorem tidy_endStream (tidy : Tidy s) : Tidy (s.endStream call) := by
  unfold endStream
  dsimp only
  split
  · exact tidy_resetCallState (tidy_setStream tidy .closed)
  · exact tidy_setStream tidy .closed

/-! ### A send ends -/

theorem tidy_dialEnded (tidy : Tidy s) (at_ : s.CallAt call c) (waits : c.dial = .awaiting)
    (active : s.active = some call) (outcome : SendOutcome) : Tidy (s.dialEnded call outcome) := by
  have mine : ∀ {c'}, s.CallAt call c' → c' = c := fun at' => Option.some.inj (at'.symm.trans at_)
  have unasked : Unasked s call := by
    intro id owner pending
    obtain ⟨c', at', asks⟩ := tidy.polling owner pending
    rw [mine at', (tidy.calls call c at_).unpolled waits] at asks
    cases asks
  unfold dialEnded
  split
  · exact tidy_modify tidy (fun _ _ before => ⟨before.own, before.poller, fun now => by cases now⟩)
      fun _ _ => .inl rfl
  · split
    · refine tidy_calls tidy rfl rfl (fun k c' at' => ?_) fun k c' at' polling asked => ?_
      · obtain ⟨old, before, rfl⟩ := modify_callAt.mp at'
        have known := tidy.calls k old before
        split
        · rename_i here
          subst here
          exact ⟨known.own, fun _ _ => ⟨active, rfl⟩, fun now => by cases now⟩
        · rename_i other
          refine ⟨known.own, fun live running => ?_, known.unpolled⟩
          have holds := (known.poller live running).1
          exact absurd (Option.some.inj (holds.symm.trans active)) other
      · refine ⟨_, modify_callAt.mpr ⟨c', at', rfl⟩, ?_⟩
        split
        · rename_i here
          subst here
          exact absurd unasked asked
        · exact polling
    · exact tidy_modify (tidy_resetCallState tidy)
        (fun _ _ before => ⟨before.own, before.poller, fun now => by cases now⟩) fun _ _ => .inl rfl

theorem tidy_hangupEnded (tidy : Tidy s) (outcome : SendOutcome) :
    Tidy (s.hangupEnded call outcome) := by
  unfold hangupEnded
  split
  · exact tidy
  · exact tidy_put tidy rfl

/-- The poller goes on; it puts connected on the queue of the active call, its own. -/
theorem tidy_pollEnded (tidy : Tidy s) (unasked : Unasked s call)
    (outcome : SendOutcome)
    (mine : (∃ response, outcome = .returned response) → s.active = some call)
    (asks : ∀ c, s.CallAt call c → c.poller = .polling) : Tidy (s.pollEnded call outcome) := by
  have dialled : ∀ {c}, s.CallAt call c → CallTidy s call c → c.dial ≠ .awaiting := by
    intro c at_ before waits
    have absent := before.unpolled waits
    rw [asks c at_] at absent
    cases absent
  have done : Tidy (s.modify call fun c => { c with poller := .done }) := by
    refine tidy_modify tidy (fun c at_ before => ?_) fun _ _ => .inr unasked
    exact ⟨before.own, (fun live => by cases live), fun waits => (dialled at_ before waits).elim⟩
  have again : Tidy (s.pollAgain call) := by
    refine tidy_modify tidy (fun c at_ before => ?_) fun _ _ => .inr unasked
    refine ⟨before.own, fun _ running => ?_, fun waits => (dialled at_ before waits).elim⟩
    exact before.poller (by rw [asks c at_]; rfl) running
  cases outcome with
  | returned response =>
      simp only [pollEnded]
      split
      · rw [show (s.modify call fun c => { c with poller := .done }).active = some call from
          mine ⟨response, rfl⟩]
        exact tidy_put done rfl
      · exact again
  | raised | timedOut | clientClosed => exact again
  | encodeFailed | drainFailed | cancelled => exact done

theorem tidy_settle {id : Nat} {outcome : SendOutcome} (tidy : Tidy s)
    (dials : ∀ call number, s.owners[id]? = some (.dial call number) →
      s.active = some call ∧ ∃ c, s.CallAt call c ∧ c.dial = .awaiting)
    (polls : ∀ call, s.owners[id]? = some (.poll call) → Unasked s call ∧
      ((∃ response, outcome = .returned response) → s.active = some call) ∧
      ∀ c, s.CallAt call c → c.poller = .polling) : Tidy (s.settle (id, outcome)) := by
  unfold settle
  split
  · rename_i call number owner
    obtain ⟨active, c, at_, waits⟩ := dials call number owner
    exact tidy_dialEnded tidy at_ waits active outcome
  · exact tidy_hangupEnded tidy outcome
  · rename_i call owner
    obtain ⟨unasked, mine, asks⟩ := polls call owner
    exact tidy_pollEnded tidy unasked outcome mine asks
  · exact tidy

/-! ### The AT client moves on -/

theorem tidy_atClient {action : AtAction} {a : AtClient} (wired : Wired s) (tidy : Tidy s)
    (next : s.atClient.step action = some a) :
    Tidy { s with atClient := a } := by
  have was : ∀ {id : Nat} {o : Owner}, s.owners[id]? = some o → a.Pending id →
      s.atClient.Pending id := by
    intro id o owner pending
    refine (AtClient.pending_step next pending).resolve_right fun new => ?_
    have bound := (List.getElem?_eq_some_iff.mp owner).1
    rw [wired.counted] at bound
    omega
  constructor
  · intro call c at_
    have before := tidy.calls call c at_
    exact ⟨before.own, before.poller, before.unpolled⟩
  · exact fun owner pending => tidy.polling owner (was owner pending)
  · exact fun owner owner' pending pending' =>
      tidy.once owner owner' (was owner pending) (was owner' pending')

/-- A send that ends is that of the holder or of the first waiter, or is cancelled. -/
theorem of_mayMove {action : AtAction} {id : Nat} {outcome : SendOutcome}
    (may : s.mayMove action = true) (ended : s.atClient.ends action = some (id, outcome)) :
    s.heldBack id = false ∨ outcome = .cancelled := by
  cases action with
  | send | aclose => cases may
  | drained => cases ended
  | cancel other => exact .inr (Prod.mk.inj (Option.some.inj ended)).2.symm
  | acquire =>
      simp only [AtClient.ends] at ended
      split at ended
      · rename_i first command rest waiters
        split at ended
        · cases ended
        · obtain ⟨rfl, -⟩ := Prod.mk.inj (Option.some.inj ended)
          simp only [mayMove, waiters, List.head?_cons, Option.all_some, Bool.not_eq_true'] at may
          exact .inl may
      · cases ended
  | drainFailed | timeout =>
      obtain ⟨h, held, same⟩ := Option.map_eq_some_iff.mp ended
      obtain ⟨rfl, -⟩ := Prod.mk.inj same
      simp only [mayMove, held, Option.all_some, Bool.not_eq_true'] at may
      exact .inl may
  | receive =>
      simp only [AtClient.ends] at ended
      split at ended
      · rename_i h _ _ held _
        obtain ⟨rfl, -⟩ := Prod.mk.inj (Option.some.inj ended)
        simp only [mayMove, held, Option.all_some, Bool.not_eq_true'] at may
        exact .inl may
      · cases ended

theorem tidy_moved {action : AtAction} {a : AtClient} (wired : Wired s) (tidy : Tidy s)
    (may : s.mayMove action = true) (next : s.atClient.step action = some a) :
    Tidy (s.moved a) := by
  have own : ∀ command, action ≠ .send command := by
    rintro command rfl
    cases may
  have after := tidy_atClient wired tidy next
  rw [moved_eq next]
  cases isEnd : s.atClient.ends action with
  | none => exact after
  | some ended =>
    obtain ⟨id, outcome⟩ := ended
    have pending := (AtClient.ends_pending next isEnd).resolve_right fun new =>
      own _ new.1.choose_spec
    refine tidy_settle after (fun call number owner => ?_) fun call owner => ?_
    · obtain ⟨c, at_, rfl⟩ := wired.dials owner
      have waits := wired.pending at_ pending
      exact ⟨((wired.slots at_).awaiting waits).1, c, at_, waits⟩
    · obtain ⟨c, at_, asks⟩ := tidy.polling owner pending
      refine ⟨fun other owner' pending' => ?_, fun ⟨response, returned⟩ => ?_, fun c' at' => ?_⟩
      · -- the poller has one AT+CLCC at a time, and this one has ended
        have was := (AtClient.pending_step next pending').resolve_right fun new => by
          have bound := (List.getElem?_eq_some_iff.mp owner').1
          rw [wired.counted] at bound
          exact absurd new (Nat.ne_of_lt bound)
        obtain rfl := tidy.once owner owner' pending was
        exact AtClient.not_pending_of_ends wired.ordered next isEnd pending'
      · have free : s.heldBack id = false :=
          (of_mayMove may isEnd).resolve_right fun cut => by rw [returned] at cut; cases cut
        have running : c.pollerCancelled = false := by
          simpa [heldBack, show s.owners[id]? = _ from owner, show s.calls[call]? = some c from at_]
            using free
        exact ((tidy.calls call c at_).poller (by rw [asks]; rfl) running).1
      · obtain rfl := Option.some.inj (at_.symm.trans at')
        exact asks

/-! ### A send begins -/

theorem tidy_begin {owner : Owner} (wired : Wired s) (tidy : Tidy s)
    (asks : ∀ call, owner = .poll call → Unasked s call ∧
      ∃ c, s.CallAt call c ∧ c.poller = .polling) :
    Tidy { s with
      owners := s.owners ++ [owner]
      atClient := s.atClient.callSend owner.command } := by
  have next : s.atClient.step (.send owner.command) = some (s.atClient.callSend owner.command) := rfl
  have known : ∀ {id : Nat} {o : Owner}, (s.owners ++ [owner])[id]? = some o →
      (s.atClient.callSend owner.command).Pending id →
      s.owners[id]? = some o ∧ s.atClient.Pending id ∨ id = s.atClient.nextSend ∧ owner = o := by
    intro id o isOwner pending
    rw [getElem?_snoc, wired.counted] at isOwner
    split at isOwner
    · rename_i here
      exact .inr ⟨here, Option.some.inj isOwner⟩
    · rename_i other
      exact .inl ⟨isOwner, (AtClient.pending_step next pending).resolve_right other⟩
  constructor
  · intro call c at_
    have before := tidy.calls call c at_
    exact ⟨before.own, before.poller, before.unpolled⟩
  · intro id call isOwner pending
    rcases known isOwner pending with ⟨old, was⟩ | ⟨-, rfl⟩
    · exact tidy.polling old was
    · exact (asks call rfl).2
  · intro id id' call isOwner isOwner' pending pending'
    rcases known isOwner pending with ⟨old, was⟩ | ⟨new, mine⟩ <;>
      rcases known isOwner' pending' with ⟨old', was'⟩ | ⟨new', mine'⟩
    · exact tidy.once old old' was was'
    · exact absurd was ((asks call mine').1 id old)
    · exact absurd was' ((asks call mine).1 id' old')
    · exact new.trans new'.symm

/-- On a closed client nothing more is pending. -/
theorem unasked_begin {owner : Owner} (wired : Wired s) (closed : s.atClient.closed = true)
    (unasked : Unasked s call) :
    Unasked { s with
      owners := s.owners ++ [owner]
      atClient := s.atClient.callSend owner.command } call := by
  intro id isOwner pending
  have pending : (s.atClient.callSend owner.command).Pending id := pending
  rw [AtClient.callSend, if_pos closed] at pending
  have was : s.atClient.Pending id := pending
  have bound := AtClient.pending_lt wired.ordered was
  have isOwner : (s.owners ++ [owner])[id]? = some (.poll call) := isOwner
  rw [getElem?_snoc, wired.counted, if_neg (Nat.ne_of_lt bound)] at isOwner
  exact unasked id isOwner was

/-- Any send but an ATD. -/
theorem tidy_send {owner : Owner} (wired : Wired s) (tidy : Tidy s)
    (own : ∀ call number, owner ≠ .dial call number)
    (asks : ∀ call, owner = .poll call → Unasked s call ∧
      ∃ c, s.CallAt call c ∧ c.poller = .polling) : Tidy (s.send owner) := by
  have begun := tidy_begin wired tidy asks
  rw [send_eq]
  dsimp only
  split
  · rename_i closed
    refine tidy_settle begun (fun call number isOwner => ?_) fun call isOwner => ?_
    · exact absurd (wired.sender isOwner) (own call number)
    · obtain ⟨unasked, c, at_, polling⟩ := asks call (wired.sender isOwner)
      refine ⟨unasked_begin wired closed unasked, fun ⟨_, returned⟩ => (by cases returned),
        fun c' at' => ?_⟩
      obtain rfl := Option.some.inj (at_.symm.trans at')
      exact polling
  · exact begun

theorem tidy_taken (tidy : Tidy s) (free : s.active = none) (number : Text) :
    Tidy (s.taken number) := by
  refine tidy_calls tidy rfl rfl (fun k c' at' => ?_) fun k c at_ polling _ =>
    ⟨c, taken_callAt.mpr (.inl at_), polling⟩
  rcases taken_callAt.mp at' with before | ⟨rfl, rfl⟩
  · have known := tidy.calls k c' before
    refine ⟨known.own, fun live running => ?_, known.unpolled⟩
    have holds := (known.poller live running).1
    rw [free] at holds
    cases holds
  · exact ⟨fun _ listed => (by cases listed), (fun live => by cases live), fun _ => rfl⟩

theorem tidy_dial (wired : Wired s) (tidy : Tidy s) (free : s.active = none) (number : Text) :
    Tidy ((s.taken number).send (.dial s.calls.length number)) := by
  have taken := tidy_taken tidy free number
  have begun : Tidy { s.taken number with
      owners := s.owners ++ [.dial s.calls.length number]
      atClient := s.atClient.callSend (Owner.dial s.calls.length number).command } := by
    refine tidy_calls (tidy_begin wired tidy fun _ isPoll => by cases isPoll) rfl rfl
      (fun k c at_ => ?_) fun k c at_ polling _ => ⟨c, taken_callAt.mpr (.inl at_), polling⟩
    have known := taken.calls k c at_
    exact ⟨known.own, known.poller, known.unpolled⟩
  rw [send_eq]
  dsimp only
  split
  · refine tidy_settle begun (fun call number' isOwner => ?_) fun call isOwner => ?_
    · obtain ⟨rfl, rfl⟩ := Owner.dial.inj (wired.sender isOwner)
      exact ⟨rfl, _, taken_callAt.mpr (.inr ⟨rfl, rfl⟩), rfl⟩
    · have isPoll := wired.sender isOwner
      cases isPoll
  · exact begun

/-! ### Any step -/

theorem tidy_dropTask (tidy : Tidy s) (index : Nat) : Tidy (s.dropTask index) :=
  tidy_sameSends tidy ⟨rfl, rfl, rfl, rfl⟩

theorem tidy_closing (tidy : Tidy s) : Tidy { s with closing := true } := by
  refine tidy_calls tidy rfl rfl (fun k c at_ => ?_) fun k c at_ polling _ => ⟨c, at_, polling⟩
  have before := tidy.calls k c at_
  refine ⟨fun item listed => ?_, before.poller, before.unpolled⟩
  have own := before.own item listed
  rcases item with _ | ⟨j⟩ | ⟨j, cause⟩
  · rfl
  · exact own
  · exact own

/-- A poller that sleeps has no AT+CLCC pending. -/
theorem unasked_of_sleeping (tidy : Tidy s) (at_ : s.CallAt call c) (sleeping : c.poller = .sleeping) :
    Unasked s call := by
  intro id owner pending
  obtain ⟨c', at', polling⟩ := tidy.polling owner pending
  obtain rfl := Option.some.inj (at_.symm.trans at')
  rw [sleeping] at polling
  cases polling

theorem tidy_gotItem {source : Nat} {connectedSeen : Bool} {item : Option AtEvent}
    (tidy : Tidy s) : Tidy (s.gotItem call source connectedSeen item) := by
  unfold gotItem
  split
  · exact tidy_endStream tidy
  · split
    · exact tidy
    · exact tidy_setStream tidy _
  · exact tidy_setStream tidy _

/-- **One step.** -/
theorem tidy_step {action : SerialAction} (wired : Wired s) (tidy : Tidy s)
    (next : s.step action = some t) : Tidy t := by
  cases step_cases next with
  | dialRefused | hangupIgnored => exact tidy
  | dial free => exact tidy_dial wired tidy free _
  | hangup | query =>
      exact tidy_send wired tidy (fun _ _ isDial => by cases isDial) fun _ isPoll => by cases isPoll
  | serial may stepped => exact tidy_moved wired tidy may stepped
  | read raw => exact tidy_sameSends tidy (s.atClient.readLine_sameSends raw)
  | eof => exact tidy_sameSends tidy s.atClient.readEof_sameSends
  | urc => exact tidy_put (tidy_dropTask tidy _) rfl
  | urcIgnored => exact tidy_dropTask tidy _
  | @poll call c at_ sleeping active =>
      have unasked := unasked_of_sleeping tidy at_ sleeping
      have polling : Tidy (s.modify call fun c => { c with poller := .polling }) := by
        refine tidy_modify tidy (fun c' at' before => ?_) fun _ _ => .inr unasked
        obtain rfl := Option.some.inj (at_.symm.trans at')
        refine ⟨before.own, fun _ running => before.poller (by rw [sleeping]; rfl) running,
          fun waits => ?_⟩
        have absent := before.unpolled waits
        rw [sleeping] at absent
        cases absent
      refine tidy_send (wired_aside wired fun _ => ⟨rfl, rfl, rfl, rfl⟩) polling
        (fun _ _ isDial => by cases isDial) fun other isPoll => ?_
      obtain rfl := Owner.poll.inj isPoll
      refine ⟨unasked, _, modify_callAt.mpr ⟨c, at_, rfl⟩, ?_⟩
      rw [if_pos rfl]
  | @pollDone action call c at_ sleeping =>
      refine tidy_modify tidy (fun c' at' before => ?_) fun _ _ =>
        .inr (unasked_of_sleeping tidy at_ sleeping)
      obtain rfl := Option.some.inj (at_.symm.trans at')
      refine ⟨before.own, (fun live => by cases live), fun waits => ?_⟩
      have absent := before.unpolled waits
      rw [sleeping] at absent
      cases absent
  | streamStarted | streamResumed | streamShut => exact tidy_setStream tidy _
  | streamOver | streamClosed => exact tidy_endStream tidy
  | @got call source c from_ connectedSeen item rest at_ stream reads queue =>
      refine tidy_gotItem (tidy_modify tidy (fun c' at' before => ?_) fun _ _ => .inl rfl)
      obtain rfl := Option.some.inj (reads.symm.trans at')
      refine ⟨fun other listed => ?_, before.poller, before.unpolled⟩
      exact before.own other (by rw [queue]; exact List.mem_cons_of_mem _ listed)
  | aclose =>
      refine tidy_put (tidy_cancelPoller (tidy_closing tidy)) ?_
      unfold cancelPoller
      split <;> rfl
  | acloseIdle => exact tidy_cancelPoller (tidy_closing tidy)
  | acloseSerial => exact tidy_sameSends tidy ⟨rfl, rfl, rfl, rfl⟩

end SerialAtClient

end IsalesTelephony.Modem
