/-
# Modem.Attended -- calls that are over when the slot lets them go

The slot is released by whatever ends the call for the client: an ATD that ends
without OK, a remote_hangup event, the end of its generator.  None of these says
anything to the modem.  Here `Over` is any predicate of the sends of ATDs, and
`Heeds` asks that what ends a call for the client finds it over, `hangup` apart,
which writes the ATH.  Steps that heed keep `Attended` (`attended_step`): every
call that has written its ATD and is not the active one is over.
-/
import IsalesTelephony.Modem.SerialSteps

namespace IsalesTelephony.Modem

set_option autoImplicit false

open IsalesTelephony.Theory.Transition

/-! ## What ends a call for the client -/

/-- The event ends the generator of its call. -/
def EndsCall : Option AtEvent → Bool
  | none => true
  | some event => event.IsHangup

/-- An ATD that went out and was not answered with OK. -/
def SendOutcome.refuses : SendOutcome → Bool
  | .returned response => !response.ok
  | .raised _ => true
  | .timedOut _ => true
  | .drainFailed _ => true
  | _ => false

/-- The generator runs and has not delivered remote_hangup. -/
def StreamPc.unfinished : StreamPc → Bool
  | .waiting _ _ => true
  | .yielded _ _ event => !event.IsHangup
  | _ => false

/-- The action makes or takes URC handler tasks. -/
def SerialAction.handlesUrcs : SerialAction → Bool
  | .read _ => true
  | .urc _ => true
  | _ => false

namespace SerialAtClient

variable {Over Over' : Nat → Prop} {s t : SerialAtClient} {call k : Nat} {c c' : Call}
  {f : Call → Call}

/-- What ends a call for the client finds it over. -/
def Heeds (Over : Nat → Prop) (s : SerialAtClient) : SerialAction → Prop
  | .serial action => ∀ ended ∈ s.atClient.ends action,
      s.isDial ended.1 = true → ended.2.refuses = true → Over ended.1
  | .urc index => ∀ task ∈ s.atClient.urcTasks[index]?,
      (hangupUrcCause task.2.type).isSome = true → ∀ call ∈ s.active,
        ∀ c ∈ s.calls[call]?, Over c.atd
  | .hangup call => s.atClient.closed = true → s.active = some call →
      ∀ c ∈ s.calls[call]?, Over c.atd
  | .close call => ∀ c ∈ s.calls[call]?, c.stream.unfinished = true → Over c.atd
  | .aclose => ∀ call ∈ s.active, ∀ c ∈ s.calls[call]?, Over c.atd
  | _ => True

theorem Heeds.mono {action : SerialAction} (heeds : Heeds Over s action)
    (weaker : ∀ id, Over id → Over' id) : Heeds Over' s action := by
  cases action with
  | serial action => exact fun ended isEnd isDial refused => weaker _ (heeds ended isEnd isDial refused)
  | urc index =>
      exact fun task ready hangup call active c at_ =>
        weaker _ (heeds task ready hangup call active c at_)
  | hangup call => exact fun closed active c at_ => weaker _ (heeds closed active c at_)
  | close call => exact fun c at_ unfinished => weaker _ (heeds c at_ unfinished)
  | aclose => exact fun call active c at_ => weaker _ (heeds call active c at_)
  | _ => exact trivial

instance [DecidablePred Over] (s : SerialAtClient) (action : SerialAction) :
    Decidable (Heeds Over s action) := by
  unfold Heeds
  split <;> infer_instance

/-! ## Calls that are attended to -/

/-- A call the slot was taken from is over, and so is one whose end is about to be
delivered. -/
structure CallAttended (Over : Nat → Prop) (s : SerialAtClient) (call : Nat) (c : Call) : Prop where
  free : s.active ≠ some call → (∃ command, (c.atd, command) ∈ s.atClient.written) → Over c.atd
  events : ∀ item ∈ c.queue, EndsCall item = true → Over c.atd
  yielded : ∀ source seen event, c.stream = .yielded source seen event → event.IsHangup = true →
    Over c.atd

def Attended (Over : Nat → Prop) (s : SerialAtClient) : Prop :=
  ∀ call c, s.CallAt call c → CallAttended Over s call c

theorem Attended.mono (attended : Attended Over s) (weaker : ∀ id, Over id → Over' id) :
    Attended Over' s := by
  intro call c at_
  have before := attended call c at_
  exact ⟨fun ne wrote => weaker _ (before.free ne wrote),
    fun item listed ends => weaker _ (before.events item listed ends),
    fun source seen event stream last => weaker _ (before.yielded source seen event stream last)⟩

theorem attended_init : Attended Over {} := fun _ _ at_ => by simp [CallAt] at at_

/-- A change of one call that adds no end, or finds it over. -/
theorem attended_modify (attended : Attended Over s) (atd : ∀ c, (f c).atd = c.atd)
    (events : ∀ c, s.CallAt call c → ∀ item ∈ (f c).queue, EndsCall item = true →
      item ∈ c.queue ∨ Over c.atd)
    (yielded : ∀ c, s.CallAt call c → (f c).stream = c.stream ∨
      ∀ source seen event, (f c).stream = .yielded source seen event → event.IsHangup = true →
        Over c.atd) :
    Attended Over (s.modify call f) := by
  intro k c' at'
  obtain ⟨c, at_, rfl⟩ := modify_callAt.mp at'
  have before := attended k c at_
  split
  · rename_i here
    subst here
    refine ⟨fun ne wrote => ?_, fun item listed ends => ?_, fun source seen event stream last => ?_⟩
    · rw [atd] at wrote ⊢
      exact before.free ne wrote
    · rw [atd]
      exact (events c at_ item listed ends).elim (fun old => before.events item old ends) id
    · rw [atd]
      rcases yielded c at_ with same | isOver
      · exact before.yielded source seen event (same ▸ stream) last
      · exact isOver source seen event stream last
  · exact ⟨before.free, before.events, before.yielded⟩

/-- A change of the poller, or of `dial`. -/
theorem attended_aside (attended : Attended Over s)
    (same : ∀ c, (f c).atd = c.atd ∧ (f c).queue = c.queue ∧ (f c).stream = c.stream) :
    Attended Over (s.modify call f) :=
  attended_modify attended (fun c => (same c).1)
    (fun c _ _ listed _ => .inl ((same c).2.1 ▸ listed)) fun c _ => .inl (same c).2.2

theorem attended_put (attended : Attended Over s) {item : Option AtEvent}
    (isOver : EndsCall item = true → ∀ c, s.CallAt call c → Over c.atd) :
    Attended Over (s.put call item) := by
  refine attended_modify attended (fun _ => rfl) (fun c at_ other listed ends => ?_) fun c _ => .inl rfl
  rcases List.mem_append.mp listed with old | new
  · exact .inl old
  · rw [List.mem_singleton.mp new] at ends
    exact .inr (isOver ends c at_)

theorem attended_setStream (attended : Attended Over s) {stream : StreamPc}
    (isOver : ∀ source seen event, stream = .yielded source seen event → event.IsHangup = true →
      ∀ c, s.CallAt call c → Over c.atd) : Attended Over (s.setStream call stream) :=
  attended_modify attended (fun _ => rfl) (fun _ _ _ listed _ => .inl listed) fun c at_ =>
    .inr fun source seen event now last => isOver source seen event now last c at_

theorem attended_congr (attended : Attended Over s) (calls : t.calls = s.calls)
    (active : t.active = s.active) (written : t.atClient.written = s.atClient.written) :
    Attended Over t := by
  intro call c at_
  rw [CallAt, calls] at at_
  have before := attended call c at_
  exact ⟨by rw [active, written]; exact before.free, before.events, before.yielded⟩

theorem attended_cancelPoller (attended : Attended Over s) : Attended Over s.cancelPoller := by
  unfold cancelPoller
  split
  · refine attended_aside attended fun c => ?_
    split <;> exact ⟨rfl, rfl, rfl⟩
  · exact attended

/-- The slot is freed by a call that is over, or wrote no ATD. -/
theorem attended_resetCallState (attended : Attended Over s)
    (isOver : ∀ {k c}, s.active = some k → s.CallAt k c →
      (∃ command, (c.atd, command) ∈ s.atClient.written) → Over c.atd) :
    Attended Over s.resetCallState := by
  intro k c' at'
  have cancelled := attended_cancelPoller attended k c' at'
  refine ⟨fun _ wrote => ?_, cancelled.events, cancelled.yielded⟩
  by_cases mine : s.active = some k
  · obtain ⟨c, at_, same⟩ := cancelPoller_callAt at'
    have atd : c'.atd = c.atd := by rcases same with rfl | rfl <;> rfl
    rw [atd] at wrote ⊢
    exact isOver mine at_ (by simpa [resetCallState] using wrote)
  · exact cancelled.free (by simpa using mine) wrote

theorem attended_endStream (attended : Attended Over s)
    (isOver : ∀ c, s.CallAt call c → Over c.atd) : Attended Over (s.endStream call) := by
  have closed : Attended Over (s.setStream call .closed) :=
    attended_setStream attended fun _ _ _ same => by cases same
  unfold endStream
  dsimp only
  split
  · rename_i active
    refine attended_resetCallState closed fun {k c} mine at_ _ => ?_
    obtain rfl := Option.some.inj (mine.symm.trans active)
    obtain ⟨old, before, rfl⟩ := modify_callAt.mp at_
    rw [if_pos rfl]
    exact isOver old before
  · exact closed

/-! ### A send ends -/

theorem attended_dialEnded (attended : Attended Over s) (active : s.active = some call)
    {outcome : SendOutcome}
    (isOver : outcome.refuses = true → ∀ c, s.CallAt call c → Over c.atd)
    (early : outcome.refuses = false → (∀ response, outcome ≠ .returned response) →
      outcome ≠ .cancelled → ∀ c, s.CallAt call c →
        ∀ command, (c.atd, command) ∉ s.atClient.written) :
    Attended Over (s.dialEnded call outcome) := by
  unfold dialEnded
  split
  · exact attended_aside attended fun _ => ⟨rfl, rfl, rfl⟩
  · rename_i result ended
    split
    · have accepted : Attended Over (s.modify call fun c =>
          { c with dial := .returned, stream := .unstarted, poller := .sleeping }) :=
        attended_modify attended (fun _ => rfl) (fun _ _ _ listed _ => .inl listed)
          fun _ _ => .inr fun _ _ _ same => by cases same
      exact attended_congr accepted rfl rfl rfl
    · rename_i failed
      refine attended_modify (attended_resetCallState attended fun {k c} mine at_ wrote => ?_)
        (fun _ => rfl) (fun _ _ _ listed _ => .inl listed)
        fun _ _ => .inr fun _ _ _ same => by cases same
      obtain rfl := Option.some.inj (mine.symm.trans active)
      cases refused : outcome.refuses with
      | true => exact isOver refused c at_
      | false =>
          obtain ⟨command, wrote⟩ := wrote
          refine absurd wrote (early refused ?_ ?_ c at_ command)
          · rintro response rfl
            obtain rfl := Option.some.inj ended
            simp [SendOutcome.refuses] at refused
            exact failed refused
          · rintro rfl
            cases ended

theorem attended_pollEnded (attended : Attended Over s) (outcome : SendOutcome) :
    Attended Over (s.pollEnded call outcome) := by
  have again : Attended Over (s.pollAgain call) := attended_aside attended fun _ => ⟨rfl, rfl, rfl⟩
  have done : Attended Over (s.modify call fun c => { c with poller := .done }) :=
    attended_aside attended fun _ => ⟨rfl, rfl, rfl⟩
  cases outcome with
  | returned response =>
      simp only [pollEnded]
      split
      · split
        · exact attended_put done fun ends => by cases ends
        · exact done
      · exact again
  | raised | timedOut | clientClosed => exact again
  | encodeFailed | drainFailed | cancelled => exact done

theorem attended_hangupEnded (attended : Attended Over s) {outcome : SendOutcome}
    (isOver : outcome ≠ .cancelled → ∀ c, s.CallAt call c → Over c.atd) :
    Attended Over (s.hangupEnded call outcome) := by
  unfold hangupEnded
  split
  · exact attended
  · rename_i uncancelled
    exact attended_put attended fun _ => isOver uncancelled

/-- A send has ended whose task finds what `dialEnded` and `hangupEnded` ask for. -/
theorem attended_settle {id : Nat} {outcome : SendOutcome} (attended : Attended Over s)
    (dials : ∀ call number, s.owners[id]? = some (.dial call number) → s.active = some call ∧
      (outcome.refuses = true → ∀ c, s.CallAt call c → Over c.atd) ∧
      (outcome.refuses = false → (∀ response, outcome ≠ .returned response) →
        outcome ≠ .cancelled → ∀ c, s.CallAt call c →
          ∀ command, (c.atd, command) ∉ s.atClient.written))
    (hangups : ∀ call, s.owners[id]? = some (.hangup call) → outcome ≠ .cancelled →
      ∀ c, s.CallAt call c → Over c.atd) : Attended Over (s.settle (id, outcome)) := by
  unfold settle
  split
  · rename_i call number owner
    obtain ⟨active, isOver, early⟩ := dials call number owner
    exact attended_dialEnded attended active isOver early
  · rename_i call owner
    exact attended_hangupEnded attended (hangups call owner)
  · exact attended_pollEnded attended outcome
  · exact attended

/-! ### The AT client moves on -/

@[simp] theorem settle_atClient (s : SerialAtClient) (ended : Nat × SendOutcome) :
    (s.settle ended).atClient = s.atClient := by
  obtain ⟨id, outcome⟩ := ended
  unfold settle
  split
  · unfold dialEnded
    split
    · rfl
    · split <;> simp [modify, resetCallState]
  · unfold hangupEnded
    split <;> rfl
  · cases outcome with
    | returned response =>
        simp only [pollEnded, pollAgain]
        repeat' split
        all_goals rfl
    | _ => rfl
  · rfl

theorem moved_atClient {action : AtAction} {a : AtClient}
    (next : s.atClient.step action = some a) : (s.moved a).atClient = a := by
  rw [moved_eq next]
  split <;> simp

/-- An ATD goes out for the call that holds the slot. -/
theorem attended_atClient {action : AtAction} {a : AtClient} (wired : Wired s)
    (attended : Attended Over s) (next : s.atClient.step action = some a) :
    Attended Over { s with atClient := a } := by
  intro k c at_
  have before := attended k c at_
  refine ⟨fun other ⟨command, wrote⟩ => ?_, before.events, before.yielded⟩
  rcases AtClient.written_step next wrote with old | waited
  · exact before.free other ⟨command, old⟩
  · have pending : s.atClient.Pending c.atd := .inr ⟨_, waited, rfl⟩
    exact absurd ((wired.slots at_).awaiting (wired.pending at_ pending)).1 other

/-- ATH is ASCII. -/
theorem hangup_encodes {action : AtAction} {id : Nat} {line : Text} (wired : Wired s)
    (owner : s.owners[id]? = some (.hangup call)) :
    s.atClient.ends action ≠ some (id, .encodeFailed line) := by
  intro ended
  cases action with
  | acquire =>
      simp only [AtClient.ends] at ended
      split at ended
      · rename_i first command rest waiters
        split at ended
        · cases ended
        · rename_i garbled
          obtain ⟨rfl, -⟩ := Prod.mk.inj (Option.some.inj ended)
          have listed : (first, command) ∈ s.atClient.written ++ s.atClient.lockWaiters := by
            simp [waiters]
          obtain ⟨other, owner', rfl : command = other.command⟩ := wired.commands _ listed
          obtain rfl := Option.some.inj (owner.symm.trans owner')
          have ascii : isAscii (commandLine ModemDriver.hangupCommand) = true := by decide
          exact garbled ascii
      · cases ended
  | receive =>
      simp only [AtClient.ends, AtClient.outcomeOf] at ended
      repeat' split at ended
      all_goals simp at ended
  | send command =>
      simp only [AtClient.ends] at ended
      split at ended <;> simp at ended
  | drained | aclose => cases ended
  | drainFailed | timeout | cancel => simp [AtClient.ends] at ended

/-- An ATH that ends uncancelled has been written. -/
theorem hangup_wrote {action : AtAction} {id : Nat} {outcome : SendOutcome} (wired : Wired s)
    (owner : s.owners[id]? = some (.hangup call)) (ended : s.atClient.ends action = some (id, outcome))
    (own : ∀ command, action ≠ .send command) (uncut : outcome ≠ .cancelled) :
    ∃ command, (id, command) ∈ s.atClient.written := by
  refine AtClient.wrote_of_ends wired.ordered ended
    ⟨AtClient.unclosed_of_ends ended own, uncut, ?_⟩
  rintro line rfl
  exact hangup_encodes wired owner ended

theorem attended_moved {action : AtAction} {a : AtClient} (wired : Wired s)
    (attended : Attended Over s) (own : ∀ command, action ≠ .send command)
    (heeds : Heeds Over s (.serial action)) (next : s.atClient.step action = some a)
    (ath : ∀ w ∈ a.written, w.2 = ModemDriver.hangupCommand → ∀ id < w.1, Over id) :
    Attended Over (s.moved a) := by
  have after := attended_atClient wired attended next
  rw [moved_eq next]
  cases isEnd : s.atClient.ends action with
  | none => exact after
  | some ended =>
    obtain ⟨id, outcome⟩ := ended
    have unclosed : outcome ≠ .clientClosed := AtClient.unclosed_of_ends isEnd own
    refine attended_settle after (fun call number owner => ?_) fun call owner uncancelled c at_ => ?_
    · obtain ⟨c, at_, rfl⟩ := wired.dials owner
      have mine : ∀ {c'}, s.CallAt call c' → c' = c := fun at' =>
        Option.some.inj (at'.symm.trans at_)
      have pending := (AtClient.ends_pending next isEnd).resolve_right fun new =>
        own _ new.1.choose_spec
      refine ⟨((wired.slots at_).awaiting (wired.pending at_ pending)).1, fun refused c' at' => ?_,
        fun accepted unanswered uncancelled c' at' command => ?_⟩
      · obtain rfl := mine at'
        exact heeds _ isEnd (by simp [isDial, owner]) refused
      · obtain rfl := mine at'
        refine AtClient.unwritten_of_ends wired.ordered next isEnd (.inr ?_) command
        cases outcome with
        | encodeFailed line => exact ⟨line, rfl⟩
        | returned response => exact absurd rfl (unanswered response)
        | clientClosed => exact absurd rfl unclosed
        | cancelled => exact absurd rfl uncancelled
        | raised | timedOut | drainFailed => cases accepted
    · obtain ⟨command, wrote⟩ := hangup_wrote wired owner isEnd own uncancelled
      obtain ⟨other, owner', rfl : command = other.command⟩ :=
        wired.commands _ (List.mem_append_left _ wrote)
      obtain rfl := Option.some.inj (owner.symm.trans owner')
      obtain ⟨c', at', earlier⟩ := wired.hangups owner
      obtain rfl := Option.some.inj (at'.symm.trans at_)
      exact ath _ ((AtClient.written_prefix next).subset wrote) rfl _ earlier

/-! ### A send begins -/

theorem attended_begin (owner : Owner) (attended : Attended Over s) :
    Attended Over { s with
      owners := s.owners ++ [owner]
      atClient := s.atClient.callSend owner.command } := by
  refine attended_congr attended rfl rfl ?_
  unfold AtClient.callSend
  split <;> rfl

/-- Any send but an ATD. -/
theorem attended_send {owner : Owner} (wired : Wired s) (attended : Attended Over s)
    (own : ∀ call number, owner ≠ .dial call number)
    (hangup : ∀ call, owner = .hangup call → s.atClient.closed = true →
      ∀ c, s.CallAt call c → Over c.atd) : Attended Over (s.send owner) := by
  have begun := attended_begin owner attended
  rw [send_eq]
  dsimp only
  split
  · rename_i closed
    refine attended_settle begun (fun call number isOwner => ?_) fun call isOwner _ => ?_
    · exact absurd (wired.sender isOwner) (own call number)
    · exact hangup call (wired.sender isOwner) closed
  · exact begun

/-- The slot is taken from no call. -/
theorem attended_taken (attended : Attended Over s) (free : s.active = none)
    (number : Text) : Attended Over (s.taken number) := by
  intro k c at_
  rcases taken_callAt.mp at_ with before | ⟨rfl, rfl⟩
  · have old := attended k c before
    refine ⟨fun _ wrote => old.free (by simp [free]) wrote, old.events, old.yielded⟩
  · exact ⟨fun other => absurd rfl other, fun _ listed => (by cases listed),
      fun _ _ _ yielded => by cases yielded⟩

theorem attended_dial (wired : Wired s) (attended : Attended Over s) (free : s.active = none)
    (number : Text) : Attended Over ((s.taken number).send (.dial s.calls.length number)) := by
  have begun := attended_begin (.dial s.calls.length number)
    (attended_taken attended free number)
  rw [send_eq]
  dsimp only
  split
  · refine attended_settle begun (fun call number' isOwner => ?_) fun call isOwner => ?_
    · obtain ⟨rfl, rfl⟩ := Owner.dial.inj (wired.sender isOwner)
      refine ⟨rfl, fun refused => (by cases refused), fun _ _ _ c at_ command wrote => ?_⟩
      -- the call is new, and the client closed: its ATD is not on the wire
      have unsent : (s.atClient.nextSend, command) ∈ s.atClient.written := by
        rcases taken_callAt.mp at_ with before | ⟨-, rfl⟩
        · exact absurd (List.getElem?_eq_some_iff.mp before).1 (Nat.lt_irrefl _)
        · unfold AtClient.callSend at wrote
          split at wrote <;> exact wrote
      exact absurd (wired.ordered.fresh _ (List.mem_append_left _ unsent)) (Nat.lt_irrefl _)
    · have isDial := wired.sender isOwner
      cases isDial
  · exact begun

/-! ### Any step -/

theorem attended_gotItem {source : Nat} {connectedSeen : Bool} {item : Option AtEvent}
    (attended : Attended Over s)
    (isOver : EndsCall item = true → ∀ c, s.CallAt call c → Over c.atd) :
    Attended Over (s.gotItem call source connectedSeen item) := by
  unfold gotItem
  split
  · exact attended_endStream attended (isOver rfl)
  · split
    · exact attended
    · refine attended_setStream attended fun _ _ event yielded last => ?_
      obtain ⟨-, -, rfl⟩ := StreamPc.yielded.inj yielded
      cases last
  · exact attended_setStream attended fun _ _ _ _ _ => isOver rfl

theorem attended_dropTask (attended : Attended Over s) (index : Nat) :
    Attended Over (s.dropTask index) := attended_congr attended rfl rfl rfl

/-- **One step.**  An ATH on the wire has ended every call dialled before it. -/
theorem attended_step {action : SerialAction} (wired : Wired s) (attended : Attended Over s)
    (heeds : Heeds Over s action) (next : s.step action = some t)
    (ath : ∀ w ∈ t.atClient.written, w.2 = ModemDriver.hangupCommand → ∀ id < w.1, Over id) :
    Attended Over t := by
  cases step_cases next with
  | dialRefused | hangupIgnored => exact attended
  | dial free => exact attended_dial wired attended free _
  | hangup active =>
      refine attended_send wired attended (fun _ _ isDial => by cases isDial) ?_
      intro call isHangup closed c at_
      obtain rfl := Owner.hangup.inj isHangup
      exact heeds closed active c at_
  | query query =>
      exact attended_send wired attended (fun _ _ isDial => by cases isDial)
        fun _ isHangup => by cases isHangup
  | serial may stepped =>
      rw [moved_atClient stepped] at ath
      refine attended_moved wired attended (fun command sends => ?_) heeds stepped ath
      rw [sends] at may
      cases may
  | read raw => exact attended_congr attended rfl rfl (s.atClient.readLine_sameSends raw).written
  | eof => exact attended_congr attended rfl rfl s.atClient.readEof_sameSends.written
  | urc ready active hangup =>
      refine attended_put (attended_dropTask attended _) fun _ c at_ => ?_
      exact heeds _ ready (by rw [hangup]; rfl) _ active c at_
  | urcIgnored => exact attended_dropTask attended _
  | @poll call =>
      have polling : Attended Over (s.modify call fun c => { c with poller := .polling }) :=
        attended_aside attended fun _ => ⟨rfl, rfl, rfl⟩
      refine attended_send (wired_aside wired fun _ => ⟨rfl, rfl, rfl, rfl⟩) polling
        (fun _ _ isDial => by cases isDial) fun _ isHangup => by cases isHangup
  | pollDone => exact attended_aside attended fun _ => ⟨rfl, rfl, rfl⟩
  | streamStarted | streamResumed =>
      exact attended_setStream attended fun _ _ _ same => by cases same
  | streamOver at_ stream last =>
      refine attended_endStream attended fun c' at' => ?_
      obtain rfl := Option.some.inj (at_.symm.trans at')
      exact (attended _ _ at_).yielded _ _ _ stream last
  | streamShut at_ handed shut =>
      refine attended_setStream attended fun _ _ _ same => ?_
      rcases shut with rfl | rfl <;> cases same
  | @got call source c from_ connectedSeen item rest at_ stream reads queue =>
      obtain rfl : source = call := (wired.slots at_).source source (by rw [stream]; rfl)
      obtain rfl := Option.some.inj (reads.symm.trans at_)
      have popped : Attended Over (s.modify source fun c => { c with queue := rest }) := by
        refine attended_modify attended (fun _ => rfl) (fun c' at' item listed _ => .inl ?_)
          fun _ _ => .inl rfl
        obtain rfl := Option.some.inj (at_.symm.trans at')
        rw [queue]
        exact List.mem_cons_of_mem _ listed
      refine attended_gotItem popped fun ends c' at' => ?_
      obtain ⟨old, before, rfl⟩ := modify_callAt.mp at'
      obtain rfl := Option.some.inj (at_.symm.trans before)
      rw [if_pos rfl]
      exact (attended _ _ at_).events item (by rw [queue]; exact List.mem_cons_self ..) ends
  | @streamClosed call c at_ running =>
      refine attended_endStream attended fun c' at' => ?_
      obtain rfl := Option.some.inj (at_.symm.trans at')
      cases stream : c.stream with
      | yielded source seen event =>
          cases last : event.IsHangup with
          | true => exact (attended _ _ at_).yielded _ _ _ stream last
          | false => exact heeds c at_ (by simp [stream, StreamPc.unfinished, last])
      | waiting => exact heeds c at_ (by rw [stream]; rfl)
      | absent | unstarted | single | singleYielded | closed =>
          rw [stream] at running
          cases running
  | aclose active =>
      have closing : Attended Over { s with closing := true } := attended_congr attended rfl rfl rfl
      refine attended_put (attended_cancelPoller closing) fun _ c' at' => ?_
      obtain ⟨c, at_, same⟩ := cancelPoller_callAt at'
      have isOver := heeds _ active c at_
      rcases same with rfl | rfl <;> exact isOver
  | acloseIdle =>
      have closing : Attended Over { s with closing := true } := attended_congr attended rfl rfl rfl
      exact attended_cancelPoller closing
  | acloseSerial => exact attended_congr attended rfl rfl rfl

@[simp] theorem endStream_atClient (s : SerialAtClient) (call : Nat) :
    (s.endStream call).atClient = s.atClient := by
  unfold endStream
  dsimp only
  split <;> simp [resetCallState, setStream, modify]

@[simp] theorem gotItem_atClient (s : SerialAtClient) (call source : Nat) (connectedSeen : Bool)
    (item : Option AtEvent) :
    (s.gotItem call source connectedSeen item).atClient = s.atClient := by
  unfold gotItem
  split
  · simp
  · split <;> rfl
  · rfl

theorem send_atClient (s : SerialAtClient) (owner : Owner) :
    (s.send owner).atClient = s.atClient.callSend owner.command := by
  have next : ({ s with owners := s.owners ++ [owner] } : SerialAtClient).atClient.step
      (.send owner.command) = some (s.atClient.callSend owner.command) := rfl
  exact moved_atClient next

theorem serial_step {a : AtAction} (next : s.step (.serial a) = some t) :
    ∃ atClient, s.mayMove a = true ∧ s.atClient.step a = some atClient ∧ t = s.moved atClient := by
  simp only [step] at next
  split at next
  · rename_i may
    obtain ⟨atClient, stepped, rfl⟩ := Option.map_eq_some_iff.mp next
    exact ⟨atClient, may, stepped, rfl⟩
  · cases next

/-- What a step does to the AT client. -/
inductive AtClientMoves (c : AtClient) : SerialAction → AtClient → Prop
  | same {action : SerialAction} (unread : action.handlesUrcs = false) : AtClientMoves c action c
  | sends {action : SerialAction} (unread : action.handlesUrcs = false) (command : Text) :
      AtClientMoves c action (c.callSend command)
  | serial {a : AtAction} {c' : AtClient} (next : c.step a = some c') :
      AtClientMoves c (.serial a) c'
  | read (raw : Text) : AtClientMoves c (.read raw) (c.readLine raw)
  | eof : AtClientMoves c .eof c.readEof
  | urc (index : Nat) :
      AtClientMoves c (.urc index) { c with urcTasks := c.urcTasks.eraseIdx index }
  | shut : AtClientMoves c .acloseSerial { c with closed := true, readerRunning := false }

/-- The event streams leave the AT client alone. -/
theorem stream_atClient {action : SerialAction} (next : s.step action = some t)
    (moves : action.stream? = some call) : t.atClient = s.atClient := by
  cases step_cases next with
  | streamStarted | streamResumed | streamShut | pollDone => rfl
  | streamOver | streamClosed => exact endStream_atClient _ _
  | got => exact gotItem_atClient _ _ _ _ _
  | _ => cases moves

theorem atClient_step {action : SerialAction} (next : s.step action = some t) :
    AtClientMoves s.atClient action t.atClient := by
  cases action with
  | dial number =>
      obtain rfl := Option.some.inj next
      unfold dial
      split
      · exact .same rfl
      · rw [send_atClient]
        exact .sends rfl _
  | hangup call =>
      obtain rfl := Option.some.inj next
      unfold hangup
      split
      · rw [send_atClient]
        exact .sends rfl _
      · exact .same rfl
  | query query =>
      obtain rfl := Option.some.inj next
      rw [send_atClient]
      exact .sends rfl _
  | serial a =>
      obtain ⟨atClient, -, stepped, rfl⟩ := serial_step next
      rw [moved_atClient stepped]
      exact .serial stepped
  | read raw =>
      simp only [step] at next
      split at next
      · obtain rfl := Option.some.inj next
        exact .read raw
      · cases next
  | eof =>
      simp only [step] at next
      split at next
      · obtain rfl := Option.some.inj next
        exact .eof
      · cases next
  | urc index =>
      obtain ⟨task, -, rfl⟩ := Option.map_eq_some_iff.mp next
      unfold onUrc
      split <;> exact .urc index
  | poll call =>
      obtain ⟨c, -, woken⟩ := Option.bind_eq_some_iff.mp next
      split at woken
      · obtain rfl := Option.some.inj woken
        unfold wakePoller
        split
        · rw [send_atClient]
          exact .sends rfl _
        · exact .same rfl
      · cases woken
  | pollCancelled call =>
      obtain ⟨c, -, woken⟩ := Option.bind_eq_some_iff.mp next
      split at woken
      · obtain rfl := Option.some.inj woken
        exact .same rfl
      · cases woken
  | next | wake | close =>
      rw [stream_atClient next rfl]
      exact .same rfl
  | aclose =>
      obtain rfl := Option.some.inj next
      split
      · simp only [put, modify, cancelPoller_atClient]
        exact .same rfl
      · rw [cancelPoller_atClient]
        exact .same rfl
  | acloseSerial =>
      simp only [step] at next
      split at next
      · obtain rfl := Option.some.inj next
        exact .shut
      · cases next

/-- What is on the wire stays there, in its order. -/
theorem written_prefix {action : SerialAction} (next : s.step action = some t) :
    s.atClient.written <+: t.atClient.written := by
  have moves := atClient_step next
  generalize t.atClient = c' at moves ⊢
  cases moves with
  | same | urc | shut => exact List.prefix_rfl
  | sends _ command =>
      have sent : s.atClient.step (.send command) = some (s.atClient.callSend command) := rfl
      exact AtClient.written_prefix sent
  | serial stepped => exact AtClient.written_prefix stepped
  | read raw => rw [(s.atClient.readLine_sameSends raw).written]
  | eof => rw [s.atClient.readEof_sameSends.written]

/-- What is written was, or waited for the lock. -/
theorem written_step {action : SerialAction} {w : Nat × Text} (next : s.step action = some t)
    (wrote : w ∈ t.atClient.written) : w ∈ s.atClient.written ∨ w ∈ s.atClient.lockWaiters := by
  have moves := atClient_step next
  generalize t.atClient = c' at moves wrote
  cases moves with
  | same | urc | shut => exact .inl wrote
  | sends _ command =>
      have sent : s.atClient.step (.send command) = some (s.atClient.callSend command) := rfl
      exact AtClient.written_step sent wrote
  | serial stepped => exact AtClient.written_step stepped wrote
  | read raw =>
      rw [(s.atClient.readLine_sameSends raw).written] at wrote
      exact .inl wrote
  | eof =>
      rw [s.atClient.readEof_sameSends.written] at wrote
      exact .inl wrote

end SerialAtClient

end IsalesTelephony.Modem
