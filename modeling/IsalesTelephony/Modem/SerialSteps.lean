/-
# Modem.SerialSteps -- what one step of the serial client can do

`Moves` inverts `SerialAtClient.step` once (`step_cases`).  `Wired` is what holds
of every run: which call each send is for (`owners`), that an ATD is pending only
while its `dial` waits, that a dial in progress or an open event generator is
that of the active call, and that a generator reads the queue of its own call.
-/
import IsalesTelephony.Modem.SerialAtClient
import IsalesTelephony.Modem.SendOrder

namespace IsalesTelephony.Modem

set_option autoImplicit false

/-- The call whose event generator the action moves. -/
def SerialAction.stream? : SerialAction → Option Nat
  | .next call => some call
  | .wake call => some call
  | .close call => some call
  | _ => none

namespace SerialAtClient

/-! ## The inversion -/

/-- `c` is the call numbered `call`. -/
abbrev CallAt (s : SerialAtClient) (call : Nat) (c : Call) : Prop := s.calls[call]? = some c

/-- What one action can do, guards included. -/
inductive Moves (s : SerialAtClient) : SerialAction → SerialAtClient → Prop
  | dialRefused {number : Text} (busy : s.active.isSome = true) : Moves s (.dial number) s
  | dial {number : Text} (free : s.active = none) :
      Moves s (.dial number) ((s.taken number).send (.dial s.calls.length number))
  | hangup {call : Nat} (active : s.active = some call) :
      Moves s (.hangup call) (s.send (.hangup call))
  | hangupIgnored {call : Nat} : Moves s (.hangup call) s
  | query (query : Query) : Moves s (.query query) (s.send (.query query))
  | serial {action : AtAction} {c : AtClient} (may : s.mayMove action = true)
      (next : s.atClient.step action = some c) : Moves s (.serial action) (s.moved c)
  | read (raw : Text) : Moves s (.read raw) { s with atClient := s.atClient.readLine raw }
  | eof : Moves s .eof { s with atClient := s.atClient.readEof }
  | urc {index : Nat} {task : Nat × Urc} {call : Nat} {cause : Text}
      (ready : s.atClient.urcTasks[index]? = some task) (active : s.active = some call)
      (hangup : hangupUrcCause task.2.type = some cause) :
      Moves s (.urc index) ((s.dropTask index).put call (some (.remoteHangup call cause)))
  | urcIgnored {index : Nat} : Moves s (.urc index) (s.dropTask index)
  | poll {call : Nat} {c : Call} (at_ : s.CallAt call c) (sleeping : c.poller = .sleeping)
      (active : s.active = some call) :
      Moves s (.poll call)
        ((s.modify call fun c => { c with poller := .polling }).send (.poll call))
  | pollDone {action : SerialAction} {call : Nat} {c : Call} (at_ : s.CallAt call c)
      (sleeping : c.poller = .sleeping) :
      Moves s action (s.modify call fun c => { c with poller := .done })
  | streamStarted {call source : Nat} {c : Call} (at_ : s.CallAt call c)
      (stream : c.stream = .unstarted) (active : s.active = some source) :
      Moves s (.next call) (s.setStream call (.waiting source false))
  | streamResumed {call source : Nat} {c : Call} {connectedSeen : Bool} {event : AtEvent}
      (at_ : s.CallAt call c) (stream : c.stream = .yielded source connectedSeen event)
      (more : event.IsHangup = false) :
      Moves s (.next call) (s.setStream call (.waiting source connectedSeen))
  | streamOver {call source : Nat} {c : Call} {connectedSeen : Bool} {event : AtEvent}
      (at_ : s.CallAt call c) (stream : c.stream = .yielded source connectedSeen event)
      (last : event.IsHangup = true) : Moves s (.next call) (s.endStream call)
  | streamShut {action : SerialAction} {call : Nat} {c : Call} {stream : StreamPc}
      (at_ : s.CallAt call c) (handed : c.stream ≠ .absent)
      (shut : stream = .singleYielded ∨ stream = .closed) (moves : action.stream? = some call)
      (from_ : c.stream.isOpen = true →
        s.active = none ∨ action = .close call ∧ c.stream = .unstarted) :
      Moves s action (s.setStream call stream)
  | got {call source : Nat} {c from_ : Call} {connectedSeen : Bool} {item : Option AtEvent}
      {rest : List (Option AtEvent)} (at_ : s.CallAt call c)
      (stream : c.stream = .waiting source connectedSeen) (reads : s.CallAt source from_)
      (queue : from_.queue = item :: rest) :
      Moves s (.wake call)
        ((s.modify source fun c => { c with queue := rest }).gotItem call source connectedSeen item)
  | streamClosed {call : Nat} {c : Call} (at_ : s.CallAt call c)
      (running : c.stream.iterating = true) : Moves s (.close call) (s.endStream call)
  | aclose {call : Nat} (active : s.active = some call) :
      Moves s .aclose
        (({ s with closing := true } : SerialAtClient).cancelPoller.put call none)
  | acloseIdle (free : s.active = none) :
      Moves s .aclose ({ s with closing := true } : SerialAtClient).cancelPoller
  | acloseSerial :
      Moves s .acloseSerial
        { s with atClient := { s.atClient with closed := true, readerRunning := false } }

variable {s t : SerialAtClient} {call : Nat} {c : Call}

/-- A stream that was no longer open, or never ran, moves on without the slot. -/
theorem Moves.shut {action : SerialAction} {stream : StreamPc} (at_ : s.CallAt call c)
    (handed : c.stream ≠ .absent) (isOver : stream = .singleYielded ∨ stream = .closed)
    (moves : action.stream? = some call) (idle : c.stream.isOpen = false) :
    s.Moves action (s.setStream call stream) := by
  refine .streamShut at_ handed isOver moves fun opened => ?_
  rw [idle] at opened
  cases opened

theorem nextEvent_cases (at_ : s.CallAt call c) (next : s.nextEvent call c.stream = some t) :
    s.Moves (.next call) t := by
  unfold nextEvent at next
  split at next
  · rename_i stream
    split at next
    · rename_i source active
      obtain rfl := Option.some.inj next
      exact .streamStarted at_ stream active
    · rename_i free
      obtain rfl := Option.some.inj next
      exact .streamShut at_ (by rw [stream]; simp) (.inr rfl) rfl fun _ => .inl free
  · rename_i source connectedSeen event stream
    split at next
    · rename_i last
      obtain rfl := Option.some.inj next
      exact .streamOver at_ stream last
    · rename_i more
      obtain rfl := Option.some.inj next
      exact .streamResumed at_ stream (by simpa using more)
  · rename_i stream
    obtain rfl := Option.some.inj next
    exact .shut at_ (by rw [stream]; simp) (.inl rfl) rfl (by rw [stream]; rfl)
  · rename_i stream
    obtain rfl := Option.some.inj next
    exact .shut at_ (by rw [stream]; simp) (.inr rfl) rfl (by rw [stream]; rfl)
  · cases next

theorem wakeStream_cases (at_ : s.CallAt call c) (next : s.wakeStream call c.stream = some t) :
    s.Moves (.wake call) t := by
  unfold wakeStream at next
  split at next
  · rename_i source connectedSeen stream
    obtain ⟨from_, reads, next⟩ := Option.bind_eq_some_iff.mp next
    split at next
    · rename_i item rest queue
      obtain rfl := Option.some.inj next
      exact .got at_ stream reads queue
    · cases next
  · cases next

theorem closeStream_cases (at_ : s.CallAt call c) (next : s.closeStream call c.stream = some t) :
    s.Moves (.close call) t := by
  unfold closeStream at next
  split at next
  · rename_i stream
    obtain rfl := Option.some.inj next
    exact .streamShut at_ (by rw [stream]; simp) (.inr rfl) rfl fun _ => .inr ⟨rfl, stream⟩
  · rename_i stream
    obtain rfl := Option.some.inj next
    exact .shut at_ (by rw [stream]; simp) (.inr rfl) rfl (by rw [stream]; rfl)
  · rename_i stream
    obtain rfl := Option.some.inj next
    exact .shut at_ (by rw [stream]; simp) (.inr rfl) rfl (by rw [stream]; rfl)
  · rename_i stream
    obtain rfl := Option.some.inj next
    exact .streamClosed at_ (by rw [stream]; rfl)
  · rename_i stream
    obtain rfl := Option.some.inj next
    exact .streamClosed at_ (by rw [stream]; rfl)
  · cases next

theorem step_cases {action : SerialAction} (next : s.step action = some t) : s.Moves action t := by
  cases action with
  | dial number =>
      obtain rfl := Option.some.inj next
      unfold dial
      split
      · rename_i busy
        exact .dialRefused busy
      · rename_i free
        exact .dial (by simpa using free)
  | hangup call =>
      obtain rfl := Option.some.inj next
      unfold hangup
      split
      · rename_i active
        exact .hangup active
      · exact .hangupIgnored
  | query query =>
      obtain rfl := Option.some.inj next
      exact .query query
  | serial action =>
      simp only [step] at next
      split at next
      · rename_i may
        obtain ⟨c, stepped, rfl⟩ := Option.map_eq_some_iff.mp next
        exact .serial may stepped
      · cases next
  | read raw =>
      simp only [step] at next
      split at next
      · obtain rfl := Option.some.inj next
        exact .read raw
      · cases next
  | eof =>
      simp only [step] at next
      split at next
      · obtain rfl := Option.some.inj next
        exact .eof
      · cases next
  | urc index =>
      obtain ⟨task, ready, rfl⟩ := Option.map_eq_some_iff.mp next
      unfold onUrc
      split
      · rename_i call cause active hangup
        exact .urc ready active hangup
      · exact .urcIgnored
  | poll call =>
      obtain ⟨c, at_, woken⟩ := Option.bind_eq_some_iff.mp next
      split at woken
      · rename_i awake
        obtain rfl := Option.some.inj woken
        unfold wakePoller
        split
        · rename_i active
          exact .poll at_ awake.1 active
        · exact .pollDone at_ awake.1
      · cases woken
  | pollCancelled call =>
      obtain ⟨c, at_, woken⟩ := Option.bind_eq_some_iff.mp next
      split at woken
      · rename_i awake
        obtain rfl := Option.some.inj woken
        exact .pollDone at_ awake.1
      · cases woken
  | next call =>
      obtain ⟨c, at_, taken⟩ := Option.bind_eq_some_iff.mp next
      exact nextEvent_cases at_ taken
  | wake call =>
      obtain ⟨c, at_, taken⟩ := Option.bind_eq_some_iff.mp next
      exact wakeStream_cases at_ taken
  | close call =>
      obtain ⟨c, at_, taken⟩ := Option.bind_eq_some_iff.mp next
      exact closeStream_cases at_ taken
  | aclose =>
      obtain rfl := Option.some.inj next
      split
      · rename_i active
        exact .aclose active
      · rename_i free
        exact .acloseIdle free
  | acloseSerial =>
      simp only [step] at next
      split at next
      · obtain rfl := Option.some.inj next
        exact .acloseSerial
      · cases next

/-! ## Parts of a step -/

variable {f : Call → Call} {k : Nat} {c' : Call}

theorem modify_callAt : (s.modify call f).CallAt k c' ↔
    ∃ old, s.CallAt k old ∧ c' = if k = call then f old else old := by
  simp only [CallAt, modify, List.getElem?_modify]
  cases s.calls[k]? with
  | none => simp
  | some old => simp [eq_comm]

/-- The AT client has moved on, and the task whose send has ended with it. -/
theorem moved_eq {action : AtAction} {atClient : AtClient}
    (next : s.atClient.step action = some atClient) :
    s.moved atClient =
      match s.atClient.ends action with
      | some ended => ({ s with atClient := atClient } : SerialAtClient).settle ended
      | none => { s with atClient := atClient } := by
  rw [moved, AtClient.step_outcomes next, List.drop_left]
  cases s.atClient.ends action with
  | none => rfl
  | some ended => rfl

theorem send_eq (s : SerialAtClient) (owner : Owner) :
    s.send owner =
      let sent : SerialAtClient :=
        { s with
          owners := s.owners ++ [owner]
          atClient := s.atClient.callSend owner.command }
      if s.atClient.closed then sent.settle (s.atClient.nextSend, .clientClosed) else sent := by
  have next : ({ s with owners := s.owners ++ [owner] } : SerialAtClient).atClient.step
      (.send owner.command) = some (s.atClient.callSend owner.command) := rfl
  rw [send, moved_eq next]
  simp only [AtClient.ends]
  cases s.atClient.closed <;> rfl

/-! ## What holds of every run -/

/-- How a call stands to the slot. -/
structure Slot (active : Option Nat) (call : Nat) (c : Call) : Prop where
  awaiting : c.dial = .awaiting → active = some call ∧ c.stream = .absent
  opened : c.stream.isOpen = true → active = some call
  source : ∀ k ∈ c.stream.source?, k = call

/-- A call has a stream only when its dial is over. -/
theorem Slot.isOver {active : Option Nat} {call : Nat} {c : Call} (slot : Slot active call c)
    (begun : c.stream ≠ .absent) : c.dial ≠ .awaiting := fun waits =>
  begun (slot.awaiting waits).2

/-- The sends, the calls and the slot belong together. -/
structure Wired (s : SerialAtClient) : Prop where
  ordered : s.atClient.Ordered
  counted : s.owners.length = s.atClient.nextSend
  commands : ∀ w ∈ s.atClient.written ++ s.atClient.lockWaiters,
    ∃ owner, s.owners[w.1]? = some owner ∧ w.2 = owner.command
  dials : ∀ {id call number}, s.owners[id]? = some (.dial call number) →
    ∃ c, s.CallAt call c ∧ c.atd = id
  hangups : ∀ {id call}, s.owners[id]? = some (.hangup call) → ∃ c, s.CallAt call c ∧ c.atd < id
  owned : ∀ {call c}, s.CallAt call c → s.owners[c.atd]? = some (.dial call c.number)
  pending : ∀ {call c}, s.CallAt call c → s.atClient.Pending c.atd → c.dial = .awaiting
  slots : ∀ {call c}, s.CallAt call c → Slot s.active call c
  filled : ∀ {call}, s.active = some call → ∃ c, s.CallAt call c

theorem wired_init : Wired {} where
  ordered := AtClient.ordered_init 1
  counted := rfl
  commands := by simp
  dials := by simp
  hangups := by simp
  owned := fun at_ => by simp [CallAt] at at_
  pending := fun at_ => by simp [CallAt] at at_
  slots := fun at_ => by simp [CallAt] at at_
  filled := fun active => by cases active

/-- The calls move on by themselves. -/
theorem wired_calls (wired : Wired s) (atClient : t.atClient = s.atClient)
    (owners : t.owners = s.owners)
    (calls : ∀ {k c'}, t.CallAt k c' → ∃ c, s.CallAt k c ∧ c'.atd = c.atd ∧ c'.number = c.number ∧
      (c'.dial = c.dial ∨ ¬ s.atClient.Pending c.atd) ∧ Slot t.active k c')
    (present : ∀ {k c}, s.CallAt k c → ∃ c', t.CallAt k c' ∧ c'.atd = c.atd)
    (active : t.active = s.active ∨ t.active = none) : Wired t where
  ordered := by rw [atClient]; exact wired.ordered
  counted := by rw [atClient, owners]; exact wired.counted
  commands := by rw [atClient, owners]; exact wired.commands
  dials := by
    intro id call number owner
    rw [owners] at owner
    obtain ⟨c, at_, same⟩ := wired.dials owner
    obtain ⟨c', at', atd⟩ := present at_
    exact ⟨c', at', atd.trans same⟩
  hangups := by
    intro id call owner
    rw [owners] at owner
    obtain ⟨c, at_, earlier⟩ := wired.hangups owner
    obtain ⟨c', at', atd⟩ := present at_
    exact ⟨c', at', atd ▸ earlier⟩
  owned := by
    intro call c' at'
    obtain ⟨c, at_, atd, number, -⟩ := calls at'
    rw [owners, atd, number]
    exact wired.owned at_
  pending := by
    intro call c' at' pending
    obtain ⟨c, at_, atd, -, dial, -⟩ := calls at'
    rw [atClient, atd] at pending
    rcases dial with same | isOver
    · rw [same]
      exact wired.pending at_ pending
    · exact absurd pending isOver
  slots := by
    intro call c' at'
    obtain ⟨c, -, -, -, -, slot⟩ := calls at'
    exact slot
  filled := by
    intro call taken
    rcases active with same | free
    · obtain ⟨c, at_⟩ := wired.filled (same ▸ taken)
      obtain ⟨c', at', -⟩ := present at_
      exact ⟨c', at'⟩
    · rw [free] at taken
      cases taken

theorem wired_modify (wired : Wired s)
    (same : ∀ c, (f c).atd = c.atd ∧ (f c).number = c.number)
    (dial : ∀ c, s.CallAt call c → (f c).dial = c.dial ∨ ¬ s.atClient.Pending c.atd)
    (slot : ∀ c, s.CallAt call c → Slot s.active call c → Slot s.active call (f c)) :
    Wired (s.modify call f) := by
  refine wired_calls wired rfl rfl (fun {k c'} at' => ?_) (fun {k c} at_ => ?_) (.inl rfl)
  · obtain ⟨c, at_, rfl⟩ := modify_callAt.mp at'
    refine ⟨c, at_, ?_⟩
    split
    · rename_i here
      subst here
      exact ⟨(same c).1, (same c).2, dial c at_, slot c at_ (wired.slots at_)⟩
    · exact ⟨rfl, rfl, .inl rfl, wired.slots at_⟩
  · refine ⟨_, modify_callAt.mpr ⟨c, at_, rfl⟩, ?_⟩
    split
    · exact (same c).1
    · rfl

/-- What is known does not depend on the poller task or on `closing`. -/
theorem wired_congr (wired : Wired s) (atClient : t.atClient = s.atClient)
    (owners : t.owners = s.owners) (calls : t.calls = s.calls) (active : t.active = s.active) :
    Wired t := by
  refine wired_calls wired atClient owners (fun {k c'} at' => ?_) (fun {k c} at_ => ⟨c, ?_, rfl⟩)
    (.inl active)
  · rw [CallAt, calls] at at'
    exact ⟨c', at', rfl, rfl, .inl rfl, active ▸ wired.slots at'⟩
  · rw [CallAt, calls]
    exact at_

/-- A change of the queue or of the poller. -/
theorem wired_aside (wired : Wired s)
    (same : ∀ c, (f c).atd = c.atd ∧ (f c).number = c.number ∧ (f c).dial = c.dial ∧
      (f c).stream = c.stream) : Wired (s.modify call f) := by
  refine wired_modify wired (fun c => ⟨(same c).1, (same c).2.1⟩)
    (fun c _ => .inl (same c).2.2.1) fun c _ slot => ?_
  obtain ⟨-, -, dial, stream⟩ := same c
  exact ⟨by rw [dial, stream]; exact slot.awaiting, by rw [stream]; exact slot.opened,
    by rw [stream]; exact slot.source⟩

theorem wired_put (wired : Wired s) (item : Option AtEvent) : Wired (s.put call item) :=
  wired_aside wired fun _ => ⟨rfl, rfl, rfl, rfl⟩

theorem wired_cancelPoller (wired : Wired s) : Wired s.cancelPoller := by
  unfold cancelPoller
  split
  · refine wired_aside wired fun c => ?_
    split <;> exact ⟨rfl, rfl, rfl, rfl⟩
  · exact wired

@[simp] theorem cancelPoller_atClient (s : SerialAtClient) :
    s.cancelPoller.atClient = s.atClient := by
  unfold cancelPoller
  split <;> rfl

@[simp] theorem cancelPoller_owners (s : SerialAtClient) : s.cancelPoller.owners = s.owners := by
  unfold cancelPoller
  split <;> rfl

@[simp] theorem cancelPoller_active (s : SerialAtClient) : s.cancelPoller.active = s.active := by
  unfold cancelPoller
  split <;> rfl

theorem callAt_cancelPoller (at_ : s.CallAt k c) :
    ∃ c', s.cancelPoller.CallAt k c' ∧ c'.atd = c.atd := by
  unfold cancelPoller
  split
  · refine ⟨_, modify_callAt.mpr ⟨c, at_, rfl⟩, ?_⟩
    repeat' split
    all_goals rfl
  · exact ⟨c, at_, rfl⟩

theorem cancelPoller_callAt (at' : s.cancelPoller.CallAt k c') :
    ∃ c, s.CallAt k c ∧ (c' = c ∨ c' = { c with pollerCancelled := true }) := by
  unfold cancelPoller at at'
  split at at'
  · obtain ⟨c, at_, rfl⟩ := modify_callAt.mp at'
    refine ⟨c, at_, ?_⟩
    repeat' split
    all_goals simp
  · exact ⟨c', at', .inl rfl⟩

/-- The slot is freed once no dial is in progress and no generator is open. -/
theorem wired_resetCallState (wired : Wired s)
    (idle : ∀ {k c}, s.CallAt k c → c.dial ≠ .awaiting ∧ c.stream.isOpen = false) :
    Wired s.resetCallState := by
  have cancelled := wired_cancelPoller wired
  refine wired_calls cancelled rfl rfl (fun {k c'} at' => ?_) (fun {k c} at_ => ⟨c, at_, rfl⟩)
    (.inr rfl)
  have slot := cancelled.slots at'
  obtain ⟨c, at_, same⟩ := cancelPoller_callAt at'
  have quiet : c'.dial ≠ .awaiting ∧ c'.stream.isOpen = false := by
    have before := idle at_
    rcases same with rfl | rfl <;> exact before
  refine ⟨c', at', rfl, rfl, .inl rfl, fun waits => absurd waits quiet.1, fun opened => ?_,
    slot.source⟩
  rw [quiet.2] at opened
  cases opened

/-- No call but the active one dials or has an open generator. -/
theorem Wired.others_idle (wired : Wired s) (active : s.active = some call) {c : Call}
    (at_ : s.CallAt k c) (other : k ≠ call) : c.dial ≠ .awaiting ∧ c.stream.isOpen = false := by
  have slot := wired.slots at_
  rw [active] at slot
  refine ⟨fun waits => other (Option.some.inj (slot.awaiting waits).1).symm, ?_⟩
  by_contra opened
  exact other (Option.some.inj (slot.opened (by simpa using opened))).symm

theorem isOpen_of_iterating {stream : StreamPc} (running : stream.iterating = true) :
    stream.isOpen = true := by
  cases stream <;> first | rfl | exact running

/-- A generator that runs is that of the active call, whose dial has ended. -/
theorem Wired.running_active (wired : Wired s) (at_ : s.CallAt call c)
    (running : c.stream.iterating = true) : s.active = some call ∧ c.dial ≠ .awaiting := by
  have slot := wired.slots at_
  refine ⟨slot.opened (isOpen_of_iterating running), slot.isOver fun absent => ?_⟩
  rw [absent] at running
  cases running

theorem wired_endStream (wired : Wired s) (at_ : s.CallAt call c)
    (running : c.stream.iterating = true) : Wired (s.endStream call) := by
  obtain ⟨active, ended⟩ := wired.running_active at_ running
  have closed : Wired (s.setStream call .closed) := by
    refine wired_modify wired (fun _ => ⟨rfl, rfl⟩) (fun _ _ => .inl rfl) fun c' at' slot => ?_
    obtain rfl := Option.some.inj (at_.symm.trans at')
    exact ⟨fun waits => absurd waits ended, fun opened => (by cases opened), fun k source => by
      cases source⟩
  unfold endStream
  dsimp only
  split
  · refine wired_resetCallState closed fun {k c'} at' => ?_
    obtain ⟨old, before, rfl⟩ := modify_callAt.mp at'
    split
    · rename_i here
      subst here
      obtain rfl := Option.some.inj (at_.symm.trans before)
      exact ⟨ended, rfl⟩
    · rename_i other
      exact wired.others_idle active before other
  · exact closed

/-! ### A send ends -/

theorem wired_dialEnded (wired : Wired s) (at_ : s.CallAt call c) (waits : c.dial = .awaiting)
    (isOver : ¬ s.atClient.Pending c.atd) (outcome : SendOutcome) :
    Wired (s.dialEnded call outcome) := by
  obtain ⟨active, absent⟩ := (wired.slots at_).awaiting waits
  have here : ∀ {c'}, s.CallAt call c' → c' = c := fun at' => Option.some.inj (at'.symm.trans at_)
  unfold dialEnded
  split
  · refine wired_modify wired (fun _ => ⟨rfl, rfl⟩) (fun c' at' => .inr ?_) fun c' at' slot => ?_
    · rw [here at']
      exact isOver
    · exact ⟨fun waits => (by cases waits), slot.opened, slot.source⟩
  · split
    · have accepted : Wired (s.modify call fun c =>
          { c with dial := .returned, stream := .unstarted, poller := .sleeping }) := by
        refine wired_modify wired (fun _ => ⟨rfl, rfl⟩) (fun c' at' => .inr ?_) fun c' at' slot => ?_
        · rw [here at']
          exact isOver
        · exact ⟨fun waits => (by cases waits), fun _ => active, fun k source => by cases source⟩
      exact wired_congr accepted rfl rfl rfl rfl
    · refine wired_calls wired (cancelPoller_atClient s) (cancelPoller_owners s)
        (fun {k c'} at' => ?_) (fun {k c'} at' => ?_) (.inr rfl)
      · obtain ⟨mid, atMid, rfl⟩ := modify_callAt.mp at'
        obtain ⟨old, before, same⟩ := cancelPoller_callAt atMid
        have slot := wired.slots before
        refine ⟨old, before, ?_⟩
        split
        · rename_i is
          subst is
          obtain rfl := here before
          have kept : mid.atd = old.atd ∧ mid.number = old.number := by
            rcases same with rfl | rfl <;> exact ⟨rfl, rfl⟩
          exact ⟨kept.1, kept.2, .inr isOver, fun waits => (by cases waits),
            fun opened => (by cases opened), fun k source => by cases source⟩
        · rename_i other
          have idle := wired.others_idle active before other
          have kept : mid.atd = old.atd ∧ mid.number = old.number ∧ mid.dial = old.dial ∧
              mid.stream = old.stream := by
            rcases same with rfl | rfl <;> exact ⟨rfl, rfl, rfl, rfl⟩
          obtain ⟨atd, number, dial, stream⟩ := kept
          refine ⟨atd, number, .inl dial, fun waits => absurd (dial ▸ waits) idle.1,
            fun opened => ?_, by rw [stream]; exact slot.source⟩
          rw [stream, idle.2] at opened
          cases opened
      · obtain ⟨mid, after, atd⟩ := callAt_cancelPoller at'
        refine ⟨_, modify_callAt.mpr ⟨mid, after, rfl⟩, ?_⟩
        split <;> exact atd

theorem wired_pollEnded (wired : Wired s) (outcome : SendOutcome) :
    Wired (s.pollEnded call outcome) := by
  have again : Wired (s.pollAgain call) := wired_aside wired fun _ => ⟨rfl, rfl, rfl, rfl⟩
  have done : Wired (s.modify call fun c => { c with poller := .done }) :=
    wired_aside wired fun _ => ⟨rfl, rfl, rfl, rfl⟩
  cases outcome with
  | returned response =>
      simp only [pollEnded]
      split
      · split
        · exact wired_put done _
        · exact done
      · exact again
  | raised | timedOut | clientClosed => exact again
  | encodeFailed | drainFailed | cancelled => exact done

theorem wired_hangupEnded (wired : Wired s) (outcome : SendOutcome) :
    Wired (s.hangupEnded call outcome) := by
  unfold hangupEnded
  split
  · exact wired
  · exact wired_put wired _

/-- A send has ended: its own dial was waiting for it. -/
theorem wired_settle {id : Nat} (wired : Wired s) (isOver : ¬ s.atClient.Pending id)
    (waits : ∀ {call number c}, s.owners[id]? = some (.dial call number) → s.CallAt call c →
      c.dial = .awaiting) (outcome : SendOutcome) : Wired (s.settle (id, outcome)) := by
  unfold settle
  split
  · rename_i call number owner
    obtain ⟨c, at_, same⟩ := wired.dials owner
    exact wired_dialEnded wired at_ (waits owner at_) (by rw [same]; exact isOver) outcome
  · exact wired_hangupEnded wired outcome
  · exact wired_pollEnded wired outcome
  · exact wired

/-! ### The AT client moves on -/

/-- A step of the AT client that begins no send. -/
theorem wired_atClient {action : AtAction} {a : AtClient} (wired : Wired s)
    (own : ∀ command, action ≠ .send command) (next : s.atClient.step action = some a) :
    Wired { s with atClient := a } where
  ordered := AtClient.ordered_step wired.ordered next
  counted := by rw [AtClient.nextSend_step next own]; exact wired.counted
  commands := by
    intro w listed
    refine wired.commands w ((AtClient.listed_step next listed).resolve_right fun new => ?_)
    exact own _ new.1
  dials := wired.dials
  hangups := wired.hangups
  owned := wired.owned
  pending := by
    intro call c at_ pending
    refine wired.pending at_ ((AtClient.pending_step next pending).resolve_right fun new => ?_)
    have bound := (List.getElem?_eq_some_iff.mp (wired.owned at_)).1
    rw [wired.counted] at bound
    omega
  slots := wired.slots
  filled := wired.filled

theorem wired_moved {action : AtAction} {a : AtClient} (wired : Wired s)
    (own : ∀ command, action ≠ .send command) (next : s.atClient.step action = some a) :
    Wired (s.moved a) := by
  have after := wired_atClient wired own next
  rw [moved_eq next]
  cases isEnd : s.atClient.ends action with
  | none => exact after
  | some ended =>
    obtain ⟨id, outcome⟩ := ended
    refine wired_settle after (AtClient.not_pending_of_ends wired.ordered next isEnd) ?_ outcome
    intro call number c owner at_
    obtain ⟨c', at', same⟩ := wired.dials owner
    obtain rfl := Option.some.inj (at_.symm.trans at')
    refine wired.pending at_ ?_
    rw [same]
    refine (AtClient.ends_pending next isEnd).resolve_right fun new => ?_
    obtain ⟨⟨command, sends⟩, -⟩ := new
    exact own command sends

/-! ### A send begins -/

theorem getElem?_snoc {α : Type} (l : List α) (a : α) (i : Nat) :
    (l ++ [a])[i]? = if i = l.length then some a else l[i]? := by
  rw [List.getElem?_append, List.getElem?_singleton]
  by_cases before : i < l.length
  · simp [before, Nat.ne_of_lt before]
  · have absent : l[i]? = none := by simpa using before
    by_cases here : i = l.length
    · simp [here]
    · have past : ¬ i - l.length = 0 := by omega
      simp [before, past, here]

/-- The next send is that of the owner which is appended for it. -/
theorem Wired.sender {owner o : Owner} (wired : Wired s)
    (isOwner : (s.owners ++ [owner])[s.atClient.nextSend]? = some o) : owner = o := by
  rw [getElem?_snoc, if_pos wired.counted.symm] at isOwner
  exact Option.some.inj isOwner

theorem callSend_nextSend (a : AtClient) (command : Text) :
    (a.callSend command).nextSend = a.nextSend + 1 := by
  unfold AtClient.callSend
  split <;> rfl

/-- A task calls `send`; `dial` does so for the call it adds. -/
theorem wired_begin {owner : Owner} (wired : Wired s) (owners : t.owners = s.owners ++ [owner])
    (atClient : t.atClient = s.atClient.callSend owner.command)
    (calls : ∀ {k c}, t.CallAt k c → s.CallAt k c ∨
      owner = .dial k c.number ∧ c.atd = s.atClient.nextSend ∧ c.dial = .awaiting)
    (present : ∀ {k c}, s.CallAt k c → t.CallAt k c)
    (new : ∀ {call number}, owner = .dial call number →
      ∃ c, t.CallAt call c ∧ c.atd = s.atClient.nextSend)
    (hangup : ∀ {call}, owner = .hangup call → ∃ c, s.CallAt call c)
    (slots : ∀ {k c}, t.CallAt k c → Slot t.active k c)
    (filled : ∀ {call}, t.active = some call → ∃ c, t.CallAt call c) : Wired t := by
  have next : s.atClient.step (.send owner.command) = some (s.atClient.callSend owner.command) := rfl
  have bound : ∀ {id : Nat} {o : Owner}, s.owners[id]? = some o → id ≠ s.owners.length := by
    intro id o owner
    exact Nat.ne_of_lt (List.getElem?_eq_some_iff.mp owner).1
  have old : ∀ {id : Nat} {o : Owner}, s.owners[id]? = some o → t.owners[id]? = some o := by
    intro id o owner
    rw [owners, getElem?_snoc, if_neg (bound owner)]
    exact owner
  have last : t.owners[s.atClient.nextSend]? = some owner := by
    rw [owners, getElem?_snoc, if_pos wired.counted.symm]
  constructor
  · rw [atClient]
    exact AtClient.ordered_step wired.ordered next
  · rw [owners, atClient, callSend_nextSend, List.length_append, wired.counted]
    rfl
  · intro w listed
    rw [atClient] at listed
    rcases AtClient.listed_step next listed with before | ⟨sends, id⟩
    · obtain ⟨o, owner, command⟩ := wired.commands w before
      exact ⟨o, old owner, command⟩
    · exact ⟨owner, by rw [id]; exact last, (AtAction.send.inj sends).symm⟩
  · intro id call number isOwner
    rw [owners, getElem?_snoc] at isOwner
    split at isOwner
    · rename_i here
      obtain ⟨c, at_, atd⟩ := new (Option.some.inj isOwner)
      exact ⟨c, at_, by rw [atd, here, wired.counted]⟩
    · obtain ⟨c, at_, atd⟩ := wired.dials isOwner
      exact ⟨c, present at_, atd⟩
  · intro id call isOwner
    rw [owners, getElem?_snoc] at isOwner
    split at isOwner
    · rename_i here
      obtain ⟨c, at_⟩ := hangup (Option.some.inj isOwner)
      exact ⟨c, present at_, here ▸ (List.getElem?_eq_some_iff.mp (wired.owned at_)).1⟩
    · obtain ⟨c, at_, earlier⟩ := wired.hangups isOwner
      exact ⟨c, present at_, earlier⟩
  · intro k c at_
    rcases calls at_ with before | ⟨isOwner, atd, -⟩
    · exact old (wired.owned before)
    · rw [atd, last, isOwner]
  · intro k c at_ pending
    rw [atClient] at pending
    rcases calls at_ with before | ⟨-, -, waits⟩
    · refine wired.pending before ((AtClient.pending_step next pending).resolve_right fun same => ?_)
      refine bound (wired.owned before) ?_
      rw [wired.counted]
      exact same
    · exact waits
  · exact slots
  · exact filled

/-- Any send but an ATD. -/
theorem wired_send {owner : Owner} (wired : Wired s)
    (own : ∀ call number, owner ≠ .dial call number)
    (hangup : ∀ {call}, owner = .hangup call → ∃ c, s.CallAt call c) : Wired (s.send owner) := by
  have begun : Wired { s with
      owners := s.owners ++ [owner]
      atClient := s.atClient.callSend owner.command } :=
    wired_begin wired rfl rfl .inl id (fun isDial => absurd isDial (own _ _)) hangup wired.slots
      wired.filled
  rw [send_eq]
  dsimp only
  split
  · rename_i closed
    have next : s.atClient.step (.send owner.command) =
      some (s.atClient.callSend owner.command) := rfl
    have ended : s.atClient.ends (.send owner.command) = some (s.atClient.nextSend, .clientClosed) := by
      simp [AtClient.ends, closed]
    refine wired_settle begun (AtClient.not_pending_of_ends wired.ordered next ended) ?_ _
    intro call number c isOwner
    exact absurd (wired.sender isOwner) (own call number)
  · exact begun

theorem taken_callAt {number : Text} : (s.taken number).CallAt k c ↔
    s.CallAt k c ∨ k = s.calls.length ∧ c = { number := number, atd := s.atClient.nextSend } := by
  rw [CallAt, taken, getElem?_snoc]
  split
  · rename_i here
    simp [here, eq_comm]
  · rename_i other
    simp [other]

/-- `dial` takes the free slot. -/
theorem wired_dial (wired : Wired s) (free : s.active = none) (number : Text) :
    Wired ((s.taken number).send (.dial s.calls.length number)) := by
  have begun : Wired { s.taken number with
      owners := s.owners ++ [.dial s.calls.length number]
      atClient := s.atClient.callSend (Owner.dial s.calls.length number).command } := by
    refine wired_begin wired rfl rfl (fun {k c} at_ => ?_) (fun {k c} at_ => ?_) (fun isDial => ?_)
      (fun isHangup => by cases isHangup) (fun {k c} at_ => ?_) fun {call} active => ?_
    · exact (taken_callAt.mp at_).imp_right fun ⟨here, new⟩ => by subst here new; exact ⟨rfl, rfl, rfl⟩
    · exact taken_callAt.mpr (.inl at_)
    · obtain ⟨rfl, rfl⟩ := Owner.dial.inj isDial
      exact ⟨_, taken_callAt.mpr (.inr ⟨rfl, rfl⟩), rfl⟩
    · rcases taken_callAt.mp at_ with before | ⟨rfl, rfl⟩
      · have slot := wired.slots before
        rw [free] at slot
        exact ⟨fun waits => (by cases (slot.awaiting waits).1),
          fun opened => (by cases slot.opened opened), slot.source⟩
      · exact ⟨fun _ => ⟨rfl, rfl⟩, fun opened => (by cases opened), fun k source => by cases source⟩
    · obtain rfl := Option.some.inj active
      exact ⟨_, taken_callAt.mpr (.inr ⟨rfl, rfl⟩)⟩
  rw [send_eq]
  dsimp only
  split
  · rename_i closed
    have next : s.atClient.step (.send (Owner.dial s.calls.length number).command) =
      some (s.atClient.callSend (Owner.dial s.calls.length number).command) := rfl
    have ended : s.atClient.ends (.send (Owner.dial s.calls.length number).command) =
        some (s.atClient.nextSend, .clientClosed) := by
      have isClosed : s.atClient.closed = true := closed
      simp [AtClient.ends, isClosed]
    refine wired_settle begun (AtClient.not_pending_of_ends wired.ordered next ended) ?_ _
    intro call number' c isOwner at_
    obtain ⟨rfl, -⟩ := Owner.dial.inj (wired.sender isOwner)
    rcases taken_callAt.mp at_ with before | ⟨-, rfl⟩
    · exact absurd (List.getElem?_eq_some_iff.mp before).1 (Nat.lt_irrefl _)
    · rfl
  · exact begun

/-- What is known does not depend on the lines read. -/
theorem wired_sameSends {a : AtClient} (wired : Wired s) (same : AtClient.SameSends s.atClient a) :
    Wired { s with atClient := a } where
  ordered := same.ordered wired.ordered
  counted := wired.counted.trans same.nextSend.symm
  commands := by rw [same.written, same.lockWaiters]; exact wired.commands
  dials := wired.dials
  hangups := wired.hangups
  owned := wired.owned
  pending := fun at_ pending => wired.pending at_ (same.pending pending)
  slots := wired.slots
  filled := wired.filled

theorem wired_dropTask (wired : Wired s) (index : Nat) : Wired (s.dropTask index) :=
  wired_sameSends wired ⟨rfl, rfl, rfl, rfl⟩

theorem wired_setStream (wired : Wired s) {stream : StreamPc}
    (slot : ∀ c, s.CallAt call c → Slot s.active call c →
      Slot s.active call { c with stream := stream }) : Wired (s.setStream call stream) :=
  wired_modify wired (fun _ => ⟨rfl, rfl⟩) (fun _ _ => .inl rfl) slot

theorem wired_gotItem (wired : Wired s) {source : Nat} {connectedSeen : Bool}
    {item : Option AtEvent} (at_ : s.CallAt call c)
    (stream : c.stream = .waiting source connectedSeen) :
    Wired (s.gotItem call source connectedSeen item) := by
  have running : c.stream.iterating = true := by rw [stream]; rfl
  obtain ⟨active, ended⟩ := wired.running_active at_ running
  have yields : ∀ event seen, Wired (s.setStream call (.yielded source seen event)) := by
    refine fun event seen => wired_setStream wired fun c' at' slot => ?_
    obtain rfl := Option.some.inj (at_.symm.trans at')
    refine ⟨fun waits => absurd waits ended, fun _ => active, fun k reads => slot.source k ?_⟩
    rw [stream]
    exact reads
  unfold gotItem
  split
  · exact wired_endStream wired at_ running
  · split
    · exact wired
    · exact yields _ _
  · exact yields _ _

/-- **One step.** -/
theorem wired_step {action : SerialAction} (wired : Wired s) (next : s.step action = some t) :
    Wired t := by
  cases step_cases next with
  | dialRefused | hangupIgnored => exact wired
  | dial free => exact wired_dial wired free _
  | hangup active =>
      refine wired_send wired (fun _ _ isDial => by cases isDial) fun isHangup => ?_
      obtain rfl := Owner.hangup.inj isHangup
      exact wired.filled active
  | query query =>
      exact wired_send wired (fun _ _ isDial => by cases isDial) fun isHangup => by cases isHangup
  | serial may stepped =>
      refine wired_moved wired (fun command sends => ?_) stepped
      rw [sends] at may
      cases may
  | read raw => exact wired_sameSends wired (s.atClient.readLine_sameSends raw)
  | eof => exact wired_sameSends wired s.atClient.readEof_sameSends
  | urc => exact wired_put (wired_dropTask wired _) _
  | urcIgnored => exact wired_dropTask wired _
  | poll =>
      refine wired_send (wired_aside wired fun _ => ⟨rfl, rfl, rfl, rfl⟩)
        (fun _ _ isDial => by cases isDial) fun isHangup => by cases isHangup
  | pollDone => exact wired_aside wired fun _ => ⟨rfl, rfl, rfl, rfl⟩
  | @streamStarted call source c at_ stream active =>
      refine wired_setStream wired fun c' at' slot => ?_
      obtain rfl := Option.some.inj (at_.symm.trans at')
      have mine : s.active = some call := slot.opened (by rw [stream]; rfl)
      obtain rfl : call = source := Option.some.inj (mine.symm.trans active)
      refine ⟨fun waits => ?_, fun _ => mine, fun k reads => (Option.some.inj reads).symm⟩
      rw [(slot.awaiting waits).2] at stream
      cases stream
  | @streamResumed call source c connectedSeen event at_ stream more =>
      refine wired_setStream wired fun c' at' slot => ?_
      obtain rfl := Option.some.inj (at_.symm.trans at')
      obtain ⟨active, ended⟩ := wired.running_active at_ (by rw [stream]; rfl)
      refine ⟨fun waits => absurd waits ended, fun _ => active, fun k reads => slot.source k ?_⟩
      rw [stream]
      exact reads
  | streamOver at_ stream => exact wired_endStream wired at_ (by rw [stream]; rfl)
  | @streamShut _ call c stream at_ handed shut =>
      refine wired_setStream wired fun c' at' slot => ?_
      obtain rfl := Option.some.inj (at_.symm.trans at')
      have ended : c.dial ≠ .awaiting := slot.isOver handed
      rcases shut with rfl | rfl <;>
        exact ⟨fun waits => absurd waits ended, fun opened => (by cases opened),
          fun k source => by cases source⟩
  | @got call source c from_ connectedSeen item rest at_ stream reads queue =>
      have popped : Wired (s.modify source fun c => { c with queue := rest }) :=
        wired_aside wired fun _ => ⟨rfl, rfl, rfl, rfl⟩
      refine wired_gotItem popped (modify_callAt.mpr ⟨c, at_, rfl⟩) ?_
      split <;> exact stream
  | streamClosed at_ running => exact wired_endStream wired at_ running
  | aclose active =>
      have closing : Wired { s with closing := true } := wired_congr wired rfl rfl rfl rfl
      exact wired_put (wired_cancelPoller closing) none
  | acloseIdle =>
      have closing : Wired { s with closing := true } := wired_congr wired rfl rfl rfl rfl
      exact wired_cancelPoller closing
  | acloseSerial => exact wired_sameSends wired ⟨rfl, rfl, rfl, rfl⟩

/-! ## Whose the sends are -/

@[simp] theorem settle_owners (s : SerialAtClient) (ended : Nat × SendOutcome) :
    (s.settle ended).owners = s.owners := by
  unfold settle
  split
  · unfold dialEnded
    split
    · rfl
    · split <;> simp [modify, resetCallState]
  · unfold hangupEnded
    split <;> rfl
  · cases ended.2 with
    | returned response =>
        simp only [pollEnded, pollAgain]
        repeat' split
        all_goals rfl
    | _ => rfl
  · rfl

theorem send_owners (s : SerialAtClient) (owner : Owner) :
    (s.send owner).owners = s.owners ++ [owner] := by
  rw [send_eq]
  dsimp only
  split
  · exact settle_owners _ _
  · rfl

theorem endStream_owners (s : SerialAtClient) (call : Nat) :
    (s.endStream call).owners = s.owners := by
  unfold endStream
  dsimp only
  split <;> simp [resetCallState, setStream, modify]

/-- Each send belongs to whoever began it, an ATH to the call in the slot. -/
theorem owners_step {action : SerialAction} (next : s.step action = some t) :
    t.owners = s.owners ∨ ∃ owner, t.owners = s.owners ++ [owner] ∧
      ∀ call, owner = .hangup call → s.active = some call := by
  cases step_cases next with
  | dial | poll => exact .inr ⟨_, send_owners _ _, fun _ isHangup => by cases isHangup⟩
  | query query => exact .inr ⟨_, send_owners _ _, fun _ isHangup => by cases isHangup⟩
  | hangup active =>
      refine .inr ⟨_, send_owners _ _, fun call isHangup => ?_⟩
      rw [← Owner.hangup.inj isHangup]
      exact active
  | serial may stepped =>
      left
      rw [moved_eq stepped]
      split
      · exact settle_owners _ _
      · rfl
  | streamOver | streamClosed => exact .inl (endStream_owners _ _)
  | got =>
      left
      unfold gotItem
      split
      · exact endStream_owners _ _
      · split <;> rfl
      · rfl
  | aclose | acloseIdle => exact .inl (cancelPoller_owners _)
  | _ => exact .inl rfl

theorem owner_stays {action : SerialAction} {id : Nat} {owner : Owner}
    (next : s.step action = some t) (owns : s.owners[id]? = some owner) :
    t.owners[id]? = some owner := by
  rcases owners_step next with same | ⟨new, more, -⟩
  · rw [same]
    exact owns
  · rw [more, List.getElem?_append_left (List.getElem?_eq_some_iff.mp owns).1]
    exact owns

/-! ### `closing` -/

theorem cancelPoller_closing (s : SerialAtClient) : s.cancelPoller.closing = s.closing := by
  unfold cancelPoller
  split <;> rfl

theorem settle_closing (s : SerialAtClient) (ended : Nat × SendOutcome) :
    (s.settle ended).closing = s.closing := by
  unfold settle
  split
  · unfold dialEnded
    split
    · rfl
    · split
      · rfl
      · exact cancelPoller_closing s
  · unfold hangupEnded
    split <;> rfl
  · cases ended.2 with
    | returned response =>
        simp only [pollEnded, pollAgain]
        repeat' split
        all_goals rfl
    | _ => rfl
  · rfl

theorem moved_closing {action : AtAction} {a : AtClient} (next : s.atClient.step action = some a) :
    (s.moved a).closing = s.closing := by
  rw [moved_eq next]
  split
  · exact settle_closing _ _
  · rfl

theorem send_closing (s : SerialAtClient) (owner : Owner) : (s.send owner).closing = s.closing := by
  have next : ({ s with owners := s.owners ++ [owner] } : SerialAtClient).atClient.step
      (.send owner.command) = some (s.atClient.callSend owner.command) := rfl
  exact moved_closing next

theorem endStream_closing (s : SerialAtClient) (call : Nat) :
    (s.endStream call).closing = s.closing := by
  unfold endStream
  dsimp only
  split
  · exact cancelPoller_closing _
  · rfl

/-- Only `aclose` says that the client is closing. -/
theorem closing_step {action : SerialAction} (next : s.step action = some t)
    (open_ : action ≠ .aclose) : t.closing = s.closing := by
  cases step_cases next with
  | dial | hangup | query | poll => exact send_closing _ _
  | serial may stepped => exact moved_closing stepped
  | streamOver | streamClosed => exact endStream_closing _ _
  | got =>
      unfold gotItem
      split
      · exact endStream_closing _ _
      · split <;> rfl
      · rfl
  | aclose | acloseIdle => exact absurd rfl open_
  | _ => rfl

/-- A call is there to stay. -/
theorem callAt_stays {action : SerialAction} (wired : Wired s) (next : s.step action = some t)
    (at_ : s.CallAt call c) : ∃ c', t.CallAt call c' ∧ c'.atd = c.atd :=
  (wired_step wired next).dials (owner_stays next (wired.owned at_))

end SerialAtClient

end IsalesTelephony.Modem
