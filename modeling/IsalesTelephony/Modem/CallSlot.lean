/-
# Modem.CallSlot -- one call, its stream and the slot

What a step does to one call, as far as its dial, its event stream and the slot
go (`CallMoves`, `call_step`), and to the slot itself (`active_step`).  Everything
else a step does -- lines, sends, queues, pollers -- keeps them (`Keeps`).

A call that holds the slot is being dialled, or its stream is open (`Held`).  Two
moves break this: to cancel an ATD, since `CancelledError` is no `Exception`, and to
close a stream that was never started, which has no `finally` to run.

* `unstarted_stream_keeps_slot`: such a stream is closed, and the slot stays taken;
* `held_step`: the other moves keep `Held`;
* `slot_never_leaks`: hence in a run of these no ended call holds the slot.
-/
import IsalesTelephony.Modem.SerialSteps

namespace IsalesTelephony.Modem

set_option autoImplicit false

open IsalesTelephony.Theory.Transition

namespace SerialAtClient

variable {s t u : SerialAtClient} {call k : Nat} {c c' : Call} {f : Call → Call}

/-! ## What leaves a call as it is -/

/-- The calls keep their dials and their streams. -/
def Keeps (s t : SerialAtClient) : Prop :=
  ∀ k c', t.CallAt k c' → ∃ c, s.CallAt k c ∧ c'.dial = c.dial ∧ c'.stream = c.stream

theorem keeps_of_calls (calls : t.calls = s.calls) : Keeps s t := fun _ c' at' =>
  ⟨c', by rw [CallAt, calls] at at'; exact at', rfl, rfl⟩

theorem Keeps.trans (first : Keeps s t) (second : Keeps t u) : Keeps s u := by
  intro k c'' at''
  obtain ⟨c', at', dial', stream'⟩ := second k c'' at''
  obtain ⟨c, at_, dial, stream⟩ := first k c' at'
  exact ⟨c, at_, dial'.trans dial, stream'.trans stream⟩

theorem keeps_modify (same : ∀ c, (f c).dial = c.dial ∧ (f c).stream = c.stream) :
    Keeps s (s.modify call f) := by
  intro k c' at'
  obtain ⟨c, at_, rfl⟩ := modify_callAt.mp at'
  refine ⟨c, at_, ?_⟩
  split
  · exact same c
  · exact ⟨rfl, rfl⟩

theorem keeps_put (s : SerialAtClient) (call : Nat) (item : Option AtEvent) :
    Keeps s (s.put call item) := keeps_modify fun _ => ⟨rfl, rfl⟩

theorem keeps_cancelPoller (s : SerialAtClient) : Keeps s s.cancelPoller := by
  unfold cancelPoller
  split
  · refine keeps_modify fun c => ?_
    split <;> exact ⟨rfl, rfl⟩
  · exact keeps_of_calls rfl

theorem keeps_resetCallState (s : SerialAtClient) : Keeps s s.resetCallState :=
  (keeps_cancelPoller s).trans (keeps_of_calls rfl)

theorem keeps_hangupEnded (s : SerialAtClient) (call : Nat) (outcome : SendOutcome) :
    Keeps s (s.hangupEnded call outcome) := by
  unfold hangupEnded
  split
  · exact keeps_of_calls rfl
  · exact keeps_put s call _

theorem keeps_pollEnded (s : SerialAtClient) (call : Nat) (outcome : SendOutcome) :
    Keeps s (s.pollEnded call outcome) := by
  have again : Keeps s (s.pollAgain call) := keeps_modify fun _ => ⟨rfl, rfl⟩
  have done : Keeps s (s.modify call fun c => { c with poller := .done }) :=
    keeps_modify fun _ => ⟨rfl, rfl⟩
  cases outcome with
  | returned response =>
      simp only [pollEnded]
      split
      · split
        · exact done.trans (keeps_put _ _ _)
        · exact done
      · exact again
  | raised | timedOut | clientClosed => exact again
  | encodeFailed | drainFailed | cancelled => exact done

/-! ## One call -/

/-- What one step does to a call. -/
inductive CallMoves (s t : SerialAtClient) (action : SerialAction) (call : Nat) (c c' : Call) : Prop
  | kept (dial : c'.dial = c.dial) (stream : c'.stream = c.stream)
  | accepted (waits : c.dial = .awaiting) (dial : c'.dial = .returned)
      (stream : c'.stream = .unstarted)
  | refused {cause : Text} (waits : c.dial = .awaiting) (dial : c'.dial = .returned)
      (stream : c'.stream = .single (.remoteHangup call cause)) (freed : t.active = none)
  | cancelled {id : Nat} (from_ : action = .serial (.cancel id)) (own : s.isDial id = true)
      (waits : c.dial = .awaiting) (dial : c'.dial = .cancelled) (stream : c'.stream = c.stream)
  | running (moves : action.stream? = some call) (dial : c'.dial = c.dial)
      (before : c.stream.isOpen = true) (now : c'.stream.iterating = true)
  | ended (moves : action.stream? = some call) (dial : c'.dial = c.dial)
      (handed : c.stream ≠ .absent) (isOver : c'.stream.isOpen = false)
      (slot : t.active = some call → c.stream.isOpen = true →
        action = .close call ∧ c.stream = .unstarted)

theorem CallMoves.congr {action : SerialAction} {d : Call} (moves : CallMoves s t action k d c')
    (owners : s.owners = u.owners) (dial : d.dial = c.dial) (stream : d.stream = c.stream) :
    CallMoves u t action k c c' := by
  cases moves with
  | kept dial' stream' => exact .kept (dial'.trans dial) (stream'.trans stream)
  | accepted waits dial' stream' => exact .accepted (dial ▸ waits) dial' stream'
  | refused waits dial' stream' freed => exact .refused (dial ▸ waits) dial' stream' freed
  | cancelled from_ own waits dial' stream' =>
      refine .cancelled from_ ?_ (dial ▸ waits) dial' (stream'.trans stream)
      rw [isDial, ← owners]
      exact own
  | running moves dial' before now => exact .running moves (dial'.trans dial) (stream ▸ before) now
  | ended moves dial' handed isOver slot =>
      exact .ended moves (dial'.trans dial) (stream ▸ handed) isOver (stream ▸ slot)

/-- What a new call is after its step. -/
structure CallBegins (s t : SerialAtClient) (action : SerialAction) (call : Nat) (c' : Call) :
    Prop where
  number : ∃ number, action = .dial number
  free : s.active = none
  last : call = s.calls.length
  dial : c'.dial = .awaiting ∧ c'.stream = .absent ∨
    c'.dial = .returned ∧ (∃ cause, c'.stream = .single (.remoteHangup call cause)) ∧ t.active = none

/-- The end of an ATD, for its call. -/
def DialEnds (s t : SerialAtClient) (outcome : SendOutcome) (call : Nat) (c c' : Call) : Prop :=
  c'.dial = .cancelled ∧ c'.stream = c.stream ∧ outcome = .cancelled ∨
    c'.dial = .returned ∧ c'.stream = .unstarted ∧ t.active = s.active ∧ outcome ≠ .clientClosed ∨
    c'.dial = .returned ∧ (∃ cause, c'.stream = .single (.remoteHangup call cause)) ∧ t.active = none

theorem dialEnded_callAt {outcome : SendOutcome} (at' : (s.dialEnded call outcome).CallAt k c') :
    ∃ c, s.CallAt k c ∧ (c'.dial = c.dial ∧ c'.stream = c.stream ∨
      k = call ∧ DialEnds s (s.dialEnded call outcome) outcome k c c') := by
  unfold dialEnded at at' ⊢
  split at at'
  · rename_i cut
    obtain ⟨c, at_, rfl⟩ := modify_callAt.mp at'
    refine ⟨c, at_, ?_⟩
    split
    · rename_i here
      refine .inr ⟨here, .inl ⟨rfl, rfl, ?_⟩⟩
      cases outcome <;> simp_all [ModemDriver.dialResult, SendOutcome.exception?]
    · exact .inl ⟨rfl, rfl⟩
  · rename_i result ended
    split at at'
    · rename_i connected
      obtain ⟨c, at_, rfl⟩ := modify_callAt.mp at'
      refine ⟨c, at_, ?_⟩
      split
      · rename_i here
        refine .inr ⟨here, .inr (.inl ⟨rfl, rfl, ?_, ?_⟩)⟩
        · rfl
        · rintro rfl
          obtain rfl := Option.some.inj ended
          cases connected
      · exact .inl ⟨rfl, rfl⟩
    · obtain ⟨mid, atMid, rfl⟩ := modify_callAt.mp at'
      obtain ⟨c, at_, dial, stream⟩ := keeps_resetCallState s k mid atMid
      refine ⟨c, at_, ?_⟩
      split
      · rename_i here
        subst here
        exact .inr ⟨rfl, .inr (.inr ⟨rfl, ⟨_, rfl⟩, rfl⟩)⟩
      · exact .inl ⟨dial, stream⟩

/-- A send has ended: its own dial may have. -/
theorem settle_callAt {id : Nat} {outcome : SendOutcome}
    (at' : (s.settle (id, outcome)).CallAt k c') :
    ∃ c, s.CallAt k c ∧ (c'.dial = c.dial ∧ c'.stream = c.stream ∨
      (∃ number, s.owners[id]? = some (.dial k number)) ∧
        DialEnds s (s.settle (id, outcome)) outcome k c c') := by
  cases owner : s.owners[id]? with
  | none =>
      simp only [settle, owner] at at' ⊢
      exact ⟨c', at', .inl ⟨rfl, rfl⟩⟩
  | some who =>
      cases who with
      | dial call number =>
          simp only [settle, owner] at at' ⊢
          obtain ⟨c, at_, moved⟩ := dialEnded_callAt at'
          refine ⟨c, at_, moved.imp_right fun ⟨here, ends⟩ => ?_⟩
          subst here
          exact ⟨⟨number, rfl⟩, ends⟩
      | hangup call =>
          simp only [settle, owner] at at' ⊢
          obtain ⟨c, at_, kept⟩ := keeps_hangupEnded s call outcome k c' at'
          exact ⟨c, at_, .inl kept⟩
      | poll call =>
          simp only [settle, owner] at at' ⊢
          obtain ⟨c, at_, kept⟩ := keeps_pollEnded s call outcome k c' at'
          exact ⟨c, at_, .inl kept⟩
      | query query =>
          simp only [settle, owner] at at' ⊢
          exact ⟨c', at', .inl ⟨rfl, rfl⟩⟩

/-- A send that is no ATD begins, and may end at once. -/
theorem keeps_send {owner : Owner} (counted : s.owners.length = s.atClient.nextSend)
    (own : ∀ call number, owner ≠ .dial call number) : Keeps s (s.send owner) := by
  intro k c' at'
  rw [send_eq] at at'
  dsimp only at at'
  split at at'
  · obtain ⟨c, at_, kept | ⟨⟨number, isOwner⟩, -⟩⟩ := settle_callAt at'
    · exact ⟨c, at_, kept⟩
    · have isOwner : (s.owners ++ [owner])[s.atClient.nextSend]? = _ := isOwner
      rw [getElem?_snoc, if_pos counted.symm] at isOwner
      exact absurd (Option.some.inj isOwner) (own k number)
  · exact ⟨c', at', rfl, rfl⟩

theorem ends_cancelled {a : AtClient} {action : AtAction} {id : Nat}
    (ended : a.ends action = some (id, .cancelled)) : action = .cancel id := by
  cases action with
  | cancel other => exact congrArg _ (Prod.mk.inj (Option.some.inj ended)).1
  | acquire | receive | send =>
      simp only [AtClient.ends, AtClient.outcomeOf] at ended
      repeat' split at ended
      all_goals simp at ended
  | _ => simp [AtClient.ends] at ended

theorem moved_callAt {action : AtAction} {a : AtClient} (wired : Wired s)
    (own : ∀ command, action ≠ .send command) (next : s.atClient.step action = some a)
    (at' : (s.moved a).CallAt k c') :
    ∃ c, s.CallAt k c ∧ CallMoves s (s.moved a) (.serial action) k c c' := by
  rw [moved_eq next] at at' ⊢
  cases isEnd : s.atClient.ends action with
  | none =>
      rw [isEnd] at at'
      exact ⟨c', at', .kept rfl rfl⟩
  | some ended =>
      obtain ⟨id, outcome⟩ := ended
      rw [isEnd] at at'
      obtain ⟨c, at_, ⟨dial, stream⟩ | ⟨⟨number, owner⟩, ends⟩⟩ := settle_callAt at'
      · exact ⟨c, at_, .kept dial stream⟩
      · have at_ : s.CallAt k c := at_
        refine ⟨c, at_, ?_⟩
        have waits : c.dial = .awaiting := by
          obtain ⟨known, here, rfl⟩ := wired.dials owner
          obtain rfl := Option.some.inj (here.symm.trans at_)
          exact wired.pending at_ ((AtClient.ends_pending next isEnd).resolve_right fun new =>
            own _ new.1.choose_spec)
        rcases ends with ⟨dial, stream, rfl⟩ | ⟨dial, stream, -⟩ | ⟨dial, ⟨cause, stream⟩, freed⟩
        · obtain rfl := ends_cancelled isEnd
          exact .cancelled rfl (by simp [isDial, show s.owners[id]? = _ from owner]) waits dial stream
        · exact .accepted waits dial stream
        · exact .refused waits dial stream freed

/-- `dial` adds a call; on a closed AT client it is over at once. -/
theorem dial_callAt {number : Text} (counted : s.owners.length = s.atClient.nextSend)
    (free : s.active = none)
    (at' : ((s.taken number).send (.dial s.calls.length number)).CallAt k c') :
    (∃ c, s.CallAt k c ∧ c'.dial = c.dial ∧ c'.stream = c.stream) ∨
      CallBegins s ((s.taken number).send (.dial s.calls.length number)) (.dial number) k c' := by
  rw [send_eq] at at' ⊢
  dsimp only at at' ⊢
  split at at'
  · rename_i closed
    rw [if_pos closed]
    obtain ⟨c, at_, kept | ⟨⟨number', isOwner⟩, ends⟩⟩ := settle_callAt at'
    · rcases taken_callAt.mp at_ with before | ⟨rfl, rfl⟩
      · exact .inl ⟨c, before, kept⟩
      · exact .inr ⟨⟨number, rfl⟩, free, rfl, .inl kept⟩
    · have isOwner : (s.owners ++ [.dial s.calls.length number])[s.atClient.nextSend]? = _ := isOwner
      rw [getElem?_snoc, if_pos counted.symm] at isOwner
      obtain ⟨rfl, rfl⟩ := Owner.dial.inj (Option.some.inj isOwner)
      rcases ends with ⟨-, -, cut⟩ | ⟨-, -, -, open_⟩ | ⟨dial, ⟨cause, stream⟩, freed⟩
      · cases cut
      · exact absurd rfl open_
      · exact .inr ⟨⟨number, rfl⟩, free, rfl, .inr ⟨dial, ⟨cause, stream⟩, freed⟩⟩
  · rename_i closed
    rw [if_neg closed]
    rcases taken_callAt.mp at' with before | ⟨rfl, rfl⟩
    · exact .inl ⟨c', before, rfl, rfl⟩
    · exact .inr ⟨⟨number, rfl⟩, free, rfl, .inl ⟨rfl, rfl⟩⟩

/-- The generator of a call moves. -/
theorem setStream_callAt {stream : StreamPc} (at' : (s.setStream call stream).CallAt k c') :
    ∃ c, s.CallAt k c ∧ (k = call ∧ c' = { c with stream := stream } ∨ k ≠ call ∧ c' = c) := by
  obtain ⟨c, at_, rfl⟩ := modify_callAt.mp at'
  refine ⟨c, at_, ?_⟩
  split
  · rename_i here
    exact .inl ⟨here, rfl⟩
  · rename_i other
    exact .inr ⟨other, rfl⟩

theorem endStream_callAt (at' : (s.endStream call).CallAt k c') :
    ∃ c, s.CallAt k c ∧ c'.dial = c.dial ∧
      (k = call ∧ c'.stream = .closed ∨ k ≠ call ∧ c'.stream = c.stream) := by
  have closed : ∀ {d}, (s.setStream call .closed).CallAt k d →
      ∃ c, s.CallAt k c ∧ d.dial = c.dial ∧
        (k = call ∧ d.stream = .closed ∨ k ≠ call ∧ d.stream = c.stream) := by
    intro d at_
    obtain ⟨c, before, ⟨here, rfl⟩ | ⟨other, rfl⟩⟩ := setStream_callAt at_
    · exact ⟨c, before, rfl, .inl ⟨here, rfl⟩⟩
    · exact ⟨d, before, rfl, .inr ⟨other, rfl⟩⟩
  unfold endStream at at'
  dsimp only at at'
  split at at'
  · obtain ⟨mid, atMid, dial, stream⟩ := keeps_resetCallState _ k c' at'
    obtain ⟨c, before, dial', streams⟩ := closed atMid
    exact ⟨c, before, dial.trans dial', by rw [stream]; exact streams⟩
  · exact closed at'

/-- A generator that ends lets go of the slot its call holds. -/
theorem endStream_active : (s.endStream call).active ≠ some call := by
  unfold endStream
  dsimp only
  split
  · simp [resetCallState]
  · rename_i other
    exact other

theorem endStream_moves {action : SerialAction} (at_ : s.CallAt call c) (handed : c.stream ≠ .absent)
    (moves : action.stream? = some call) (at' : (s.endStream call).CallAt k c') :
    ∃ c₀, s.CallAt k c₀ ∧ CallMoves s (s.endStream call) action k c₀ c' := by
  obtain ⟨c₀, before, dial, ⟨rfl, isOver⟩ | ⟨-, same⟩⟩ := endStream_callAt at'
  · obtain rfl := Option.some.inj (at_.symm.trans before)
    exact ⟨c, before, .ended moves dial handed (by rw [isOver]; rfl) fun held =>
      absurd held endStream_active⟩
  · exact ⟨c₀, before, .kept dial same⟩

theorem gotItem_callAt {source : Nat} {connectedSeen : Bool} {item : Option AtEvent}
    (at_ : s.CallAt call c) (stream : c.stream = .waiting source connectedSeen)
    (at' : (s.gotItem call source connectedSeen item).CallAt k c') :
    ∃ c₀, s.CallAt k c₀ ∧
      CallMoves s (s.gotItem call source connectedSeen item) (.wake call) k c₀ c' := by
  have opened : c.stream.isOpen = true := by rw [stream]; rfl
  have yields : ∀ {seen event t}, (s.setStream call (.yielded source seen event)).CallAt k c' →
      ∃ c₀, s.CallAt k c₀ ∧ CallMoves s t (.wake call) k c₀ c' := by
    intro seen event t at'
    obtain ⟨c₀, before, ⟨rfl, rfl⟩ | ⟨-, rfl⟩⟩ := setStream_callAt at'
    · obtain rfl := Option.some.inj (at_.symm.trans before)
      exact ⟨c, before, .running rfl rfl opened rfl⟩
    · exact ⟨c', before, .kept rfl rfl⟩
  unfold gotItem at at' ⊢
  split at at'
  · exact endStream_moves at_ (by rw [stream]; simp) rfl at'
  · split at at'
    · exact ⟨c', at', .kept rfl rfl⟩
    · exact yields at'
  · exact yields at'

/-- Beside `dial`, the calls of `send` and the event streams, nothing moves a dial or a
stream. -/
theorem keeps_step {action : SerialAction} (wired : Wired s) (next : s.step action = some t)
    (undialled : ∀ number, action ≠ .dial number) (unsent : ∀ a, action ≠ .serial a)
    (still : action.stream? = none) : Keeps s t := by
  cases step_cases next with
  | dial => exact absurd rfl (undialled _)
  | serial => exact absurd rfl (unsent _)
  | hangup | query => exact keeps_send wired.counted fun _ _ isDial => by cases isDial
  | @poll call c =>
      have polling : Keeps s (s.modify call fun c => { c with poller := .polling }) :=
        keeps_modify fun _ => ⟨rfl, rfl⟩
      exact polling.trans (keeps_send wired.counted fun _ _ isDial => by cases isDial)
  | dialRefused | hangupIgnored | read | eof | acloseSerial | urcIgnored => exact keeps_of_calls rfl
  | urc => exact (keeps_of_calls rfl).trans (keeps_put (s.dropTask _) _ _)
  | pollDone => exact keeps_modify fun _ => ⟨rfl, rfl⟩
  | aclose => exact (keeps_cancelPoller { s with closing := true }).trans (keeps_put _ _ _)
  | acloseIdle => exact keeps_cancelPoller { s with closing := true }
  | streamStarted | streamResumed | streamOver | streamClosed | got => cases still
  | streamShut _ _ _ moves =>
      rw [still] at moves
      cases moves

/-- **One call.**  It moves as `CallMoves` says, or begins. -/
theorem call_step {action : SerialAction} (wired : Wired s) (next : s.step action = some t)
    (at' : t.CallAt k c') :
    (∃ c, s.CallAt k c ∧ CallMoves s t action k c c') ∨ CallBegins s t action k c' := by
  have quiet : Keeps s t → (∃ c, s.CallAt k c ∧ CallMoves s t action k c c') ∨
      CallBegins s t action k c' := by
    intro keeps
    obtain ⟨c, at_, dial, stream⟩ := keeps k c' at'
    exact .inl ⟨c, at_, .kept dial stream⟩
  cases step_cases next with
  | dial free =>
      rcases dial_callAt wired.counted free at' with ⟨c, at_, dial, stream⟩ | begins
      · exact .inl ⟨c, at_, .kept dial stream⟩
      · exact .inr begins
  | serial may stepped =>
      refine .inl (moved_callAt wired (fun command sends => ?_) stepped at')
      rw [sends] at may
      cases may
  | dialRefused => exact quiet (keeps_of_calls rfl)
  | pollDone => exact quiet (keeps_modify fun _ => ⟨rfl, rfl⟩)
  | hangup | hangupIgnored | query | poll | read | eof | urc | urcIgnored | aclose | acloseIdle
  | acloseSerial => exact quiet (keeps_step wired next nofun nofun rfl)
  | streamStarted at_ stream active =>
      left
      obtain ⟨c, before, ⟨rfl, rfl⟩ | ⟨-, rfl⟩⟩ := setStream_callAt at'
      · obtain rfl := Option.some.inj (at_.symm.trans before)
        exact ⟨_, before, .running rfl rfl (by rw [stream]; rfl) rfl⟩
      · exact ⟨c', before, .kept rfl rfl⟩
  | streamResumed at_ stream more =>
      left
      obtain ⟨c, before, ⟨rfl, rfl⟩ | ⟨-, rfl⟩⟩ := setStream_callAt at'
      · obtain rfl := Option.some.inj (at_.symm.trans before)
        exact ⟨_, before, .running rfl rfl (by rw [stream]; rfl) rfl⟩
      · exact ⟨c', before, .kept rfl rfl⟩
  | streamOver at_ stream last =>
      exact .inl (endStream_moves at_ (by rw [stream]; simp) rfl at')
  | streamClosed at_ running =>
      refine .inl (endStream_moves at_ (fun absent => ?_) rfl at')
      rw [absent] at running
      cases running
  | streamShut at_ handed shut moves from_ =>
      left
      obtain ⟨c, before, ⟨rfl, rfl⟩ | ⟨-, rfl⟩⟩ := setStream_callAt at'
      · obtain rfl := Option.some.inj (at_.symm.trans before)
        refine ⟨_, before, .ended moves rfl handed ?_ fun held opened => ?_⟩
        · rcases shut with rfl | rfl <;> rfl
        · refine (from_ opened).resolve_left fun free => ?_
          have held : s.active = some k := held
          rw [free] at held
          cases held
      · exact ⟨c', before, .kept rfl rfl⟩
  | @got call source c from_ connectedSeen item rest at_ stream reads queue =>
      left
      have popped : (s.modify source fun c => { c with queue := rest }).CallAt call
          (if call = source then { c with queue := rest } else c) :=
        modify_callAt.mpr ⟨c, at_, by split <;> rfl⟩
      obtain ⟨mid, atMid, moves⟩ := gotItem_callAt popped (by split <;> exact stream) at'
      obtain ⟨c₀, before, rfl⟩ := modify_callAt.mp atMid
      exact ⟨c₀, before, moves.congr rfl (by split <;> rfl) (by split <;> rfl)⟩

/-- A call whose stream does not move: only its dial may end. -/
theorem call_other {action : SerialAction} (wired : Wired s) (next : s.step action = some t)
    (other : action.stream? ≠ some call)
    (uncut : ∀ id, action = .serial (.cancel id) → s.isDial id = false) (at_ : s.CallAt call c) :
    ∃ c', t.CallAt call c' ∧ (c'.dial = c.dial ∧ c'.stream = c.stream ∨
      c.dial = .awaiting ∧ c'.dial = .returned ∧ (c'.stream = .unstarted ∨
        (∃ cause, c'.stream = .single (.remoteHangup call cause)) ∧ t.active = none)) := by
  obtain ⟨c', at', -⟩ := callAt_stays wired next at_
  refine ⟨c', at', ?_⟩
  rcases call_step wired next at' with ⟨c₀, before, moves⟩ | begins
  · obtain rfl := Option.some.inj (at_.symm.trans before)
    cases moves with
    | kept dial stream => exact .inl ⟨dial, stream⟩
    | accepted waits dial stream => exact .inr ⟨waits, dial, .inl stream⟩
    | refused waits dial stream freed => exact .inr ⟨waits, dial, .inr ⟨⟨_, stream⟩, freed⟩⟩
    | cancelled from_ own =>
        rw [uncut _ from_] at own
        cases own
    | running moves | ended moves => exact absurd moves other
  · have bound : call < s.calls.length := (List.getElem?_eq_some_iff.mp at_).1
    exact absurd begins.last (Nat.ne_of_lt bound)

/-- A dial that has returned stays so. -/
theorem returned_stays {action : SerialAction} (wired : Wired s) (next : s.step action = some t)
    (at_ : s.CallAt call c) (returned : c.dial = .returned) :
    ∃ c', t.CallAt call c' ∧ c'.dial = .returned := by
  obtain ⟨c', at', -⟩ := callAt_stays wired next at_
  refine ⟨c', at', ?_⟩
  rcases call_step wired next at' with ⟨c₀, before, moves⟩ | begins
  · obtain rfl := Option.some.inj (at_.symm.trans before)
    cases moves with
    | kept dial | running _ dial | ended _ dial => exact dial.trans returned
    | accepted _ dial | refused _ dial => exact dial
    | cancelled _ _ waits =>
        rw [returned] at waits
        cases waits
  · have bound : call < s.calls.length := (List.getElem?_eq_some_iff.mp at_).1
    exact absurd begins.last (Nat.ne_of_lt bound)

/-- A step of an event stream ends no dial. -/
theorem stream_keeps_dials {action : SerialAction} (next : s.step action = some t)
    (moves : action.stream? = some call) (at' : t.CallAt k c') :
    ∃ c, s.CallAt k c ∧ c'.dial = c.dial := by
  have sets : ∀ {u : SerialAtClient} {j stream}, (u.setStream j stream).CallAt k c' →
      ∃ c, u.CallAt k c ∧ c'.dial = c.dial := by
    intro u j stream at'
    obtain ⟨c, at_, ⟨-, rfl⟩ | ⟨-, rfl⟩⟩ := setStream_callAt at' <;> exact ⟨_, at_, rfl⟩
  have ends : ∀ {u : SerialAtClient} {j}, (u.endStream j).CallAt k c' →
      ∃ c, u.CallAt k c ∧ c'.dial = c.dial := by
    intro u j at'
    obtain ⟨c, at_, dial, -⟩ := endStream_callAt at'
    exact ⟨c, at_, dial⟩
  cases step_cases next with
  | streamStarted | streamResumed | streamShut => exact sets at'
  | streamOver | streamClosed => exact ends at'
  | @got call source c from_ connectedSeen item rest at_ stream reads queue =>
      have popped : ∀ {d}, (s.modify source fun c => { c with queue := rest }).CallAt k d →
          c'.dial = d.dial → ∃ c, s.CallAt k c ∧ c'.dial = c.dial := by
        intro d here dial
        obtain ⟨old, before, rfl⟩ := modify_callAt.mp here
        exact ⟨old, before, dial.trans (by split <;> rfl)⟩
      unfold gotItem at at'
      split at at'
      · obtain ⟨d, here, dial⟩ := ends at'
        exact popped here dial
      · split at at'
        · exact popped at' rfl
        · obtain ⟨d, here, dial⟩ := sets at'
          exact popped here dial
      · obtain ⟨d, here, dial⟩ := sets at'
        exact popped here dial
  | pollDone =>
      obtain ⟨c, at_, rfl⟩ := modify_callAt.mp at'
      exact ⟨c, at_, by split <;> rfl⟩
  | _ => cases moves

/-! ## The slot -/

theorem settle_active (s : SerialAtClient) (ended : Nat × SendOutcome) :
    (s.settle ended).active = s.active ∨ (s.settle ended).active = none := by
  unfold settle
  split
  · unfold dialEnded
    split
    · exact .inl rfl
    · split
      · exact .inl rfl
      · exact .inr rfl
  · unfold hangupEnded
    split <;> exact .inl rfl
  · left
    cases ended.2 with
    | returned response =>
        simp only [pollEnded, pollAgain]
        repeat' split
        all_goals rfl
    | _ => rfl
  · exact .inl rfl

theorem moved_active {action : AtAction} {a : AtClient} (next : s.atClient.step action = some a) :
    (s.moved a).active = s.active ∨ (s.moved a).active = none := by
  rw [moved_eq next]
  split
  · rename_i ended _
    exact settle_active { s with atClient := a } ended
  · exact .inl rfl

theorem send_active (s : SerialAtClient) (owner : Owner) :
    (s.send owner).active = s.active ∨ (s.send owner).active = none := by
  have next : ({ s with owners := s.owners ++ [owner] } : SerialAtClient).atClient.step
      (.send owner.command) = some (s.atClient.callSend owner.command) := rfl
  exact moved_active next

theorem endStream_active_cases (s : SerialAtClient) (call : Nat) :
    (s.endStream call).active = s.active ∨ (s.endStream call).active = none := by
  unfold endStream
  dsimp only
  split
  · exact .inr rfl
  · exact .inl rfl

/-- The slot is kept, let go, or taken by a new call. -/
theorem active_step {action : SerialAction} (next : s.step action = some t) :
    t.active = s.active ∨ t.active = none ∨
      (∃ number, action = .dial number) ∧ s.active = none ∧ t.active = some s.calls.length := by
  cases step_cases next with
  | @dial number free =>
      refine .inr ?_
      rcases send_active (s.taken number) (.dial s.calls.length number) with same | gone
      · exact .inr ⟨⟨number, rfl⟩, free, same⟩
      · exact .inl gone
  | hangup | query => exact (send_active s _).imp_right .inl
  | poll => exact (send_active _ _).imp_right .inl
  | serial may stepped => exact (moved_active stepped).imp_right .inl
  | streamOver | streamClosed => exact (endStream_active_cases s _).imp_right .inl
  | got =>
      unfold gotItem
      split
      · exact (endStream_active_cases _ _).imp_right .inl
      · split <;> exact .inl rfl
      · exact .inl rfl
  | aclose | acloseIdle => exact .inl (cancelPoller_active _)
  | _ => exact .inl rfl

/-- A call that is in the slot was, or begins. -/
theorem active_of_step {action : SerialAction} (next : s.step action = some t)
    (active : t.active = some k) :
    s.active = some k ∨ (∃ number, action = .dial number) ∧ s.active = none ∧ k = s.calls.length := by
  rcases active_step next with same | gone | ⟨dial, free, taken⟩
  · exact .inl (same ▸ active)
  · rw [gone] at active
    cases active
  · exact .inr ⟨dial, free, Option.some.inj (active.symm.trans taken)⟩

/-- A stream that runs out lets go of the slot. -/
theorem closed_frees {action : SerialAction} (wired : Wired s) (next : s.step action = some t)
    (at_ : s.CallAt call c) (opened : c.stream.isOpen = true) (at' : t.CallAt call c')
    (closed : c'.stream = .closed) (moves : action.stream? = some call)
    (runsOut : action ≠ .close call) : t.active = none := by
  have active : s.active = some call := (wired.slots at_).opened opened
  have gone : t.active ≠ some call := by
    intro held
    rcases call_step wired next at' with ⟨c₀, before, moved⟩ | begins
    · obtain rfl := Option.some.inj (at_.symm.trans before)
      cases moved with
      | kept _ stream | cancelled _ _ _ _ stream =>
          rw [← stream, closed] at opened
          cases opened
      | accepted _ _ stream | refused _ _ stream =>
          rw [closed] at stream
          cases stream
      | running _ _ _ now =>
          rw [closed] at now
          cases now
      | ended _ _ _ _ slot => exact runsOut (slot held opened).1
    · exact absurd begins.last (Nat.ne_of_lt (List.getElem?_eq_some_iff.mp at_).1)
  rcases active_step next with same | free | ⟨⟨number, rfl⟩, -⟩
  · rw [same] at gone
    exact absurd active gone
  · exact free
  · cases moves

/-- `dial` on a free slot adds its call. -/
theorem dial_begins (wired : Wired s) (free : s.active = none) (number : Text) :
    ∃ c', (s.dial number).CallAt s.calls.length c' ∧
      CallBegins s (s.dial number) (.dial number) s.calls.length c' := by
  have next : s.step (.dial number) = some (s.dial number) := rfl
  have sent : s.dial number = (s.taken number).send (.dial s.calls.length number) := by
    rw [dial, free]
    rfl
  have owner : (s.dial number).owners[s.owners.length]? = some (.dial s.calls.length number) := by
    have owners : (s.dial number).owners = s.owners ++ [.dial s.calls.length number] := by
      rw [sent]
      exact send_owners _ _
    rw [owners, getElem?_snoc, if_pos rfl]
  obtain ⟨c', at', -⟩ := (wired_step wired next).dials owner
  refine ⟨c', at', ?_⟩
  rcases call_step wired next at' with ⟨c, at_, -⟩ | begins
  · exact absurd (List.getElem?_eq_some_iff.mp at_).1 (Nat.lt_irrefl _)
  · exact begins

/-- `hangup` keeps the calls as they are. -/
theorem keeps_hangup (wired : Wired s) (call : Nat) : Keeps s (s.hangup call) := by
  unfold hangup
  split
  · exact keeps_send wired.counted fun _ _ isDial => by cases isDial
  · exact keeps_of_calls rfl

/-- No ATD is cancelled, and no stream closed that was never started. -/
def Releases (s : SerialAtClient) : SerialAction → Prop
  | .serial (.cancel id) => s.isDial id = false
  | .close call => ∀ c ∈ s.calls[call]?, c.stream ≠ .unstarted
  | _ => True

instance (s : SerialAtClient) (action : SerialAction) : Decidable (s.Releases action) := by
  unfold Releases
  induction action using SerialAction.casesOn with
  | serial action => induction action using AtAction.casesOn <;> infer_instance
  | _ => infer_instance

/-- The call in the slot is being dialled, or its stream is open. -/
structure Held (s : SerialAtClient) : Prop where
  uncut : ∀ call c, s.CallAt call c → c.dial ≠ .cancelled
  held : ∀ call c, s.active = some call → s.CallAt call c →
    c.dial = .awaiting ∨ c.stream.isOpen = true

theorem held_init : Held {} where
  uncut := fun _ _ at_ => by simp [CallAt] at at_
  held := fun _ _ active => by cases active

/-- **One step.**  A step that releases keeps the slot held by an open call. -/
theorem held_step {action : SerialAction} (wired : Wired s) (held : Held s)
    (releases : s.Releases action) (next : s.step action = some t) : Held t := by
  constructor
  · intro call c' at' cut
    rcases call_step wired next at' with ⟨c, at_, moves⟩ | begins
    · have uncut := held.uncut call c at_
      cases moves with
      | kept dial | running _ dial | ended _ dial => exact uncut (dial ▸ cut)
      | accepted _ dial | refused _ dial =>
          rw [dial] at cut
          cases cut
      | cancelled from_ own =>
          subst from_
          rw [show s.isDial _ = false from releases] at own
          cases own
    · rcases begins.dial with ⟨dial, -⟩ | ⟨dial, -⟩ <;> simp [dial] at cut
  · intro call c' active at'
    rcases call_step wired next at' with ⟨c, at_, moves⟩ | begins
    · have before : s.active = some call := by
        refine (active_of_step next active).resolve_right fun new => ?_
        obtain ⟨-, -, rfl⟩ := new
        exact absurd (List.getElem?_eq_some_iff.mp at_).1 (Nat.lt_irrefl _)
      have holds := held.held call c before at_
      cases moves with
      | kept dial stream =>
          rw [dial, stream]
          exact holds
      | accepted _ _ stream => exact .inr (by rw [stream]; rfl)
      | refused _ _ _ freed =>
          rw [freed] at active
          cases active
      | cancelled from_ own =>
          subst from_
          rw [show s.isDial _ = false from releases] at own
          cases own
      | running _ _ _ now => exact .inr (isOpen_of_iterating now)
      | ended _ dial handed _ slot =>
          exfalso
          rcases holds with waits | opened
          · exact handed ((wired.slots at_).awaiting waits).2
          · obtain ⟨rfl, unstarted⟩ := slot active opened
            exact releases c (by simpa using at_) unstarted
    · rcases begins.dial with ⟨dial, -⟩ | ⟨-, -, freed⟩
      · exact .inl dial
      · rw [freed] at active
        cases active

/-! ### Main result -/

/-- No call holds the slot whose `dial` ended without a stream, or whose stream was
exhausted, closed or dropped. -/
def NoLeak (s : SerialAtClient) : Prop :=
  ∀ call c, s.CallAt call c → c.dial = .cancelled ∨ c.dial = .returned ∧ c.stream = .closed →
    s.active ≠ some call

/-- **The slot never leaks**, in every run that cancels no ATD and closes no stream
before its first iteration. -/
theorem slot_never_leaks (s : SerialAtClient) (run : Reachable step Releases {} s) : NoLeak s := by
  have sound : Wired s ∧ Held s :=
    run.invariant (P := fun s => Wired s ∧ Held s) ⟨wired_init, held_init⟩
      fun _ _ _ ⟨wired, held⟩ releases next =>
        ⟨wired_step wired next, held_step wired held releases next⟩
  intro call c at_ gone active
  rcases gone with cut | ⟨returned, closed⟩
  · exact sound.2.uncut call c at_ cut
  · rcases sound.2.held call c active at_ with waits | opened
    · rw [returned] at waits
      cases waits
    · rw [closed] at opened
      cases opened

/-! ## Poles -/

/-- A call is dialled, its stream iterated and closed half-way. -/
def closedHalfWay : List SerialAction :=
  [.dial "10086".toList, .serial .acquire, .serial .drained, .read "OK".toList, .serial .receive,
    .next 0, .close 0]

theorem closed_half_way : (guardedRun step Releases {} closedHalfWay).isSome = true := by decide

theorem slot_free_after_close :
    (Option.get _ closed_half_way).calls.map (·.stream) = [.closed] ∧
      NoLeak (Option.get _ closed_half_way) :=
  ⟨by decide, slot_never_leaks _ (reachable_guarded_get closed_half_way)⟩

/-- The stream is dropped before its first iteration. -/
def droppedEarly : List SerialAction :=
  [.dial "10086".toList, .serial .acquire, .serial .drained, .read "OK".toList, .serial .receive,
    .close 0]

theorem dropped_early : (run step {} droppedEarly).isSome = true := by decide

/-- **A leaked slot.**  A generator that never ran has no `finally`: closing it leaves
the call in the slot. -/
theorem unstarted_stream_keeps_slot :
    ¬ ∀ s : SerialAtClient, Reachable step Free {} s → NoLeak s := by
  intro claim
  have call : ∃ c, (Option.get _ dropped_early).CallAt 0 c ∧ c.dial = .returned ∧
      c.stream = .closed := ⟨_, rfl, by decide⟩
  obtain ⟨c, at_, gone⟩ := call
  exact claim _ (reachable_get dropped_early) 0 c at_ (.inr gone) (by decide)

end SerialAtClient

end IsalesTelephony.Modem
