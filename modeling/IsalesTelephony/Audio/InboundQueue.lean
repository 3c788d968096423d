/-
# Audio.InboundQueue -- the end of the inbound frames

The three sessions hand the frames they receive to `audio_frames()` through a bounded
`asyncio.Queue`, and `leave` puts a sentinel on it at which the consumer's iteration ends.

* On Windows the drainer puts the frames; `leave` cancels it and, once it is over, puts the
  sentinel unless the queue is full.
* With PyObjC the SDK's callbacks put the frames, also after `leave`, which puts the sentinel
  unless the queue is full.
* In memory the peer puts the frames; `leave` waits for room for the sentinel.

A frame for a full queue takes the place of the oldest item, whatever it is, but is itself
dropped in memory.  So the sentinel may find no room, and with PyObjC it may be dropped by
frames that come later; else the consumer ends (`audio_frames_end`).

A session is joined once, one task leaves it, and one consumer iterates from before that.
-/
import IsalesTelephony.Audio.Pcm
import IsalesTelephony.Theory.Transition

namespace IsalesTelephony.Audio

set_option autoImplicit false

open IsalesTelephony.Theory.Transition

/-- What is on the inbound queue. -/
inductive Item where
  | frame (frame : PcmFrame)
  /-- `_DRAINER_SENTINEL`, or `None` -/
  | sentinel
  deriving DecidableEq, Repr

/-- The implementations of `RtcSession`. -/
inductive RtcImpl where
  | windows
  | pyObjC
  | inMemory
  deriving DecidableEq

/-- Where `leave` is. -/
inductive LeavePc where
  /-- not called -/
  | joined
  /-- awaits the cancelled drainer -/
  | stopping
  /-- awaits room for the sentinel -/
  | putting
  | left
  deriving DecidableEq

structure InboundQueue where
  maxsize : Nat
  positive : 0 < maxsize
  queue : List Item := []
  leave : LeavePc := .joined
  /-- the consumer's iteration is over -/
  ended : Bool := false
  /-- history: the frames the consumer was given -/
  yielded : List PcmFrame := []

inductive InboundAction where
  /-- a frame comes from the peer -/
  | post (frame : PcmFrame)
  | leave
  /-- the cancelled drainer is over -/
  | drainerEnded
  /-- `leave` goes on once there is room -/
  | putResumes
  /-- the consumer's `get` returns -/
  | consume

namespace InboundQueue

/-- `Queue.full()`. -/
def Full (s : InboundQueue) : Prop := s.maxsize ≤ s.queue.length

instance (s : InboundQueue) : Decidable s.Full := inferInstanceAs (Decidable (_ ≤ _))

/-- `put_nowait`; `none` is `QueueFull`. -/
def putNowait (s : InboundQueue) (item : Item) : Option InboundQueue :=
  if s.Full then none else some { s with queue := s.queue ++ [item] }

/-- Drop the oldest pending item, keep the new one. -/
def putDropOldest (s : InboundQueue) (frame : PcmFrame) : InboundQueue :=
  match s.putNowait (.frame frame) with
  | some t => t
  | none => { s with queue := s.queue.tail ++ [.frame frame] }

/-- The sentinel is put, unless the queue is full. -/
def putSentinel (s : InboundQueue) : InboundQueue :=
  let t := (s.putNowait .sentinel).getD s
  { t with leave := .left }

end InboundQueue

namespace WindowsDingRtcSession

/-- `_drain_loop` with a frame of the SDK's buffer. -/
def drainLoop (s : InboundQueue) (frame : PcmFrame) : InboundQueue :=
  -- nothing drains the SDK's buffer once `leave` has cancelled the drainer
  if s.leave = .joined then s.putDropOldest frame else s

def leave (s : InboundQueue) : InboundQueue := { s with leave := .stopping }

/-- The end of `_teardown_partial`. -/
def teardownPartial (s : InboundQueue) : InboundQueue := s.putSentinel

end WindowsDingRtcSession

namespace MacosDingRtcPyObjCSession

/-- `_on_audio_frame`. -/
def onAudioFrame (s : InboundQueue) (frame : PcmFrame) : InboundQueue := s.putDropOldest frame

def leave (s : InboundQueue) : InboundQueue := s.putSentinel

end MacosDingRtcPyObjCSession

namespace MacosRtcSession

/-- `push_audio` of the peer, as it finds this session. -/
def deliver (s : InboundQueue) (frame : PcmFrame) : InboundQueue :=
  if s.leave = .joined then (s.putNowait (.frame frame)).getD s else s

/-- `leave`, up to `await self._inbound.put(None)` or past it. -/
def leave (s : InboundQueue) : InboundQueue :=
  match s.putNowait .sentinel with
  | some t => { t with leave := .left }
  | none => { s with leave := .putting }

end MacosRtcSession

namespace InboundQueue

def post (s : InboundQueue) (frame : PcmFrame) : RtcImpl → InboundQueue
  | .windows => WindowsDingRtcSession.drainLoop s frame
  | .pyObjC => MacosDingRtcPyObjCSession.onAudioFrame s frame
  | .inMemory => MacosRtcSession.deliver s frame

def beginLeave (s : InboundQueue) : RtcImpl → InboundQueue
  | .windows => WindowsDingRtcSession.leave s
  | .pyObjC => MacosDingRtcPyObjCSession.leave s
  | .inMemory => MacosRtcSession.leave s

/-- The consumer has an item. -/
def take (s : InboundQueue) (rest : List Item) : Item → InboundQueue
  | .frame frame => { s with queue := rest, yielded := s.yielded ++ [frame] }
  | .sentinel => { s with queue := rest, ended := true }

def step (impl : RtcImpl) (s : InboundQueue) : InboundAction → Option InboundQueue
  | .post frame => some (s.post frame impl)
  | .leave =>
      match s.leave with
      | .joined => some (s.beginLeave impl)
      | .left => some s
      | _ => none
  | .drainerEnded =>
      if s.leave = .stopping then some (WindowsDingRtcSession.teardownPartial s) else none
  | .putResumes =>
      if s.leave = .putting then
        (s.putNowait .sentinel).map fun t => { t with leave := .left }
      else none
  | .consume =>
      if s.ended then none
      else
        match s.queue with
        | [] => none
        | item :: rest => some (s.take rest item)

/-! ## What `leave` promises -/

/-- `leave` never waits for a consumer, and once it is over the sentinel is on the queue until
the consumer has seen it. -/
structure EndsAfterLeave (s : InboundQueue) : Prop where
  unwaited : s.leave ≠ .putting
  kept : s.leave = .left → s.ended = true ∨ .sentinel ∈ s.queue

/-- The items up to the sentinel. -/
def remaining (s : InboundQueue) : Nat := if s.ended then 0 else s.queue.idxOf .sentinel + 1

/-- There is room for the sentinel, and it is not the item that a frame takes the place of. -/
def Roomy (impl : RtcImpl) (s : InboundQueue) : InboundAction → Prop
  | .leave => s.leave = .joined → impl = .windows ∨ ¬ s.Full
  | .drainerEnded => ¬ s.Full
  | .post _ => impl = .pyObjC → s.Full → s.queue.head? ≠ some .sentinel
  | _ => True

/-- The consumer has something to take and each item brings it closer to its end, whatever
else happens. -/
structure Finishes (impl : RtcImpl) (s : InboundQueue) : Prop where
  ready : (s.step impl .consume).isSome = true
  closer : ∀ action t, s.Roomy impl action → s.step impl action = some t →
    t.remaining ≤ s.remaining ∧ (action = .consume → t.remaining < s.remaining)

/-! ## One step -/

variable {impl : RtcImpl} {s t : InboundQueue} {action : InboundAction}

/-- What holds in every state. -/
structure Sound (s : InboundQueue) : Prop where
  before : s.leave ≠ .left → .sentinel ∉ s.queue ∧ s.ended = false
  once : s.queue.count .sentinel ≤ 1
  seen : s.ended = true → .sentinel ∉ s.queue

/-- What one step does. -/
inductive Moves (impl : RtcImpl) (s : InboundQueue) : InboundAction → InboundQueue → Prop
  | same {action : InboundAction} (aside : action ≠ .consume) : Moves impl s action s
  | stops (joined : s.leave = .joined) (windows : impl = .windows) :
      Moves impl s .leave { s with leave := .stopping }
  | waits (joined : s.leave = .joined) (inMemory : impl = .inMemory) (full : s.Full) :
      Moves impl s .leave { s with leave := .putting }
  | queues {frame : PcmFrame} (room : ¬ s.Full) :
      Moves impl s (.post frame) { s with queue := s.queue ++ [.frame frame] }
  | drops {frame : PcmFrame} (full : s.Full) (drop : impl = .pyObjC ∨ s.leave = .joined) :
      Moves impl s (.post frame) { s with queue := s.queue.tail ++ [.frame frame] }
  /-- the sentinel has room -/
  | puts {action : InboundAction} (before : s.leave ≠ .left) (room : ¬ s.Full) :
      Moves impl s action { s with queue := s.queue ++ [.sentinel], leave := .left }
  /-- the sentinel has no room -/
  | misses {action : InboundAction} (before : s.leave ≠ .left) (full : s.Full)
      (at_ : action = .drainerEnded ∨ action = .leave ∧ s.leave = .joined ∧ impl = .pyObjC) :
      Moves impl s action { s with leave := .left }
  | takes {item : Item} {rest : List Item} (going : s.ended = false)
      (head : s.queue = item :: rest) : Moves impl s .consume (s.take rest item)

theorem putNowait_cases (s : InboundQueue) (item : Item) :
    s.Full ∧ s.putNowait item = none ∨
      ¬ s.Full ∧ s.putNowait item = some { s with queue := s.queue ++ [item] } := by
  by_cases full : s.Full
  · exact .inl ⟨full, if_pos full⟩
  · exact .inr ⟨full, if_neg full⟩

theorem moves_putDropOldest (frame : PcmFrame) (drop : impl = .pyObjC ∨ s.leave = .joined) :
    Moves impl s (.post frame) (s.putDropOldest frame) := by
  unfold putDropOldest
  rcases s.putNowait_cases (.frame frame) with ⟨full, became⟩ | ⟨room, became⟩ <;> rw [became]
  · exact .drops full drop
  · exact .queues room

theorem moves_putSentinel (before : s.leave ≠ .left)
    (at_ : action = .drainerEnded ∨ action = .leave ∧ s.leave = .joined ∧ impl = .pyObjC) :
    Moves impl s action s.putSentinel := by
  unfold putSentinel
  rcases s.putNowait_cases .sentinel with ⟨full, became⟩ | ⟨room, became⟩ <;> rw [became]
  · exact .misses before full at_
  · exact .puts before room

theorem step_cases (ran : s.step impl action = some t) : Moves impl s action t := by
  cases action with
  | post frame =>
      obtain rfl := Option.some.inj ran
      cases impl with
      | windows =>
          simp only [post, WindowsDingRtcSession.drainLoop]
          split
          · rename_i joined
            exact moves_putDropOldest frame (.inr joined)
          · exact .same nofun
      | pyObjC => exact moves_putDropOldest frame (.inl rfl)
      | inMemory =>
          simp only [post, MacosRtcSession.deliver]
          split
          · rcases s.putNowait_cases (.frame frame) with ⟨full, became⟩ | ⟨room, became⟩ <;>
              rw [became]
            · exact .same nofun
            · exact .queues room
          · exact .same nofun
  | leave =>
      simp only [step] at ran
      split at ran
      · rename_i joined
        have before : s.leave ≠ .left := by rw [joined]; nofun
        obtain rfl := Option.some.inj ran
        cases impl with
        | windows => exact .stops joined rfl
        | pyObjC => exact moves_putSentinel before (.inr ⟨rfl, joined, rfl⟩)
        | inMemory =>
            simp only [beginLeave, MacosRtcSession.leave]
            rcases s.putNowait_cases .sentinel with ⟨full, became⟩ | ⟨room, became⟩ <;> rw [became]
            · exact .waits joined rfl full
            · exact .puts before room
      · obtain rfl := Option.some.inj ran
        exact .same nofun
      · cases ran
  | drainerEnded =>
      simp only [step] at ran
      split at ran
      · rename_i stopping
        obtain rfl := Option.some.inj ran
        exact moves_putSentinel (by rw [stopping]; nofun) (.inl rfl)
      · cases ran
  | putResumes =>
      simp only [step] at ran
      split at ran
      · rename_i putting
        rcases s.putNowait_cases .sentinel with ⟨full, became⟩ | ⟨room, became⟩ <;>
          rw [became] at ran
        · cases ran
        · obtain rfl := Option.some.inj ran
          exact .puts (by rw [putting]; nofun) room
      · cases ran
  | consume =>
      simp only [step] at ran
      split at ran
      · cases ran
      · rename_i going
        split at ran
        · cases ran
        · rename_i head
          obtain rfl := Option.some.inj ran
          exact .takes (Bool.eq_false_of_not_eq_true going) head

theorem notMem_concat {queue : List Item} {frame : PcmFrame} (not : .sentinel ∉ queue) :
    .sentinel ∉ queue ++ [.frame frame] := by
  intro member
  rcases List.mem_append.mp member with old | new
  · exact not old
  · exact absurd (List.mem_singleton.mp new) nofun

theorem count_concat (queue : List Item) (frame : PcmFrame) :
    (queue ++ [Item.frame frame]).count .sentinel = queue.count .sentinel := by
  rw [List.count_append, List.count_singleton]
  rfl

theorem sound_step (sound : Sound s) (ran : s.step impl action = some t) : Sound t := by
  cases step_cases ran with
  | same => exact sound
  | stops joined =>
      have before := sound.before (by rw [joined]; nofun)
      exact ⟨fun _ => before, sound.once, sound.seen⟩
  | waits joined =>
      have before := sound.before (by rw [joined]; nofun)
      exact ⟨fun _ => before, sound.once, sound.seen⟩
  | queues room =>
      refine ⟨fun unleft => ?_, ?_, fun ended => notMem_concat (sound.seen ended)⟩
      · exact ⟨notMem_concat (sound.before unleft).1, (sound.before unleft).2⟩
      · rw [count_concat]
        exact sound.once
  | drops full drop =>
      have fewer : s.queue.tail.Sublist s.queue := List.tail_sublist s.queue
      refine ⟨fun unleft => ?_, ?_, fun ended => ?_⟩
      · exact ⟨notMem_concat fun member => (sound.before unleft).1 (fewer.subset member),
          (sound.before unleft).2⟩
      · rw [count_concat]
        exact (fewer.count_le _).trans sound.once
      · exact notMem_concat fun member => sound.seen ended (fewer.subset member)
  | puts before room =>
      obtain ⟨absent, going⟩ := sound.before before
      refine ⟨fun unleft => absurd rfl unleft, ?_, fun ended => absurd (ended.symm.trans going) nofun⟩
      rw [List.count_append, List.count_eq_zero.mpr absent]
      rfl
  | misses before full at_ =>
      exact ⟨fun unleft => absurd rfl unleft, sound.once, sound.seen⟩
  | @takes item rest going head =>
      have once := sound.once
      rw [head, List.count_cons] at once
      cases item with
      | frame frame =>
          refine ⟨fun unleft => ⟨fun member => (sound.before unleft).1 ?_, going⟩,
            (Nat.le_add_right _ _).trans once, fun ended => absurd (ended.symm.trans going) nofun⟩
          rw [head]
          exact List.mem_cons_of_mem _ member
      | sentinel =>
          refine ⟨fun unleft => ?_, (Nat.le_add_right _ _).trans once, fun _ member => ?_⟩
          · exact absurd (head ▸ List.mem_cons_self) (sound.before unleft).1
          · have some_ : 0 < rest.count .sentinel := List.count_pos_iff.mpr member
            rw [if_pos BEq.rfl] at once
            omega

/-- **One step.** -/
theorem ends_step (ends : EndsAfterLeave s) (ok : s.Roomy impl action)
    (ran : s.step impl action = some t) : EndsAfterLeave t := by
  obtain ⟨unwaited, kept⟩ := ends
  cases step_cases ran with
  | same => exact ⟨unwaited, kept⟩
  | stops => exact ⟨nofun, nofun⟩
  | waits joined inMemory full =>
      rcases ok joined with windows | room
      · exact absurd (inMemory.symm.trans windows) nofun
      · exact absurd full room
  | queues room =>
      exact ⟨unwaited, fun left => (kept left).imp_right fun member => List.mem_append_left _ member⟩
  | drops full drop =>
      refine ⟨unwaited, fun left => (kept left).imp_right fun member => List.mem_append_left _ ?_⟩
      have pyObjC : impl = .pyObjC := drop.resolve_right fun joined =>
        absurd (left.symm.trans joined) nofun
      have notHead := ok pyObjC full
      cases queue : s.queue with
      | nil => rw [queue] at member; cases member
      | cons oldest later =>
          rw [queue] at member notHead
          rcases List.mem_cons.mp member with rfl | inLater
          · exact absurd rfl notHead
          · exact inLater
  | puts before room => exact ⟨nofun, fun _ => .inr (List.mem_append_right _ List.mem_cons_self)⟩
  | misses before full at_ =>
      rcases at_ with rfl | ⟨rfl, joined, rfl⟩
      · exact absurd full ok
      · exact (ok joined).elim nofun fun room => absurd full room
  | @takes item rest going head =>
      cases item with
      | frame frame =>
          refine ⟨unwaited, fun left => .inr ?_⟩
          have member := (kept left).resolve_left fun ended => absurd (ended.symm.trans going) nofun
          rw [head] at member
          exact (List.mem_cons.mp member).resolve_left nofun
      | sentinel => exact ⟨unwaited, fun _ => .inl rfl⟩

/-- Without room the consumer is not told, or `leave` waits for it. -/
theorem not_ends_of_cramped (sound : Sound s) (ran : s.step impl action = some t)
    (broken : ¬ s.Roomy impl action) : ¬ EndsAfterLeave t := by
  have missed : s.leave ≠ .left → s.Full → ¬ EndsAfterLeave s.putSentinel := by
    intro before full ends
    obtain ⟨absent, going⟩ := sound.before before
    have became : s.putSentinel = { s with leave := .left } := by
      rw [putSentinel, putNowait, if_pos full, Option.getD_none]
    rw [became] at ends
    rcases ends.kept rfl with ended | member
    · exact absurd (ended.symm.trans going) nofun
    · exact absent member
  cases action with
  | post frame =>
      simp only [Roomy, Classical.not_imp, not_not] at broken
      obtain ⟨rfl, full, oldest⟩ := broken
      obtain rfl := Option.some.inj ran
      have became : s.post frame .pyObjC = { s with queue := s.queue.tail ++ [.frame frame] } := by
        rw [post, MacosDingRtcPyObjCSession.onAudioFrame, putDropOldest, putNowait, if_pos full]
      obtain ⟨later, queue⟩ := List.head?_eq_some_iff.mp oldest
      have member : .sentinel ∈ s.queue := queue ▸ List.mem_cons_self
      have going : s.ended = false := Bool.eq_false_of_not_eq_true fun ended => sound.seen ended member
      have left : s.leave = .left := by
        by_contra before
        exact (sound.before before).1 member
      have once := sound.once
      rw [queue, List.count_cons_self] at once
      intro ends
      rw [became] at ends
      rcases ends.kept left with ended | kept
      · exact absurd (ended.symm.trans going) nofun
      · rw [queue] at kept
        refine absurd kept (notMem_concat fun again => ?_)
        have some_ := List.count_pos_iff.mpr again
        simp only [List.tail_cons] at some_
        omega
  | leave =>
      simp only [Roomy, Classical.not_imp, not_or, not_not] at broken
      obtain ⟨joined, notWindows, full⟩ := broken
      have before : s.leave ≠ .left := by rw [joined]; nofun
      simp only [step, joined, Option.some.injEq] at ran
      subst ran
      cases impl with
      | windows => exact absurd rfl notWindows
      | pyObjC => exact missed before full
      | inMemory =>
          intro ends
          refine ends.unwaited ?_
          rw [beginLeave, MacosRtcSession.leave, putNowait, if_pos full]
  | drainerEnded =>
      simp only [Roomy, not_not] at broken
      simp only [step] at ran
      split at ran
      · rename_i stopping
        obtain rfl := Option.some.inj ran
        exact missed (by rw [stopping]; nofun) broken
      · cases ran
  | putResumes => exact absurd trivial broken
  | consume => exact absurd trivial broken

/-! ### The way to the end -/

theorem remaining_eq (going : s.ended = false) : s.remaining = s.queue.idxOf .sentinel + 1 := by
  rw [remaining, going]
  rfl

theorem finishes_of_kept (left : s.leave = .left) (going : s.ended = false)
    (member : .sentinel ∈ s.queue) : Finishes impl s := by
  constructor
  · cases queue : s.queue with
    | nil => rw [queue] at member; cases member
    | cons item rest => simp [step, going, queue]
  · intro action t ok ran
    rw [remaining_eq going]
    cases step_cases ran with
    | same aside => exact ⟨(remaining_eq going).le, fun consumes => absurd consumes aside⟩
    | stops joined => exact absurd (left.symm.trans joined) nofun
    | waits joined => exact absurd (left.symm.trans joined) nofun
    | @queues frame room =>
        refine ⟨?_, nofun⟩
        rw [remaining_eq (s := { s with queue := s.queue ++ [.frame frame] }) going,
          List.idxOf_append_of_mem member]
    | @drops frame full drop =>
        refine ⟨?_, nofun⟩
        have notHead := ok (drop.resolve_right fun joined =>
          absurd (left.symm.trans joined) nofun) full
        rw [remaining_eq (s := { s with queue := s.queue.tail ++ [.frame frame] }) going]
        cases queue : s.queue with
        | nil => rw [queue] at member; cases member
        | cons oldest later =>
            rw [queue] at member notHead
            have other : oldest ≠ .sentinel := fun same => notHead (by rw [same]; rfl)
            have inLater := (List.mem_cons.mp member).resolve_left other.symm
            rw [List.tail_cons, List.idxOf_append_of_mem inLater, List.idxOf_cons_ne _ other]
            omega
    | puts before room => exact absurd left before
    | misses before full at_ => exact absurd left before
    | @takes item rest going' head =>
        cases item with
        | frame frame =>
            have fewer : rest.idxOf .sentinel + 1 = s.queue.idxOf .sentinel := by
              rw [head, List.idxOf_cons_ne _ (by nofun)]
            rw [remaining_eq (s := s.take rest (.frame frame)) going, ← fewer]
            exact ⟨Nat.le_succ _, fun _ => Nat.lt_succ_self _⟩
        | sentinel => exact ⟨Nat.zero_le _, fun _ => Nat.succ_pos _⟩

/-! ### Main result -/

/-- A session that is joined, with a queue of the given size. -/
def joined (maxsize : Nat) (positive : 0 < maxsize) : InboundQueue where
  maxsize := maxsize
  positive := positive

variable {maxsize : Nat} {positive : 0 < maxsize}

theorem sound_of_reachable {ok : InboundQueue → InboundAction → Prop}
    (run : Reachable (step impl) ok (joined maxsize positive) s) : Sound s :=
  run.invariant (P := Sound) ⟨fun _ => ⟨nofun, rfl⟩, Nat.zero_le _, nofun⟩
    fun _ _ _ sound _ ran => sound_step sound ran

/-- **The end of the frames.**  In every run in which there is room for the sentinel and no
frame takes its place, `leave` does not wait for the consumer, the sentinel reaches it, and
each item brings it closer; a step without the room breaks that. -/
theorem audio_frames_end (impl : RtcImpl) (positive : 0 < maxsize) :
    (∀ s, Reachable (step impl) (Roomy impl) (joined maxsize positive) s →
      EndsAfterLeave s ∧ (s.leave = .left → s.ended = false → Finishes impl s)) ∧
    ∀ s action t, Reachable (step impl) Free (joined maxsize positive) s →
      s.step impl action = some t → ¬ s.Roomy impl action → ¬ EndsAfterLeave t := by
  constructor
  · intro s run
    have ends := run.invariant (P := EndsAfterLeave) ⟨nofun, nofun⟩
      fun _ _ _ ends ok ran => ends_step ends ok ran
    refine ⟨ends, fun left going => finishes_of_kept left going ?_⟩
    exact (ends.kept left).resolve_left fun ended => absurd (ended.symm.trans going) nofun
  · intro s action t run ran broken
    exact not_ends_of_cramped (sound_of_reachable run) ran broken

/-! ## Poles -/

instance (s : InboundQueue) (action : InboundAction) : Decidable (s.Roomy impl action) := by
  cases action <;> unfold Roomy <;> infer_instance

def tone : PcmFrame := ⟨"", [0, 1], 16000, 1⟩

/-- Late frames, with a consumer that takes one item in time. -/
def late : List InboundAction := [.post tone, .leave, .consume, .post tone]

theorem late_runs :
    (guardedRun (step .pyObjC) (Roomy .pyObjC) (joined 2 (by decide)) late).isSome = true := by
  decide

def lateState : InboundQueue :=
  (guardedRun (step .pyObjC) (Roomy .pyObjC) (joined 2 (by decide)) late).get late_runs

theorem late_ends :
    EndsAfterLeave lateState ∧ Finishes .pyObjC lateState ∧ lateState.remaining = 1 ∧
      ¬ EndsAfterLeave (lateState.post tone .pyObjC) :=
  have ends := (audio_frames_end .pyObjC (by decide : 0 < 2)).1 lateState
    (reachable_guarded_get late_runs)
  ⟨ends.1, ends.2 (by decide) (by decide), by decide,
    (audio_frames_end .pyObjC (by decide : 0 < 2)).2 lateState (.post tone) _
      (reachable_guarded_get late_runs).free rfl (by decide)⟩

theorem windows_full_runs :
    (run (step .windows) (joined 2 (by decide))
      [.post tone, .post tone, .leave, .drainerEnded]).isSome = true := by decide

theorem pyObjC_late_runs :
    (run (step .pyObjC) (joined 2 (by decide))
      [.leave, .post tone, .post tone]).isSome = true := by decide

theorem inMemory_full_runs :
    (run (step .inMemory) (joined 1 (by decide)) [.post tone, .leave]).isSome = true := by decide

/-- Every consumer of the session ends. -/
def AlwaysEnds (impl : RtcImpl) : Prop :=
  ∀ (maxsize : Nat) (positive : 0 < maxsize) (s : InboundQueue),
    Reachable (step impl) Free (joined maxsize positive) s → EndsAfterLeave s

/-- **No end**: the sentinel finds the queue full on Windows, is dropped for a late frame with
PyObjC, and waits for the consumer in memory. -/
theorem sentinel_lost :
    ¬ AlwaysEnds .windows ∧ ¬ AlwaysEnds .pyObjC ∧ ¬ AlwaysEnds .inMemory := by
  refine ⟨?_, ?_, ?_⟩
  · intro claim
    have ends := claim 2 (by decide) _ (reachable_get windows_full_runs)
    exact absurd (ends.kept (by decide)) (by decide)
  · intro claim
    have ends := claim 2 (by decide) _ (reachable_get pyObjC_late_runs)
    exact absurd (ends.kept (by decide)) (by decide)
  · intro claim
    have ends := claim 1 (by decide) _ (reachable_get inMemory_full_runs)
    exact absurd ends.unwaited (by decide)

end InboundQueue

end IsalesTelephony.Audio
