/-
# Audio.Upstream -- the modem's audio on its way to the channel

`run_capture_pump` puts what the serial port read on the upstream ring, and
`AudioBridge._upstream_loop` takes it from there, resamples it, pushes it to the channel and
taps it into the recording.  The loop is suspended in `get`, in `push_audio` or in the sleep
after backpressure; the ring is put to and closed, the loop is cancelled and `leave` runs in
any of these.

`push_audio` raises nothing but `RtcPushBackpressure` before `leave`, and pushes nothing when
it raises or is cancelled.

* A chunk that is not whole samples cannot be resampled, and the loop ends at it:
  `upstream_survives`.
* Of chunks of whole samples each is pushed once, in order, but for the empty ones, which the
  loop skips: `upstream_delivers`.
-/
import IsalesTelephony.Audio.Recorder
import IsalesTelephony.Audio.Resampler
import IsalesTelephony.Audio.RingBuffer

namespace IsalesTelephony.Audio

set_option autoImplicit false

open IsalesTelephony.Theory
open IsalesTelephony.Theory.Transition

/-! ## The loop -/

/-- Why `_upstream_loop` ended. -/
inductive UpEnd where
  /-- `_stop_event` is set -/
  | left
  /-- `get` raised `StopAsyncIteration` -/
  | ringClosed
  | cancelled
  /-- `push_audio` raised `RtcNotJoined` -/
  | notJoined
  /-- `push_audio` raised something else, which is logged -/
  | pushFailed
  /-- `resample` raised, which is logged -/
  | notResampled
  deriving DecidableEq

/-- Where `_upstream_loop` is. -/
inductive UpPc where
  /-- at the test of the outer loop -/
  | loop
  /-- in `get` -/
  | waiting
  /-- in `push_audio`, with the chunk it took and its resampled form -/
  | pushing (chunk resampled : Pcm)
  /-- in the sleep after backpressure -/
  | sleeping (chunk resampled : Pcm)
  /-- ended, and the chunk it had in hand then -/
  | ended (why : UpEnd) (inHand : Option Pcm)
  deriving DecidableEq

/-- Where `run_capture_pump` is. -/
inductive PumpPc where
  | reading
  | eof
  /-- `put` raised -/
  | failed
  deriving DecidableEq

/-- What `push_audio` raises once the session is left. -/
inductive PushError where
  | notJoined
  | other
  deriving DecidableEq

structure Upstream where
  log : Traffic
  pump : PumpPc := .reading
  pc : UpPc := .loop
  stopEvent : Bool := false
  recorder : Recorder := {}
  recordCallId : Option String := none
  upstreamBackpressureEvents : Nat := 0
  upstreamChunks : Nat := 0
  upstreamBytes : Nat := 0
  /-- history: what was pushed -/
  pushed : List Pcm := []
  /-- history: the chunks the loop has done with -/
  passed : List Pcm := []

inductive UpAction where
  /-- the capture backend gives what the serial port read -/
  | read (chunk : Pcm)
  /-- another producer puts a chunk -/
  | put (chunk : Pcm)
  | close
  /-- the loop goes round -/
  | turn
  /-- its `get` goes on, once woken -/
  | wake
  | pushed
  | backpressure
  | slept
  | raises (error : PushError)
  | leave
  | cancel (passesOn : Bool)
  /-- the downstream loop taps a frame -/
  | tapAi (pcm : Pcm)

namespace Upstream

/-- The task of the loop, as the ring sees it. -/
def loopTask : Nat := 0

/-- The loop has taken a chunk. -/
def take (sp : Scipy) (s : Upstream) (chunk : Pcm) : Upstream :=
  if chunk = [] then { s with pc := .loop, passed := s.passed ++ [chunk] }
  else
    match Resampler.upstream.resample sp chunk with
    | .ok resampled => { s with pc := .pushing chunk resampled }
    | .error _ => { s with pc := .ended .notResampled (some chunk) }

/-- `await self._modem_upstream.get()`, from the test of the ring's loop on. -/
def getNext (sp : Scipy) (s : Upstream) (ring : PcmRingBuffer) : Upstream :=
  let after := { s with log := s.log.getFrom ring loopTask }
  match (ring.get loopTask).2 with
  | some (.chunk chunk) => after.take sp chunk
  | some _ => { after with pc := .ended .ringClosed none }
  | none => { after with pc := .waiting }

/-- What follows a push that succeeded. -/
def pushDone (s : Upstream) (chunk resampled : Pcm) : Upstream :=
  { s with
    pc := .loop
    pushed := s.pushed ++ [resampled]
    passed := s.passed ++ [chunk]
    upstreamChunks := s.upstreamChunks + 1
    upstreamBytes := s.upstreamBytes + resampled.length
    recorder := match s.recordCallId with
      | some callId => s.recorder.appendUser callId resampled
      | none => s.recorder }

/-- `run_capture_pump` with what it read. -/
def pumpRead (s : Upstream) (chunk : Pcm) : Upstream :=
  if chunk = [] then { s with pump := .eof }
  else { s with log := s.log.put chunk, pump := if s.log.ring.closed then .failed else .reading }

def step (sp : Scipy) (s : Upstream) : UpAction → Option Upstream
  | .read chunk => if s.pump = .reading then some (s.pumpRead chunk) else none
  | .put chunk => some { s with log := s.log.put chunk }
  | .close => some { s with log := s.log.close }
  | .turn =>
      if s.pc = .loop then
        some (if s.stopEvent then { s with pc := .ended .left none } else s.getNext sp s.log.ring)
      else none
  | .wake =>
      if s.pc = .waiting ∧ (loopTask, true) ∈ s.log.ring.waiters then
        some (s.getNext sp (s.log.ring.unwait loopTask))
      else none
  | .pushed =>
      match s.pc with
      | .pushing chunk resampled => some (s.pushDone chunk resampled)
      | _ => none
  | .backpressure =>
      match s.pc with
      | .pushing chunk resampled =>
          some { s with pc := .sleeping chunk resampled,
                        upstreamBackpressureEvents := s.upstreamBackpressureEvents + 1 }
      | _ => none
  | .slept =>
      match s.pc with
      | .sleeping chunk resampled => some { s with pc := .pushing chunk resampled }
      | _ => none
  | .raises error =>
      match s.pc, s.stopEvent with
      | .pushing chunk _, true =>
          some { s with
            pc := .ended (match error with | .notJoined => .notJoined | .other => .pushFailed)
              (some chunk) }
      | _, _ => none
  | .leave => some { s with stopEvent := true }
  | .cancel passesOn =>
      match s.pc with
      | .loop => some { s with pc := .ended .cancelled none }
      | .waiting =>
          some { s with log := s.log.cancel loopTask passesOn, pc := .ended .cancelled none }
      | .pushing chunk _ | .sleeping chunk _ => some { s with pc := .ended .cancelled (some chunk) }
      | .ended _ _ => none
  | .tapAi pcm =>
      some { s with
        recorder := match s.recordCallId with
          | some callId => s.recorder.appendAi callId pcm
          | none => s.recorder }

/-- The chunk that was taken and is not done with. -/
def inHand (s : Upstream) : Option Pcm :=
  match s.pc with
  | .pushing chunk _ | .sleeping chunk _ => some chunk
  | .ended _ inHand => inHand
  | _ => none

/-- The chunks taken from the ring, in order. -/
def taken (s : Upstream) : List Pcm := s.log.delivered

/-! ## What the loop promises -/

/-- The chunks that are not empty. -/
def nonempty (chunks : List Pcm) : List Pcm := chunks.filter (· ≠ [])

/-- The loop ended because of `leave`, a cancellation or the ring's close. -/
def Rightly (s : Upstream) : UpEnd → Prop
  | .left | .notJoined | .pushFailed => s.stopEvent = true
  | .ringClosed => s.log.ring.closed = true
  | .cancelled => True
  | .notResampled => False

/-- The loop ends rightly only, and it pushes twice the bytes it takes, but for those in hand
and one held back. -/
structure Survives (s : Upstream) : Prop where
  ends : ∀ why inHand, s.pc = .ended why inHand → s.Rightly why
  doubled : ∃ held ≤ 1,
    bytes s.pushed + 2 * (bytes s.inHand.toList + held) = 2 * bytes s.taken

/-- Each of the chunks that are `due` is pushed once, in order. -/
structure Delivers (sp : Scipy) (due : List Pcm → List Pcm) (s : Upstream) : Prop where
  /-- what was taken is done with, but for what is in hand -/
  taken : s.taken = s.passed ++ s.inHand.toList
  once : (due s.passed).map (Resampler.upstream.resample sp) = s.pushed.map .ok
  /-- an accepted chunk was taken or dropped by the ring, or is still queued -/
  accepted : s.log.belt.gone.map (·.2) ++ s.log.ring.chunks = s.log.belt.joined
  takenOf : s.log.belt.left .taken = s.taken
  /-- the loop ends with a chunk in hand only because of `leave` or a cancellation -/
  inHand : ∀ why chunk, s.pc = .ended why (some chunk) → s.stopEvent = true ∨ why = .cancelled

/-- The bytes tapped into the user track are those pushed. -/
def Taps (callId : String) (s : Upstream) : Prop :=
  s.recorder.userTrack callId = s.pushed.flatten

/-- The chunk that an action makes the loop take. -/
def next (s : Upstream) : UpAction → Option Pcm
  | .turn => if s.pc = .loop ∧ s.stopEvent = false then s.log.ring.chunks.head? else none
  | .wake =>
      if s.pc = .waiting ∧ (loopTask, true) ∈ s.log.ring.waiters then s.log.ring.chunks.head?
      else none
  | _ => none

/-- The chunk taken, if any, is whole samples. -/
def Whole (s : Upstream) (action : UpAction) : Prop := ∀ chunk ∈ s.next action, 2 ∣ chunk.length

/-- The chunks put are whole samples. -/
def WholePut (_ : Upstream) : UpAction → Prop
  | .read chunk | .put chunk => 2 ∣ chunk.length
  | _ => True

theorem nonempty_append (chunks later : List Pcm) :
    nonempty (chunks ++ later) = nonempty chunks ++ nonempty later := List.filter_append _ _

theorem nonempty_nil : nonempty [[]] = [] := rfl

theorem nonempty_of_ne {chunk : Pcm} (some_ : chunk ≠ []) : nonempty [chunk] = [chunk] :=
  List.filter_eq_self.mpr fun other member => by
    rw [List.mem_singleton.mp member]
    exact decide_eq_true some_

/-! ## One step -/

variable {sp : Scipy} {s t : Upstream} {action : UpAction} {log : Traffic} {given : List Pcm}

/-- The ring after a step that gave the loop some chunks. -/
structure Follows (s : Upstream) (given : List Pcm) (log : Traffic) : Prop where
  accounts : Traffic.Accounts log
  delivered : log.delivered = s.taken ++ given
  closed : s.log.ring.closed = true → log.ring.closed = true

theorem Follows.of_moves {ring : RingAction} (accounts : Traffic.Accounts s.log)
    (moves : s.log.Moves ring log) (delivered : log.delivered = s.taken ++ given) :
    Follows s given log :=
  ⟨Traffic.accounts_moves accounts moves, delivered, Traffic.closed_moves moves⟩

theorem Follows.same (accounts : Traffic.Accounts s.log) : Follows s [] s.log :=
  ⟨accounts, (List.append_nil _).symm, id⟩

/-- What one step does. -/
inductive Moves (sp : Scipy) (s : Upstream) : UpAction → Upstream → Prop
  /-- the loop has no part in it -/
  | aside {action : UpAction} {log : Traffic} {pump : PumpPc} {stopEvent : Bool}
      {recorder : Recorder} (none_ : s.next action = none) (follows : Follows s [] log)
      (joins : log.belt.joined = s.log.belt.joined ∨
        ∃ chunk, (action = .read chunk ∨ action = .put chunk) ∧
          log.belt.joined = s.log.belt.joined ++ [chunk])
      (later : s.stopEvent = true → stopEvent = true)
      (tap : recorder = s.recorder ∨
        ∃ callId pcm, s.recordCallId = some callId ∧ recorder = s.recorder.appendAi callId pcm) :
      Moves sp s action
        { s with log := log, pump := pump, stopEvent := stopEvent, recorder := recorder }
  | takes {action : UpAction} {log : Traffic} {chunk : Pcm} (some_ : s.next action = some chunk)
      (idle : s.pc = .loop ∨ s.pc = .waiting) (follows : Follows s [chunk] log)
      (joined : log.belt.joined = s.log.belt.joined) (queued : chunk ∈ s.log.ring.chunks) :
      Moves sp s action ({ s with log := log }.take sp chunk)
  /-- the loop waits, or ends with nothing in hand -/
  | pauses {action : UpAction} {log : Traffic} {pc : UpPc} (none_ : s.next action = none)
      (idle : s.pc = .loop ∨ s.pc = .waiting)
      (paused : pc = .waiting ∨ ∃ why, pc = .ended why none ∧ s.Rightly why)
      (follows : Follows s [] log) (joined : log.belt.joined = s.log.belt.joined) :
      Moves sp s action { s with log := log, pc := pc }
  | pushes {chunk resampled : Pcm} (pushing : s.pc = .pushing chunk resampled) :
      Moves sp s .pushed (s.pushDone chunk resampled)
  /-- the push is put off, tried again or given up -/
  | holds {action : UpAction} {chunk resampled : Pcm} {pc : UpPc} {events : Nat}
      (none_ : s.next action = none)
      (held : s.pc = .pushing chunk resampled ∨ s.pc = .sleeping chunk resampled)
      (after : pc = .pushing chunk resampled ∨ pc = .sleeping chunk resampled ∨
        ∃ why, pc = .ended why (some chunk) ∧ s.Rightly why ∧
          (s.stopEvent = true ∨ why = .cancelled)) :
      Moves sp s action { s with pc := pc, upstreamBackpressureEvents := events }

/-- `get` from the loop's test on. -/
theorem moves_getNext (accounts : Traffic.Accounts s.log) {waiters : List (Nat × Bool)}
    (rests : s.log.Rests waiters) (idle : s.pc = .loop ∨ s.pc = .waiting)
    (first : s.next action = s.log.ring.chunks.head?) :
    Moves sp s action (s.getNext sp (Traffic.rewait s.log.ring waiters)) := by
  have moves : s.log.Moves (.get loopTask)
      (s.log.getFrom (Traffic.rewait s.log.ring waiters) loopTask) :=
    Traffic.moves_getFrom (.inl rfl) rests
  have joined := s.log.joined_getFrom (Traffic.rewait s.log.ring waiters) loopTask
  obtain ⟨given, gives, delivered⟩ := s.log.gives_getFrom waiters loopTask
  unfold getNext
  generalize ((Traffic.rewait s.log.ring waiters).get loopTask).2 = got at gives ⊢
  cases gives with
  | @chunk chunk rest queued =>
      exact .takes (by rw [first, queued]; rfl) idle (.of_moves accounts moves delivered) joined
        (by rw [queued]; exact List.mem_cons_self)
  | stop closed empty =>
      exact .pauses (by rw [first, empty]; rfl) idle (.inr ⟨_, rfl, closed⟩)
        (.of_moves accounts moves delivered) joined
  | waits empty =>
      exact .pauses (by rw [first, empty]; rfl) idle (.inl rfl) (.of_moves accounts moves delivered)
        joined

/-- A put, by the pump or another. -/
theorem follows_put (accounts : Traffic.Accounts s.log) (chunk : Pcm) :
    Follows s [] (s.log.put chunk) :=
  .of_moves accounts (Traffic.moves_put accounts.counted chunk)
    ((Traffic.delivered_put chunk).trans (List.append_nil _).symm)

theorem step_cases (accounts : Traffic.Accounts s.log) (ran : s.step sp action = some t) :
    Moves sp s action t := by
  have same := Follows.same accounts
  cases action with
  | read chunk =>
      simp only [step, pumpRead] at ran
      split at ran
      · split at ran
        · obtain rfl := Option.some.inj ran
          exact .aside rfl same (.inl rfl) id (.inl rfl)
        · obtain rfl := Option.some.inj ran
          refine .aside rfl (follows_put accounts chunk) ?_ id (.inl rfl)
          exact (s.log.joined_put chunk).imp_right fun joined => ⟨chunk, .inl rfl, joined⟩
      · cases ran
  | put chunk =>
      obtain rfl := Option.some.inj ran
      refine .aside rfl (follows_put accounts chunk) ?_ id (.inl rfl)
      exact (s.log.joined_put chunk).imp_right fun joined => ⟨chunk, .inr rfl, joined⟩
  | close =>
      obtain rfl := Option.some.inj ran
      exact .aside rfl (.of_moves accounts .closes (List.append_nil _).symm) (.inl rfl) id (.inl rfl)
  | turn =>
      simp only [step] at ran
      split at ran
      · rename_i atLoop
        obtain rfl := Option.some.inj ran
        by_cases stopped : s.stopEvent = true
        · rw [if_pos stopped]
          refine .pauses ?_ (.inl atLoop) (.inr ⟨_, rfl, stopped⟩) same rfl
          simp [next, stopped]
        · rw [if_neg stopped]
          exact moves_getNext accounts (fun _ member => .inl member) (.inl atLoop)
            (by simp [next, atLoop, stopped])
      · cases ran
  | wake =>
      simp only [step] at ran
      split at ran
      · rename_i woken
        obtain rfl := Option.some.inj ran
        exact moves_getNext accounts (s.log.rests_unwait loopTask) (.inr woken.1)
          (by rw [next, if_pos woken])
      · cases ran
  | pushed =>
      simp only [step] at ran
      split at ran
      · rename_i pushing
        obtain rfl := Option.some.inj ran
        exact .pushes pushing
      · cases ran
  | backpressure =>
      simp only [step] at ran
      split at ran
      · rename_i pushing
        obtain rfl := Option.some.inj ran
        exact .holds rfl (.inl pushing) (.inr (.inl rfl))
      · cases ran
  | slept =>
      simp only [step] at ran
      split at ran
      · rename_i sleeping
        obtain rfl := Option.some.inj ran
        exact .holds rfl (.inr sleeping) (.inl rfl)
      · cases ran
  | raises error =>
      simp only [step] at ran
      split at ran
      · rename_i pushing stopped
        obtain rfl := Option.some.inj ran
        refine .holds rfl (.inl pushing) (.inr (.inr ⟨_, rfl, ?_, .inl stopped⟩))
        cases error with
        | notJoined => exact stopped
        | other => exact stopped
      · cases ran
  | leave =>
      obtain rfl := Option.some.inj ran
      exact .aside rfl same (.inl rfl) (fun _ => rfl) (.inl rfl)
  | cancel passesOn =>
      simp only [step] at ran
      split at ran
      · rename_i atLoop
        obtain rfl := Option.some.inj ran
        exact .pauses rfl (.inl atLoop) (.inr ⟨_, rfl, trivial⟩) same rfl
      · rename_i waiting
        obtain rfl := Option.some.inj ran
        have cancelled := Follows.of_moves accounts (Traffic.moves_cancel loopTask passesOn)
          ((Traffic.delivered_cancel loopTask passesOn).trans (List.append_nil _).symm)
        exact .pauses rfl (.inr waiting) (.inr ⟨_, rfl, trivial⟩) cancelled
          (Traffic.joined_finish _ _ _)
      · rename_i pushing
        obtain rfl := Option.some.inj ran
        exact .holds rfl (.inl pushing) (.inr (.inr ⟨_, rfl, trivial, .inr rfl⟩))
      · rename_i sleeping
        obtain rfl := Option.some.inj ran
        exact .holds rfl (.inr sleeping) (.inr (.inr ⟨_, rfl, trivial, .inr rfl⟩))
      · cases ran
  | tapAi pcm =>
      obtain rfl := Option.some.inj ran
      refine .aside rfl same (.inl rfl) id ?_
      cases recording : s.recordCallId with
      | none => exact .inl rfl
      | some callId => exact .inr ⟨callId, pcm, rfl, rfl⟩

/-! ## What is taken -/

/-- What holds in every state. -/
structure Sound (sp : Scipy) (s : Upstream) : Prop where
  accounts : Traffic.Accounts s.log
  taken : s.taken = s.passed ++ s.inHand.toList
  once : (nonempty s.passed).map (Resampler.upstream.resample sp) = s.pushed.map .ok
  pending : ∀ chunk resampled, s.pc = .pushing chunk resampled ∨ s.pc = .sleeping chunk resampled →
    chunk ≠ [] ∧ Resampler.upstream.resample sp chunk = .ok resampled
  ends : ∀ why inHand, s.pc = .ended why inHand →
    (∃ chunk, inHand = some chunk ∧ ¬ 2 ∣ chunk.length) ∨
      s.Rightly why ∧ (inHand = none ∨ s.stopEvent = true ∨ why = .cancelled)

theorem inHand_idle (idle : s.pc = .loop ∨ s.pc = .waiting) : s.inHand = none := by
  rcases idle with atLoop | waiting <;> simp [inHand, *]

theorem inHand_held {chunk resampled : Pcm}
    (held : s.pc = .pushing chunk resampled ∨ s.pc = .sleeping chunk resampled) :
    s.inHand = some chunk := by
  rcases held with pushing | sleeping <;> simp [inHand, *]

/-- What ended the loop stays so. -/
theorem Rightly.mono {why : UpEnd} (rightly : s.Rightly why)
    (stops : s.stopEvent = true → t.stopEvent = true)
    (closes : s.log.ring.closed = true → t.log.ring.closed = true) : t.Rightly why := by
  cases why with
  | left | notJoined | pushFailed => exact stops rightly
  | ringClosed => exact closes rightly
  | cancelled => trivial
  | notResampled => exact rightly.elim

/-- What the loop does with a chunk. -/
theorem take_cases (sp : Scipy) (s : Upstream) (chunk : Pcm) :
    (chunk = [] ∧ s.take sp chunk = { s with pc := .loop, passed := s.passed ++ [chunk] }) ∨
      (chunk ≠ [] ∧ ∃ resampled, Resampler.upstream.resample sp chunk = .ok resampled ∧
        s.take sp chunk = { s with pc := .pushing chunk resampled }) ∨
      (¬ 2 ∣ chunk.length ∧ s.take sp chunk = { s with pc := .ended .notResampled (some chunk) }) := by
  by_cases empty : chunk = []
  · exact .inl ⟨empty, if_pos empty⟩
  · by_cases even : 2 ∣ chunk.length
    · obtain ⟨resampled, converts, -⟩ := @Resampler.resample_upstream sp chunk even
      exact .inr (.inl ⟨empty, resampled, converts, by rw [take, if_neg empty, converts]⟩)
    · obtain ⟨error, fails⟩ := @Resampler.resample_odd sp Resampler.upstream chunk even
      exact .inr (.inr ⟨even, by rw [take, if_neg empty, fails]⟩)

theorem log_take (sp : Scipy) (s : Upstream) (chunk : Pcm) : (s.take sp chunk).log = s.log := by
  rcases take_cases sp s chunk with ⟨-, became⟩ | ⟨-, _, -, became⟩ | ⟨-, became⟩
  all_goals rw [became]

/-- **One step.** -/
theorem sound_step (sound : Sound sp s) (ran : s.step sp action = some t) : Sound sp t := by
  have taken := sound.taken
  cases step_cases sound.accounts ran with
  | @aside action log pump stopEvent recorder none_ follows joins later tap =>
      refine ⟨follows.accounts, ?_, sound.once, sound.pending, fun why inHand ended => ?_⟩
      · exact follows.delivered.trans ((List.append_nil _).trans taken)
      · refine (sound.ends why inHand ended).imp_right fun ⟨rightly, held⟩ =>
          ⟨rightly.mono later follows.closed, held.imp_right (Or.imp_left later)⟩
  | @takes action log chunk some_ idle follows joined queued =>
      rw [inHand_idle idle, Option.toList_none, List.append_nil] at taken
      have delivered : log.delivered = s.passed ++ [chunk] := by rw [follows.delivered, taken]
      rcases take_cases sp { s with log := log } chunk with
        ⟨rfl, became⟩ | ⟨some_, resampled, converts, became⟩ | ⟨odd, became⟩
      · rw [became]
        refine ⟨follows.accounts, delivered.trans (List.append_nil _).symm, ?_,
          fun _ _ pending => pending.elim nofun nofun, nofun⟩
        show (nonempty (s.passed ++ [[]])).map (Resampler.upstream.resample sp) = s.pushed.map .ok
        rw [nonempty_append, nonempty_nil, List.append_nil, sound.once]
      · rw [became]
        refine ⟨follows.accounts, delivered, sound.once, fun other form pending => ?_, nofun⟩
        rcases pending with same | sleeping
        · cases same
          exact ⟨some_, converts⟩
        · cases sleeping
      · rw [became]
        refine ⟨follows.accounts, delivered, sound.once, fun _ _ pending => pending.elim nofun nofun,
          fun why inHand ended => ?_⟩
        cases ended
        exact .inl ⟨chunk, rfl, odd⟩
  | @pauses action log pc none_ idle paused follows joined =>
      rw [inHand_idle idle] at taken
      have delivered : log.delivered = s.passed ++ [] :=
        follows.delivered.trans ((List.append_nil _).trans taken)
      rcases paused with rfl | ⟨why, rfl, rightly⟩
      · exact ⟨follows.accounts, delivered, sound.once, fun _ _ pending => pending.elim nofun nofun,
          nofun⟩
      · refine ⟨follows.accounts, delivered, sound.once,
          fun _ _ pending => pending.elim nofun nofun, fun other inHand ended => ?_⟩
        cases ended
        exact .inr ⟨rightly.mono id follows.closed, .inl rfl⟩
  | @pushes chunk resampled pushing =>
      obtain ⟨some_, converts⟩ := sound.pending chunk resampled (.inl pushing)
      rw [inHand_held (.inl pushing)] at taken
      refine ⟨sound.accounts, taken.trans (List.append_nil _).symm, ?_,
        fun _ _ pending => pending.elim nofun nofun, nofun⟩
      show (nonempty (s.passed ++ [chunk])).map (Resampler.upstream.resample sp) =
        (s.pushed ++ [resampled]).map .ok
      rw [nonempty_append, nonempty_of_ne some_, List.map_append, List.map_append, sound.once]
      exact congrArg (fun form => s.pushed.map .ok ++ [form]) converts
  | @holds action chunk resampled pc events none_ held after =>
      have pending := sound.pending chunk resampled held
      rw [inHand_held held] at taken
      rcases after with rfl | rfl | ⟨why, rfl, rightly, because⟩
      · refine ⟨sound.accounts, taken, sound.once, fun other form same => ?_, nofun⟩
        rcases same with same | same
        · cases same
          exact pending
        · cases same
      · refine ⟨sound.accounts, taken, sound.once, fun other form same => ?_, nofun⟩
        rcases same with same | same
        · cases same
        · cases same
          exact pending
      · refine ⟨sound.accounts, taken, sound.once, fun _ _ pending => pending.elim nofun nofun,
          fun other held ended => ?_⟩
        cases ended
        exact .inr ⟨rightly.mono id id, .inr because⟩

/-! ### Whole samples -/

/-- The chunks taken are whole samples. -/
def TakenWhole (s : Upstream) : Prop := ∀ chunk ∈ s.taken, 2 ∣ chunk.length

theorem takenWhole_step (sound : Sound sp s) (whole : TakenWhole s) (ok : s.Whole action)
    (ran : s.step sp action = some t) : TakenWhole t := by
  have same : ∀ {log : Traffic}, Follows s [] log → ∀ chunk ∈ log.delivered, 2 ∣ chunk.length := by
    intro log follows chunk member
    rw [follows.delivered, List.append_nil] at member
    exact whole chunk member
  cases step_cases sound.accounts ran with
  | aside none_ follows => exact same follows
  | @takes action log chunk some_ idle follows joined queued =>
      intro other member
      rw [taken, log_take, follows.delivered] at member
      rcases List.mem_append.mp member with old | new
      · exact whole other old
      · obtain rfl := List.mem_singleton.mp new
        exact ok other some_
  | pauses none_ idle paused follows joined => exact same follows
  | pushes pushing => exact whole
  | holds none_ held after => exact whole

/-- What was pushed is twice what was done with. -/
theorem bytes_pushed {pushed : List Pcm} : ∀ {passed : List Pcm},
    (∀ chunk ∈ passed, 2 ∣ chunk.length) →
    (nonempty passed).map (Resampler.upstream.resample sp) = pushed.map .ok →
      bytes pushed = 2 * bytes passed := by
  intro passed whole once
  induction passed generalizing pushed with
  | nil =>
      obtain rfl := List.map_eq_nil_iff.mp once.symm
      rfl
  | cons chunk rest ih =>
      obtain ⟨even, later⟩ := List.forall_mem_cons.mp whole
      rw [← List.singleton_append, nonempty_append] at once
      by_cases empty : chunk = []
      · subst empty
        rw [bytes_cons, List.length_nil, Nat.zero_add]
        exact ih later once
      · obtain ⟨resampled, converts, length⟩ := @Resampler.resample_upstream sp chunk even
        rw [nonempty_of_ne empty, List.singleton_append, List.map_cons, converts] at once
        cases pushed with
        | nil => cases once
        | cons first pushed =>
            obtain ⟨same, others⟩ := List.cons.inj once
            cases same
            rw [bytes_cons, bytes_cons, length, ih later others]
            omega

theorem survives_of_whole (sound : Sound sp s) (whole : TakenWhole s) : Survives s := by
  have parted : ∀ chunk ∈ s.passed ++ s.inHand.toList, 2 ∣ chunk.length := by
    rw [← sound.taken]
    exact whole
  refine ⟨fun why inHand ended => ?_, 0, Nat.zero_le 1, ?_⟩
  · rcases sound.ends why inHand ended with ⟨chunk, rfl, odd⟩ | ⟨rightly, -⟩
    · have held : s.inHand = some chunk := by simp [Upstream.inHand, ended]
      rw [held] at parted
      exact absurd (parted chunk (List.mem_append_right _ List.mem_cons_self)) odd
    · exact rightly
  · rw [bytes_pushed (fun chunk member => parted chunk (List.mem_append_left _ member)) sound.once,
      sound.taken, bytes_append]
    omega

/-- A chunk that is not whole samples ends the loop. -/
theorem not_survives_of_odd (sound : Sound sp s) (ran : s.step sp action = some t)
    (broken : ¬ s.Whole action) : ¬ Survives t := by
  have whole : s.next action = none → s.Whole action := fun none_ chunk member => by
    rw [none_] at member
    cases member
  cases step_cases sound.accounts ran with
  | aside none_ => exact absurd (whole none_) broken
  | @takes action log chunk some_ idle follows joined queued =>
      have odd : ¬ 2 ∣ chunk.length := fun even => broken fun other member => by
        obtain rfl := Option.some.inj (some_.symm.trans member)
        exact even
      rcases take_cases sp { s with log := log } chunk with
        ⟨rfl, -⟩ | ⟨-, resampled, converts, -⟩ | ⟨-, became⟩
      · exact absurd (Nat.dvd_zero 2) odd
      · obtain ⟨error, fails⟩ := @Resampler.resample_odd sp Resampler.upstream chunk odd
        exact absurd (converts.symm.trans fails) nofun
      · intro survives
        rw [became] at survives
        exact survives.ends .notResampled (some chunk) rfl
  | pauses none_ => exact absurd (whole none_) broken
  | pushes pushing => exact absurd (whole rfl) broken
  | holds none_ => exact absurd (whole none_) broken

/-! ### What is put -/

/-- The chunks accepted are whole samples. -/
def JoinedWhole (s : Upstream) : Prop := ∀ chunk ∈ s.log.belt.joined, 2 ∣ chunk.length

theorem joinedWhole_step (sound : Sound sp s) (whole : JoinedWhole s) (ok : s.WholePut action)
    (ran : s.step sp action = some t) : JoinedWhole t := by
  cases step_cases sound.accounts ran with
  | @aside action log pump stopEvent recorder none_ follows joins later tap =>
      rcases joins with same | ⟨chunk, puts, joined⟩
      · intro other member
        exact whole other (same ▸ member)
      · intro other member
        have member : other ∈ s.log.belt.joined ++ [chunk] := joined ▸ member
        rcases List.mem_append.mp member with old | new
        · exact whole other old
        · obtain rfl := List.mem_singleton.mp new
          rcases puts with rfl | rfl
          · exact ok
          · exact ok
  | @takes action log chunk some_ idle follows joined queued =>
      rw [JoinedWhole, log_take, joined]
      exact whole
  | pauses none_ idle paused follows joined =>
      rw [JoinedWhole, joined]
      exact whole
  | pushes pushing => exact whole
  | holds none_ held after => exact whole

/-- What is taken was put. -/
theorem takenWhole_of_joined (sound : Sound sp s) (whole : JoinedWhole s) : TakenWhole s := by
  intro chunk member
  have left : chunk ∈ s.log.belt.left .taken := sound.accounts.delivered ▸ member
  exact whole chunk ((s.log.belt.left_sublist .taken).subset left)

theorem delivers_of_whole (sound : Sound sp s) (whole : JoinedWhole s) :
    Delivers sp nonempty s := by
  refine ⟨sound.taken, sound.once, sound.accounts.inOrder, sound.accounts.delivered.symm,
    fun why chunk ended => ?_⟩
  rcases sound.ends why (some chunk) ended with ⟨other, same, odd⟩ | ⟨-, none_ | because⟩
  · have held : s.inHand = some other := by simp [inHand, ended, same]
    have taken : other ∈ s.taken := by
      rw [sound.taken, held]
      exact List.mem_append_right _ List.mem_cons_self
    exact absurd (takenWhole_of_joined sound whole other taken) odd
  · cases none_
  · exact because

/-! ### The recording -/

/-- The call is recorded, and the user track holds what was pushed. -/
structure Tapped (callId : String) (s : Upstream) : Prop where
  recording : s.recordCallId = some callId
  records : s.recorder.Records callId
  track : Taps callId s

theorem tapped_step {callId : String} (sound : Sound sp s) (tapped : Tapped callId s)
    (ran : s.step sp action = some t) : Tapped callId t := by
  obtain ⟨recording, records, track⟩ := tapped
  cases step_cases sound.accounts ran with
  | aside none_ follows joins later tap =>
      rcases tap with rfl | ⟨other, pcm, same, rfl⟩
      · exact ⟨recording, records, track⟩
      · obtain rfl := Option.some.inj (same.symm.trans recording)
        exact ⟨recording, Recorder.records_appendAi records pcm,
          (Recorder.userTrack_appendAi records pcm).trans track⟩
  | @takes action log chunk some_ idle follows joined queued =>
      rcases take_cases sp { s with log := log } chunk with
        ⟨-, became⟩ | ⟨-, resampled, -, became⟩ | ⟨-, became⟩ <;> rw [became] <;>
        exact ⟨recording, records, track⟩
  | pauses none_ idle paused follows joined => exact ⟨recording, records, track⟩
  | @pushes chunk resampled pushing =>
      have recorder : (s.pushDone chunk resampled).recorder =
          s.recorder.appendUser callId resampled := by simp [pushDone, recording]
      refine ⟨recording, ?_, ?_⟩
      · rw [recorder]
        exact Recorder.records_appendUser records resampled
      · rw [Taps, recorder, Recorder.userTrack_appendUser records, track]
        exact (List.flatten_concat).symm
  | holds none_ held after => exact ⟨recording, records, track⟩

/-! ### Main results -/

/-- The bridge of a call, about to run. -/
def started (capacity : Nat) (positive : 0 < capacity) (name : String) (recorder : Recorder)
    (recordCallId : Option String) : Upstream where
  log := { ring := { capacity := capacity, positive := positive, name := name } }
  recorder := recorder
  recordCallId := recordCallId

variable (capacity : Nat) (positive : 0 < capacity) (name : String) (r : Recorder)

theorem sound_started (recordCallId : Option String) :
    Sound sp (started capacity positive name r recordCallId) :=
  ⟨Traffic.accounts_init capacity positive name, rfl, rfl, fun _ _ pending => pending.elim nofun nofun,
    nofun⟩

variable {capacity positive name r} in
theorem sound_of_reachable {ok : Upstream → UpAction → Prop} {recordCallId : Option String}
    (run : Reachable (step sp) ok (started capacity positive name r recordCallId) s) : Sound sp s :=
  run.invariant (P := Sound sp) (sound_started capacity positive name r recordCallId)
    fun _ _ _ sound _ ran => sound_step sound ran

/-- **When the loop survives.**  In every run in which the chunks it takes are whole samples,
the loop ends rightly only and pushes twice what it takes; a chunk that is not ends it. -/
theorem upstream_survives (sp : Scipy) (recordCallId : Option String) :
    (∀ s, Reachable (step sp) Whole (started capacity positive name r recordCallId) s →
      Survives s) ∧
    ∀ s action t, Reachable (step sp) Free (started capacity positive name r recordCallId) s →
      s.step sp action = some t → ¬ s.Whole action → ¬ Survives t := by
  constructor
  · intro s run
    have both := run.invariant (P := fun s => Sound sp s ∧ TakenWhole s)
      ⟨sound_started capacity positive name r recordCallId, fun _ member => by cases member⟩
      fun _ _ _ holds ok ran =>
        ⟨sound_step holds.1 ran, takenWhole_step holds.1 holds.2 ok ran⟩
    exact survives_of_whole both.1 both.2
  · intro s action t run ran broken
    exact not_survives_of_odd (sound_of_reachable run) ran broken

/-- **Delivery.**  In every run whose puts are of whole samples, what the loop pushes is what
it took from the ring, resampled, once each and in order, but for the empty chunks; the user
track holds what was pushed. -/
theorem upstream_delivers (sp : Scipy) (callId : String) :
    ∀ s, Reachable (step sp) WholePut
        (started capacity positive name (r.beginCall callId) (some callId)) s →
      Delivers sp nonempty s ∧ Taps callId s := by
  intro s run
  have all := run.invariant (P := fun s => Sound sp s ∧ JoinedWhole s ∧ Tapped callId s)
    ⟨sound_started capacity positive name _ _, (fun _ member => by cases member), rfl,
      r.records_beginCall callId, r.userTrack_beginCall callId⟩
    fun _ _ _ holds ok ran =>
      ⟨sound_step holds.1 ran, joinedWhole_step holds.1 holds.2.1 ok ran,
        tapped_step holds.1 holds.2.2 ran⟩
  exact ⟨delivers_of_whole all.1 all.2.1, all.2.2.track⟩

/-! ## Poles -/

instance (s : Upstream) (action : UpAction) : Decidable (s.Whole action) := by
  unfold Whole
  infer_instance

instance (s : Upstream) (action : UpAction) : Decidable (s.WholePut action) := by
  cases action <;> unfold WholePut <;> infer_instance

/-- What the filter makes of silence: silence. -/
def silent : Scipy where
  resamplePoly := fun up down samples => List.replicate ((samples.length * up + down - 1) / down) 0
  length_resamplePoly := fun samples => by simp [Nat.mul_comm]

/-- Only the capture pump puts on the ring. -/
def Captured (_ : Upstream) : UpAction → Prop
  | .put _ => False
  | _ => True

instance (s : Upstream) (action : UpAction) : Decidable (s.Captured action) := by
  cases action <;> unfold Captured <;> infer_instance

/-- Two frames of silence, the second put off once, and the end of the call. -/
def silence : List UpAction :=
  [.read [0, 0], .turn, .pushed, .turn, .read [0, 0, 0, 0], .wake, .backpressure, .slept, .pushed,
    .turn, .leave, .cancel true]

def idle : Upstream := started 16384 (by decide) "modem_upstream" {} none

/-- The serial port has read one byte. -/
def partialRead : List UpAction := [.read [0]]

theorem silence_runs : (guardedRun (step silent) Whole idle silence).isSome = true := by decide

theorem partialRead_runs : (guardedRun (step silent) Captured idle partialRead).isSome = true := by
  decide

theorem partialRead_ends :
    (((guardedRun (step silent) Captured idle partialRead).get partialRead_runs).step silent
      .turn).isSome = true := by decide

theorem silence_survives :
    Survives ((guardedRun (step silent) Whole idle silence).get silence_runs) ∧
      ¬ Survives ((((guardedRun (step silent) Captured idle partialRead).get partialRead_runs).step
        silent .turn).get partialRead_ends) :=
  ⟨(upstream_survives 16384 (by decide) "modem_upstream" {} silent none).1 _
      (reachable_guarded_get silence_runs),
    (upstream_survives 16384 (by decide) "modem_upstream" {} silent none).2 _ .turn _
      (reachable_guarded_get partialRead_runs).free (Option.some_get _).symm (by decide)⟩

/-- **A single byte ends the loop.** -/
theorem partial_read_silences :
    ¬ ∀ (sp : Scipy) (capacity : Nat) (positive : 0 < capacity) (name : String) (r : Recorder)
      (recordCallId : Option String) (s : Upstream),
      Reachable (step sp) Captured (started capacity positive name r recordCallId) s →
        Survives s := by
  intro claim
  have turns : Captured ((guardedRun (step silent) Captured idle partialRead).get partialRead_runs)
      .turn := trivial
  have run := (reachable_guarded_get partialRead_runs).snoc turns
    (Option.some_get partialRead_ends).symm
  have survives := claim silent 16384 (by decide) "modem_upstream" {} none _ run
  exact survives.ends .notResampled (some [0]) (by decide)

def recorded : Upstream :=
  started 16384 (by decide) "modem_upstream" (({} : Recorder).beginCall "call") (some "call")

theorem recorded_runs : (guardedRun (step silent) WholePut recorded silence).isSome = true := by
  decide

theorem recorded_delivers :
    let s := (guardedRun (step silent) WholePut recorded silence).get recorded_runs
    Delivers silent nonempty s ∧ Taps "call" s ∧ s.pushed.length = 2 :=
  ⟨(upstream_delivers 16384 (by decide) "modem_upstream" {} silent "call" _
      (reachable_guarded_get recorded_runs)).1,
    (upstream_delivers 16384 (by decide) "modem_upstream" {} silent "call" _
      (reachable_guarded_get recorded_runs)).2, by decide⟩

theorem skipped_runs :
    (guardedRun (step silent) WholePut recorded [.put [], .turn]).isSome = true := by decide

/-- **An empty chunk** is taken and not pushed. -/
theorem empty_chunk_skipped :
    ¬ ∀ (sp : Scipy) (capacity : Nat) (positive : 0 < capacity) (name : String) (r : Recorder)
      (callId : String) (s : Upstream),
      Reachable (step sp) WholePut
          (started capacity positive name (r.beginCall callId) (some callId)) s →
        Delivers sp id s ∧ Taps callId s := by
  intro claim
  have delivers := claim silent 16384 (by decide) "modem_upstream" {} "call" _
    (reachable_guarded_get skipped_runs)
  have lengths := congrArg List.length delivers.1.once
  rw [List.length_map, List.length_map] at lengths
  exact absurd lengths (by decide)

end Upstream

end IsalesTelephony.Audio
