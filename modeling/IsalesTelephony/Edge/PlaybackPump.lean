/-
# Edge.PlaybackPump -- the downstream ring written in modem frames

`run_playback_pump` takes chunks from the downstream ring and writes them to the modem in
frames of 320 bytes.  It is suspended in `get` or in `write_chunk`; the ring is put to and
closed in either, `write_chunk` may raise, and the pump may be cancelled.

The bytes written and the bytes kept back are those taken (`Sound.split`), and where the
pump is about to call `get` or waits in it less than a frame is kept back (`Sound.short`).
-/
import IsalesTelephony.Audio.RingBuffer
import IsalesTelephony.Theory.Framing

namespace IsalesTelephony.Edge

set_option autoImplicit false

open IsalesTelephony.Audio
open IsalesTelephony.Theory
open IsalesTelephony.Theory.Transition

/-- `MIN_WRITE_BYTES`. -/
def minWriteBytes : Nat := 320

/-- Why a pump ended. -/
inductive PumpEnd where
  /-- `read_chunk` gave no bytes -/
  | eof
  /-- `get` raised `StopAsyncIteration` -/
  | ringClosed
  | cancelled
  /-- a backend or `put` raised, which is logged and raised again -/
  | failed
  deriving DecidableEq

/-- Where `run_playback_pump` is. -/
inductive PlaybackPc where
  /-- at the top of the loop -/
  | loop
  /-- in `get` -/
  | waiting
  /-- in `write_chunk` -/
  | writing
  | ended (why : PumpEnd)
  deriving DecidableEq

structure PlaybackPump where
  log : Traffic
  pc : PlaybackPc := .loop
  accum : Pcm := []
  /-- history: the frames handed to `write_chunk` -/
  written : List Pcm := []

inductive PlaybackAction where
  /-- another task puts a chunk -/
  | put (chunk : Pcm)
  | close
  /-- the loop goes round -/
  | turn
  /-- its `get` goes on, once woken -/
  | wake
  | wrote
  | writeRaises
  | cancel (passesOn : Bool)

namespace PlaybackPump

/-- The task of the pump, as the ring sees it. -/
def pumpTask : Nat := 0

/-- The loop that flushes, up to the next `write_chunk` or its end. -/
def flush (s : PlaybackPump) : PlaybackPump :=
  if minWriteBytes ≤ s.accum.length then
    { s with
      pc := .writing
      accum := s.accum.drop minWriteBytes
      written := s.written ++ [s.accum.take minWriteBytes] }
  else { s with pc := .loop }

/-- The pump has taken a chunk. -/
def take (s : PlaybackPump) (chunk : Pcm) : PlaybackPump :=
  if chunk = [] then { s with pc := .loop } else flush { s with accum := s.accum ++ chunk }

/-- `await downstream.get()`, from the test of the ring's loop on. -/
def getNext (s : PlaybackPump) (ring : PcmRingBuffer) : PlaybackPump :=
  let after := { s with log := s.log.getFrom ring pumpTask }
  match (ring.get pumpTask).2 with
  | some (.chunk chunk) => after.take chunk
  | some _ => { after with pc := .ended .ringClosed }
  | none => { after with pc := .waiting }

def step (s : PlaybackPump) : PlaybackAction → Option PlaybackPump
  | .put chunk => some { s with log := s.log.put chunk }
  | .close => some { s with log := s.log.close }
  | .turn => if s.pc = .loop then some (s.getNext s.log.ring) else none
  | .wake =>
      if s.pc = .waiting ∧ (pumpTask, true) ∈ s.log.ring.waiters then
        some (s.getNext (s.log.ring.unwait pumpTask))
      else none
  | .wrote => if s.pc = .writing then some s.flush else none
  | .writeRaises => if s.pc = .writing then some { s with pc := .ended .failed } else none
  | .cancel passesOn =>
      match s.pc with
      | .waiting => some { s with log := s.log.cancel pumpTask passesOn, pc := .ended .cancelled }
      | .loop | .writing => some { s with pc := .ended .cancelled }
      | .ended _ => none

/-- The bytes taken from the ring, in order. -/
def taken (s : PlaybackPump) : Pcm := s.log.delivered.flatten

/-! ## One step -/

variable {s t : PlaybackPump} {action : PlaybackAction}

/-- What holds in every state. -/
structure Sound (s : PlaybackPump) : Prop where
  accounts : Traffic.Accounts s.log
  whole : ∀ frame ∈ s.written, frame.length = minWriteBytes
  split : s.written.flatten ++ s.accum = s.taken
  short : s.pc = .loop ∨ s.pc = .waiting → s.accum.length < minWriteBytes

/-- A step of the ring gives the pump nothing. -/
theorem Sound.aside {log : Traffic} {pc : PlaybackPc} (sound : Sound s)
    (accounts : Traffic.Accounts log) (delivered : log.delivered = s.log.delivered)
    (short : pc = .loop ∨ pc = .waiting → s.accum.length < minWriteBytes) :
    Sound { s with log := log, pc := pc } :=
  ⟨accounts, sound.whole, sound.split.trans (congrArg List.flatten delivered.symm), short⟩

/-- Flushing writes a whole frame or has none to write. -/
theorem sound_flush (accounts : Traffic.Accounts s.log)
    (whole : ∀ frame ∈ s.written, frame.length = minWriteBytes)
    (split : s.written.flatten ++ s.accum = s.taken) : Sound s.flush := by
  unfold flush
  split
  · rename_i enough
    refine ⟨accounts, fun frame member => ?_, ?_, fun idle => idle.elim nofun nofun⟩
    · rcases List.mem_append.mp member with old | new
      · exact whole frame old
      · rw [List.mem_singleton.mp new, List.length_take, Nat.min_eq_left enough]
    · show (s.written ++ [s.accum.take minWriteBytes]).flatten ++ s.accum.drop minWriteBytes = s.taken
      rw [List.flatten_concat, List.append_assoc, List.take_append_drop, split]
  · rename_i few
    exact ⟨accounts, whole, split, fun _ => Nat.not_le.mp few⟩

theorem sound_take {log : Traffic} {chunk : Pcm} (sound : Sound s)
    (idle : s.pc = .loop ∨ s.pc = .waiting) (accounts : Traffic.Accounts log)
    (delivered : log.delivered = s.log.delivered ++ [chunk]) :
    Sound ({ s with log := log }.take chunk) := by
  have taken : log.delivered.flatten = s.taken ++ chunk := by
    rw [delivered, List.flatten_concat]
    rfl
  unfold take
  split
  · rename_i empty
    rw [empty, List.append_nil] at taken
    exact ⟨accounts, sound.whole, sound.split.trans taken.symm, fun _ => sound.short idle⟩
  · refine sound_flush accounts sound.whole ?_
    show s.written.flatten ++ (s.accum ++ chunk) = log.delivered.flatten
    rw [← List.append_assoc, sound.split, taken]

/-- `get` from the loop's test on. -/
theorem sound_getNext {waiters : List (Nat × Bool)} (sound : Sound s)
    (idle : s.pc = .loop ∨ s.pc = .waiting) (rests : s.log.Rests waiters) :
    Sound (s.getNext (Traffic.rewait s.log.ring waiters)) := by
  have moves : s.log.Moves (.get pumpTask) _ := Traffic.moves_getFrom (.inl rfl) rests
  have accounts := Traffic.accounts_moves sound.accounts moves
  obtain ⟨given, gives, delivered⟩ := s.log.gives_getFrom waiters pumpTask
  unfold getNext
  generalize (Traffic.rewait s.log.ring waiters).get pumpTask = got at gives ⊢
  obtain ⟨ring, result⟩ := got
  cases gives with
  | chunk head => exact sound_take sound idle accounts delivered
  | stop closed empty =>
      exact sound.aside accounts (delivered.trans (List.append_nil _)) (fun h => h.elim nofun nofun)
  | waits empty =>
      exact sound.aside accounts (delivered.trans (List.append_nil _)) fun _ => sound.short idle

/-- **One step.** -/
theorem sound_step (sound : Sound s) (ran : s.step action = some t) : Sound t := by
  cases action with
  | put chunk =>
      obtain rfl := Option.some.inj ran
      exact sound.aside (Traffic.accounts_moves sound.accounts
        (Traffic.moves_put sound.accounts.counted chunk)) (Traffic.delivered_put chunk) sound.short
  | close =>
      obtain rfl := Option.some.inj ran
      exact sound.aside (Traffic.accounts_moves sound.accounts .closes) rfl sound.short
  | turn =>
      simp only [step] at ran
      split at ran
      · rename_i atLoop
        obtain rfl := Option.some.inj ran
        exact sound_getNext sound (.inl atLoop) fun _ member => .inl member
      · cases ran
  | wake =>
      simp only [step] at ran
      split at ran
      · rename_i woken
        obtain rfl := Option.some.inj ran
        exact sound_getNext sound (.inr woken.1) (s.log.rests_unwait pumpTask)
      · cases ran
  | wrote =>
      simp only [step] at ran
      split at ran
      · obtain rfl := Option.some.inj ran
        exact sound_flush sound.accounts sound.whole sound.split
      · cases ran
  | writeRaises =>
      simp only [step] at ran
      split at ran
      · obtain rfl := Option.some.inj ran
        exact sound.aside sound.accounts rfl fun idle => idle.elim nofun nofun
      · cases ran
  | cancel passesOn =>
      simp only [step] at ran
      split at ran
      · obtain rfl := Option.some.inj ran
        exact sound.aside (Traffic.accounts_moves sound.accounts
          (Traffic.moves_cancel pumpTask passesOn)) (Traffic.delivered_cancel pumpTask passesOn)
          fun idle => idle.elim nofun nofun
      · obtain rfl := Option.some.inj ran
        exact sound.aside sound.accounts rfl fun idle => idle.elim nofun nofun
      · obtain rfl := Option.some.inj ran
        exact sound.aside sound.accounts rfl fun idle => idle.elim nofun nofun
      · cases ran

/-- The pump of a call, about to run. -/
def started (capacity : Nat) (positive : 0 < capacity) (name : String) : PlaybackPump where
  log := { ring := { capacity := capacity, positive := positive, name := name } }

theorem sound_of_reachable {capacity : Nat} {positive : 0 < capacity} {name : String}
    (run : Reachable step Free (started capacity positive name) s) : Sound s := by
  have none_kept : 0 < minWriteBytes := by decide
  exact run.invariant (P := Sound)
    ⟨Traffic.accounts_init capacity positive name, nofun, rfl, fun _ => none_kept⟩
    fun _ _ _ sound _ ran => sound_step sound ran

/-- Where the pump waits it has written the longest front of whole frames. -/
theorem inFrames_of_sound (sound : Sound s) (waiting : s.pc = .waiting) :
    InFrames minWriteBytes s.written.flatten s.taken :=
  inFrames_of_append sound.split ⟨_, length_flatten_frames sound.whole⟩ (sound.short (.inr waiting))

end PlaybackPump

end IsalesTelephony.Edge
