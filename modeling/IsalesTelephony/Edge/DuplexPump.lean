/-
# Edge.DuplexPump -- both directions in lockstep

`run_duplex_pump` reads a chunk from the modem and puts it on the upstream ring, moves all
that the downstream ring holds to a buffer of its own, and writes one frame of 320 bytes:
from that buffer if it holds a frame, else silence.  It is suspended in `read_chunk` or in
`write_chunk`, either of which may raise; the rings are used and closed and the pump is
cancelled in both.

A frame is of the channel's audio or it is the pump's silence, whatever the bytes of the
audio are (`Frame`).  The audio written and what is pending are the bytes taken from the
ring (`Sound.split`), and the pump keeps step (`Sound.lockstep`).
-/
import IsalesTelephony.Edge.PlaybackPump

namespace IsalesTelephony.Edge

set_option autoImplicit false

open IsalesTelephony.Audio
open IsalesTelephony.Theory
open IsalesTelephony.Theory.Transition

/-- `FRAME`. -/
def duplexFrame : Nat := 320

/-- What is handed to `write_chunk`. -/
inductive Frame where
  | voice (pcm : Pcm)
  | silence
  deriving DecidableEq

namespace Frame

def bytes : Frame → Pcm
  | voice pcm => pcm
  | silence => List.replicate duplexFrame 0

/-- The channel's audio in it. -/
def audio : Frame → Pcm
  | voice pcm => pcm
  | silence => []

end Frame

/-- Where `run_duplex_pump` is. -/
inductive DuplexPc where
  /-- in `read_chunk` -/
  | reading
  /-- in `write_chunk` -/
  | writing
  | ended (why : PumpEnd)
  deriving DecidableEq

structure DuplexPump where
  upstream : Traffic
  downstream : Traffic
  pc : DuplexPc := .reading
  pending : Pcm := []
  /-- the iterations completed -/
  n : Nat := 0
  /-- history: the chunks captured -/
  captured : List Pcm := []
  /-- history: the frames handed to `write_chunk` -/
  written : List Frame := []

inductive DuplexAction where
  /-- another task puts on the downstream ring -/
  | put (chunk : Pcm)
  | close
  /-- another task uses the upstream ring -/
  | upstream (action : RingAction)
  /-- `read_chunk` returns -/
  | read (chunk : Pcm)
  /-- `write_chunk` returns -/
  | wrote
  /-- the backend raises -/
  | raises
  | cancel

namespace DuplexPump

/-- The task of the pump, as the ring sees it. -/
def pumpTask : Nat := 0

/-- `downstream.get_nowait()`. -/
def nowait (log : Traffic) : Traffic :=
  log.finish log.ring.getNowait.1 pumpTask log.ring.getNowait.2

/-- The loop over `get_nowait`: one turn for each chunk queued, and one that finds none. -/
def drain : List Pcm → Traffic → Pcm → Traffic × Pcm
  | [], log, pending => (nowait log, pending)
  | _ :: rest, log, pending =>
      match log.ring.getNowait.2 with
      | .chunk out => drain rest (nowait log) (pending ++ out)
      | _ => (nowait log, pending)

/-- One frame is handed to `write_chunk`. -/
def write (s : DuplexPump) : DuplexPump :=
  if duplexFrame ≤ s.pending.length then
    { s with
      pc := .writing
      pending := s.pending.drop duplexFrame
      written := s.written ++ [.voice (s.pending.take duplexFrame)] }
  else { s with pc := .writing, written := s.written ++ [.silence] }

/-- The body of the loop with the chunk captured. -/
def read (s : DuplexPump) (chunk : Pcm) : DuplexPump :=
  if chunk = [] then { s with pc := .ended .eof }
  else
    let s := { s with upstream := s.upstream.put chunk, captured := s.captured ++ [chunk] }
    if s.upstream.ring.closed then { s with pc := .ended .failed }
    else
      let drained := drain s.downstream.ring.chunks s.downstream s.pending
      write { s with downstream := drained.1, pending := drained.2 }

def step (s : DuplexPump) : DuplexAction → Option DuplexPump
  | .put chunk => some { s with downstream := s.downstream.put chunk }
  | .close => some { s with downstream := s.downstream.close }
  -- only the pump puts upstream
  | .upstream (.put _) => none
  | .upstream action => (s.upstream.step action).map fun log => { s with upstream := log }
  | .read chunk => if s.pc = .reading then some (s.read chunk) else none
  | .wrote => if s.pc = .writing then some { s with pc := .reading, n := s.n + 1 } else none
  | .raises =>
      match s.pc with
      | .ended _ => none
      | _ => some { s with pc := .ended .failed }
  | .cancel =>
      match s.pc with
      | .ended _ => none
      | _ => some { s with pc := .ended .cancelled }

/-- The bytes taken from the downstream ring, in order. -/
def taken (s : DuplexPump) : Pcm := s.downstream.delivered.flatten

/-- The channel's audio that was written. -/
def voice (s : DuplexPump) : Pcm := s.written.flatMap Frame.audio

/-- The bytes that wait for the modem, in the ring and in the pump. -/
def unwritten (s : DuplexPump) : Int := s.downstream.ring.size + s.pending.length

/-! ## Draining -/

variable {s t : DuplexPump} {action : DuplexAction} {log after : Traffic}

/-- The ring after the pump took what was in it. -/
structure Drained (log : Traffic) (queued : List Pcm) (after : Traffic) : Prop where
  accounts : Traffic.Accounts after
  empty : after.ring.chunks = []
  delivered : after.delivered = log.delivered ++ queued
  capacity : after.ring.capacity = log.ring.capacity
  closed : after.ring.closed = log.ring.closed

theorem nowait_nil (accounts : Traffic.Accounts log) (empty : log.ring.chunks = []) :
    Drained log [] (nowait log) := by
  have got : log.ring.getNowait = (log.ring, .nothing) := by simp [PcmRingBuffer.getNowait, empty]
  have ends : log.Moves (.getNowait pumpTask)
      (log.finish (Traffic.rewait log.ring log.ring.waiters) pumpTask .nothing) :=
    .ends (by simp) (by simp) (by simp) (fun _ _ => empty) fun _ member => .inl member
  unfold nowait
  rw [got]
  exact ⟨Traffic.accounts_moves accounts ends, empty, Traffic.delivered_finish _ _ _, rfl, rfl⟩

theorem nowait_cons {out : Pcm} {rest : List Pcm} (accounts : Traffic.Accounts log)
    (head : log.ring.chunks = out :: rest) :
    log.ring.getNowait.2 = .chunk out ∧ Traffic.Accounts (nowait log) ∧
      (nowait log).ring = log.ring.popleft out rest ∧
      (nowait log).delivered = log.delivered ++ [out] := by
  have got : log.ring.getNowait = (log.ring.popleft out rest, .chunk out) := by
    simp [PcmRingBuffer.getNowait, head]
  have takes : log.Moves (.getNowait pumpTask) (log.finish
      (Traffic.rewait (log.ring.popleft out rest) log.ring.waiters) pumpTask (.chunk out)) :=
    .takes (.inr (.inr rfl)) head fun _ member => .inl member
  unfold nowait
  rw [got]
  exact ⟨rfl, Traffic.accounts_moves accounts takes, rfl, Traffic.delivered_finish _ _ _⟩

/-- All that is queued goes to the pump's buffer. -/
theorem drained_drain : ∀ {queued : List Pcm} {log : Traffic} (pending : Pcm),
    Traffic.Accounts log → log.ring.chunks = queued →
      Drained log queued (drain queued log pending).1 ∧
        (drain queued log pending).2 = pending ++ queued.flatten
  | [], log, pending, accounts, empty => ⟨nowait_nil accounts empty, (List.append_nil _).symm⟩
  | out :: rest, log, pending, accounts, head => by
      obtain ⟨got, after, ring, delivered⟩ := nowait_cons accounts head
      have queued : (nowait log).ring.chunks = rest := by rw [ring]; rfl
      obtain ⟨later, kept⟩ := drained_drain (pending ++ out) after queued
      rw [drain, got]
      refine ⟨⟨later.accounts, later.empty, ?_, ?_, ?_⟩, ?_⟩
      · rw [later.delivered, delivered, List.append_assoc]
        rfl
      · rw [later.capacity, ring]
        rfl
      · rw [later.closed, ring]
        rfl
      · rw [kept, List.append_assoc]
        rfl

/-! ## One step -/

/-- One chunk put upstream and one frame written in each iteration. -/
structure Lockstep (s : DuplexPump) : Prop where
  put : s.upstream.offers.map (·.2) = s.captured
  reading : s.pc = .reading → s.captured.length = s.n ∧ s.written.length = s.n
  writing : s.pc = .writing → s.captured.length = s.n + 1 ∧ s.written.length = s.n + 1

/-- What holds in every state. -/
structure Sound (s : DuplexPump) : Prop where
  up : Traffic.Accounts s.upstream
  down : Traffic.Accounts s.downstream
  whole : ∀ frame ∈ s.written, frame.bytes.length = duplexFrame
  split : s.voice ++ s.pending = s.taken
  lockstep : Lockstep s

theorem voice_concat (written : List Frame) (frame : Frame) :
    (written ++ [frame]).flatMap Frame.audio = written.flatMap Frame.audio ++ frame.audio := by
  rw [List.flatMap_append, List.flatMap_singleton]

/-- The frame that is written next. -/
def nextFrame (s : DuplexPump) : Frame :=
  if duplexFrame ≤ s.pending.length then .voice (s.pending.take duplexFrame) else .silence

theorem nextFrame_silence : s.nextFrame = .silence ↔ s.pending.length < duplexFrame := by
  unfold nextFrame
  split
  · rename_i enough
    exact ⟨nofun, fun few => absurd enough (Nat.not_le.mpr few)⟩
  · rename_i few
    exact ⟨fun _ => Nat.not_le.mp few, fun _ => rfl⟩

theorem length_nextFrame : s.nextFrame.bytes.length = duplexFrame := by
  unfold nextFrame
  split
  · rename_i enough
    exact (List.length_take).trans (Nat.min_eq_left enough)
  · exact List.length_replicate

/-- What a write leaves pending. -/
def kept (s : DuplexPump) : Pcm :=
  if duplexFrame ≤ s.pending.length then s.pending.drop duplexFrame else s.pending

theorem write_eq : s.write =
    { s with pc := .writing, pending := s.kept, written := s.written ++ [s.nextFrame] } := by
  unfold write kept nextFrame
  split <;> rfl

theorem audio_nextFrame_kept : s.nextFrame.audio ++ s.kept = s.pending := by
  unfold nextFrame kept
  split
  · exact List.take_append_drop _ _
  · rfl

/-- What one step does. -/
inductive Moves (s : DuplexPump) : DuplexAction → DuplexPump → Prop
  /-- another task uses a ring -/
  | aside {action : DuplexAction} {up down : Traffic} (upAccounts : Traffic.Accounts up)
      (downAccounts : Traffic.Accounts down) (offers : up.offers = s.upstream.offers)
      (delivered : down.delivered = s.downstream.delivered)
      (puts : down = s.downstream ∨ down = s.downstream.close ∨
        ∃ chunk, action = .put chunk ∧ down = s.downstream.put chunk) :
      Moves s action { s with upstream := up, downstream := down }
  | ends {action : DuplexAction} {why : PumpEnd} : Moves s action { s with pc := .ended why }
  /-- the upstream ring is closed -/
  | refused {chunk : Pcm} (reading : s.pc = .reading)
      (accounts : Traffic.Accounts (s.upstream.put chunk)) :
      Moves s (.read chunk)
        { s with upstream := s.upstream.put chunk, captured := s.captured ++ [chunk],
                 pc := .ended .failed }
  | writes {chunk : Pcm} {down : Traffic} {pending : Pcm} (reading : s.pc = .reading)
      (accounts : Traffic.Accounts (s.upstream.put chunk))
      (drained : Drained s.downstream s.downstream.ring.chunks down)
      (moved : pending = s.pending ++ s.downstream.ring.chunks.flatten) :
      Moves s (.read chunk)
        (write { s with upstream := s.upstream.put chunk, captured := s.captured ++ [chunk],
                        downstream := down, pending := pending })
  | wrote (writing : s.pc = .writing) : Moves s .wrote { s with pc := .reading, n := s.n + 1 }

theorem step_cases (up : Traffic.Accounts s.upstream) (down : Traffic.Accounts s.downstream)
    (ran : s.step action = some t) : Moves s action t := by
  cases action with
  | put chunk =>
      obtain rfl := Option.some.inj ran
      exact .aside up (Traffic.accounts_moves down (Traffic.moves_put down.counted chunk)) rfl
        (Traffic.delivered_put chunk) (.inr (.inr ⟨chunk, rfl, rfl⟩))
  | close =>
      obtain rfl := Option.some.inj ran
      exact .aside up (Traffic.accounts_moves down .closes) rfl rfl (.inr (.inl rfl))
  | upstream action =>
      have aside : ∀ chunk, action ≠ .put chunk := by
        rintro chunk rfl
        cases ran
      have ran : (s.upstream.step action).map (fun log => { s with upstream := log }) = some t := by
        cases action with
        | put chunk => exact absurd rfl (aside chunk)
        | _ => exact ran
      obtain ⟨log, moved, rfl⟩ := Option.map_eq_some_iff.mp ran
      have moves := Traffic.step_cases up.counted moved
      exact .aside (Traffic.accounts_moves up moves) down (Traffic.offers_moves moves aside) rfl
        (.inl rfl)
  | read chunk =>
      simp only [step] at ran
      split at ran
      · rename_i reading
        obtain rfl := Option.some.inj ran
        have accounts := Traffic.accounts_moves up (Traffic.moves_put up.counted chunk)
        obtain ⟨drained, moved⟩ := drained_drain s.pending down rfl
        unfold read
        split
        · exact .ends
        · dsimp only
          split
          · exact .refused reading accounts
          · exact .writes reading accounts drained moved
      · cases ran
  | wrote =>
      simp only [step] at ran
      split at ran
      · rename_i writing
        obtain rfl := Option.some.inj ran
        exact .wrote writing
      · cases ran
  | raises =>
      simp only [step] at ran
      split at ran
      · cases ran
      · obtain rfl := Option.some.inj ran
        exact .ends
  | cancel =>
      simp only [step] at ran
      split at ran
      · cases ran
      · obtain rfl := Option.some.inj ran
        exact .ends

/-- The chunk captured is offered upstream. -/
theorem offered_put {chunk : Pcm} (put : s.upstream.offers.map (·.2) = s.captured) :
    (s.upstream.put chunk).offers.map (·.2) = s.captured ++ [chunk] := by
  rw [Traffic.offers_put, List.map_append, put]
  rfl

/-- **One step.** -/
theorem sound_step (sound : Sound s) (ran : s.step action = some t) : Sound t := by
  have lockstep := sound.lockstep
  cases step_cases sound.up sound.down ran with
  | aside up down offers delivered puts =>
      exact ⟨up, down, sound.whole, sound.split.trans (congrArg List.flatten delivered.symm),
        (congrArg (List.map (·.2)) offers).trans lockstep.put, lockstep.reading, lockstep.writing⟩
  | ends => exact ⟨sound.up, sound.down, sound.whole, sound.split, lockstep.put, nofun, nofun⟩
  | refused reading accounts =>
      exact ⟨accounts, sound.down, sound.whole, sound.split, offered_put lockstep.put, nofun, nofun⟩
  | @writes chunk down pending reading accounts drained moved =>
      rw [write_eq]
      have counts := lockstep.reading reading
      refine ⟨accounts, drained.accounts, fun frame member => ?_, ?_,
        offered_put lockstep.put, nofun, fun _ => ?_⟩
      · rcases List.mem_append.mp member with old | new
        · exact sound.whole frame old
        · rw [List.mem_singleton.mp new]
          exact length_nextFrame
      · rw [voice, voice_concat, List.append_assoc, audio_nextFrame_kept, taken, drained.delivered,
          List.flatten_append, moved, ← List.append_assoc]
        exact congrArg (· ++ s.downstream.ring.chunks.flatten) sound.split
      · simp only [List.length_append, List.length_singleton, counts, and_self]
  | wrote writing =>
      exact ⟨sound.up, sound.down, sound.whole, sound.split, lockstep.put,
        fun _ => lockstep.writing writing, nofun⟩

/-- The pump of a call, about to run, over the rings of both directions. -/
def started (up down : Nat) (upPositive : 0 < up) (downPositive : 0 < down) : DuplexPump where
  upstream := { ring := { capacity := up, positive := upPositive, name := "modem_upstream" } }
  downstream := { ring := { capacity := down, positive := downPositive, name := "modem_downstream" } }

variable {up down : Nat} {upPositive : 0 < up} {downPositive : 0 < down}

theorem sound_started : Sound (started up down upPositive downPositive) :=
  ⟨Traffic.accounts_init _ _ _, Traffic.accounts_init _ _ _, nofun, rfl, rfl, fun _ => ⟨rfl, rfl⟩,
    nofun⟩

theorem sound_of_reachable {ok : DuplexPump → DuplexAction → Prop}
    (run : Reachable step ok (started up down upPositive downPositive) s) : Sound s :=
  run.invariant (P := Sound) sound_started fun _ _ _ sound _ ran => sound_step sound ran

/-- A step writes nothing, or one frame that is silence exactly when less than a frame of what
was taken is not written yet. -/
def Fills (s t : DuplexPump) : Prop :=
  t.written = s.written ∨ ∃ frame, t.written = s.written ++ [frame] ∧
    (frame = .silence ↔ t.taken.length < s.voice.length + duplexFrame)

theorem fills_step (sound : Sound s) (ran : s.step action = some t) : Fills s t := by
  cases step_cases sound.up sound.down ran with
  | aside => exact .inl rfl
  | ends => exact .inl rfl
  | refused => exact .inl rfl
  | @writes chunk down pending reading accounts drained moved =>
      rw [write_eq]
      refine .inr ⟨_, rfl, ?_⟩
      have taken : (down.delivered.flatten).length = s.voice.length + pending.length := by
        rw [drained.delivered, List.flatten_append, moved, ← List.length_append,
          ← List.append_assoc, sound.split]
        rfl
      rw [nextFrame_silence]
      show pending.length < duplexFrame ↔ (down.delivered.flatten).length < _
      omega
  | wrote => exact .inl rfl

end DuplexPump

/-! ### Main result -/

/-- **Framing.**  In every run of either pump, with chunks and puts of any size and at any
time, the frames have 320 bytes.  Where the playback pump waits it has written the longest
front of whole frames of what it took.  The duplex pump has written a front of what it took
and silence only for want of a frame, one frame for each chunk captured. -/
theorem pumps_write_frames {capacity up down : Nat} (positive : 0 < capacity)
    (upPositive : 0 < up) (downPositive : 0 < down) :
    (∀ s, Reachable PlaybackPump.step Free
        (PlaybackPump.started capacity positive "modem_downstream") s →
      (∀ frame ∈ s.written, frame.length = 320) ∧
        (s.pc = .waiting → InFrames 320 s.written.flatten s.taken)) ∧
    ∀ s, Reachable DuplexPump.step Free (DuplexPump.started up down upPositive downPositive) s →
      (∀ frame ∈ s.written, frame.bytes.length = 320) ∧ s.voice <+: s.taken ∧ s.Lockstep ∧
        ∀ action t, s.step action = some t → DuplexPump.Fills s t := by
  constructor
  · intro s run
    have sound := PlaybackPump.sound_of_reachable run
    exact ⟨sound.whole, PlaybackPump.inFrames_of_sound sound⟩
  · intro s run
    have sound := DuplexPump.sound_of_reachable run
    exact ⟨sound.whole, ⟨s.pending, sound.split⟩, sound.lockstep,
      fun _ _ ran => DuplexPump.fills_step sound ran⟩

/-- A frame and a byte, in two chunks. -/
def oneFrame : List PlaybackAction :=
  [.turn, .put [1], .wake, .turn, .put (List.replicate 320 2), .wake, .wrote, .turn]

/-- The same beside the capture: a frame of silence, then one of audio. -/
def twoFrames : List DuplexAction :=
  [.put [1], .read [7, 7], .put (List.replicate 320 2), .wrote, .read [8], .wrote]

theorem oneFrame_runs :
    (run PlaybackPump.step (PlaybackPump.started 4096 (by decide) "modem_downstream")
      oneFrame).isSome = true := by decide +kernel

theorem twoFrames_runs :
    (run DuplexPump.step (DuplexPump.started 4096 4096 (by decide) (by decide))
      twoFrames).isSome = true := by decide +kernel

theorem frames_written :
    let s := (run PlaybackPump.step _ oneFrame).get oneFrame_runs
    let d := (run DuplexPump.step _ twoFrames).get twoFrames_runs
    InFrames 320 s.written.flatten s.taken ∧ s.written.length = 1 ∧ d.voice <+: d.taken ∧
      d.written.map (decide <| · = .silence) = [true, false] :=
  have positive : 0 < 4096 := by decide
  have framing := pumps_write_frames positive positive positive
  ⟨(framing.1 _ (reachable_get oneFrame_runs)).2 (by decide +kernel), by decide +kernel,
    (framing.2 _ (reachable_get twoFrames_runs)).2.1, by decide +kernel⟩

end IsalesTelephony.Edge
