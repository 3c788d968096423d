/-
# Edge.PortTurns -- what one step does to the audio port and the pump it is of

The capture opens the port once and the playback borrows its handle, so neither `read_chunk`
nor `write_chunk` opens it again (`Shared`, `readChunk_eq`).  Then a step is of one pump, which
hears `new` and says `said` (`Turn`): it runs as `run_duplex_pump` does over its own rings, and
where it is says what became of what its reads gave and of the frames it handed over (`Standing`).
-/
import IsalesTelephony.Edge.SerialPcm

namespace IsalesTelephony.Edge

set_option autoImplicit false

open IsalesTelephony.Audio
open IsalesTelephony.Theory
open IsalesTelephony.Theory.Transition

/-! ## A pump's steps -/

namespace DuplexPump

variable {p q : DuplexPump} {action : DuplexAction}

/-- A chunk is captured, and a frame follows unless the upstream ring is closed. -/
theorem captures {chunk : Pcm} (some_ : chunk ≠ []) (ran : p.step (.read chunk) = some q) :
    q.captured = p.captured ++ [chunk] ∧
      (q.pc = .ended .failed ∧ q.written = p.written ∨
        q.pc = .writing ∧ ∃ frame, q.written = p.written ++ [frame]) := by
  simp only [step] at ran
  split at ran
  · obtain rfl := Option.some.inj ran
    unfold read
    rw [if_neg some_]
    dsimp only
    split
    · exact ⟨rfl, .inl ⟨rfl, rfl⟩⟩
    · rw [write_eq]
      exact ⟨rfl, .inr ⟨rfl, _, rfl⟩⟩
  · cases ran

theorem read_nil (ran : p.step (.read []) = some q) : q = { p with pc := .ended .eof } := by
  simp only [step] at ran
  split at ran
  · exact (Option.some.inj ran).symm
  · cases ran

theorem wrote_eq (ran : p.step .wrote = some q) :
    p.pc = .writing ∧ q = { p with pc := .reading, n := p.n + 1 } := by
  simp only [step] at ran
  split at ran
  · rename_i writing
    exact ⟨writing, (Option.some.inj ran).symm⟩
  · cases ran

theorem live_of_going (going : ∀ why, p.pc ≠ .ended why) : p.Live = true := by
  unfold Live
  split
  · rfl
  · rfl
  · rename_i why ended
    exact absurd ended (going why)

theorem raises_eq (ran : p.step .raises = some q) :
    p.Live = true ∧ q = { p with pc := .ended .failed } := by
  simp only [step] at ran
  split at ran
  · cases ran
  · rename_i going
    exact ⟨live_of_going going, (Option.some.inj ran).symm⟩

theorem cancel_eq (ran : p.step .cancel = some q) :
    p.Live = true ∧ q = { p with pc := .ended .cancelled } := by
  simp only [step] at ran
  split at ran
  · cases ran
  · rename_i going
    exact ⟨live_of_going going, (Option.some.inj ran).symm⟩

theorem rings_eq (ring : action.IsRing = true) (ran : p.step action = some q) :
    q.pc = p.pc ∧ q.captured = p.captured ∧ q.written = p.written := by
  cases action with
  | put | close =>
      obtain rfl := Option.some.inj ran
      exact ⟨rfl, rfl, rfl⟩
  | upstream action =>
      have ran : (p.upstream.step action).map (fun log => { p with upstream := log }) = some q := by
        cases action with
        | put => cases ran
        | _ => exact ran
      obtain ⟨log, -, rfl⟩ := Option.map_eq_some_iff.mp ran
      exact ⟨rfl, rfl, rfl⟩
  | read | wrote | raises | cancel => cases ring

theorem not_live {why : PumpEnd} (ended : p.pc = .ended why) : p.Live = false := by
  simp [Live, ended]

theorem ended_of_not_live (finished : p.Live = false) : ∃ why, p.pc = .ended why := by
  unfold Live at finished
  split at finished
  · cases finished
  · cases finished
  · rename_i why ended
    exact ⟨why, ended⟩

theorem frame_eq {written : List Frame} {frame : Frame} (isLast : p.written = written ++ [frame]) :
    p.frame = frame.bytes := by
  simp [DuplexPump.frame, isLast]

end DuplexPump

/-! ## The handle -/

namespace SerialPortHolder

variable {h : SerialPortHolder} {handles : List SerialHandle} {opens : Bool}

/-- A port that was opened is not opened again. -/
theorem ready_opened (opened : h.opened = true) :
    h.ready handles opens = h.serial.map fun handle => (h, handles, handle) := by
  unfold ready
  rw [if_pos opened]
  dsimp only
  cases h.serial <;> rfl

end SerialPortHolder

namespace AudioPort

variable {cfg : PortConfig} {path : String} {s t : AudioPort} {i : Nat} {x : PortPump}
  {opens : Bool}

/-- One handle, which the capture has opened and the playback borrows. -/
structure Shared (path : String) (s : AudioPort) : Prop where
  handles : s.handles = [{ serialPath := path, isOpen := !s.capture.closed }]
  opened : s.capture.opened = true ∧ s.playback.opened = true
  owner : s.capture.owns = true ∧ s.playback.owns = false
  capture : s.capture.serial = if s.capture.closed then none else some 0
  playback : s.playback.serial = if s.playback.closed then none else some 0

theorem shared_build (built : build path opens = some s) :
    opens = true ∧ s.Shared path ∧ s.pumps = [] ∧ s.heard = [] ∧ s.spoken = [] := by
  cases opens with
  | false => simp [build, SerialPortHolder.openPort] at built
  | true =>
      obtain rfl : _ = s := Option.some.inj built
      exact ⟨rfl, ⟨rfl, ⟨rfl, rfl⟩, ⟨rfl, rfl⟩, rfl, rfl⟩, rfl, rfl, rfl⟩

/-- The capture closes the handle. -/
theorem shared_closeCapture (shared : s.Shared path) :
    Shared path { s with
      capture := (s.capture.close s.handles).1, handles := (s.capture.close s.handles).2 } := by
  obtain ⟨handles, opened, owner, capture, playback⟩ := shared
  unfold SerialPortHolder.close
  cases closed : s.capture.closed with
  | true =>
      rw [if_pos rfl]
      exact ⟨handles, opened, owner, capture, playback⟩
  | false =>
      rw [closed] at capture handles
      rw [if_neg Bool.false_ne_true]
      simp only [capture, Bool.false_eq_true, if_false, owner.1, if_true]
      refine ⟨?_, opened, ⟨rfl, owner.2⟩, rfl, playback⟩
      simp [handles]

/-- The playback only lets go of it. -/
theorem shared_closePlayback (shared : s.Shared path) :
    Shared path { s with
      playback := (s.playback.close s.handles).1, handles := (s.playback.close s.handles).2 } := by
  obtain ⟨handles, opened, owner, capture, playback⟩ := shared
  unfold SerialPortHolder.close
  cases closed : s.playback.closed with
  | true =>
      rw [if_pos rfl]
      exact ⟨handles, opened, owner, capture, playback⟩
  | false =>
      rw [closed] at playback
      rw [if_neg Bool.false_ne_true]
      simp only [playback, Bool.false_eq_true, if_false, owner.2]
      exact ⟨handles, opened, ⟨owner.1, rfl⟩, capture, rfl⟩

theorem readChunk_eq (shared : s.Shared path) :
    s.readChunk i x opens = match s.capture.serial with
      | none => s.raise i x
      | some handle =>
          some (s.setPump i
            { x with empties := 0, call := some { op := .read, handle := handle } }) := by
  unfold readChunk
  rw [SerialPortHolder.ready_opened shared.opened.1]
  cases s.capture.serial <;> rfl

theorem writeChunk_eq (shared : s.Shared path) :
    s.writeChunk i x opens = match s.playback.serial with
      | none => s.raise i x
      | some handle =>
          some (s.setPump i
            { x with call := some { op := .write x.pump.frame, handle := handle } }) := by
  unfold writeChunk
  rw [SerialPortHolder.ready_opened shared.opened.2]
  cases s.playback.serial <;> rfl

end AudioPort

/-! ## Where a pump is -/

namespace PortPump

variable {cfg : PortConfig} {heard spoken : List Pcm} {x y : PortPump}

/-- What `read_chunk` returned of what the reads gave. -/
def gave (reads : List Pcm) : List Pcm := reads.filter (· ≠ [])

theorem gave_append (reads later : List Pcm) : gave (reads ++ later) = gave reads ++ gave later :=
  List.filter_append ..

theorem gave_empties (n : Nat) : gave (List.replicate n []) = [] := by
  simp [gave]

/-- What its read came back with and it has not gone on with. -/
def hand (x : PortPump) : List Pcm :=
  match x.call with
  | some { op := .read, handle := _, phase := .finished (.data pcm) } => [pcm]
  | _ => []

theorem hand_nil {call : ThreadCall} (has : x.call = some call)
    (nothing : ∀ pcm, call.phase ≠ .finished (.data pcm)) : x.hand = [] := by
  unfold hand
  rw [has]
  split
  · rename_i pcm same
    obtain rfl := Option.some.inj same
    exact absurd rfl (nothing pcm)
  · rfl

/-- A thread is in a call of it. -/
def Running (x : PortPump) : Bool :=
  match x.call with
  | some call => call.phase = .running
  | none => false

/-- About to read. -/
structure Rests (heard spoken : List Pcm) (x : PortPump) : Prop where
  reading : x.pump.pc = .reading
  call : x.call = none
  captured : x.pump.captured = gave heard
  spoken : spoken = x.pump.written.map Frame.bytes

/-- About to write. -/
structure Holds (heard spoken : List Pcm) (x : PortPump) : Prop where
  writing : x.pump.pc = .writing
  call : x.call = none
  captured : x.pump.captured = gave heard
  spoken : spoken ++ [x.pump.frame] = x.pump.written.map Frame.bytes

/-- What the driver has not been given of the frames, by where the write is. -/
def Withheld (frame : Pcm) : ThreadPhase → List Pcm → Prop
  | .queued, rest => rest = [frame]
  | .running, rest | .finished .wrote, rest => rest = []
  | .finished .raised, rest => rest.length ≤ 1
  | .finished (.data _), _ => False

/-- Where the pump is, with what its reads gave and what it had the driver write. -/
inductive Standing (heard spoken : List Pcm) (x : PortPump) : Prop
  | rests (rests : Rests heard spoken x)
  | reads (front : List Pcm) (handle : Nat) (phase : ThreadPhase)
      (reading : x.pump.pc = .reading)
      (call : x.call = some { op := .read, handle := handle, phase := phase })
      (few : x.empties < maxEmpty)
      (heard : heard = front ++ List.replicate x.empties [] ++ x.hand)
      (captured : x.pump.captured = gave front)
      (spoken : spoken = x.pump.written.map Frame.bytes)
  | writes (handle : Nat) (phase : ThreadPhase) (rest : List Pcm)
      (writing : x.pump.pc = .writing)
      (call : x.call = some { op := .write x.pump.frame, handle := handle, phase := phase })
      (captured : x.pump.captured = gave heard)
      (spoken : spoken ++ rest = x.pump.written.map Frame.bytes)
      (withheld : Withheld x.pump.frame phase rest)
  | finished (why : PumpEnd) (rest : List Pcm) (ended : x.pump.pc = .ended why) (call : x.call = none)
      (captured : x.pump.captured = gave heard)
      (spoken : spoken ++ rest = x.pump.written.map Frame.bytes) (short : rest.length ≤ 1)
      (eof : why = .eof → ∃ front, heard = front ++ List.replicate maxEmpty [])
  -- a thread had taken its call up when it was cancelled
  | strays (stray : ThreadCall) (back rest : List Pcm) (ended : x.pump.pc = .ended .cancelled)
      (call : x.call = some stray) (started : stray.phase ≠ .queued)
      (heard : heard = back ++ x.hand) (captured : x.pump.captured = gave back)
      (spoken : spoken ++ rest = x.pump.written.map Frame.bytes) (short : rest.length ≤ 1)

/-- The frames that the driver was not given are one at most. -/
theorem Withheld.short {frame : Pcm} {phase : ThreadPhase} {rest : List Pcm}
    (withheld : Withheld frame phase rest) : rest.length ≤ 1 := by
  unfold Withheld at withheld
  split at withheld
  · exact (congrArg List.length withheld).le
  · exact (congrArg List.length withheld).le.trans (Nat.zero_le 1)
  · exact (congrArg List.length withheld).le.trans (Nat.zero_le 1)
  · exact withheld
  · exact withheld.elim

/-- What a step does to the pump it is of, which hears `new` and says `said`. -/
structure Turn (cfg : PortConfig) (heard spoken : List Pcm) (x y : PortPump)
    (new said : List Pcm) : Prop where
  stage : Standing (heard ++ new) (spoken ++ said) y
  runs : Reachable DuplexPump.step Free x.pump y.pump
  since : y.since = x.since
  finished : ∀ why, x.pump.pc = .ended why → y.pump.pc = .ended why
  running : y.Running = true → x.Running = true ∨ x.pump.Live = true
  comes : new = [] ∨ x.Running = true ∧ y.Running = false ∧ new.length = 1
  small : ∀ chunk ∈ new, chunk.length ≤ cfg.chunkBytes

/-- A pump that is about to read or to write goes on, or it raises. -/
structure Settles (heard spoken : List Pcm) (x y : PortPump) : Prop where
  stage : Standing heard spoken y
  runs : Reachable DuplexPump.step Free x.pump y.pump
  since : y.since = x.since
  idle : y.Running = false

/-- A live pump goes on with what came back. -/
theorem Settles.turn {z : PortPump} (live : x.pump.Live = true)
    (runs : Reachable DuplexPump.step Free x.pump z.pump) (since : z.since = x.since)
    (settles : Settles heard spoken z y) : Turn cfg heard spoken x y [] [] where
  stage := by simpa using settles.stage
  runs := runs.trans settles.runs
  since := settles.since.trans since
  finished := by
    intro why ended
    rw [DuplexPump.not_live ended] at live
    cases live
  running := by
    intro running
    rw [settles.idle] at running
    cases running
  comes := .inl rfl
  small := nofun

theorem step_runs {p q : DuplexPump} {action : DuplexAction} (ran : p.step action = some q) :
    Reachable DuplexPump.step Free p q :=
  (Reachable.refl p).snoc trivial ran

/-- The pump raises. -/
theorem settles_raise {pump : DuplexPump} {rest : List Pcm} (ran : x.pump.step .raises = some pump)
    (captured : x.pump.captured = gave heard)
    (said : spoken ++ rest = x.pump.written.map Frame.bytes) (short : rest.length ≤ 1) :
    Settles heard spoken x { x with pump := pump, call := none } := by
  refine ⟨?_, step_runs ran, rfl, rfl⟩
  obtain ⟨-, rfl⟩ := DuplexPump.raises_eq ran
  exact .finished .failed rest rfl rfl captured said short nofun

end PortPump

namespace AudioPort

variable {cfg : PortConfig} {path : String} {s t : AudioPort} {i : Nat} {x : PortPump}
  {opens : Bool} {heard spoken : List Pcm}

open PortPump

/-- The port after a step of pump `i`, which hears `new` and says `said`. -/
def turn (s : AudioPort) (i : Nat) (x : PortPump) (new said : List Pcm) : AudioPort :=
  { s with
    pumps := s.pumps.set i x
    heard := s.heard ++ new.map fun pcm => (i, pcm)
    spoken := s.spoken ++ said.map fun pcm => (i, pcm) }

theorem turn_nil : s.turn i x [] [] = s.setPump i x := by
  simp [turn, setPump]

theorem raise_cases {rest : List Pcm} (captured : x.pump.captured = gave heard)
    (said : spoken ++ rest = x.pump.written.map Frame.bytes) (short : rest.length ≤ 1)
    (ran : s.raise i x = some t) :
    ∃ y, t = s.turn i y [] [] ∧ Settles heard spoken x y := by
  obtain ⟨pump, raised, rfl⟩ := Option.map_eq_some_iff.mp ran
  exact ⟨_, turn_nil.symm, settles_raise raised captured said short⟩

/-- A pump about to read hands a read over, or it raises. -/
theorem readChunk_cases (shared : s.Shared path) (rests : Rests heard spoken x)
    (ran : s.readChunk i x opens = some t) :
    ∃ y, t = s.turn i y [] [] ∧ Settles heard spoken x y := by
  have said : spoken ++ [] = x.pump.written.map Frame.bytes :=
    (List.append_nil _).trans rests.spoken
  rw [readChunk_eq shared] at ran
  split at ran
  · exact raise_cases rests.captured said (Nat.zero_le 1) ran
  · rename_i handle _
    obtain rfl := Option.some.inj ran
    refine ⟨_, turn_nil.symm, ?_, Reachable.refl _, rfl, rfl⟩
    exact .reads heard handle .queued rests.reading rfl (Nat.zero_lt_succ 49) (by simp [hand])
      rests.captured rests.spoken

/-- A pump about to write hands a write over, or it raises. -/
theorem writeChunk_cases (shared : s.Shared path) (holds : Holds heard spoken x)
    (ran : s.writeChunk i x opens = some t) :
    ∃ y, t = s.turn i y [] [] ∧ Settles heard spoken x y := by
  rw [writeChunk_eq shared] at ran
  split at ran
  · exact raise_cases holds.captured holds.spoken (Nat.le_refl 1) ran
  · rename_i handle _
    obtain rfl := Option.some.inj ran
    refine ⟨_, turn_nil.symm, ?_, Reachable.refl _, rfl, rfl⟩
    exact .writes handle .queued [x.pump.frame] holds.writing rfl holds.captured holds.spoken rfl

/-- A live pump goes on with what a read came back with. -/
theorem resumed_read (cfg : PortConfig) {front : List Pcm} {handle : Nat} {result : SerialResult}
    (shared : s.Shared path) (reading : x.pump.pc = .reading) (few : x.empties < maxEmpty)
    (call : x.call = some { op := .read, handle := handle, phase := .finished result })
    (all : heard = front ++ List.replicate x.empties [] ++ x.hand)
    (captured : x.pump.captured = gave front)
    (said : spoken = x.pump.written.map Frame.bytes)
    (ran : s.resumed i x opens handle result = some t) :
    ∃ y, t = s.turn i y [] [] ∧ Turn cfg heard spoken x y [] [] := by
  have live : x.pump.Live = true := by simp [DuplexPump.Live, reading]
  have none_ : spoken ++ [] = x.pump.written.map Frame.bytes := (List.append_nil _).trans said
  have known : gave (front ++ List.replicate x.empties []) = gave front := by
    rw [gave_append, gave_empties, List.append_nil]
  unfold resumed at ran
  split at ran
  · -- nothing was read
    have hand : x.hand = [[]] := by simp [hand, call]
    have all : heard = front ++ List.replicate (x.empties + 1) [] := by
      rw [all, hand, List.append_assoc, ← List.replicate_succ']
    split at ran
    · rename_i again
      obtain rfl := Option.some.inj ran
      refine ⟨_, turn_nil.symm, Settles.turn (z := x) live (Reachable.refl _) rfl
        ⟨?_, Reachable.refl _, rfl, rfl⟩⟩
      exact .reads front handle .queued reading rfl again (by simpa [PortPump.hand] using all)
        captured said
    · rename_i enough
      obtain ⟨pump, ended, rfl⟩ := Option.map_eq_some_iff.mp ran
      have runs := step_runs ended
      obtain rfl := DuplexPump.read_nil ended
      have fifty : x.empties + 1 = maxEmpty := by omega
      rw [fifty] at all
      refine ⟨_, turn_nil.symm, Settles.turn (z := x) live (Reachable.refl _) rfl
        ⟨?_, runs, rfl, rfl⟩⟩
      refine .finished .eof [] rfl rfl ?_ none_ (Nat.zero_le 1) fun _ => ⟨front, all⟩
      rw [all, gave_append, gave_empties, List.append_nil]
      exact captured
  · rename_i byte rest
    have hand : x.hand = [byte :: rest] := by simp [PortPump.hand, call]
    have heardAll : gave heard = gave front ++ [byte :: rest] := by
      rw [all, gave_append, known, hand]
      rfl
    split at ran
    · cases ran
    · rename_i pump read
      obtain ⟨captures, ends | ⟨writing, frame, written⟩⟩ :=
        DuplexPump.captures (List.cons_ne_nil byte rest) read
      · obtain ⟨ended, written⟩ := ends
        rw [if_neg (by rw [ended]; nofun)] at ran
        obtain rfl := Option.some.inj ran
        refine ⟨_, turn_nil.symm, Settles.turn (z := x) live (Reachable.refl _) rfl
          ⟨?_, step_runs read, rfl, rfl⟩⟩
        refine .finished .failed [] ended rfl ?_ ?_ (Nat.zero_le 1) nofun
        · rw [captures, captured, heardAll]
        · exact none_.trans (congrArg (List.map Frame.bytes) written.symm)
      · rw [if_pos writing] at ran
        have holds : Holds heard spoken { x with pump := pump, call := none } := by
          refine ⟨writing, rfl, ?_, ?_⟩
          · rw [captures, captured, heardAll]
          · rw [DuplexPump.frame_eq written, written, List.map_append, said]
            rfl
        obtain ⟨y, rfl, settles⟩ := writeChunk_cases shared holds ran
        exact ⟨y, rfl, Settles.turn (z := { x with pump := pump, call := none }) live
          (step_runs read) rfl settles⟩
  · split at ran
    · cases ran
    · rename_i pump wrote
      cases (DuplexPump.wrote_eq wrote).1.symm.trans reading
  · have hand : x.hand = [] := by simp [PortPump.hand, call]
    have all : x.pump.captured = gave heard := by
      rw [all, hand, List.append_nil, known]
      exact captured
    obtain ⟨y, rfl, settles⟩ := raise_cases all none_ (Nat.zero_le 1) ran
    exact ⟨y, rfl, settles.turn live (Reachable.refl _) rfl⟩

/-- A live pump goes on after a write. -/
theorem resumed_write (cfg : PortConfig) {handle : Nat} {result : SerialResult} {rest : List Pcm}
    (shared : s.Shared path) (writing : x.pump.pc = .writing)
    (captured : x.pump.captured = gave heard)
    (said : spoken ++ rest = x.pump.written.map Frame.bytes)
    (withheld : Withheld x.pump.frame (.finished result) rest)
    (ran : s.resumed i x opens handle result = some t) :
    ∃ y, t = s.turn i y [] [] ∧ Turn cfg heard spoken x y [] [] := by
  have live : x.pump.Live = true := by simp [DuplexPump.Live, writing]
  cases result with
  | data => exact withheld.elim
  | wrote =>
      obtain rfl : rest = [] := withheld
      simp only [resumed] at ran
      split at ran
      · cases ran
      · rename_i pump wrote
        have runs := step_runs wrote
        obtain rfl := (DuplexPump.wrote_eq wrote).2
        have rests : Rests heard spoken
            { x with pump := { x.pump with pc := .reading, n := x.pump.n + 1 }, call := none } :=
          ⟨rfl, rfl, captured, (List.append_nil _).symm.trans said⟩
        obtain ⟨y, rfl, settles⟩ := readChunk_cases shared rests ran
        exact ⟨y, rfl, Settles.turn (z := { x with
          pump := { x.pump with pc := .reading, n := x.pump.n + 1 }, call := none })
          live runs rfl settles⟩
  | raised =>
      obtain ⟨y, rfl, settles⟩ := raise_cases captured said withheld ran
      exact ⟨y, rfl, settles.turn live (Reachable.refl _) rfl⟩

/-- A thread takes a call up, unless the handle is closed. -/
theorem takenUp_cases {call : ThreadCall} (stage : Standing heard spoken x) (has : x.call = some call)
    (queued : call.phase = .queued) :
    ∃ y said, s.takenUp i x call = s.turn i y [] said ∧ Turn cfg heard spoken x y [] said := by
  have turns : ∀ {y : PortPump} {said : List Pcm}, y.pump = x.pump → y.since = x.since →
      x.pump.Live = true → Standing heard (spoken ++ said) y →
        Turn cfg heard spoken x y [] said := by
    intro y said pump since live stage
    refine ⟨by simpa using stage, pump ▸ Reachable.refl _, since, fun why ended => ?_,
      fun _ => .inr live, .inl rfl, nofun⟩
    rw [pump]
    exact ended
  have idle : x.hand = [] := hand_nil has (by rw [queued]; nofun)
  cases stage with
  | rests rests => cases has.symm.trans rests.call
  | reads front handle phase reading isCall few all captured said =>
      have live : x.pump.Live = true := by simp [DuplexPump.Live, reading]
      obtain rfl := Option.some.inj (has.symm.trans isCall)
      rw [idle] at all
      rw [← List.append_nil spoken] at said
      unfold takenUp
      split
      · refine ⟨_, [], turn_nil.symm, turns rfl rfl live ?_⟩
        exact .reads front handle .running reading rfl few all captured said
      · refine ⟨_, [], turn_nil.symm, turns rfl rfl live ?_⟩
        exact .reads front handle (.finished .raised) reading rfl few all captured said
  | writes handle phase rest writing isCall captured said withheld =>
      have live : x.pump.Live = true := by simp [DuplexPump.Live, writing]
      obtain rfl := Option.some.inj (has.symm.trans isCall)
      obtain rfl : phase = .queued := queued
      obtain rfl : rest = [x.pump.frame] := withheld
      unfold takenUp
      split
      · refine ⟨{ x with
            call := some { op := .write x.pump.frame, handle := handle, phase := .running } },
          [x.pump.frame], ?_, turns rfl rfl live ?_⟩
        · simp [turn, setPump]
        · exact .writes handle .running [] writing rfl captured
            ((List.append_nil _).trans said) rfl
      · refine ⟨_, [], turn_nil.symm, turns rfl rfl live ?_⟩
        rw [List.append_nil]
        exact .writes handle (.finished .raised) _ writing rfl captured said (Nat.le_refl 1)
  | finished why rest ended isCall => cases has.symm.trans isCall
  | strays stray back rest ended isCall started =>
      obtain rfl := Option.some.inj (has.symm.trans isCall)
      exact absurd queued started

/-- What a call may come back with: a chunk of a read, the end of a write, or an error. -/
theorem came_cases {op : SerialOp} {result : SerialResult} {new : List (Nat × Pcm)}
    (may : came cfg i op result = some new) :
    (∃ pcm, op = .read ∧ result = .data pcm ∧ new = [(i, pcm)] ∧ pcm.length ≤ cfg.chunkBytes) ∨
      (∃ pcm, op = .write pcm ∧ result = .wrote ∧ new = []) ∨ (result = .raised ∧ new = []) := by
  unfold came at may
  split at may
  · rename_i pcm
    split at may
    · rename_i small
      exact .inl ⟨pcm, rfl, rfl, (Option.some.inj may).symm, small⟩
    · cases may
  · exact .inr (.inl ⟨_, rfl, rfl, (Option.some.inj may).symm⟩)
  · exact .inr (.inr ⟨rfl, (Option.some.inj may).symm⟩)
  · cases may

/-- A call comes back. -/
theorem comeBack_cases {call : ThreadCall} {result : SerialResult} {new : List (Nat × Pcm)}
    (stage : Standing heard spoken x) (has : x.call = some call) (running : call.phase = .running)
    (may : came cfg i call.op result = some new) :
    ∃ pcms, new = pcms.map (fun pcm => (i, pcm)) ∧
      Turn cfg heard spoken x { x with call := some { call with phase := .finished result } }
        pcms [] := by
  have runs : x.Running = true := by simp [Running, has, running]
  have turns : ∀ {pcms : List Pcm}, (pcms = [] ∨ pcms.length = 1) →
      (∀ chunk ∈ pcms, chunk.length ≤ cfg.chunkBytes) →
      Standing (heard ++ pcms) spoken { x with call := some { call with phase := .finished result } } →
        Turn cfg heard spoken x { x with call := some { call with phase := .finished result } }
          pcms [] := by
    intro pcms count small stage
    exact ⟨by simpa using stage, Reachable.refl _, rfl, fun why ended => ended,
      fun _ => .inl runs, count.imp_right fun one => ⟨runs, rfl, one⟩, small⟩
  have idle : x.hand = [] := hand_nil has (by rw [running]; nofun)
  obtain ⟨op, handle, phase⟩ := call
  obtain rfl : phase = .running := running
  cases stage with
  | rests rests => cases has.symm.trans rests.call
  | finished why rest ended isCall => cases has.symm.trans isCall
  | reads front handle phase reading isCall few all captured said =>
      obtain ⟨rfl, rfl, rfl⟩ := ThreadCall.mk.inj (Option.some.inj (has.symm.trans isCall))
      rw [idle, List.append_nil] at all
      rcases came_cases may with ⟨pcm, -, rfl, rfl, small⟩ | ⟨pcm, write, -⟩ | ⟨rfl, rfl⟩
      · refine ⟨[pcm], rfl, turns (.inr rfl) (by simpa using small) ?_⟩
        refine .reads front handle _ reading rfl few ?_ captured said
        rw [all]
        rfl
      · cases write
      · refine ⟨[], rfl, turns (.inl rfl) nofun ?_⟩
        exact .reads front handle _ reading rfl few (by rw [all]; rfl) captured said
  | writes handle phase rest writing isCall captured said withheld =>
      obtain ⟨rfl, rfl, rfl⟩ := ThreadCall.mk.inj (Option.some.inj (has.symm.trans isCall))
      obtain rfl : rest = [] := withheld
      rcases came_cases may with ⟨pcm, read, -⟩ | ⟨pcm, -, rfl, rfl⟩ | ⟨rfl, rfl⟩
      · cases read
      · refine ⟨[], rfl, turns (.inl rfl) nofun ?_⟩
        rw [List.append_nil]
        exact .writes _ (.finished .wrote) [] writing rfl captured said rfl
      · refine ⟨[], rfl, turns (.inl rfl) nofun ?_⟩
        rw [List.append_nil]
        exact .writes _ (.finished .raised) [] writing rfl captured said (Nat.zero_le 1)
  | strays stray back rest ended isCall started all captured said short =>
      rw [idle, List.append_nil] at all
      rcases came_cases may with ⟨pcm, isRead, rfl, rfl, small⟩ | ⟨pcm, -, rfl, rfl⟩ | ⟨rfl, rfl⟩
      · obtain rfl : op = .read := isRead
        refine ⟨[pcm], rfl, turns (.inr rfl) (by simpa using small) ?_⟩
        exact .strays _ back rest ended rfl nofun (by rw [all]; rfl) captured said short
      · refine ⟨[], rfl, turns (.inl rfl) nofun ?_⟩
        refine .strays _ back rest ended rfl nofun ?_ captured said short
        rw [all]
        cases op <;> rfl
      · refine ⟨[], rfl, turns (.inl rfl) nofun ?_⟩
        refine .strays _ back rest ended rfl nofun ?_ captured said short
        rw [all]
        cases op <;> rfl

/-- A cancelled pump: its call is withdrawn, or a thread is left in it. -/
theorem cancel_cases {pump : DuplexPump} (stage : Standing heard spoken x)
    (ran : x.pump.step .cancel = some pump) :
    Turn cfg heard spoken x { x with pump := pump, call := withdraw x.call } [] [] := by
  have runs := step_runs ran
  obtain ⟨live, rfl⟩ := DuplexPump.cancel_eq ran
  have finished : ∀ {why : PumpEnd}, x.pump.pc ≠ .ended why := by
    intro why ended
    rw [DuplexPump.not_live ended] at live
    cases live
  suffices stage : Standing heard spoken
      { x with pump := { x.pump with pc := .ended .cancelled }, call := withdraw x.call } from
    ⟨by simpa using stage, runs, rfl, fun why ended => absurd ended finished, fun _ => .inr live,
      .inl rfl, nofun⟩
  cases stage with
  | rests rests =>
      rw [rests.call]
      exact .finished .cancelled [] rfl rfl rests.captured ((List.append_nil _).trans rests.spoken)
        (Nat.zero_le 1) nofun
  | reads front handle phase reading call few all captured said =>
      have known : x.pump.captured = gave (front ++ List.replicate x.empties []) := by
        rw [gave_append, gave_empties, List.append_nil]
        exact captured
      have said := (List.append_nil _).trans said
      rw [call]
      by_cases queued : phase = .queued
      · subst queued
        rw [hand_nil call nofun, List.append_nil] at all
        exact .finished .cancelled [] rfl rfl (all ▸ known) said (Nat.zero_le 1) nofun
      · have left : withdraw (some { op := .read, handle := handle, phase := phase }) = x.call := by
          rw [call]
          exact if_neg queued
        rw [left]
        exact .strays _ _ [] rfl call queued all known said (Nat.zero_le 1)
  | writes handle phase rest writing call captured said withheld =>
      rw [call]
      by_cases queued : phase = .queued
      · subst queued
        exact .finished .cancelled rest rfl rfl captured said withheld.short nofun
      · have left : withdraw (some { op := .write x.pump.frame, handle := handle, phase := phase }) =
            x.call := by
          rw [call]
          exact if_neg queued
        rw [left]
        refine .strays _ heard rest rfl call queued ?_ captured said withheld.short
        simp [hand, call]
  | finished why rest ended => exact absurd ended finished
  | strays stray back rest ended => exact absurd ended finished

/-- The rings of the call are used. -/
theorem ring_cases {action : DuplexAction} {pump : DuplexPump} (stage : Standing heard spoken x)
    (ring : action.IsRing = true) (ran : x.pump.step action = some pump) :
    Turn cfg heard spoken x { x with pump := pump } [] [] := by
  obtain ⟨pc, captured, written⟩ := DuplexPump.rings_eq ring ran
  have frame : pump.frame = x.pump.frame := by
    unfold DuplexPump.frame
    rw [written]
  refine ⟨?_, step_runs ran, rfl, fun why ended => pc.trans ended, .inl, .inl rfl, nofun⟩
  rw [List.append_nil, List.append_nil]
  cases stage with
  | rests rests =>
      exact .rests ⟨pc.trans rests.reading, rests.call, captured.trans rests.captured,
        rests.spoken.trans (congrArg (List.map Frame.bytes) written.symm)⟩
  | reads front handle phase reading call few all was said =>
      exact .reads front handle phase (pc.trans reading) call few all (captured.trans was)
        (said.trans (congrArg (List.map Frame.bytes) written.symm))
  | writes handle phase rest writing call was said withheld =>
      rw [← frame] at call withheld
      exact .writes handle phase rest (pc.trans writing) call (captured.trans was)
        (said.trans (congrArg (List.map Frame.bytes) written.symm)) withheld
  | finished why rest ended call was said short eof =>
      exact .finished why rest (pc.trans ended) call (captured.trans was)
        (said.trans (congrArg (List.map Frame.bytes) written.symm)) short eof
  | strays stray back rest ended call started all was said short =>
      exact .strays stray back rest (pc.trans ended) call started all (captured.trans was)
        (said.trans (congrArg (List.map Frame.bytes) written.symm)) short

/-- The entries of a log that are of pump `i`. -/
def ofPump (log : List (Nat × Pcm)) (i : Nat) : List Pcm :=
  (log.filter fun entry => entry.1 = i).map (·.2)

theorem ofPump_append (log later : List (Nat × Pcm)) (i : Nat) :
    ofPump (log ++ later) i = ofPump log i ++ ofPump later i := by
  simp [ofPump]

theorem ofPump_own (pcms : List Pcm) (i : Nat) :
    ofPump (pcms.map fun pcm => (i, pcm)) i = pcms := by
  induction pcms with
  | nil => rfl
  | cons pcm rest ih => simpa [ofPump] using ih

theorem ofPump_other {i j : Nat} (other : i ≠ j) (pcms : List Pcm) :
    ofPump (pcms.map fun pcm => (i, pcm)) j = [] := by
  simp [ofPump, other]

theorem ofPump_none {log : List (Nat × Pcm)} {j : Nat} (none_ : ∀ entry ∈ log, entry.1 ≠ j) :
    ofPump log j = [] := by
  simpa [ofPump] using none_

/-- What a step does to the port. -/
inductive Change (cfg : PortConfig) (s : AudioPort) : PortAction → AudioPort → Prop
  | creates : Change cfg s .create
      { s with
        pumps := s.pumps ++ [{
          pump := DuplexPump.started cfg.ringCapacity cfg.ringCapacity cfg.positive cfg.positive
          since := s.heard.length }] }
  | turns {action : PortAction} {i : Nat} {x y : PortPump} {new said : List Pcm}
      (here : s.pumps[i]? = some x)
      (turn : Turn cfg (ofPump s.heard i) (ofPump s.spoken i) x y new said) :
      Change cfg s action (s.turn i y new said)
  | closesCapture : Change cfg s .closeCapture
      { s with
        capture := (s.capture.close s.handles).1, handles := (s.capture.close s.handles).2 }
  | closesPlayback : Change cfg s .closePlayback
      { s with
        playback := (s.playback.close s.handles).1, handles := (s.playback.close s.handles).2 }

theorem step_cases {action : PortAction} (shared : s.Shared path)
    (staged : ∀ i x, s.pumps[i]? = some x → Standing (ofPump s.heard i) (ofPump s.spoken i) x)
    (ran : s.step cfg action = some t) : Change cfg s action t := by
  cases action with
  | create =>
      obtain rfl := Option.some.inj ran
      exact .creates
  | closeCapture =>
      obtain rfl := Option.some.inj ran
      exact .closesCapture
  | closePlayback =>
      obtain rfl := Option.some.inj ran
      exact .closesPlayback
  | begin i opens =>
      simp only [step] at ran
      split at ran
      · rename_i x here
        split at ran
        · rename_i fresh
          obtain ⟨reading, call⟩ := fresh
          have live : x.pump.Live = true := by simp [DuplexPump.Live, reading]
          cases staged i x here with
          | rests rests =>
              obtain ⟨y, rfl, settles⟩ := readChunk_cases shared rests ran
              exact .turns here (settles.turn live (Reachable.refl _) rfl)
          | reads _ _ _ _ isCall => cases call.symm.trans isCall
          | writes _ _ _ writing => cases reading.symm.trans writing
          | finished _ _ ended => cases reading.symm.trans ended
          | strays _ _ _ ended => cases reading.symm.trans ended
        · cases ran
      · cases ran
  | takeUp i =>
      simp only [step] at ran
      split at ran
      · rename_i x here
        split at ran
        · rename_i call has
          split at ran
          · rename_i queued
            obtain rfl := Option.some.inj ran
            obtain ⟨y, said, same, turn⟩ := takenUp_cases (staged i x here) has queued
            rw [same]
            exact .turns here turn
          · cases ran
        · cases ran
      · cases ran
  | comeBack i result =>
      simp only [step] at ran
      split at ran
      · rename_i x here
        split at ran
        · rename_i call has
          split at ran
          · rename_i running
            obtain ⟨new, may, rfl⟩ := Option.map_eq_some_iff.mp ran
            obtain ⟨pcms, rfl, turn⟩ := comeBack_cases (staged i x here) has running may
            have same : Change cfg s (.comeBack i result) _ := .turns here turn
            simpa [AudioPort.turn, setPump] using same
          · cases ran
        · cases ran
      · cases ran
  | resume i opens =>
      simp only [step] at ran
      split at ran
      · rename_i x here
        split at ran
        · rename_i op handle result has
          split at ran
          · rename_i live
            cases staged i x here with
            | rests rests => cases has.symm.trans rests.call
            | reads front _ _ reading call few all captured said =>
                obtain ⟨rfl, rfl, rfl⟩ := ThreadCall.mk.inj (Option.some.inj (has.symm.trans call))
                obtain ⟨y, rfl, turn⟩ := resumed_read cfg shared reading few call all captured said ran
                exact .turns here turn
            | writes _ _ rest writing call captured said withheld =>
                obtain ⟨rfl, rfl, rfl⟩ := ThreadCall.mk.inj (Option.some.inj (has.symm.trans call))
                obtain ⟨y, rfl, turn⟩ := resumed_write cfg shared writing captured said withheld ran
                exact .turns here turn
            | finished _ _ ended =>
                rw [DuplexPump.not_live ended] at live
                cases live
            | strays _ _ _ ended =>
                rw [DuplexPump.not_live ended] at live
                cases live
          · cases ran
        · cases ran
      · cases ran
  | cancel i =>
      simp only [step] at ran
      split at ran
      · rename_i x here
        obtain ⟨pump, cancelled, rfl⟩ := Option.map_eq_some_iff.mp ran
        rw [← turn_nil]
        exact .turns here (cancel_cases (staged i x here) cancelled)
      · cases ran
  | ring i action =>
      simp only [step] at ran
      split at ran
      · rename_i x here
        split at ran
        · rename_i ring
          obtain ⟨pump, used, rfl⟩ := Option.map_eq_some_iff.mp ran
          rw [← turn_nil]
          exact .turns here (ring_cases (staged i x here) ring used)
        · cases ran
      · cases ran

end AudioPort

end IsalesTelephony.Edge
