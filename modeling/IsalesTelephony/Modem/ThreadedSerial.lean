/-
# Modem.ThreadedSerial -- the reader thread of the serial port

`_make_reader_thread` and `_ThreadedSerialReader.readline` of
`modem_controller/platforms/windows_serial_at.py`.  The thread reads the port, cuts what it has
into lines and hands each to the event loop, which puts it on the queue that `readline` takes
from.  The thread, the callbacks of the loop, the reader and `close` take turns in any order,
and a read returns any bytes, or none in time, or raises.

What has been handed over is the lines of what was read, as far as the thread has cut it, and
then the empty item (`Sound`).
-/
import IsalesTelephony.Theory.Lines
import IsalesTelephony.Theory.Transition

namespace IsalesTelephony.Modem

set_option autoImplicit false

open IsalesTelephony.Theory IsalesTelephony.Theory.Transition

/-- `b"\n"` -/
def newline : UInt8 := 10

/-- Where the thread is in `_run`. -/
inductive ReaderPc where
  /-- at `while not stop.is_set()` -/
  | testing
  /-- in `ser.read` -/
  | reading
  /-- at `buf.find` -/
  | splitting
  /-- past the loop -/
  | closing
  | ended
  deriving DecidableEq, Repr

structure ThreadedSerial where
  pc : ReaderPc := .testing
  /-- `_stop` is set -/
  stop : Bool := false
  buf : List UInt8 := []
  /-- callbacks of `call_soon_threadsafe`, oldest first -/
  scheduled : List (List UInt8) := []
  queue : List (List UInt8) := []
  /-- history: what the port gave -/
  received : List UInt8 := []
  /-- history: what `readline` returned, oldest first -/
  delivered : List (List UInt8) := []
  deriving DecidableEq, Repr

inductive ThreadedAction where
  /-- the thread goes on, other than out of `ser.read` -/
  | thread
  /-- `ser.read` returns, or raises -/
  | read (chunk : Option (List UInt8))
  /-- the loop runs a callback -/
  | callback
  | readline
  | close
  deriving DecidableEq, Repr

namespace ThreadedSerial

/-- `loop.call_soon_threadsafe(queue.put_nowait, item)` -/
def callSoon (s : ThreadedSerial) (item : List UInt8) : ThreadedSerial :=
  { s with scheduled := s.scheduled ++ [item] }

def step (s : ThreadedSerial) : ThreadedAction → Option ThreadedSerial
  | .thread =>
      match s.pc with
      | .testing => some { s with pc := if s.stop then .closing else .reading }
      | .splitting =>
          match s.buf.idxOf? newline with
          | none => some { s with pc := .testing }
          | some nl => some ({ s with buf := s.buf.drop (nl + 1) }.callSoon (s.buf.take (nl + 1)))
      | .closing => some ({ s with pc := .ended }.callSoon [])
      | _ => none
  | .read chunk =>
      if s.pc = .reading then
        match chunk with
        | none => some { s with pc := .closing }
        | some [] => some { s with pc := .testing }
        | some chunk =>
            some { s with pc := .splitting, buf := s.buf ++ chunk, received := s.received ++ chunk }
      else none
  | .callback =>
      match s.scheduled with
      | [] => none
      | item :: rest => some { s with scheduled := rest, queue := s.queue ++ [item] }
  | .readline =>
      match s.queue with
      | [] => none
      | item :: rest => some { s with queue := rest, delivered := s.delivered ++ [item] }
  | .close => some { s with stop := true }

/-- What the thread has handed to the loop, wherever it is by now. -/
def handed (s : ThreadedSerial) : List (List UInt8) := s.delivered ++ s.queue ++ s.scheduled

/-! ## Lines -/

/-- What has been handed over and what the buffer holds are what was read. -/
structure Sound (s : ThreadedSerial) : Prop where
  cut : ∃ bodies, (∀ body ∈ bodies, newline ∉ body) ∧
    s.received = Lines.stream newline bodies ++ s.buf ∧
    s.handed = bodies.map (· ++ [newline]) ++ if s.pc = .ended then [[]] else []
  /-- the buffer is cut to its last line before it grows -/
  unterminated : s.pc ≠ .splitting → newline ∉ s.buf

section
variable {s t : ThreadedSerial} {action : ThreadedAction}

theorem handed_callSoon (s : ThreadedSerial) (item : List UInt8) :
    (s.callSoon item).handed = s.handed ++ [item] := (List.append_assoc _ _ _).symm

/-- A step that neither reads nor hands over. -/
theorem Sound.idle (sound : s.Sound) (received : t.received = s.received) (buf : t.buf = s.buf)
    (handed : t.handed = s.handed) (ended : t.pc = .ended ↔ s.pc = .ended)
    (unterminated : t.pc ≠ .splitting → newline ∉ s.buf) : t.Sound where
  cut := by
    obtain ⟨bodies, clean, split, items⟩ := sound.cut
    refine ⟨bodies, clean, by rw [received, buf, split], ?_⟩
    rw [handed, items]
    simp only [ended]
  unterminated := by rwa [buf]

/-- The thread cuts a line off the buffer. -/
theorem Sound.cutsLine (sound : s.Sound) (splitting : s.pc = .splitting) {nl : Nat}
    (found : s.buf.idxOf? newline = some nl) :
    ({ s with buf := s.buf.drop (nl + 1) }.callSoon (s.buf.take (nl + 1))).Sound where
  cut := by
    obtain ⟨bodies, clean, split, items⟩ := sound.cut
    obtain ⟨whole, before⟩ := Lines.split_of_idxOf? found
    have line : s.buf.take (nl + 1) = s.buf.take nl ++ [newline] := by
      obtain ⟨inside, here, -⟩ := List.idxOf?_eq_some_iff.mp found
      rw [List.take_succ_eq_append_getElem inside, here]
    have running : s.pc ≠ .ended := by rw [splitting]; nofun
    refine ⟨bodies ++ [s.buf.take nl], List.forall_mem_append.mpr ⟨clean, by simpa using before⟩, ?_, ?_⟩
    · rw [Lines.stream_append]
      show s.received = _
      rw [split]
      conv_lhs => rw [whole]
      simp [callSoon]
    · rw [handed_callSoon, line]
      show s.handed ++ _ = _ ++ if s.pc = .ended then [[]] else []
      rw [items, if_neg running]
      simp
  unterminated other := absurd splitting other

/-- The thread hands over the empty item. -/
theorem Sound.ends (sound : s.Sound) (closing : s.pc = .closing) :
    ({ s with pc := .ended }.callSoon []).Sound where
  cut := by
    obtain ⟨bodies, clean, split, items⟩ := sound.cut
    have running : s.pc ≠ .ended := by rw [closing]; nofun
    rw [if_neg running, List.append_nil] at items
    refine ⟨bodies, clean, split, ?_⟩
    rw [handed_callSoon]
    show s.handed ++ _ = _
    rw [items]
    rfl
  unterminated _ := sound.unterminated (by rw [closing]; nofun)

/-- The port gives some bytes. -/
theorem Sound.reads (sound : s.Sound) (reading : s.pc = .reading) (chunk : List UInt8) :
    Sound { s with pc := .splitting, buf := s.buf ++ chunk, received := s.received ++ chunk } where
  cut := by
    obtain ⟨bodies, clean, split, items⟩ := sound.cut
    have running : s.pc ≠ .ended := by rw [reading]; nofun
    rw [if_neg running] at items
    refine ⟨bodies, clean, ?_, items⟩
    show s.received ++ chunk = _
    rw [split, List.append_assoc]
  unterminated other := absurd rfl other

theorem sound_step (sound : s.Sound) (ran : s.step action = some t) : t.Sound := by
  cases action with
  | thread =>
      simp only [step] at ran
      split at ran
      · rename_i testing
        obtain rfl := Option.some.inj ran
        refine sound.idle rfl rfl rfl ?_ fun _ => sound.unterminated (by rw [testing]; nofun)
        show (if s.stop then ReaderPc.closing else .reading) = .ended ↔ _
        rw [testing]
        split <;> simp
      · rename_i splitting
        split at ran
        · rename_i none_
          obtain rfl := Option.some.inj ran
          refine sound.idle rfl rfl rfl ?_ fun _ => List.idxOf?_eq_none_iff.mp none_
          rw [splitting]
          simp
        · rename_i nl found
          obtain rfl := Option.some.inj ran
          exact sound.cutsLine splitting found
      · rename_i closing
        obtain rfl := Option.some.inj ran
        exact sound.ends closing
      · cases ran
  | read chunk =>
      simp only [step, Option.ite_none_right_eq_some] at ran
      obtain ⟨reading, ran⟩ := ran
      have unterminated : newline ∉ s.buf := sound.unterminated (by rw [reading]; nofun)
      split at ran
      · obtain rfl := Option.some.inj ran
        exact sound.idle rfl rfl rfl (by rw [reading]; simp) fun _ => unterminated
      · obtain rfl := Option.some.inj ran
        exact sound.idle rfl rfl rfl (by rw [reading]; simp) fun _ => unterminated
      · rename_i chunk _
        obtain rfl := Option.some.inj ran
        exact sound.reads reading chunk
  | callback =>
      simp only [step] at ran
      split at ran
      · cases ran
      · rename_i item rest scheduled
        obtain rfl := Option.some.inj ran
        refine sound.idle rfl rfl ?_ Iff.rfl sound.unterminated
        simp [handed, scheduled]
  | readline =>
      simp only [step] at ran
      split at ran
      · cases ran
      · rename_i item rest queued
        obtain rfl := Option.some.inj ran
        refine sound.idle rfl rfl ?_ Iff.rfl sound.unterminated
        simp [handed, queued]
  | close =>
      obtain rfl := Option.some.inj ran
      exact sound.idle rfl rfl rfl Iff.rfl sound.unterminated

theorem sound_of_reachable (run : Reachable step Free {} s) : s.Sound := by
  apply run.invariant (P := Sound)
  · exact ⟨⟨[], List.forall_mem_nil _, rfl, rfl⟩, fun _ => List.not_mem_nil⟩
  · intro s action t sound _ ran
    exact sound_step sound ran

/-! ## Arrival -/

/-- The loop runs the callbacks. -/
theorem callbacks_run (s : ThreadedSerial) : Reachable step Free s
    { s with scheduled := [], queue := s.queue ++ s.scheduled } := by
  obtain ⟨pc, stop, buf, scheduled, queue, received, delivered⟩ := s
  induction scheduled generalizing queue with
  | nil =>
      rw [List.append_nil]
      exact Reachable.refl _
  | cons item rest ih =>
      have later := ih (queue ++ [item])
      rw [List.append_assoc, List.singleton_append] at later
      exact Relation.ReflTransGen.head ⟨.callback, trivial, rfl⟩ later

/-- The reader takes what is on the queue. -/
theorem readlines_run (s : ThreadedSerial) : Reachable step Free s
    { s with queue := [], delivered := s.delivered ++ s.queue } := by
  obtain ⟨pc, stop, buf, scheduled, queue, received, delivered⟩ := s
  induction queue generalizing delivered with
  | nil =>
      rw [List.append_nil]
      exact Reachable.refl _
  | cons item rest ih =>
      have later := ih (delivered ++ [item])
      rw [List.append_assoc, List.singleton_append] at later
      exact Relation.ReflTransGen.head ⟨.readline, trivial, rfl⟩ later

/-- What has been handed over can be read. -/
theorem handed_arrives (s : ThreadedSerial) :
    ∃ t, Reachable step Free s t ∧ t.received = s.received ∧ t.delivered = s.handed := by
  refine ⟨_, (callbacks_run s).trans (readlines_run _), rfl, ?_⟩
  exact (List.append_assoc _ _ _).symm

theorem Sound.handed_running (sound : s.Sound) (running : s.pc ≠ .ended) :
    s.handed ++ Lines.lines newline s.buf = Lines.lines newline s.received := by
  obtain ⟨bodies, clean, split, items⟩ := sound.cut
  rw [items, if_neg running, List.append_nil, split, Lines.lines_stream_append clean]

theorem Sound.handed_ended (sound : s.Sound) (ended : s.pc = .ended) :
    s.handed = Lines.lines newline s.received ++ [[]] := by
  obtain ⟨bodies, clean, split, items⟩ := sound.cut
  have unterminated : newline ∉ s.buf := sound.unterminated (by rw [ended]; nofun)
  rw [items, if_pos ended, split, Lines.lines_stream_append clean, Lines.lines_eq_nil unterminated,
    List.append_nil]

/-- An item that is empty is the last one, and the thread has ended. -/
theorem Sound.sentinel_last (sound : s.Sound) (empty : [] ∈ s.delivered) :
    s.delivered = Lines.lines newline s.received ++ [[]] := by
  have noLine : [] ∉ Lines.lines newline s.received := by
    intro member
    exact Lines.ne_nil_of_mem_lines member rfl
  have front : s.delivered <+: s.handed := by
    rw [handed, List.append_assoc]
    exact List.prefix_append _ _
  by_cases ended : s.pc = .ended
  · rw [sound.handed_ended ended] at front
    rcases List.prefix_concat_iff.mp front with all | before
    · exact all
    · exact absurd (before.subset empty) noLine
  · have member := List.mem_append_left (Lines.lines newline s.buf) (front.subset empty)
    rw [sound.handed_running ended] at member
    exact absurd member noLine

/-- **Lines.**  However the bytes are cut into reads, and whenever the thread is stopped or the
port fails: what is handed over are the first lines of what was read, all of them when the
thread reads on, and all of them and the empty item once it has ended; the reader can take all
of it, and an empty item only after everything else. -/
theorem lines_delivered (run : Reachable step Free {} s) :
    (s.pc ≠ .ended → s.handed <+: Lines.lines newline s.received) ∧
    (s.pc = .reading → s.handed = Lines.lines newline s.received) ∧
    (s.pc = .ended → s.handed = Lines.lines newline s.received ++ [[]]) ∧
    ([] ∈ s.delivered → s.delivered = Lines.lines newline s.received ++ [[]]) ∧
    ∃ t, Reachable step Free s t ∧ t.received = s.received ∧ t.delivered = s.handed := by
  have sound := sound_of_reachable run
  refine ⟨?_, ?_, sound.handed_ended, sound.sentinel_last, handed_arrives s⟩
  · intro running
    rw [← sound.handed_running running]
    exact List.prefix_append _ _
  · intro reading
    rw [← sound.handed_running (by rw [reading]; nofun),
      Lines.lines_eq_nil (sound.unterminated (by rw [reading]; nofun)), List.append_nil]

/-! ## Poles -/

/-- `OK` and a line feed, in three reads with a timeout between, then a line without end; the
port is closed while the reader has taken nothing yet. -/
def chunked : List ThreadedAction :=
  [.thread, .read (some [79]), .thread, .thread, .read (some []), .thread,
    .read (some [75, 13, 10, 82]), .thread, .callback, .thread, .thread, .read (some [73]), .close,
    .thread, .thread, .thread, .callback, .readline, .readline]

theorem chunked_runs : (Transition.run step {} chunked).isSome = true := by decide

theorem chunked_delivered :
    let s := (Transition.run step {} chunked).get chunked_runs
    s.received = [79, 75, 13, 10, 82, 73] ∧ s.delivered = [[79, 75, 13, 10], []] := by
  obtain ⟨-, -, -, sentinel, -⟩ := lines_delivered (reachable_get chunked_runs)
  exact ⟨by decide, (sentinel (by decide)).trans (by decide)⟩

end

end ThreadedSerial

end IsalesTelephony.Modem
