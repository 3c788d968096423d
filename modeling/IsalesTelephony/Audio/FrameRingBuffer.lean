/-
# Audio.FrameRingBuffer -- the ring of the Windows binding

`FrameRingBuffer` of `dingrtc_pywrap/src/ring_buffer.cpp`: the frames the SDK hands over, in a
vector of fixed length between two indices.  A push onto a full ring overwrites the oldest
frame.  Each method holds the mutex from its first line to its last.

What is in the ring is the window from `tail` on (`Holds`), and the ring answers as a queue
that drops its oldest frames does (`refines_bounded_fifo`), its counter as far as 64 bits go.
-/
import IsalesTelephony.Theory.BoundedFifo
import IsalesTelephony.Theory.Circular
import IsalesTelephony.Theory.Transition

namespace IsalesTelephony.Audio

set_option autoImplicit false

open IsalesTelephony.Theory IsalesTelephony.Theory.Transition

universe u

/-- What C++ makes of a type of frames. -/
class Movable (F : Type u) where
  /-- the value-initialized frame -/
  blank : F
  /-- what `std::move` leaves of a frame, which is valid but unspecified -/
  movedFrom : F → F

open Movable

structure FrameRingBuffer (F : Type u) where
  capacity : UInt64
  ring : List F
  /-- next write -/
  head : UInt64 := 0
  /-- next read -/
  tail : UInt64 := 0
  size : UInt64 := 0
  dropped : UInt64 := 0
  deriving DecidableEq, Repr

namespace FrameRingBuffer

variable {F : Type u} [Movable F]

def init (capacity : UInt64) : FrameRingBuffer F where
  capacity := capacity
  ring := List.replicate capacity.toNat blank

/-- The oldest frame gives its slot up. -/
def overwriteOldest (s : FrameRingBuffer F) : FrameRingBuffer F :=
  { s with tail := (s.tail + 1) % s.capacity, size := s.size - 1, dropped := s.dropped + 1 }

/-- The next slot is written. -/
def write (s : FrameRingBuffer F) (frame : F) : FrameRingBuffer F :=
  { s with
    ring := s.ring.set s.head.toNat frame
    head := (s.head + 1) % s.capacity
    size := s.size + 1 }

/-- Whether the frame was accepted without dropping is the second component. -/
def push (s : FrameRingBuffer F) (frame : F) : FrameRingBuffer F × Bool :=
  if s.size = s.capacity then (s.overwriteOldest.write frame, false) else (s.write frame, true)

/-- The loop of `drain`: `n` frames are moved to `out`. -/
def drainLoop (capacity : UInt64) : Nat → UInt64 → List F → List F → UInt64 × List F × List F
  | 0, tail, ring, out => (tail, ring, out)
  | n + 1, tail, ring, out =>
      drainLoop capacity n ((tail + 1) % capacity) (ring.modify tail.toNat movedFrom)
        (out ++ ring[tail.toNat]?.toList)

/-- `std::min` -/
def smaller (m n : UInt64) : UInt64 := if n < m then n else m

/-- The number of frames drained is the last component. -/
def drain (s : FrameRingBuffer F) (out : List F) (maxN : UInt64) :
    FrameRingBuffer F × List F × UInt64 :=
  let n := smaller maxN s.size
  let drained := drainLoop s.capacity n.toNat s.tail s.ring out
  ({ s with tail := drained.1, ring := drained.2.1, size := s.size - n }, drained.2.2, n)

def clear (s : FrameRingBuffer F) : FrameRingBuffer F := { s with head := 0, tail := 0, size := 0 }

/-- What is in the ring, oldest first. -/
def frames (s : FrameRingBuffer F) : List F := Circular.window s.ring s.tail.toNat s.size.toNat

end FrameRingBuffer

/-! ## Requests and answers -/

inductive RingRequest (F : Type u) where
  | push (frame : F)
  | drain (out : List F) (maxN : UInt64)
  | clear
  deriving DecidableEq, Repr

inductive RingAnswer (F : Type u) where
  | pushed (accepted : Bool)
  | drained (out : List F) (n : Nat)
  | cleared
  deriving DecidableEq, Repr

section
variable {F : Type u}

def FrameRingBuffer.answer [Movable F] (s : FrameRingBuffer F) :
    RingRequest F → FrameRingBuffer F × RingAnswer F
  | .push frame => ((s.push frame).1, .pushed (s.push frame).2)
  | .drain out maxN =>
      ((s.drain out maxN).1, .drained (s.drain out maxN).2.1 (s.drain out maxN).2.2.toNat)
  | .clear => (s.clear, .cleared)

/-- What a bounded queue answers. -/
def fifoAnswer {limit : Nat} (q : BoundedFifo F limit) :
    RingRequest F → BoundedFifo F limit × RingAnswer F
  | .push frame => (q.push frame, .pushed (decide (q.items.length < limit)))
  | .drain out maxN =>
      (q.drop maxN.toNat, .drained (out ++ q.items.take maxN.toNat) (q.items.take maxN.toNat).length)
  | .clear => (q.clear, .cleared)

end

/-! ## The window of the ring -/

open Circular

section
variable {F : Type u} {limit : Nat} {s : FrameRingBuffer F} {q : BoundedFifo F limit} {frame : F}

/-- An index inside the ring steps to the next place without a carry out of 64 bits. -/
theorem toNat_next {place capacity : UInt64} (inside : place.toNat < capacity.toNat) :
    ((place + 1) % capacity).toNat = (place.toNat + 1) % capacity.toNat := by
  have small := capacity.toNat_lt
  rw [UInt64.toNat_mod, UInt64.toNat_add, UInt64.toNat_one, Nat.mod_eq_of_lt (b := 2 ^ 64) (by omega)]

theorem toNat_smaller (m n : UInt64) :
    (FrameRingBuffer.smaller m n).toNat = min m.toNat n.toNat := by
  unfold FrameRingBuffer.smaller
  simp only [UInt64.lt_iff_toNat_lt]
  split <;> omega

/-- What the loop of `drain` does to a window of `m` frames. -/
structure Drains (capacity : UInt64) (n m : Nat) (tail : UInt64) (ring out : List F)
    (drained : UInt64 × List F × List F) : Prop where
  place : drained.1.toNat = (tail.toNat + n) % capacity.toNat
  slots : drained.2.1.length = ring.length
  left : window drained.2.1 drained.1.toNat (m - n) = (window ring tail.toNat m).drop n
  taken : drained.2.2 = out ++ (window ring tail.toNat m).take n

/-- The ring holds what the queue does, from `tail` on. -/
structure Holds (s : FrameRingBuffer F) (q : BoundedFifo F limit) : Prop where
  capacity : s.capacity.toNat = limit
  slots : s.ring.length = limit
  tail : s.tail.toNat < limit
  head : s.head.toNat = (s.tail.toNat + s.size.toNat) % limit
  size : s.size.toNat = q.items.length
  frames : s.frames = q.items
  dropped : s.dropped.toNat = q.overwritten.length % 2 ^ 64

theorem Holds.inside (holds : Holds s q) : s.tail.toNat < s.ring.length := by
  rw [holds.slots]
  exact holds.tail

/-- The ring is full when the queue is. -/
theorem Holds.full_iff (holds : Holds s q) : s.size = s.capacity ↔ ¬q.items.length < limit := by
  rw [← UInt64.toNat_inj, holds.size, holds.capacity]
  have within := q.within
  omega

/-- The oldest frame is no longer in the window. -/
theorem holds_overwriteOldest {oldest : F} {rest : List F} {after : BoundedFifo F limit}
    (holds : Holds s q) (queued : q.items = oldest :: rest) (items : after.items = rest)
    (overwritten : after.overwritten = q.overwritten ++ [oldest]) :
    Holds s.overwriteOldest after := by
  have one : s.size.toNat = rest.length + 1 := by rw [holds.size, queued, List.length_cons]
  have less : (s.size - 1).toNat = rest.length := by
    rw [UInt64.toNat_sub_of_le _ _ (UInt64.le_iff_toNat_le.mpr (by rw [UInt64.toNat_one]; omega)), one]
    rfl
  have next := toNat_next (holds.capacity ▸ holds.tail)
  rw [holds.capacity] at next
  refine ⟨holds.capacity, holds.slots, ?_, ?_, ?_, ?_, ?_⟩
  · show ((s.tail + 1) % s.capacity).toNat < limit
    rw [next]
    exact Nat.mod_lt _ (Nat.zero_lt_of_lt holds.tail)
  · show s.head.toNat = (((s.tail + 1) % s.capacity).toNat + (s.size - 1).toNat) % limit
    rw [next, less, Nat.mod_add_mod, holds.head, one, Nat.add_assoc, Nat.add_comm 1]
  · show (s.size - 1).toNat = _
    rw [less, items]
  · show window s.ring ((s.tail + 1) % s.capacity).toNat (s.size - 1).toNat = _
    have frames := holds.frames
    rw [FrameRingBuffer.frames, one, window_succ holds.inside, queued, holds.slots] at frames
    rw [next, less, items]
    exact (List.cons.inj frames).2
  · show (s.dropped + 1).toNat = _
    rw [UInt64.toNat_add, holds.dropped, UInt64.toNat_one, overwritten, List.length_append,
      Nat.mod_add_mod, List.length_singleton]

/-- A frame written is the last of the window. -/
theorem holds_write {after : BoundedFifo F limit} (holds : Holds s q) (room : q.items.length < limit)
    (items : after.items = q.items ++ [frame]) (overwritten : after.overwritten = q.overwritten) :
    Holds (s.write frame) after := by
  have small := s.capacity.toNat_lt
  have capacity := holds.capacity
  have size := holds.size
  have more : (s.size + 1).toNat = s.size.toNat + 1 := by
    rw [UInt64.toNat_add, UInt64.toNat_one, Nat.mod_eq_of_lt (by omega)]
  have at_ : s.head.toNat < limit := by
    rw [holds.head]
    exact Nat.mod_lt _ (Nat.zero_lt_of_lt holds.tail)
  refine ⟨capacity, ?_, holds.tail, ?_, ?_, ?_, ?_⟩
  · show (s.ring.set s.head.toNat frame).length = limit
    rw [List.length_set, holds.slots]
  · show ((s.head + 1) % s.capacity).toNat = (s.tail.toNat + (s.size + 1).toNat) % limit
    rw [toNat_next (capacity ▸ at_), capacity, holds.head, more, Nat.mod_add_mod, Nat.add_assoc]
  · show (s.size + 1).toNat = _
    rw [more, size, items, List.length_append, List.length_singleton]
  · show window (s.ring.set s.head.toNat frame) s.tail.toNat (s.size + 1).toNat = _
    have written := window_write (x := frame) holds.inside
      (by rw [holds.slots, size]; exact room : s.size.toNat < s.ring.length)
    have frames : window s.ring s.tail.toNat s.size.toNat = q.items := holds.frames
    rw [holds.slots, frames] at written
    rw [more, holds.head, written, items]
  · rw [overwritten]
    exact holds.dropped

theorem holds_push (holds : Holds s q) (frame : F) :
    Holds (s.push frame).1 (q.push frame) ∧
      (s.push frame).2 = decide (q.items.length < limit) := by
  unfold FrameRingBuffer.push
  by_cases full : s.size = s.capacity
  · have noRoom := holds.full_iff.mp full
    have count : q.items.length = limit := Nat.le_antisymm q.within (Nat.not_lt.mp noRoom)
    rw [if_pos full]
    cases queued : q.items with
    | nil =>
        rw [queued, List.length_nil] at count
        exact absurd holds.tail (by omega)
    | cons oldest rest =>
        rw [queued] at count
        obtain ⟨kept, lost⟩ := keepNewest_full (x := frame) count
        have shorter : rest.length < limit := by rw [← count]; exact Nat.lt_succ_self _
        let between : BoundedFifo F limit := ⟨rest, shorter.le, q.overwritten ++ [oldest]⟩
        have first : Holds s.overwriteOldest between :=
          holds_overwriteOldest holds queued rfl rfl
        refine ⟨holds_write first shorter ?_ ?_, ?_⟩
        · show keepNewest limit (q.items ++ [frame]) = rest ++ [frame]
          rw [queued, kept]
        · show q.overwritten ++ overflow limit (q.items ++ [frame]) = q.overwritten ++ [oldest]
          rw [queued, lost]
        · rw [count]
          exact (decide_eq_false (Nat.lt_irrefl _)).symm
  · have room : q.items.length < limit := Decidable.not_not.mp fun no => full (holds.full_iff.mpr no)
    obtain ⟨kept, lost⟩ := keepNewest_room (x := frame) room
    rw [if_neg full]
    refine ⟨holds_write holds room kept ?_, (decide_eq_true room).symm⟩
    show q.overwritten ++ overflow limit (q.items ++ [frame]) = q.overwritten
    rw [lost, List.append_nil]

theorem holds_clear (holds : Holds s q) : Holds s.clear q.clear where
  capacity := holds.capacity
  slots := holds.slots
  tail := Nat.zero_lt_of_lt holds.tail
  head := (Nat.zero_mod _).symm
  size := rfl
  frames := rfl
  dropped := holds.dropped

variable [Movable F]

theorem holds_init {capacity : UInt64} (positive : 0 < capacity) :
    Holds (.init capacity) ({} : BoundedFifo F capacity.toNat) where
  capacity := rfl
  slots := List.length_replicate
  tail := UInt64.lt_iff_toNat_lt.mp positive
  head := (Nat.zero_mod _).symm
  size := rfl
  frames := rfl
  dropped := rfl

theorem drains_drainLoop {capacity : UInt64} {n m : Nat} {tail : UInt64} {ring out : List F}
    (slots : ring.length = capacity.toNat) (inside : tail.toNat < capacity.toNat) (enough : n ≤ m)
    (round : m ≤ capacity.toNat) :
    Drains capacity n m tail ring out (FrameRingBuffer.drainLoop capacity n tail ring out) := by
  induction n generalizing m tail ring out with
  | zero => exact ⟨(Nat.mod_eq_of_lt inside).symm, rfl, rfl, (List.append_nil out).symm⟩
  | succ n ih =>
      obtain ⟨m, rfl⟩ : ∃ rest, m = rest + 1 := ⟨m - 1, by omega⟩
      have here : tail.toNat < ring.length := by rwa [slots]
      have next := toNat_next inside
      have first := window_succ here m
      have moved : ring.modify tail.toNat movedFrom = ring.set tail.toNat (movedFrom ring[tail.toNat]) :=
        List.modify_eq_set_get movedFrom here
      -- the slot that is moved from is behind the rest of the window
      have behind : window (ring.modify tail.toNat movedFrom) ((tail + 1) % capacity).toNat m =
          window ring ((tail.toNat + 1) % ring.length) m := by
        rw [moved, next, ← slots]
        exact window_behind here (by omega)
      have later : Drains capacity n m ((tail + 1) % capacity) (ring.modify tail.toNat movedFrom)
          (out ++ ring[tail.toNat]?.toList) _ :=
        ih (by rw [List.length_modify, slots]) (by rw [next]; exact Nat.mod_lt _ (by omega))
          (by omega) (by omega)
      rw [FrameRingBuffer.drainLoop]
      refine ⟨?_, ?_, ?_, ?_⟩
      · rw [later.place, next, Nat.mod_add_mod, Nat.add_assoc, Nat.add_comm 1 n]
      · rw [later.slots, List.length_modify]
      · rw [Nat.add_sub_add_right, later.left, behind, first, List.drop_succ_cons]
      · rw [later.taken, behind, first, List.take_succ_cons, List.getElem?_eq_getElem here]
        simp

theorem holds_drain (holds : Holds s q) (out : List F) (maxN : UInt64) :
    Holds (s.drain out maxN).1 (q.drop maxN.toNat) ∧
      (s.drain out maxN).2.1 = out ++ q.items.take maxN.toNat ∧
        (s.drain out maxN).2.2.toNat = (q.items.take maxN.toNat).length := by
  have size := holds.size
  have within := q.within
  generalize counted : FrameRingBuffer.smaller maxN s.size = n
  have count : n.toNat = min maxN.toNat q.items.length := by rw [← counted, toNat_smaller, size]
  have drains : Drains s.capacity n.toNat s.size.toNat s.tail s.ring out _ :=
    drains_drainLoop (holds.slots.trans holds.capacity.symm) (holds.capacity ▸ holds.tail)
      (by omega) (by rw [holds.capacity]; omega)
  have less : (s.size - n).toNat = s.size.toNat - n.toNat :=
    UInt64.toNat_sub_of_le _ _ (UInt64.le_iff_toNat_le.mpr (by omega))
  have dropped : q.items.drop n.toNat = q.items.drop maxN.toNat := by
    rw [count, ← List.drop_eq_drop_min]
  have taken : q.items.take n.toNat = q.items.take maxN.toNat := by
    rw [count, ← List.take_eq_take_min]
  have place := drains.place
  have left := drains.left
  have moved := drains.taken
  rw [holds.capacity] at place
  have frames : window s.ring s.tail.toNat s.size.toNat = q.items := holds.frames
  rw [frames, dropped] at left
  rw [frames, taken] at moved
  simp only [FrameRingBuffer.drain, counted]
  refine ⟨⟨holds.capacity, drains.slots.trans holds.slots, ?_, ?_, ?_, ?_, holds.dropped⟩, moved, ?_⟩
  · show UInt64.toNat _ < limit
    rw [place]
    exact Nat.mod_lt _ (Nat.zero_lt_of_lt holds.tail)
  · show s.head.toNat = (UInt64.toNat _ + (s.size - n).toNat) % limit
    rw [place, less, Nat.mod_add_mod, holds.head]
    congr 1
    omega
  · show (s.size - n).toNat = (q.items.drop maxN.toNat).length
    rw [less, List.length_drop, count, size]
    omega
  · show window _ _ (s.size - n).toNat = q.items.drop maxN.toNat
    rw [less, left]
  · show n.toNat = _
    rw [count, List.length_take]

/-- **One request.** -/
theorem holds_answer (s : FrameRingBuffer F) (q : BoundedFifo F limit) (request : RingRequest F)
    (holds : Holds s q) :
    Holds (s.answer request).1 (fifoAnswer q request).1 ∧
      (s.answer request).2 = (fifoAnswer q request).2 := by
  cases request with
  | push frame =>
      obtain ⟨after, accepted⟩ := holds_push holds frame
      exact ⟨after, congrArg RingAnswer.pushed accepted⟩
  | drain out maxN =>
      obtain ⟨after, drained, count⟩ := holds_drain holds out maxN
      exact ⟨after, congrArg₂ RingAnswer.drained drained count⟩
  | clear => exact ⟨holds_clear holds, rfl⟩

end

/-! ### Main result -/

section
variable {F : Type u}

/-- Frames that are pushed one after the other are queued or overwritten. -/
theorem length_pushes {limit : Nat} (q : BoundedFifo F limit) (frame : F) (n : Nat) :
    let after := (answers fifoAnswer q (List.replicate n (.push frame))).1
    after.overwritten.length + after.items.length =
      q.overwritten.length + q.items.length + n := by
  induction n generalizing q with
  | zero => rfl
  | succ n ih =>
      have later := ih (q.push frame)
      rw [q.length_push frame] at later
      rw [List.replicate_succ]
      exact later.trans (by omega)

variable [Movable F]

/-- **Refinement.**  Whatever is asked of a ring, it answers as the bounded queue does, holds
the same frames, and has counted the frames overwritten modulo `2 ^ 64`. -/
theorem refines_bounded_fifo (capacity : UInt64) (positive : 0 < capacity)
    (requests : List (RingRequest F)) :
    let ring := answers FrameRingBuffer.answer (.init capacity) requests
    let fifo := answers fifoAnswer ({} : BoundedFifo F capacity.toNat) requests
    ring.2 = fifo.2 ∧ ring.1.frames = fifo.1.items ∧
      ring.1.size.toNat = fifo.1.items.length ∧ fifo.1.items.length ≤ capacity.toNat ∧
        ring.1.dropped.toNat = fifo.1.overwritten.length % 2 ^ 64 := by
  obtain ⟨holds, same⟩ := answers_related holds_answer (holds_init (F := F) positive) requests
  exact ⟨same, holds.frames, holds.size, BoundedFifo.within _, holds.dropped⟩

end

/-! ## Poles -/

namespace Idingrtc

/-- A frame of the SDK. -/
structure PcmFrame where
  pcm : List UInt8 := []
  sampleRate : Int := 0
  channels : Int := 0
  bytesPerSample : Int := 0
  numSamples : Int := 0
  remoteUid : String := ""
  timestamp : Int := 0
  deriving DecidableEq, Repr

instance : Movable PcmFrame where
  blank := {}
  movedFrom frame := { frame with pcm := [], remoteUid := "" }

end Idingrtc

/-- One sample, for 10 ms at 100 Hz. -/
def tick (timestamp : Int) : Idingrtc.PcmFrame :=
  ⟨[1, 0], 100, 1, 2, 1, "caller", timestamp⟩

/-- A ring of two frames that goes round: a frame is overwritten, one is drained, and two more
come. -/
def wrapping : List (RingRequest Idingrtc.PcmFrame) :=
  [.push (tick 0), .push (tick 10), .push (tick 20), .drain [] 1, .push (tick 30), .drain [] 8]

theorem wrapping_answers :
    (answers FrameRingBuffer.answer (.init 2) wrapping).2 =
      [.pushed true, .pushed true, .pushed false, .drained [tick 10] 1, .pushed true,
        .drained [tick 20, tick 30] 2] :=
  (refines_bounded_fifo 2 (by decide) wrapping).1.trans (by decide)

/-- **The counter wraps** once `2 ^ 64` frames have been overwritten. -/
theorem dropped_wraps :
    ¬ ∀ (capacity : UInt64), 0 < capacity → ∀ requests : List (RingRequest Idingrtc.PcmFrame),
      (answers FrameRingBuffer.answer (.init capacity) requests).1.dropped.toNat =
        (answers fifoAnswer ({} : BoundedFifo _ capacity.toNat) requests).1.overwritten.length := by
  intro claim
  have counted := claim 1 (by decide) (List.replicate (2 ^ 64 + 1) (.push (tick 0)))
  have all := length_pushes ({} : BoundedFifo _ (1 : UInt64).toNat) (tick 0) (2 ^ 64 + 1)
  have small := UInt64.toNat_lt
    (answers FrameRingBuffer.answer (.init 1) (List.replicate (2 ^ 64 + 1) (.push (tick 0)))).1.dropped
  have within := (answers fifoAnswer ({} : BoundedFifo _ (1 : UInt64).toNat)
    (List.replicate (2 ^ 64 + 1) (.push (tick 0)))).1.within
  rw [counted] at small
  have one : (1 : UInt64).toNat = 1 := rfl
  have empty : ({} : BoundedFifo Idingrtc.PcmFrame (1 : UInt64).toNat).overwritten.length +
    ({} : BoundedFifo Idingrtc.PcmFrame (1 : UInt64).toNat).items.length = 0 := rfl
  omega

end IsalesTelephony.Audio
