/-
# Audio.Pcm -- 16-bit samples and the bytes that hold them

What the audio code does with numpy arrays, on lists.  `frombuffer` and `tobytes` read and
write little-endian 16-bit samples; bytes that were read are written back as they were
(`tobytes_frombuffer`).  Sums of two channels fit their 32-bit type, so samples are
integers.

`np.interp` works on floating-point numbers and is a parameter (`Numpy`); what is relied on
is that it gives one value for each point.
-/
import IsalesTelephony.Theory.HalfEven

namespace IsalesTelephony.Audio

set_option autoImplicit false

/-- The bytes of 16-bit little-endian samples, channels interleaved. -/
abbrev Pcm := List UInt8

/-- `ENGINE_SAMPLE_RATE`. -/
def engineSampleRate : Nat := 16000

/-- `PcmFrame`. -/
structure PcmFrame where
  senderUid : String
  pcm : Pcm
  sampleRate : Nat
  channels : Nat
  deriving DecidableEq, Repr

/-! ## Samples -/

/-- A little-endian `int16`. -/
def sample (lo hi : UInt8) : Int :=
  if lo.toNat + 256 * hi.toNat < 32768 then lo.toNat + 256 * hi.toNat
  else (lo.toNat + 256 * hi.toNat : Int) - 65536

/-- `np.frombuffer(pcm, dtype="<i2")`; an odd number of bytes is a `ValueError`. -/
def frombuffer : Pcm → Option (List Int)
  | [] => some []
  | [_] => none
  | lo :: hi :: rest => (frombuffer rest).map (sample lo hi :: ·)

/-- The low byte of an integer. -/
def byteOf (n : Int) : UInt8 := UInt8.ofNat (n % 256).toNat

/-- `samples.astype("<i2").tobytes()`. -/
def tobytes (samples : List Int) : Pcm := samples.flatMap fun s => [byteOf s, byteOf (s / 256)]

/-- `np.clip(samples, -32768, 32767)`. -/
def clip (s : Int) : Int := max (-32768) (min 32767 s)

theorem sample_bounds (lo hi : UInt8) : -32768 ≤ sample lo hi ∧ sample lo hi ≤ 32767 := by
  have low : lo.toNat < 256 := lo.toNat_lt
  have high : hi.toNat < 256 := hi.toNat_lt
  unfold sample
  split <;> omega

theorem clip_sample (lo hi : UInt8) : clip (sample lo hi) = sample lo hi := by
  have bounds := sample_bounds lo hi
  unfold clip
  omega

theorem byteOf_toNat (n : Int) (b : UInt8) (same : n % 256 = b.toNat) : byteOf n = b := by
  unfold byteOf
  rw [same, Int.toNat_natCast]
  exact UInt8.ofNat_toNat

theorem bytes_of_sample (lo hi : UInt8) :
    [byteOf (sample lo hi), byteOf (sample lo hi / 256)] = [lo, hi] := by
  have low : lo.toNat < 256 := lo.toNat_lt
  have high : hi.toNat < 256 := hi.toNat_lt
  have first : sample lo hi % 256 = lo.toNat := by
    unfold sample
    split <;> omega
  have second : sample lo hi / 256 % 256 = hi.toNat := by
    unfold sample
    split <;> omega
  rw [byteOf_toNat _ lo first, byteOf_toNat _ hi second]

theorem length_tobytes (samples : List Int) : (tobytes samples).length = 2 * samples.length := by
  simp [tobytes, List.length_flatMap, Nat.mul_comm]

theorem frombuffer_length : ∀ {pcm : Pcm} {samples : List Int}, frombuffer pcm = some samples →
    pcm.length = 2 * samples.length
  | [], samples, read => by
      obtain rfl := Option.some.inj read
      rfl
  | [_], samples, read => by cases read
  | lo :: hi :: rest, samples, read => by
      obtain ⟨later, readRest, rfl⟩ := Option.map_eq_some_iff.mp read
      rw [List.length_cons, List.length_cons, frombuffer_length readRest, List.length_cons]
      omega

/-- An even number of bytes can be read. -/
theorem frombuffer_even : ∀ {pcm : Pcm}, 2 ∣ pcm.length → ∃ samples, frombuffer pcm = some samples
  | [], _ => ⟨[], rfl⟩
  | [_], even => by
      rw [List.length_singleton] at even
      omega
  | lo :: hi :: rest, even => by
      have evenRest : 2 ∣ rest.length := by
        rw [List.length_cons, List.length_cons] at even
        omega
      obtain ⟨later, readRest⟩ := frombuffer_even evenRest
      exact ⟨sample lo hi :: later, by rw [frombuffer, readRest, Option.map_some]⟩

/-- Clipping what was read and writing it gives the same bytes. -/
theorem tobytes_frombuffer : ∀ {pcm : Pcm} {samples : List Int}, frombuffer pcm = some samples →
    tobytes (samples.map clip) = pcm
  | [], samples, read => by
      obtain rfl := Option.some.inj read
      rfl
  | [_], samples, read => by cases read
  | lo :: hi :: rest, samples, read => by
      obtain ⟨later, readRest, rfl⟩ := Option.map_eq_some_iff.mp read
      have tail := tobytes_frombuffer readRest
      simp only [tobytes, List.map_cons, List.flatMap_cons, clip_sample] at tail ⊢
      rw [tail, bytes_of_sample]
      rfl

/-- The sample at an index is in the two bytes there. -/
theorem getElem?_frombuffer : ∀ {pcm : Pcm} {samples : List Int}, frombuffer pcm = some samples →
    ∀ i < samples.length,
      samples[i]? = some (sample (pcm.getD (2 * i) 0) (pcm.getD (2 * i + 1) 0))
  | [], samples, read, i, inside => by
      obtain rfl := Option.some.inj read
      exact absurd inside (Nat.not_lt_zero i)
  | [_], samples, read, i, inside => by cases read
  | lo :: hi :: rest, samples, read, i, inside => by
      obtain ⟨later, readRest, rfl⟩ := Option.map_eq_some_iff.mp read
      cases i with
      | zero => rfl
      | succ i =>
          have shift : 2 * (i + 1) = 2 * i + 1 + 1 := by omega
          rw [shift, List.getElem?_cons_succ]
          exact getElem?_frombuffer readRest i (Nat.lt_of_succ_lt_succ inside)

theorem frombuffer_bounds : ∀ {pcm : Pcm} {samples : List Int}, frombuffer pcm = some samples →
    ∀ s ∈ samples, -32768 ≤ s ∧ s ≤ 32767
  | [], samples, read, s, member => by
      obtain rfl := Option.some.inj read
      cases member
  | [_], samples, read, s, member => by cases read
  | lo :: hi :: rest, samples, read, s, member => by
      obtain ⟨later, readRest, rfl⟩ := Option.map_eq_some_iff.mp read
      rcases List.mem_cons.mp member with rfl | inLater
      · exact sample_bounds lo hi
      · exact frombuffer_bounds readRest s inLater

theorem byteOf_val (n : Int) : ((byteOf n).toNat : Int) = n % 256 := by
  have small : (n % 256).toNat < 256 := by omega
  rw [byteOf, UInt8.toNat_ofNat_of_lt' small]
  omega

/-- A sample that fits its type is read back. -/
theorem sample_byteOf {s : Int} (fits : -32768 ≤ s ∧ s ≤ 32767) :
    sample (byteOf s) (byteOf (s / 256)) = s := by
  have low := byteOf_val s
  have high := byteOf_val (s / 256)
  unfold sample
  split <;> omega

theorem frombuffer_tobytes : ∀ {samples : List Int}, (∀ s ∈ samples, -32768 ≤ s ∧ s ≤ 32767) →
    frombuffer (tobytes samples) = some samples
  | [], _ => rfl
  | s :: rest, fits => by
      obtain ⟨first, later⟩ := List.forall_mem_cons.mp fits
      show (frombuffer (tobytes rest)).map (sample (byteOf s) (byteOf (s / 256)) :: ·) = _
      rw [frombuffer_tobytes later, sample_byteOf first]
      rfl

/-! ## Arrays -/

/-- `np.interp(points, np.arange(len(samples)), samples)`, and how many values it gives. -/
structure Numpy where
  interp : List ℚ → List ℚ → List ℚ
  length_interp : ∀ points samples, (interp points samples).length = points.length

/-- `np.linspace(0, size - 1, n)`. -/
def linspace (size n : Nat) : List ℚ :=
  (List.range n).map fun i => (i : ℚ) * ((size - 1 : Nat) : ℚ) / ((n - 1 : Nat) : ℚ)

/-- `samples[:usable].reshape(-1, channels)`. -/
def reshape (channels : Nat) (samples : List ℚ) : List (List ℚ) :=
  (List.range (samples.length / channels)).map fun i => (samples.drop (i * channels)).take channels

/-- `row.mean()`. -/
def mean (row : List ℚ) : ℚ := row.sum / row.length

/-- `xs[skip::step]`. -/
def strideFrom (step : Nat) : Nat → List Int → List Int
  | _, [] => []
  | 0, x :: rest => x :: strideFrom step (step - 1) rest
  | skip + 1, _ :: rest => strideFrom step skip rest

/-- `xs + ys` for two arrays, with an array of one element stretched; `none` when their
shapes do not fit. -/
def broadcast (op : Int → Int → Int) : List Int → List Int → Option (List Int)
  | xs, [y] => some (xs.map fun x => op x y)
  | [x], ys => some (ys.map fun y => op x y)
  | xs, ys => if xs.length = ys.length then some (List.zipWith op xs ys) else none

theorem broadcast_of_length {op : Int → Int → Int} {xs ys : List Int}
    (same : xs.length = ys.length) : ∃ zs, broadcast op xs ys = some zs := by
  unfold broadcast
  split
  · exact ⟨_, rfl⟩
  · exact ⟨_, rfl⟩
  · exact ⟨_, if_pos same⟩

theorem broadcast_zipWith {op : Int → Int → Int} {xs ys : List Int}
    (same : xs.length = ys.length) : broadcast op xs ys = some (List.zipWith op xs ys) := by
  unfold broadcast
  split
  · obtain ⟨x, rfl⟩ := List.length_eq_one_iff.mp same
    rfl
  · obtain ⟨y, rfl⟩ := List.length_eq_one_iff.mp same.symm
    rfl
  · exact if_pos same

/-- A stride takes every so many. -/
theorem getElem?_strideFrom {step : Nat} (pos : 0 < step) : ∀ (skip i : Nat) (xs : List Int),
    (strideFrom step skip xs)[i]? = xs[skip + i * step]?
  | _, _, [] => by simp [strideFrom]
  | 0, 0, x :: rest => by simp [strideFrom]
  | 0, i + 1, x :: rest => by
      have shift : 0 + (i + 1) * step = step - 1 + i * step + 1 := by
        rw [Nat.succ_mul]
        omega
      rw [strideFrom, List.getElem?_cons_succ, getElem?_strideFrom pos, shift,
        List.getElem?_cons_succ]
  | skip + 1, i, _ :: rest => by
      rw [strideFrom, getElem?_strideFrom pos, Nat.succ_add, List.getElem?_cons_succ]

theorem mem_of_mem_strideFrom {step : Nat} (pos : 0 < step) {skip : Nat} {xs : List Int} {x : Int}
    (member : x ∈ strideFrom step skip xs) : x ∈ xs := by
  obtain ⟨i, at_⟩ := List.mem_iff_getElem?.mp member
  rw [getElem?_strideFrom pos] at at_
  exact List.mem_of_getElem? at_

/-- Of an even number of samples the two channels have as many each. -/
theorem length_channels : ∀ {samples : List Int}, 2 ∣ samples.length →
    (strideFrom 2 0 samples).length = (strideFrom 2 1 samples).length
  | [], _ => rfl
  | [_], even => by
      rw [List.length_singleton] at even
      omega
  | _ :: _ :: rest, even => by
      have evenRest : 2 ∣ rest.length := by
        rw [List.length_cons, List.length_cons] at even
        omega
      simp [strideFrom, length_channels evenRest]

end IsalesTelephony.Audio
