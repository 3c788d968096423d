/-
# Audio.Resampler -- rate conversion of 16-bit mono

`Resampler` of `audio_bridge/resampler.py`.  `signal.resample_poly` works on floating-point
numbers and is a parameter (`Scipy`); what is relied on is that twice the rate gives twice
the samples.  Bytes that are not whole samples are refused (`resample_odd`).
-/
import IsalesTelephony.Audio.Pcm

namespace IsalesTelephony.Audio

set_option autoImplicit false

open IsalesTelephony.Theory

/-- `signal.resample_poly`, and how many samples it gives for `up=2, down=1`. -/
structure Scipy where
  resamplePoly : (up down : Nat) → List Int → List ℚ
  length_resamplePoly : ∀ samples, (resamplePoly 2 1 samples).length = 2 * samples.length

structure Resampler where
  srcRate : Nat
  dstRate : Nat
  deriving DecidableEq, Repr

namespace Resampler

/-- `self._up`. -/
def up (r : Resampler) : Nat := r.dstRate / Nat.gcd r.srcRate r.dstRate

/-- `self._down`. -/
def down (r : Resampler) : Nat := r.srcRate / Nat.gcd r.srcRate r.dstRate

/-- `resample`; the error is that of its `ValueError`. -/
def resample (sp : Scipy) (r : Resampler) (pcm : Pcm) : Except String Pcm :=
  if pcm.length = 0 then .ok []
  else
    match frombuffer pcm with
    -- `len(pcm) % PCM_SAMPLE_BYTES`
    | none => .error
        ("pcm length must be a multiple of 2 bytes (got " ++ toString pcm.length ++ ")")
    | some samples =>
        if r.srcRate = r.dstRate then .ok pcm
        else .ok (tobytes ((sp.resamplePoly r.up r.down samples).map fun s => clip (halfEven s)))

/-- Telephone audio to what the channel carries, as `AudioBridge` sets it up. -/
def upstream : Resampler := { srcRate := 8000, dstRate := 16000 }

variable {sp : Scipy} {r : Resampler} {pcm : Pcm}

theorem resample_odd (odd : ¬ 2 ∣ pcm.length) : ∃ error, r.resample sp pcm = .error error := by
  have some_ : pcm.length ≠ 0 := fun none_ => odd (none_ ▸ Nat.dvd_zero 2)
  have unread : frombuffer pcm = none := by
    cases read : frombuffer pcm with
    | none => rfl
    | some samples => exact absurd ⟨samples.length, frombuffer_length read⟩ odd
  exact ⟨_, by rw [resample, if_neg some_, unread]⟩

/-- Twice the rate, twice the bytes. -/
theorem resample_upstream (even : 2 ∣ pcm.length) :
    ∃ resampled, upstream.resample sp pcm = .ok resampled ∧
      resampled.length = 2 * pcm.length := by
  by_cases empty : pcm.length = 0
  · exact ⟨[], by rw [resample, if_pos empty], by rw [empty]; rfl⟩
  · obtain ⟨samples, read⟩ := frombuffer_even even
    refine ⟨tobytes ((sp.resamplePoly 2 1 samples).map fun s => clip (halfEven s)), ?_, ?_⟩
    · rw [resample, if_neg empty, read]
      rfl
    · rw [length_tobytes, List.length_map, sp.length_resamplePoly, frombuffer_length read]

end Resampler

end IsalesTelephony.Audio
