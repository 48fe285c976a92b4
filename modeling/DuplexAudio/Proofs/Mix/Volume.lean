/-
  What the volumes one and zero do.

  1. A volume of one plays a lone track bit for bit, up to the knee (`unity_exact`).  The level of
     its sample is added to silence, multiplied by a gain of one, clipped, multiplied by one and
     clipped again.  All of this returns the level itself, and the level is converted back to the
     sample that it came from (`side_unity`).

  2. A volume of zero is silence, and so is a volume that is negative or not a number, whatever the
     bus holds (`silent_of_not_pos`).  Zero times an infinite level would not be zero, but the first
     soft clip leaves no level infinite: it is finite or not a number (`softClip_finite_or_nan`).
     Times zero it is a zero or not a number, and both become the sample zero
     (`ofLevel_softClip_of_naught`).

  A bus that no track is routed to is silent at every volume, for the same reason.
-/
import DuplexAudio.Proofs.Mix.Loudness
import DuplexAudio.Proofs.Signal.RoundTrip

namespace DuplexAudio

open Binary32
open Float.Model.UnpackedFloat (Sign)

/-! ## A volume of one -/

/-- A word with a level up to the knee is in the range of a sample. -/
theorem abs_lt_of_level_le_knee {v : Int32} (h : (toLevel v).abs ≤ softClipKnee) :
    |v.toInt| < 2 ^ 23 := by
  by_contra hlarge
  rw [not_lt] at hlarge
  have hne : v ≠ 0 := by
    rintro rfl
    exact absurd hlarge (by decide)
  obtain ⟨s, hs⟩ := exists_sign hne
  have hside : 2 ^ 23 ≤ s.apply v.toInt := by
    cases s <;> simp only [Sign.apply] at hs ⊢
    · rwa [abs_of_neg (by omega)] at hlarge
    · rwa [abs_of_pos (by omega)] at hlarge
  have hreach := toLevel_reaches_one hside
  obtain ⟨hfinite, habs⟩ := abs_spec hreach.isFinite
  rw [le_iff hfinite isFinite_softClipKnee, habs, value_softClipKnee] at h
  have hone := hreach.le_abs
  norm_num at h
  linarith

namespace Mixer

/-- **The whole way of a lone sample** at unity gain and a volume of one. -/
theorem side_unity {v : Int32} (h : (toLevel v).abs ≤ softClipKnee) :
    StereoBus.side (0 + toLevel v * 1) 1 = v := by
  by_cases hzero : v = 0
  · rw [hzero]
    decide +kernel
  obtain ⟨s, hs⟩ := exists_sign hzero
  have hreach := toLevel_reaches hs
  have hfinite := hreach.isFinite
  have hne : value (toLevel v) ≠ 0 := abs_pos.mp (levelStep_pos.trans_le hreach.le_abs)
  have hclip : softClip (toLevel v) = toLevel v := by
    obtain ⟨hfiniteAbs, habs⟩ := abs_spec hfinite
    refine softClip_eq_self hfinite ?_
    rw [← habs]
    exact (le_iff hfiniteAbs isFinite_softClipKnee).mp h
  unfold StereoBus.side
  rw [add_unity_eq hfinite hne, hclip, mul_one_eq hfinite hne, hclip]
  exact ofLevel_toLevel (abs_lt_of_level_le_knee h)

end Mixer

/-! ## A volume of zero -/

/-- A level that the soft clip and the conversion take to zero. -/
def Naught (x : Float32) : Prop := (∃ s, x = zero s) ∨ x = nan

theorem ofLevel_softClip_of_naught {x : Float32} (h : Naught x) : ofLevel (softClip x) = 0 := by
  rcases h with ⟨s, rfl⟩ | rfl
  · cases s <;> decide +kernel
  · decide +kernel

/-- **The soft clip leaves no level infinite.** -/
theorem softClip_finite_or_nan (x : Float32) :
    (softClip x).isFinite = true ∨ softClip x = nan := by
  rcases kinds x with ⟨hfinite, -⟩ | ⟨s, rfl⟩ | ⟨s, rfl⟩ | rfl
  · exact .inl (softClip_bounded hfinite).1
  · exact .inl (softClip_bounded (isFinite_zero_of_sign s).1).1
  · right
    cases s <;> decide +kernel
  · right
    decide +kernel

theorem naught_of_rounds {z : Float32} (h : Rounds 0 z) : Naught z := by
  obtain ⟨hfinite, hvalue⟩ := h.exact representable_zero (by norm_num)
  exact .inl (eq_zero_of_value hfinite hvalue)

/-- A level that is not infinite, times zero. -/
theorem naught_mul_zero {x : Float32} (h : x.isFinite = true ∨ x = nan) : Naught (x * 0) := by
  rcases h with hfinite | rfl
  · have hproduct := rounds_mul hfinite isFinite_zero
    rw [value_zero, mul_zero] at hproduct
    exact naught_of_rounds hproduct
  · right
    decide

/-- Zero, times any volume. -/
theorem naught_zero_mul (volume : Float32) : Naught (0 * volume) := by
  have hproduct {y : Float32} (hy : y.isFinite = true) : Naught (0 * y) := by
    have h := rounds_mul isFinite_zero hy
    rw [value_zero, zero_mul] at h
    exact naught_of_rounds h
  rcases kinds volume with ⟨hfinite, -⟩ | ⟨s, rfl⟩ | ⟨s, rfl⟩ | rfl
  · exact hproduct hfinite
  · exact hproduct (isFinite_zero_of_sign s).1
  · right
    cases s <;> decide
  · exact .inr (mul_nan 0)

namespace Mixer

/-- A volume of zero silences every level. -/
theorem side_zero_volume (level : Float32) : StereoBus.side level 0 = 0 :=
  ofLevel_softClip_of_naught (naught_mul_zero (softClip_finite_or_nan level))

/-- A bus without a level is silent at every volume. -/
theorem side_of_silence (volume : Float32) : StereoBus.side 0 volume = 0 := by
  have hclip : softClip 0 = 0 := softClip_eq_self isFinite_zero (by
    rw [value_zero, abs_zero, value_softClipKnee]
    positivity)
  unfold StereoBus.side
  rw [hclip]
  exact ofLevel_softClip_of_naught (naught_zero_mul volume)

/-- A bus that no track is routed to has no level. -/
theorem busLevel_of_none {feeds : Fin trackCount → Feed} (h : ∀ u, (feeds u).enabled = false) :
    busLevel feeds = 0 := by
  have hadd : (fun level t => (feeds t).addTo level) = fun level _ => level := by
    funext level t
    unfold Feed.addTo
    rw [h t]
    rfl
  unfold busLevel
  rw [hadd]
  rfl

/-! ## The mixer -/

/-- **A volume of one is bit exact.**  The master volume is one.  In every frame that is written, on
either bus:
(1) if one track only is routed to the bus, with unity gain, each side plays the sample of that
    track, provided that its level is not beyond the knee;
(2) if no track is routed to the bus, it plays zeros. -/
theorem unity_exact (v : BlockView) (hvolume : v.settings.master = 1) :
    ∃ out, Processor.process Mixer.mk v = .finish Mixer.mk out ∧
      ∀ (n : Fin framesPerBlock) (bus : Bus), n.val < v.frames →
        (∀ t : Fin trackCount, (∀ u, bus.routed (v.settings.route u) = decide (u = t)) →
          bus.gain (v.settings.route t) = 1 → ∀ side : Side,
            (toLevel (v.captured.get n (side.channel t))).abs ≤ softClipKnee →
            out.played.get n (bus.channel side) = v.captured.get n (side.channel t)) ∧
        ((∀ u, bus.routed (v.settings.route u) = false) →
          ∀ side : Side, out.played.get n (bus.channel side) = 0) := by
  have hpos : (0 : Float32) < 1 := by decide
  refine ⟨output v, rfl, fun n bus hn => ⟨?_, ?_⟩⟩
  · intro t honly hgain side hknee
    rw [output_eq_busSample hn]
    unfold busSample
    rw [hvolume, if_pos hpos, busLevel_of_alone (t := t) honly]
    show StereoBus.side (0 + toLevel (v.captured.get n (side.channel t)) *
      bus.gain (v.settings.route t)) 1 = _
    rw [hgain]
    exact side_unity hknee
  · intro hnone side
    rw [output_eq_busSample hn]
    unfold busSample
    rw [busLevel_of_none hnone]
    exact side_of_silence _

/-- The sample `3 * 2 ^ 21`, whose level lies midway between two numbers, is played as it is. -/
theorem unity_exact_midway :
    let v := loneTrack 1 6291456
    v.settings.master = 1 ∧ ∃ out, Processor.process Mixer.mk v = .finish Mixer.mk out ∧
      out.played.get 15 (Bus.main.channel .right) = 6291456 := by
  intro v
  obtain ⟨out, hout, hplayed⟩ := unity_exact v rfl
  refine ⟨rfl, out, hout, ?_⟩
  exact (hplayed 15 .main (by decide)).1 1 (by decide) rfl .right (by decide)

/-- **A volume that is not above zero is silence**, whatever the gains, the samples and the number
of frames are: every sample that is written is zero. -/
theorem silent_of_not_pos (v : BlockView) (hvolume : ¬0 < v.settings.master) :
    ∃ out, Processor.process Mixer.mk v = .finish Mixer.mk out ∧
      ∀ (n : Fin framesPerBlock) (ch : Fin playbackChannels), n.val < v.frames →
        out.played.get n ch = 0 := by
  refine ⟨output v, rfl, fun n ch hn => ?_⟩
  rw [played_of_lt hn]
  unfold sample master
  rw [if_neg hvolume]
  exact side_zero_volume _

/-- Every track is on both buses with infinite gains of both signs, and the volume is not a
number. -/
def overdriven : BlockView where
  settings := ⟨Float32.ofBits 0x7fc00000,
    Vector.replicate trackCount ⟨Float32.ofBits 0x7f800000, Float32.ofBits 0xff800000, true, true⟩⟩
  captured := Block.ofFn fun n _ => if n.val % 2 = 0 then 8388607 else 0
  cartridgeIn := CartridgeAudio.silence
  played := Block.splat 99
  cartridgeOut := CartridgeAudio.silence
  frames := 10

/-- Infinite levels and levels that are not numbers are silenced alike. -/
theorem silent_overdriven :
    ¬0 < overdriven.settings.master ∧
      ∃ out, Processor.process Mixer.mk overdriven = .finish Mixer.mk out ∧
        out.played.get 8 0 = 0 ∧ out.played.get 9 3 = 0 := by
  have hvolume : ¬0 < overdriven.settings.master := by decide
  obtain ⟨out, hout, hplayed⟩ := silent_of_not_pos overdriven hvolume
  exact ⟨hvolume, out, hout, hplayed 8 0 (by decide), hplayed 9 3 (by decide)⟩

end Mixer

end DuplexAudio
