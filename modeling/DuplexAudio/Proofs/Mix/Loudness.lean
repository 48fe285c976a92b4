/-
  A louder volume does not silence a signal, unless it is too loud to be scaled.

  One track is routed to the main bus, with unity gain, and the master volume is one or more.

  1. The level of the bus is the level of the track's sample: adding it to silence and multiplying
     it by one are exact (`busLevel_of_alone`).

  2. A sample that is not zero reaches one step with its level, and keeps that reach through the
     soft clip, the volume, the second soft clip and the conversion back (`sign_side`), as long as
     the scaled level is finite.

  3. When the scaled level is infinite the second soft clip divides one infinity by another.  What
     comes out is not a number and is converted to zero (`ofLevel_softClip_infinity`).

  So the sample is played with its sign if and only if the scaled level is finite
  (`heard_iff_finite`).  For samples in the 24-bit range that is the case for every finite volume,
  since their levels are one or less after the first soft clip; an infinite volume, which the
  setters accept, silences them all.
-/
import DuplexAudio.Proofs.Mix.Buses
import DuplexAudio.Proofs.Signal.Exact
import DuplexAudio.Proofs.Signal.Levels

namespace DuplexAudio

open Binary32
open Float.Model.UnpackedFloat (Sign)

namespace Mixer

/-! ## One track on a bus -/

/-- A bus that only one track is routed to holds what that track adds to silence. -/
theorem busLevel_of_alone {feeds : Fin trackCount → Feed} {t : Fin trackCount}
    (h : ∀ u, (feeds u).enabled = decide (u = t)) :
    busLevel feeds = 0 + toLevel (feeds t).sample * (feeds t).gain := by
  have hfilter : ∀ t : Fin trackCount, (List.finRange trackCount).filter (· = t) = [t] := by decide
  unfold busLevel Feed.addTo
  rw [← List.foldl_filter, funext h, hfilter]
  rfl

/-- With unity gain that is the level of the track. -/
theorem add_unity_eq {x : Float32} (hx : x.isFinite = true) (hne : value x ≠ 0) :
    0 + x * 1 = x := by
  rw [mul_one_eq hx hne, zero_add_eq hx hne]

/-! ## Two clips and a volume -/

/-- The level that the second soft clip is given. -/
def scaledLevel (volume : Float32) (feeds : Fin trackCount → Feed) : Float32 :=
  softClip (busLevel feeds) * volume

section Side

variable {s : Sign} {level volume : Float32}

/-- A volume of one or more is finite, or it makes every level infinite. -/
theorem volume_cases {y : Float32} (hy : Reaches s (value levelStep) y) (hvolume : 1 ≤ volume) :
    volume.isFinite = true ∧ 1 ≤ value volume ∨
      volume.isFinite = false ∧ ∃ t, y * volume = infinity t := by
  rcases finite_or_infinite_of_le isFinite_one hvolume with ⟨hfinite, hone⟩ | hinfinite
  · rw [value_one] at hone
    exact .inl ⟨hfinite, hone⟩
  · have hne : value y ≠ 0 := abs_pos.mp (levelStep_pos.trans_le hy.le_abs)
    refine .inr ⟨?_, mul_infinity hy.isFinite hne hinfinite⟩
    show volume.toModel.unpack.isFinite = false
    rw [hinfinite]
    rfl

/-- A volume of one or more keeps the reach of a level, if it is not too loud. -/
theorem scaled_reaches {y : Float32} (hy : Reaches s (value levelStep) y) (hvolume : 1 ≤ volume)
    (hscaled : (y * volume).isFinite = true) : Reaches s (value levelStep) (y * volume) := by
  rcases volume_cases hy hvolume with ⟨hfinite, hone⟩ | ⟨-, t, hinfinite⟩
  · refine .of_rounds (rounds_mul hy.isFinite hfinite) hscaled (representable_value _) ?_
    have hside : 0 ≤ factor s * value y := levelStep_pos.le.trans hy.le
    calc value levelStep ≤ factor s * value y := hy.le
      _ ≤ factor s * value y * value volume := le_mul_of_one_le_right hside hone
      _ = factor s * (value y * value volume) := mul_assoc _ _ _
  · rw [hinfinite, not_isFinite_infinity] at hscaled
    cases hscaled

/-- **What can be scaled is heard**, with its sign. -/
theorem sign_side (hlevel : Reaches s (value levelStep) level) (hvolume : 1 ≤ volume)
    (hscaled : (softClip level * volume).isFinite = true) :
    1 ≤ s.apply (StereoBus.side level volume).toInt := by
  have hclipped := softClip_reaches hlevel levelStep_pos levelStep_le_knee
  have hreaches := scaled_reaches hclipped hvolume hscaled
  exact ofLevel_sign (softClip_reaches hreaches levelStep_pos levelStep_le_knee)
    (softClip_bounded hscaled).2

/-- What is infinite is silent. -/
theorem ofLevel_softClip_infinity (t : Sign) : ofLevel (softClip (infinity t)) = 0 := by
  cases t <;> decide +kernel

/-- **What cannot be scaled is silent.** -/
theorem side_of_overflow (hlevel : Reaches s (value levelStep) level) (hvolume : 1 ≤ volume)
    (hscaled : (softClip level * volume).isFinite = false) : StereoBus.side level volume = 0 := by
  have hclipped := softClip_reaches hlevel levelStep_pos levelStep_le_knee
  obtain ⟨t, ht⟩ : ∃ t, softClip level * volume = infinity t := by
    rcases volume_cases hclipped hvolume with ⟨hfinite, -⟩ | ⟨-, hinfinite⟩
    · refine (rounds_mul hclipped.isFinite hfinite).isFinite_or.resolve_left ?_
      rw [hscaled]
      exact Bool.false_ne_true
    · exact hinfinite
  unfold StereoBus.side
  rw [ht]
  exact ofLevel_softClip_infinity t

/-- A level that is hardly more than one is scaled by every volume that is finite. -/
theorem scaled_isFinite_iff (hlevel : Reaches s (value levelStep) level) (hvolume : 1 ≤ volume)
    (hsmall : |value level| ≤ 1 + 1 / 2 ^ 23) :
    (softClip level * volume).isFinite = true ↔ volume.isFinite = true := by
  have hclipped := softClip_reaches hlevel levelStep_pos levelStep_le_knee
  rcases volume_cases hclipped hvolume with ⟨hfinite, hone⟩ | ⟨hinfinite, t, ht⟩
  · refine iff_of_true ?_ hfinite
    have hone := abs_softClip_le_one hlevel.isFinite hsmall
    have hproduct : |value (softClip level) * value volume| ≤ |value volume| := by
      rw [abs_mul]
      exact mul_le_of_le_one_left (abs_nonneg _) hone
    obtain ⟨hlow, hhigh⟩ := abs_le.mp hproduct
    have hbound : Representable |value volume| := (abs_spec hfinite).2 ▸ representable_value _
    have hlt := abs_value_lt volume
    exact ((rounds_mul hclipped.isFinite hfinite).mem_of_mem hbound.neg hbound (by linarith) hlt
      hlow hhigh).1
  · rw [ht, not_isFinite_infinity, hinfinite]

end Side

/-! ## The mixer -/

/-- Two integers on the side of a sign have the same sign. -/
theorem sign_eq_of_apply {s : Sign} {a b : ℤ} (ha : 1 ≤ s.apply a) (hb : 1 ≤ s.apply b) :
    b.sign = a.sign := by
  cases s <;> simp only [Sign.apply] at ha hb
  · rw [Int.sign_eq_neg_one_of_neg (by omega), Int.sign_eq_neg_one_of_neg (by omega)]
  · rw [Int.sign_eq_one_of_pos (by omega), Int.sign_eq_one_of_pos (by omega)]

/-- The level of a lone track reaches one step, and is the level of its sample. -/
theorem busLevel_reaches {feeds : Fin trackCount → Feed} {t : Fin trackCount} {s : Sign}
    (honly : ∀ u, (feeds u).enabled = decide (u = t)) (hgain : (feeds t).gain = 1)
    (hs : 1 ≤ s.apply (feeds t).sample.toInt) :
    Reaches s (value levelStep) (busLevel feeds) ∧
      value (busLevel feeds) = value (toLevel (feeds t).sample) := by
  have hlevel := toLevel_reaches hs
  have hne := abs_pos.mp (levelStep_pos.trans_le hlevel.le_abs)
  rw [busLevel_of_alone honly, hgain, add_unity_eq hlevel.isFinite hne]
  exact ⟨hlevel, rfl⟩

theorem pos_of_one_le {volume : Float32} (h : 1 ≤ volume) : 0 < volume := by
  rcases finite_or_infinite_of_le isFinite_one h with ⟨hfinite, hone⟩ | hinfinite
  · rw [value_one] at hone
    exact (lt_iff isFinite_zero hfinite).mpr (zero_lt_one.trans_le hone)
  · show decide (((0 : Float32).toModel.unpack.compare volume.toModel.unpack == some .lt) = true) =
      true
    rw [hinfinite]
    rfl

/-- **A lone track is heard if and only if its level can be scaled.**  The volume is one or more,
one track only is routed to the main bus, with unity gain, and its sample on a side of a frame is
not zero.  Then the played sample has the sign of that sample if and only if the scaled level is
finite, and otherwise it is silent.  For a sample in the 24-bit range the scaled level is finite if
and only if the volume is. -/
theorem heard_iff_finite (v : BlockView) (t : Fin trackCount) (n : Fin framesPerBlock)
    (side : Side) (hvolume : 1 ≤ v.settings.master)
    (honly : ∀ u, (v.settings.route u).toMain = decide (u = t))
    (hgain : (v.settings.route t).gainMain = 1) (hn : n.val < v.frames)
    (hsample : v.captured.get n (side.channel t) ≠ 0) :
    let heard := (output v).played.get n (Bus.main.channel side)
    let sample := v.captured.get n (side.channel t)
    let scaled := scaledLevel v.settings.master (feedOf v.settings v.captured n .main side)
    (heard ≠ 0 ∧ heard.toInt.sign = sample.toInt.sign ↔ scaled.isFinite = true) ∧
      (scaled.isFinite = false → heard = 0) ∧
      (InSampleRange sample → (scaled.isFinite = true ↔ v.settings.master.isFinite = true)) := by
  intro heard sample scaled
  obtain ⟨s, hs⟩ := exists_sign hsample
  have hfeeds : ∀ u, (feedOf v.settings v.captured n .main side u).enabled = decide (u = t) := honly
  obtain ⟨hlevel, hvalue⟩ := busLevel_reaches hfeeds hgain hs
  have hheard : heard = StereoBus.side (busLevel (feedOf v.settings v.captured n .main side))
      v.settings.master := by
    show (output v).played.get n (Bus.main.channel side) = _
    rw [output_eq_busSample hn]
    unfold busSample
    rw [if_pos (pos_of_one_le hvolume)]
  refine ⟨⟨fun ⟨hne, _⟩ => ?_, fun hscaled => ?_⟩, fun hscaled => ?_, fun hrange => ?_⟩
  · by_contra hoverflow
    exact hne (hheard.trans (side_of_overflow hlevel hvolume (eq_false_of_ne_true hoverflow)))
  · have hsign := sign_side hlevel hvolume hscaled
    rw [← hheard] at hsign
    refine ⟨fun hzero => ?_, sign_eq_of_apply hs hsign⟩
    rw [hzero] at hsign
    cases s <;> exact absurd hsign (by decide)
  · exact hheard.trans (side_of_overflow hlevel hvolume hscaled)
  · refine scaled_isFinite_iff hlevel hvolume ?_
    rw [hvalue]
    exact abs_toLevel_le (v := sample) (le_trans (by norm_num) hrange.1)
      (hrange.2.trans (by norm_num))

/-- A block that holds one sample everywhere, under settings that route the second track alone to
the main bus. -/
def loneTrack (volume : Float32) (sample : Int32) : BlockView where
  settings := (((MixSettings.unity.setVolume volume).setBuses 0 false false).setBuses 2 false
    true).setBuses 3 false false
  captured := Block.ofFn fun _ _ => sample
  cartridgeIn := CartridgeAudio.silence
  played := Block.silence
  cartridgeOut := CartridgeAudio.silence
  frames := 16

/-- At a volume of `2¹⁰⁰` even the sample -1 is heard. -/
theorem heard_least_sample :
    let v := loneTrack (Float32.ofBits 0x71800000) (-1)
    let heard := (output v).played.get 3 (Bus.main.channel .right)
    v.settings.master = Float32.ofBits 0x71800000 ∧ heard ≠ 0 ∧ heard.toInt.sign = -1 := by
  intro v heard
  obtain ⟨hheard, -, hrange⟩ := heard_iff_finite v 1 3 .right (by decide)
    (by decide) rfl (by decide) (by decide)
  have hscaled := (hrange (by decide)).mpr (by decide)
  exact ⟨rfl, hheard.mpr hscaled⟩

/-- **An infinite volume silences a sample**, although the settings were reached by the setters:
the second track alone is routed to the main bus, with unity gain. -/
theorem not_heard_infinite :
    let v := loneTrack (Float32.ofBits 0x7f800000) 1000
    1 ≤ v.settings.master ∧ (∀ u, (v.settings.route u).toMain = decide (u = 1)) ∧
      (v.settings.route 1).gainMain = 1 ∧
      v.captured.get 0 (Side.left.channel 1) = 1000 ∧
      (output v).played.get 0 (Bus.main.channel .left) = 0 := by
  decide +kernel

end Mixer

end DuplexAudio
