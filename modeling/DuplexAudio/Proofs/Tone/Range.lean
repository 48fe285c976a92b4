/-
  The numbers of an oscillator stay in range, unless a frame is played at an infinite frequency.

  1. Phase and increment are below one, so that there are numbers of single precision between them
     and one.  Their sum is below two therefore, also when it is rounded, and what is left of it
     after one cycle is below one again (`advance_inCycle`).

  2. A frequency in cycles per frame loses its whole cycles, which is exact (`fractionalPart_spec`).
     The setter takes what is negative or not a number for zero.  It does not look for infinity,
     which has no part after its point: the increment is not a number then (`increment_cases`).

  3. Over a run of calls, the increment is that of the frequency set last (`run_increment`).  The
     phase is in range until a frame is played while that frequency is infinite, and from then on
     it is not a number (`run_phase`): no setter writes it, and every sum with it is not a number
     either.
-/
import DuplexAudio.Bench.Sine
import DuplexAudio.Proofs.Signal.Exact
import DuplexAudio.Proofs.Tone.Frames

namespace DuplexAudio

open Binary32
open Float.Model.UnpackedFloat (Sign)

/-! ## Parts of a cycle -/

/-- From zero to one, one left out. -/
def InCycle (x : Float32) : Prop := 0 ≤ x ∧ x < 1

instance (x : Float32) : Decidable (InCycle x) := inferInstanceAs (Decidable (_ ∧ _))

theorem inCycle_of_value {x : Float32} (hx : x.isFinite = true) (h0 : 0 ≤ value x)
    (h1 : value x < 1) : InCycle x := by
  refine ⟨(le_iff isFinite_zero hx).mpr ?_, (lt_iff hx isFinite_one).mpr ?_⟩
  · rwa [value_zero]
  · rwa [value_one]

/-- What is in a cycle is finite. -/
theorem InCycle.value {x : Float32} (h : InCycle x) :
    x.isFinite = true ∧ 0 ≤ value x ∧ value x < 1 := by
  obtain ⟨h0, h1⟩ := h
  have hx : x.isFinite = true := by
    rcases kinds x with ⟨hx, -⟩ | ⟨s, rfl⟩ | ⟨s, rfl⟩ | rfl
    · exact hx
    · exact (isFinite_zero_of_sign s).1
    · cases s
      · exact absurd h0 (by decide)
      · exact absurd h1 (by decide)
    · exact absurd h0 (not_le_nan 0)
  rw [le_iff isFinite_zero hx, value_zero] at h0
  rw [lt_iff hx isFinite_one, value_one] at h1
  exact ⟨hx, h0, h1⟩

theorem not_inCycle_nan : ¬InCycle nan := fun h => not_le_nan 0 h.1

/-- There is a number between what is in a cycle and one. -/
theorem InCycle.le {x : Float32} (h : InCycle x) : Binary32.value x ≤ 1 - 1 / 2 ^ 24 := by
  have hlt := h.value.2.2
  have hbefore := (representable_value x).le_of_lt (m := 2 ^ 24) (e := -24) (by norm_num)
    (by norm_num; exact hlt)
  norm_num at hbefore ⊢
  exact hbefore

/-! ## The part after the point -/

theorem value_wholeFrom : value 8388608 = 2 ^ 23 := by
  show factor .positive * ((8388608 : ℕ) * 2 ^ (0 : ℤ)) = 2 ^ 23
  norm_num [factor]

/-- **The part after the point is in a cycle.**  It is exact: the integer part is a number of single
precision, and so is what is left. -/
theorem fractionalPart_spec {x : Float32} (hx : x.isFinite = true) (h0 : 0 ≤ value x) :
    InCycle (fractionalPart x) := by
  have hmax := (abs_lt.mp (abs_value_lt x)).2
  unfold fractionalPart
  split
  · next hsmall =>
    rw [lt_iff hx rfl, value_wholeFrom] at hsmall
    have hfloor : x.toUInt32.toNat = ⌊value x⌋₊ :=
      toNat_toUInt32 hx h0 (hsmall.trans (by norm_num))
    have hfloor24 : ⌊value x⌋₊ < 2 ^ 24 := by
      rw [Nat.floor_lt h0]
      exact hsmall.trans (by norm_num)
    have hwhole : Representable ⌊value x⌋₊ := by
      refine ⟨⌊value x⌋₊, 0, ?_, by norm_num, by norm_num⟩
      rw [abs_of_nonneg (by positivity)]
      exact_mod_cast hfloor24
    have hle : (⌊value x⌋₊ : ℝ) ≤ value x := Nat.floor_le h0
    have hlt : value x < ⌊value x⌋₊ + 1 := Nat.lt_floor_add_one (value x)
    have hconverted := rounds_toFloat32 x.toUInt32
    rw [hfloor] at hconverted
    obtain ⟨hn, hvalue⟩ := hconverted.exact hwhole
      (by rw [abs_of_nonneg (by positivity)]; linarith)
    have hrest := rounds_sub hx hn
    rw [hvalue] at hrest
    obtain ⟨hfinite, hexact⟩ := hrest.exact ((representable_value x).fract h0)
      (by rw [abs_of_nonneg (by linarith)]; linarith)
    exact inCycle_of_value hfinite (by linarith) (by linarith)
  · have hnone := rounds_sub hx hx
    rw [sub_self] at hnone
    obtain ⟨hfinite, hexact⟩ := hnone.exact representable_zero (by norm_num)
    exact inCycle_of_value hfinite hexact.ge (by linarith)

namespace Tone

/-! ## What is set -/

/-- **The increment of a frequency** is in a cycle, unless the frequency is infinite. -/
theorem increment_cases (t : Tone) (hz : Float32) :
    hz = infinity .positive ∧ (t.setFrequency hz).increment = nan ∨
      hz ≠ infinity .positive ∧ InCycle (t.setFrequency hz).increment := by
  have hrate : Representable 48000 := ⟨48000, 0, by norm_num, by norm_num, by norm_num⟩
  obtain ⟨hrateFinite, hrateValue⟩ := (rounds_toFloat32 sampleRateHz).exact (q := 48000)
    hrate (by norm_num)
  -- what is taken for zero
  have hzero (hneg : ¬0 < hz) : InCycle (t.setFrequency hz).increment := by
    unfold setFrequency
    dsimp only
    rw [if_neg hneg]
    decide
  rcases kinds hz with ⟨hfinite, -⟩ | ⟨s, rfl⟩ | ⟨s, rfl⟩ | rfl
  · right
    refine ⟨fun h => ?_, ?_⟩
    · rw [h, not_isFinite_infinity] at hfinite
      cases hfinite
    · by_cases hpos : 0 < hz
      · have hpos' := (lt_iff isFinite_zero hfinite).mp hpos
        rw [value_zero] at hpos'
        have hquotient := rounds_div hfinite hrateFinite (by rw [hrateValue]; norm_num)
        rw [hrateValue] at hquotient
        obtain ⟨hq, hq0, -⟩ := hquotient.mem_of_mem representable_zero (representable_value hz)
          (by norm_num) (abs_lt.mp (abs_value_lt hz)).2 (by positivity)
          (div_le_self hpos'.le (by norm_num))
        unfold setFrequency
        dsimp only
        rw [if_pos hpos]
        exact fractionalPart_spec hq hq0
      · exact hzero hpos
  · exact .inr ⟨by cases s <;> decide, hzero (by cases s <;> decide)⟩
  · cases s
    · exact .inr ⟨by decide, hzero (by decide)⟩
    · refine .inl ⟨rfl, ?_⟩
      show fractionalPart ((if 0 < infinity .positive then infinity .positive else 0) /
        sampleRateHz.toFloat32) = nan
      decide
  · exact .inr ⟨by decide, hzero (not_lt_nan 0)⟩

/-- The amplitude is held between zero and one, whatever it is set to. -/
theorem setAmplitude_mem (t : Tone) (level : Float32) :
    0 ≤ (t.setAmplitude level).amplitude ∧ (t.setAmplitude level).amplitude ≤ 1 := by
  show 0 ≤ (if 1 < level then 1 else if 0 < level then level else 0) ∧
    (if 1 < level then 1 else if 0 < level then level else 0) ≤ 1
  split
  · decide
  · next hone =>
    split
    · next hpos =>
      have hfinite : level.isFinite = true := by
        rcases kinds level with ⟨hfinite, -⟩ | ⟨s, rfl⟩ | ⟨s, rfl⟩ | rfl
        · exact hfinite
        · exact (isFinite_zero_of_sign s).1
        · cases s
          · exact absurd hpos (by decide)
          · exact absurd (by decide) hone
        · exact absurd hpos (not_lt_nan 0)
      rw [lt_iff isFinite_one hfinite, not_lt] at hone
      rw [lt_iff isFinite_zero hfinite] at hpos
      exact ⟨(le_iff isFinite_zero hfinite).mpr hpos.le, (le_iff hfinite isFinite_one).mpr hone⟩
    · decide

/-! ## One frame -/

/-- **A frame keeps the phase in its cycle.** -/
theorem advance_inCycle {t : Tone} (hp : InCycle t.phase) (hi : InCycle t.increment) :
    InCycle t.advance.phase := by
  obtain ⟨hpf, hp0, -⟩ := hp.value
  obtain ⟨hif, hi0, -⟩ := hi.value
  have hp1 := hp.le
  have hi1 := hi.le
  have hbound : Representable (2 - 1 / 2 ^ 23) :=
    ⟨2 ^ 24 - 1, -23, by norm_num, by norm_num, by norm_num⟩
  have hbound' : Representable (1 - 1 / 2 ^ 23) :=
    ⟨2 ^ 23 - 1, -23, by norm_num, by norm_num, by norm_num⟩
  obtain ⟨hsf, hs0, hs2⟩ := (rounds_add hpf hif).mem_of_mem representable_zero hbound (by norm_num)
    (by norm_num) (by linarith) (by linarith)
  unfold advance
  dsimp only
  generalize t.phase + t.increment = sum at hsf hs0 hs2
  split
  · next hwrap =>
    rw [le_iff isFinite_one hsf, value_one] at hwrap
    have hrest := rounds_sub hsf isFinite_one
    rw [value_one] at hrest
    obtain ⟨hfinite, hlow, hhigh⟩ := hrest.mem_of_mem representable_zero hbound' (by norm_num)
      (by norm_num) (by linarith) (by linarith)
    exact inCycle_of_value hfinite hlow (by linarith)
  · next hwrap =>
    rw [le_iff isFinite_one hsf, value_one, not_le] at hwrap
    exact inCycle_of_value hsf hs0 hwrap

/-- What is not a number is not wrapped. -/
theorem advance_phase_of_nan {t : Tone} (h : t.phase + t.increment = nan) :
    t.advance.phase = nan := by
  unfold advance
  dsimp only
  rw [h, if_neg (not_le_nan 1)]

section Frames

variable (t : Tone) (n : ℕ)

theorem iterate_increment : (advance^[n] t).increment = t.increment := by
  induction n generalizing t with
  | zero => rfl
  | succ n ih => exact ih t.advance

theorem iterate_amplitude : (advance^[n] t).amplitude = t.amplitude := by
  induction n generalizing t with
  | zero => rfl
  | succ n ih => exact ih t.advance

variable {t}

/-- Induction on the frames of a block. -/
theorem iterate_inCycle (hp : InCycle t.phase) (hi : InCycle t.increment) :
    InCycle (advance^[n] t).phase := by
  induction n generalizing t with
  | zero => exact hp
  | succ n ih => exact ih (t := t.advance) (advance_inCycle hp hi) hi

/-- A phase that is not a number stays so. -/
theorem iterate_phase_of_nan (hp : t.phase = nan) : (advance^[n] t).phase = nan := by
  induction n generalizing t with
  | zero => exact hp
  | succ n ih =>
    refine ih (t := t.advance) (advance_phase_of_nan ?_)
    rw [hp]
    exact nan_add _

end Frames

/-! ## One block -/

section Block

variable [SineFunction] {t : Tone} {v : BlockView}

theorem output_increment : (t.output v).1.increment = t.increment := by
  rw [output_next, iterate_increment]

theorem output_amplitude : (t.output v).1.amplitude = t.amplitude := by
  rw [output_next, iterate_amplitude]

/-- A block keeps the phase in its cycle. -/
theorem output_inCycle (hp : InCycle t.phase) (hi : InCycle t.increment ∨ v.frames = 0) :
    InCycle (t.output v).1.phase := by
  rw [output_next]
  rcases hi with hi | hnone
  · exact iterate_inCycle _ hp hi
  · rwa [frameCount_eq_zero_iff.mpr hnone]

/-- A frame with an increment that is not a number derails the phase. -/
theorem output_phase_of_increment (hi : t.increment = nan) (hv : 0 < v.frames) :
    (t.output v).1.phase = nan := by
  obtain ⟨k, hcount⟩ : ∃ k, frameCount v = k + 1 :=
    Nat.exists_eq_succ_of_ne_zero (frameCount_eq_zero_iff.not.mpr hv.ne')
  rw [output_next, hcount, Function.iterate_succ_apply]
  refine iterate_phase_of_nan k (advance_phase_of_nan ?_)
  rw [hi]
  exact add_nan _

theorem output_phase_of_nan (hp : t.phase = nan) : (t.output v).1.phase = nan := by
  rw [output_next]
  exact iterate_phase_of_nan _ hp

/-- With a phase that is not a number there is silence, since the sine is none either. -/
theorem sample_of_nan (hp : t.phase = nan) : t.sample = 0 := by
  have hsine : SineFunction.sine nan = nan := eq_nan_of_isNaN (SineFunction.isNaN_sine nan rfl)
  have hlevel : ofLevel nan = 0 := by decide +kernel
  unfold sample
  rw [hp, mul_nan, hsine, mul_nan, hlevel]

end Block

/-! ## Runs -/

/-- What is done with an oscillator once it is made. -/
inductive Call where
  | setFrequency (hz : Float32)
  | setAmplitude (level : Float32)
  | play (v : BlockView)

/-- The frequency that is in use after a call. -/
def Call.frequency (hz : Float32) : Call → Float32
  | .setFrequency hz' => hz'
  | .setAmplitude _ | .play _ => hz

/-- The frequency that was set last. -/
def lastFrequency (hz : Float32) (calls : List Call) : Float32 := calls.foldl Call.frequency hz

/-- A frame was played while the frequency was infinite. -/
def Derailed (hz : Float32) (calls : List Call) : Prop :=
  ∃ before v, before ++ [Call.play v] <+: calls ∧ 0 < v.frames ∧
    lastFrequency hz before = infinity .positive

variable (hz level : Float32)

theorem lastFrequency_concat (calls : List Call) (c : Call) :
    lastFrequency hz (calls ++ [c]) = c.frequency (lastFrequency hz calls) := by
  simp [lastFrequency]

theorem Derailed.append {calls : List Call} (h : Derailed hz calls) (more : List Call) :
    Derailed hz (calls ++ more) := by
  obtain ⟨before, v, hbefore, hframes, hinfinite⟩ := h
  exact ⟨before, v, hbefore.trans (List.prefix_append _ _), hframes, hinfinite⟩

/-- The last call is the one that derails, or one before it. -/
theorem derailed_concat_iff (calls : List Call) (c : Call) :
    Derailed hz (calls ++ [c]) ↔ Derailed hz calls ∨
      ∃ v, c = .play v ∧ 0 < v.frames ∧ lastFrequency hz calls = infinity .positive := by
  constructor
  · rintro ⟨before, v, hbefore, hframes, hinfinite⟩
    rcases List.prefix_concat_iff.mp hbefore with heq | hearlier
    · obtain ⟨rfl, hc⟩ := List.append_inj' heq rfl
      obtain rfl : Call.play v = c := by simpa using hc
      exact .inr ⟨v, rfl, hframes, hinfinite⟩
    · exact .inl ⟨before, v, hearlier, hframes, hinfinite⟩
  · rintro (h | ⟨v, rfl, hframes, hinfinite⟩)
    · exact h.append hz [c]
    · exact ⟨calls, v, List.prefix_rfl, hframes, hinfinite⟩

section Run

variable [SineFunction]

/-- The oscillator after a call. -/
def perform (t : Tone) : Call → Tone
  | .setFrequency hz => t.setFrequency hz
  | .setAmplitude level => t.setAmplitude level
  | .play v => (t.output v).1

/-- The oscillator after a series of calls. -/
def run (t : Tone) (calls : List Call) : Tone := calls.foldl perform t

theorem run_concat (t : Tone) (calls : List Call) (c : Call) :
    t.run (calls ++ [c]) = (t.run calls).perform c := by
  simp [run]

theorem run_append (t : Tone) (calls more : List Call) :
    t.run (calls ++ more) = (t.run calls).run more := List.foldl_append

/-- The increment is that of the frequency set last. -/
theorem run_increment (calls : List Call) :
    ((ofFrequency hz level).run calls).increment =
      ((ofFrequency hz level).setFrequency (lastFrequency hz calls)).increment := by
  induction calls using List.reverseRecOn with
  | nil => rfl
  | append_singleton calls c ih =>
    rw [run_concat, lastFrequency_concat]
    cases c with
    | setFrequency hz' => rfl
    | setAmplitude level' => exact ih
    | play v => exact output_increment.trans ih

theorem run_amplitude (calls : List Call) :
    0 ≤ ((ofFrequency hz level).run calls).amplitude ∧
      ((ofFrequency hz level).run calls).amplitude ≤ 1 := by
  induction calls using List.reverseRecOn with
  | nil => exact setAmplitude_mem _ level
  | append_singleton calls c ih =>
    rw [run_concat]
    cases c with
    | setFrequency hz' => exact ih
    | setAmplitude level' => exact setAmplitude_mem _ level'
    | play v =>
      rw [perform, output_amplitude]
      exact ih

/-- **Induction on the calls of a run**: the phase is in its cycle until a frame is played at an
infinite frequency, and is not a number afterwards. -/
theorem run_phase (calls : List Call) :
    Derailed hz calls ∧ ((ofFrequency hz level).run calls).phase = nan ∨
      ¬Derailed hz calls ∧ InCycle ((ofFrequency hz level).run calls).phase := by
  induction calls using List.reverseRecOn with
  | nil =>
    right
    refine ⟨?_, show InCycle 0 by decide⟩
    rintro ⟨before, v, hbefore, -⟩
    simp at hbefore
  | append_singleton calls c ih =>
    have hincrement := run_increment hz level calls
    rw [derailed_concat_iff, run_concat]
    generalize (ofFrequency hz level).run calls = t at ih hincrement ⊢
    cases c with
    | setFrequency hz' => simpa [perform, setFrequency] using ih
    | setAmplitude level' => simpa [perform, setAmplitude] using ih
    | play v =>
      rcases ih with ⟨hderailed, hnan⟩ | ⟨hon, hphase⟩
      · exact .inl ⟨.inl hderailed, output_phase_of_nan hnan⟩
      · have hplayed (h : lastFrequency hz calls ≠ infinity .positive ∨ v.frames = 0) :
            ¬(Derailed hz calls ∨ ∃ w, Call.play v = .play w ∧ 0 < w.frames ∧
              lastFrequency hz calls = infinity .positive) := by
          rintro (hderailed | ⟨w, hw, hframes, hinfinite⟩)
          · exact hon hderailed
          · cases hw
            exact h.elim (· hinfinite) hframes.ne'
        rcases increment_cases (ofFrequency hz level) (lastFrequency hz calls) with
          ⟨hinfinite, hnan⟩ | ⟨hfinite, hinCycle⟩
        · rw [← hincrement] at hnan
          rcases Nat.eq_zero_or_pos v.frames with hnone | hsome
          · exact .inr ⟨hplayed (.inr hnone), output_inCycle hphase (.inr hnone)⟩
          · exact .inl ⟨.inr ⟨v, rfl, hsome, hinfinite⟩, output_phase_of_increment hnan hsome⟩
        · rw [← hincrement] at hinCycle
          exact .inr ⟨hplayed (.inl hfinite), output_inCycle hphase (.inl hinCycle)⟩

/-- **The oscillator is in range, unless a frame was played at an infinite frequency.**  It is made
with any frequency and amplitude, and any calls are made with any arguments.
(1) The amplitude is from zero to one.
(2) The increment is in its cycle if and only if the frequency that was set last is not infinite,
    and otherwise it is not a number.
(3) The phase is in its cycle if and only if no frame was played while the frequency was infinite,
    and otherwise it is not a number.
(4) If one was, the phase is not a number for good, and there is silence: no later call, with
    whatever frequency or amplitude, brings the oscillator back. -/
theorem inCycle_iff_not_derailed (calls : List Call) :
    let t := (ofFrequency hz level).run calls
    (0 ≤ t.amplitude ∧ t.amplitude ≤ 1) ∧
    ((0 ≤ t.increment ∧ t.increment < 1 ↔ lastFrequency hz calls ≠ infinity .positive) ∧
      (t.increment.isNaN = true ↔ lastFrequency hz calls = infinity .positive)) ∧
    ((0 ≤ t.phase ∧ t.phase < 1 ↔ ¬Derailed hz calls) ∧
      (t.phase.isNaN = true ↔ Derailed hz calls)) ∧
    (Derailed hz calls → ∀ more : List Call,
      (t.run more).phase.isNaN = true ∧ (t.run more).sample = 0) := by
  intro t
  have hnan : nan.isNaN = true := rfl
  refine ⟨run_amplitude hz level calls, ?_, ?_, fun hderailed more => ?_⟩
  · have hincrement : t.increment = _ := run_increment hz level calls
    rw [hincrement]
    rcases increment_cases (ofFrequency hz level) (lastFrequency hz calls) with
      ⟨hinfinite, hi⟩ | ⟨hfinite, hi⟩
    · rw [hi]
      exact ⟨iff_of_false not_inCycle_nan (not_not.mpr hinfinite), iff_of_true hnan hinfinite⟩
    · exact ⟨iff_of_true hi hfinite, iff_of_false (not_isNaN_of_isFinite hi.value.1) hfinite⟩
  · rcases run_phase hz level calls with ⟨hderailed, hphase⟩ | ⟨hon, hphase⟩
    · have hphase : t.phase = nan := hphase
      rw [hphase]
      exact ⟨iff_of_false not_inCycle_nan (not_not.mpr hderailed), iff_of_true hnan hderailed⟩
    · have hphase : InCycle t.phase := hphase
      exact ⟨iff_of_true hphase hon, iff_of_false (not_isNaN_of_isFinite hphase.value.1) hon⟩
  · rcases run_phase hz level (calls ++ more) with ⟨-, hphase⟩ | ⟨hon, -⟩
    · rw [run_append] at hphase
      have hphase : (t.run more).phase = nan := hphase
      rw [sample_of_nan hphase, hphase]
      exact ⟨hnan, rfl⟩
    · exact absurd (hderailed.append hz more) hon

end Run

/-- **An infinite frequency silences an oscillator for good.**  One frame is played at it, and then
the frequency is set to a quarter of the rate, at full amplitude.  An oscillator that was made with
the frequency zero is in range then. -/
theorem derailed_infinite :
    let calls : List Call := [.play single, .setFrequency 12000, .setAmplitude 1]
    let silenced := (ofFrequency (infinity .positive) 1).run calls
    let playing := (ofFrequency 0 1).run calls
    Derailed (infinity .positive) calls ∧
      ¬(0 ≤ silenced.phase ∧ silenced.phase < 1) ∧ silenced.phase.isNaN = true ∧
      (∀ n, (silenced.output { single with frames := 16 }).2.played.get n 0 = 0) ∧
      0 ≤ playing.phase ∧ playing.phase < 1 := by
  refine ⟨⟨[], single, ⟨_, rfl⟩, by decide, rfl⟩, ?_⟩
  decide +kernel

end Tone

end DuplexAudio
