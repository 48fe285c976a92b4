/-
  The settings of the mix are seventeen registers that do not touch one another.

  1. **A setter clamps** — a volume is kept if it is not below zero and is zero otherwise, a gain is
     brought between zero and one, and what is not a number is zero (`clampVolume_spec`,
     `clampUnit_spec`).

  2. **One call, one field** — `write?` is the table of what each call writes to each field, and
     after a call a field holds what was written, or what it held before (`get_perform`).

  3. **A run of calls** — so a field holds what was written to it last since the last reset, or its
     initial value (`get_run`): the one induction over the calls.  That all fields are in their
     range is read off this, since no call writes anything else.

  4. **Calls that write different fields commute** (`perform_comm`), because settings are known by
     their fields (`eq_of_get`).

  A track that does not exist is the track of no field, so its setters write nothing
  (`perform_of_no_track`).
-/
import Mathlib.Data.List.DropRight
import DuplexAudio.Mix.Settings
import DuplexAudio.Proofs.Signal.Exact

namespace DuplexAudio

open Binary32

/-! ## What a setter makes of a level -/

/-- Below zero or not a number, said as one comparison. -/
theorem isNaN_or_lt_zero_iff (v : Float32) : v.isNaN = true ∨ v < 0 ↔ ¬0 ≤ v := by
  by_cases hnan : v.isNaN = true
  · rw [eq_nan_of_isNaN hnan]
    exact iff_of_true (.inl rfl) (not_le_nan 0)
  · rw [or_iff_right hnan, ← not_lt_iff_le rfl (Bool.eq_false_iff.mpr hnan), not_not]

/-- What is not below zero is a number. -/
theorem not_isNaN_of_nonneg {v : Float32} (h : 0 ≤ v) : v.isNaN = false :=
  Bool.eq_false_iff.mpr fun hnan => (isNaN_or_lt_zero_iff v).mp (.inl hnan) h

/-- What is above one is not below zero. -/
theorem nonneg_of_one_lt {v : Float32} (h : 1 < v) : 0 ≤ v := by
  have hfinite (hv : v.isFinite = true) : 0 ≤ v := by
    rw [lt_iff isFinite_one hv, value_one] at h
    rw [le_iff isFinite_zero hv, value_zero]
    exact zero_le_one.trans h.le
  rcases kinds v with ⟨hv, -⟩ | ⟨s, rfl⟩ | ⟨s, rfl⟩ | rfl
  · exact hfinite hv
  · exact hfinite (isFinite_zero_of_sign s).1
  · cases s
    · exact absurd h (by decide)
    · decide
  · exact absurd h (not_lt_nan 1)

/-- A volume is kept if it is not below zero, and is zero otherwise. -/
theorem clampVolume_spec (v : Float32) :
    (0 ≤ v → clampVolume v = v) ∧ (¬0 ≤ v → clampVolume v = 0) := by
  unfold clampVolume
  exact ⟨fun h => if_neg fun hout => (isNaN_or_lt_zero_iff v).mp hout h,
    fun h => if_pos ((isNaN_or_lt_zero_iff v).mpr h)⟩

/-- A gain is kept from zero to one, is one above that, and zero otherwise. -/
theorem clampUnit_spec (v : Float32) :
    (0 ≤ v ∧ v ≤ 1 → clampUnit v = v) ∧ (1 < v → clampUnit v = 1) ∧
      (¬0 ≤ v → clampUnit v = 0) := by
  have hin (h : 0 ≤ v) : clampUnit v = if 1 < v then 1 else v :=
    if_neg fun hout => (isNaN_or_lt_zero_iff v).mp hout h
  refine ⟨fun ⟨h0, h1⟩ => ?_, fun h => ?_, fun h => if_pos ((isNaN_or_lt_zero_iff v).mpr h)⟩
  · rw [hin h0, if_neg ((not_lt_iff_le (not_isNaN_of_nonneg h0) rfl).mpr h1)]
  · rw [hin (nonneg_of_one_lt h), if_pos h]

theorem clampVolume_nonneg (v : Float32) : 0 ≤ clampVolume v := by
  obtain ⟨hkept, hzero⟩ := clampVolume_spec v
  by_cases h : 0 ≤ v
  · rwa [hkept h]
  · rw [hzero h]
    decide

theorem clampUnit_mem (v : Float32) : 0 ≤ clampUnit v ∧ clampUnit v ≤ 1 := by
  obtain ⟨hkept, hone, hzero⟩ := clampUnit_spec v
  by_cases h0 : 0 ≤ v
  · by_cases h1 : 1 < v
    · rw [hone h1]
      decide
    · have hle : v ≤ 1 := (not_lt_iff_le (not_isNaN_of_nonneg h0) rfl).mp h1
      rw [hkept ⟨h0, hle⟩]
      exact ⟨h0, hle⟩
  · rw [hzero h0]
    decide

namespace MixSettings

/-! ## Fields and calls -/

/-- One register of the settings. -/
inductive Field where
  | master
  | gainMain (t : Fin trackCount)
  | gainCue (t : Fin trackCount)
  | toMain (t : Fin trackCount)
  | toCue (t : Fin trackCount)

namespace Field

/-- What a register holds: a level, or whether a track feeds a bus. -/
def Value : Field → Type
  | master | gainMain _ | gainCue _ => Float32
  | toMain _ | toCue _ => Bool

/-- What a register holds before anything is written to it, and after a reset. -/
def initial : (f : Field) → f.Value
  | master | gainMain _ | gainCue _ => (1 : Float32)
  | toMain _ => true
  | toCue _ => false

/-- A volume is not below zero, and a gain is between zero and one. -/
def InRange : (f : Field) → f.Value → Prop
  | master => fun volume : Float32 => 0 ≤ volume
  | gainMain _ | gainCue _ => fun gain : Float32 => 0 ≤ gain ∧ gain ≤ 1
  | toMain _ | toCue _ => fun _ => True

theorem initial_inRange (f : Field) : f.InRange f.initial := by
  cases f with
  | master => exact show (0 : Float32) ≤ 1 by decide
  | gainMain | gainCue => exact show (0 : Float32) ≤ 1 ∧ (1 : Float32) ≤ 1 by decide
  | toMain | toCue => trivial

end Field

/-- What the settings hold in one register. -/
def get (s : MixSettings) : (f : Field) → f.Value
  | .master => s.master
  | .gainMain t => (s.route t).gainMain
  | .gainCue t => (s.route t).gainCue
  | .toMain t => (s.route t).toMain
  | .toCue t => (s.route t).toCue

/-- **Settings are known by their registers.** -/
theorem eq_of_get {s s' : MixSettings} (h : ∀ f, s.get f = s'.get f) : s = s' := by
  have hroute (t : Fin trackCount) : s.route t = s'.route t := by
    have hgainMain : (s.route t).gainMain = (s'.route t).gainMain := h (.gainMain t)
    have hgainCue : (s.route t).gainCue = (s'.route t).gainCue := h (.gainCue t)
    have htoMain : (s.route t).toMain = (s'.route t).toMain := h (.toMain t)
    have htoCue : (s.route t).toCue = (s'.route t).toCue := h (.toCue t)
    cases hr : s.route t
    cases hr' : s'.route t
    rw [hr, hr'] at hgainMain hgainCue htoMain htoCue
    cases hgainMain
    cases hgainCue
    cases htoMain
    cases htoCue
    rfl
  have hmaster : s.master = s'.master := h .master
  cases s
  cases s'
  cases hmaster
  congr 1
  exact Vector.ext fun i hi => hroute ⟨i, hi⟩

/-- A call that changes settings.  Tracks are any numbers, and levels any patterns of bits. -/
inductive Call where
  | setVolume (volume : Float32)
  | setBuses (track : Nat) (toMain toCue : Bool)
  | setGains (track : Nat) (main cue : Float32)
  | reset
  deriving DecidableEq

namespace Call

/-- What a call writes to a register, if it writes it. -/
def write? : Call → (f : Field) → Option f.Value
  | setVolume volume, .master => some (clampVolume volume)
  | setGains track main _, .gainMain t => if track = t then some (clampUnit main) else none
  | setGains track _ cue, .gainCue t => if track = t then some (clampUnit cue) else none
  | setBuses track toMain _, .toMain t => if track = t then some toMain else none
  | setBuses track _ toCue, .toCue t => if track = t then some toCue else none
  | reset, f => some f.initial
  | _, _ => none

/-- Nothing is written that is out of range. -/
theorem write?_inRange {c : Call} {f : Field} {v : f.Value} (h : c.write? f = some v) :
    f.InRange v := by
  cases c with
  | reset =>
    obtain rfl : f.initial = v := Option.some.inj h
    exact f.initial_inRange
  | setVolume volume =>
    cases f with
    | master =>
      obtain rfl : clampVolume volume = v := Option.some.inj h
      exact clampVolume_nonneg volume
    | gainMain | gainCue | toMain | toCue => cases h
  | setBuses track toMain toCue =>
    cases f with
    | toMain | toCue => trivial
    | master | gainMain | gainCue => cases h
  | setGains track main cue =>
    cases f with
    | gainMain t =>
      obtain ⟨-, hv⟩ := Option.ite_none_right_eq_some.mp h
      obtain rfl : clampUnit main = v := Option.some.inj hv
      exact clampUnit_mem main
    | gainCue t =>
      obtain ⟨-, hv⟩ := Option.ite_none_right_eq_some.mp h
      obtain rfl : clampUnit cue = v := Option.some.inj hv
      exact clampUnit_mem cue
    | master | toMain | toCue => cases h

end Call

/-- The settings after a call. -/
def perform (s : MixSettings) : Call → MixSettings
  | .setVolume volume => s.setVolume volume
  | .setBuses track toMain toCue => s.setBuses track toMain toCue
  | .setGains track main cue => s.setGains track main cue
  | .reset => unity

/-- The settings after a list of calls. -/
def run (s : MixSettings) (calls : List Call) : MixSettings := calls.foldl perform s

theorem run_concat (s : MixSettings) (calls : List Call) (c : Call) :
    s.run (calls ++ [c]) = (s.run calls).perform c := by
  simp [run]

/-! ## One call -/

theorem get_unity (f : Field) : unity.get f = f.initial := by
  have hroute (t : Fin trackCount) : unity.route t = Route.unity := by
    simp [unity, route]
  cases f with
  | master => rfl
  | gainMain t | gainCue t | toMain t | toCue t =>
    unfold get
    dsimp only
    rw [hroute]
    rfl

theorem route_modifyRoute (s : MixSettings) (track : Nat) (t : Fin trackCount)
    (change : Route → Route) :
    (s.modifyRoute track change).route t = if track = t then change (s.route t) else s.route t := by
  split
  · next h =>
    rw [h]
    exact route_modifyRoute_self s t change
  · next h => exact route_modifyRoute_ne s change h

/-- **After a call, a register holds what was written to it, or what it held before.** -/
theorem get_perform (s : MixSettings) (c : Call) (f : Field) :
    (s.perform c).get f = (c.write? f).getD (s.get f) := by
  cases c with
  | reset => exact get_unity f
  | setVolume volume => cases f <;> rfl
  | setBuses track toMain toCue =>
    cases f with
    | master => exact master_modifyRoute s track _
    | gainMain t | gainCue t | toMain t | toCue t =>
      simp only [perform, setBuses, get, route_modifyRoute, Call.write?]
      split <;> rfl
  | setGains track main cue =>
    cases f with
    | master => exact master_modifyRoute s track _
    | gainMain t | gainCue t | toMain t | toCue t =>
      simp only [perform, setGains, get, route_modifyRoute, Call.write?]
      split <;> rfl

/-- Calls for a track that does not exist change nothing. -/
theorem perform_of_no_track {track : Nat} (h : trackCount ≤ track) (s : MixSettings) :
    (∀ toMain toCue, s.perform (.setBuses track toMain toCue) = s) ∧
      ∀ main cue, s.perform (.setGains track main cue) = s := by
  have hnone : ¬track < trackCount := Nat.not_lt.mpr h
  constructor
  · intro toMain toCue
    exact dif_neg hnone
  · intro main cue
    exact dif_neg hnone

/-- **Calls that write different registers commute.** -/
theorem perform_comm {a b : Call} (h : ∀ f, a.write? f = none ∨ b.write? f = none)
    (s : MixSettings) : (s.perform a).perform b = (s.perform b).perform a := by
  apply eq_of_get
  intro f
  rw [get_perform, get_perform, get_perform, get_perform]
  rcases h f with ha | hb
  · rw [ha]
    rfl
  · rw [hb]
    rfl

/-! ## Runs -/

/-- The calls after the last reset. -/
def sinceReset (calls : List Call) : List Call := calls.rtakeWhile (· ≠ .reset)

/-- What was written to a register last. -/
def lastWrite? (calls : List Call) (f : Field) : Option f.Value :=
  calls.reverse.findSome? (·.write? f)

theorem sinceReset_reset (calls : List Call) : sinceReset (calls ++ [.reset]) = [] :=
  List.rtakeWhile_concat_neg _ _ _ (by decide)

theorem sinceReset_concat (calls : List Call) {c : Call} (h : c ≠ .reset) :
    sinceReset (calls ++ [c]) = sinceReset calls ++ [c] :=
  List.rtakeWhile_concat_pos _ _ _ (by simpa using h)

theorem lastWrite?_concat (calls : List Call) (c : Call) (f : Field) :
    lastWrite? (calls ++ [c]) f = (c.write? f).or (lastWrite? calls f) := by
  unfold lastWrite?
  rw [List.reverse_concat, List.findSome?_cons]
  cases c.write? f <;> rfl

/-- **Induction on the calls**: a register holds what was written to it last since the last reset,
or its initial value. -/
theorem get_run (calls : List Call) (f : Field) :
    (unity.run calls).get f = (lastWrite? (sinceReset calls) f).getD f.initial := by
  induction calls using List.reverseRecOn with
  | nil => exact get_unity f
  | append_singleton calls c ih =>
    rw [run_concat, get_perform]
    by_cases hc : c = .reset
    · rw [hc, sinceReset_reset]
      rfl
    · rw [sinceReset_concat calls hc, lastWrite?_concat, ih]
      cases c.write? f <;> rfl

/-- Every register of settings that calls lead to is in its range. -/
theorem get_run_inRange (calls : List Call) (f : Field) :
    f.InRange ((unity.run calls).get f) := by
  rw [get_run]
  cases h : lastWrite? (sinceReset calls) f with
  | none => exact f.initial_inRange
  | some v =>
    obtain ⟨c, -, hc⟩ := List.exists_of_findSome?_eq_some h
    exact Call.write?_inRange hc

/-- **The settings are independent clamped registers.**  For every list of calls, with any levels
and any tracks:
(1) each of the seventeen registers holds what was written to it last since the last reset, and its
    initial value if nothing was;
(2) where what is written is the volume itself if it is not below zero, and zero otherwise, and the
    gain itself from zero to one, one above it and zero otherwise;
(3) on any settings, a call changes no register but those that it writes, and calls for a track that
    does not exist change nothing;
(4) no volume is below zero, every gain is from zero to one, and all of them are numbers;
(5) calls that write different registers commute, on any settings. -/
theorem registers_independent (calls : List Call) :
    let s := unity.run calls
    (∀ f, s.get f = (lastWrite? (sinceReset calls) f).getD f.initial) ∧
    (∀ v, (0 ≤ v → clampVolume v = v) ∧ (¬0 ≤ v → clampVolume v = 0) ∧
      (0 ≤ v ∧ v ≤ 1 → clampUnit v = v) ∧ (1 < v → clampUnit v = 1) ∧
      (¬0 ≤ v → clampUnit v = 0)) ∧
    ((∀ (c : Call) (f : Field) (s' : MixSettings),
        (s'.perform c).get f = (c.write? f).getD (s'.get f)) ∧
      ∀ track, trackCount ≤ track → ∀ s' : MixSettings,
        (∀ toMain toCue, s'.perform (.setBuses track toMain toCue) = s') ∧
          ∀ main cue, s'.perform (.setGains track main cue) = s') ∧
    ((0 ≤ s.master ∧ s.master.isNaN = false) ∧
      ∀ t, (0 ≤ (s.route t).gainMain ∧ (s.route t).gainMain ≤ 1 ∧
          (s.route t).gainMain.isNaN = false) ∧
        (0 ≤ (s.route t).gainCue ∧ (s.route t).gainCue ≤ 1 ∧ (s.route t).gainCue.isNaN = false)) ∧
    (∀ a b : Call, (∀ f, a.write? f = none ∨ b.write? f = none) →
      ∀ s' : MixSettings, (s'.perform a).perform b = (s'.perform b).perform a) := by
  intro s
  refine ⟨get_run calls, fun v => ?_, ⟨fun c f s' => get_perform s' c f,
    fun _ htrack => perform_of_no_track htrack⟩, ⟨?_, fun t => ⟨?_, ?_⟩⟩, fun a b h => perform_comm h⟩
  · obtain ⟨hkept, hzero⟩ := clampVolume_spec v
    exact ⟨hkept, hzero, clampUnit_spec v⟩
  · have hmaster : 0 ≤ s.master := get_run_inRange calls .master
    exact ⟨hmaster, not_isNaN_of_nonneg hmaster⟩
  · obtain ⟨h0, h1⟩ : 0 ≤ (s.route t).gainMain ∧ (s.route t).gainMain ≤ 1 :=
      get_run_inRange calls (.gainMain t)
    exact ⟨h0, h1, not_isNaN_of_nonneg h0⟩
  · obtain ⟨h0, h1⟩ : 0 ≤ (s.route t).gainCue ∧ (s.route t).gainCue ≤ 1 :=
      get_run_inRange calls (.gainCue t)
    exact ⟨h0, h1, not_isNaN_of_nonneg h0⟩

/-- The gains of a track and the buses of the same track, in either order, after a reset and a call
for a track that does not exist. -/
theorem registers_independent_one_track :
    let calls : List Call := [.setVolume 0.25, .reset, .setGains 9 0.5 0.5, .setGains 2 0.5 (-1)]
    let s := unity.run calls
    let a : Call := .setGains 2 4 0.5
    let b : Call := .setBuses 2 false true
    (∀ f, a.write? f = none ∨ b.write? f = none) ∧
      s.get .master = (1 : Float32) ∧ s.get (.gainMain 2) = (0.5 : Float32) ∧
      s.get (.gainCue 2) = (0 : Float32) ∧
      (s.perform a).perform b = (s.perform b).perform a := by
  intro calls s a b
  have hapart (f : Field) : a.write? f = none ∨ b.write? f = none := by
    cases f with
    | master | gainMain | gainCue => exact .inr rfl
    | toMain | toCue => exact .inl rfl
  obtain ⟨hfields, -, -, -, hcomm⟩ := registers_independent calls
  exact ⟨hapart, hfields .master, hfields (.gainMain 2), hfields (.gainCue 2), hcomm a b hapart s⟩

end MixSettings

end DuplexAudio
