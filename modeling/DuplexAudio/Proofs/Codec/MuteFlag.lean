/-
  The mute flag of the playback converter tells the level of its line.

  The flag and the line are two copies of one fact, set one after the other, and the drive between
  them may fail.  A front end moreover gets to its playback side only if its capture side did what
  it was asked.

  1. **The line** — `TracedLine` is about lines of which it is known what they were last driven to.
     A drive that fails leaves that as it was.

  2. **One call** — it sets line and flag to the same, or fails and sets neither
     (`drive_cases`).  So the flag stays true to the line in any calls (`Told.afterCalls`), and
     without a line it is what was asked for last (`afterCalls_withoutLine`).

  3. **A front end** passes some of its calls on.  What all of them do to its playback side is what
     those do to it alone (`playback_afterCalls`), so nothing is left to prove for the flag there.

  `mute_flag_tells_level` is the headline.
-/
import Mathlib.Data.List.Induction
import DuplexAudio.Bench.Board
import DuplexAudio.Proofs.Codec.Calls

namespace DuplexAudio

/-- A line of which it is known what level it was last driven to. -/
class TracedLine (π : Type) [OutputLine π] where
  lastDriven : π → Option Level
  /-- A drive that fails leaves the line as it was. -/
  lastDriven_drive : ∀ level line, lastDriven (OutputLine.drive level line).2 =
    if (OutputLine.drive level line).1 then some level else lastDriven line

instance : TracedLine Bench.MuteLine where
  lastDriven line := line.level
  lastDriven_drive level line := by
    unfold OutputLine.drive Bench.instOutputLineMuteLine
    dsimp only
    split <;> rfl

/-- What a call asks the output to be, if it asks that: an identification mutes. -/
def CodecCall.asks? : CodecCall → Option Bool
  | init => some true
  | setMute mute => some mute
  | configure => none

namespace PlaybackConverter

/-! ## One call -/

variable {π : Type} [OutputLine π] [TracedLine π]

/-- The level that a converter's line was last driven to. -/
def level? (d : PlaybackConverter π) : Option Level := d.line.bind TracedLine.lastDriven

/-- The line is at the level of the flag. -/
def Told (d : PlaybackConverter π) : Prop := d.level? = some (muteLevel d.muted)

theorem Told.muted_iff {d : PlaybackConverter π} (h : d.Told) :
    d.muted = true ↔ d.level? = some .low := by
  rw [h]
  cases d.muted <;> decide

/-- **A drive** sets line and flag to the same, or fails and sets neither. -/
theorem drive_cases (d : PlaybackConverter π) (mute : Bool) :
    let r := d.drive mute
    r.device.line.isSome = d.line.isSome ∧
      (r.result = .ok () ∧ r.device.muted = mute ∧ (d.line.isSome → r.device.Told) ∨
        r.result = .error .gpio ∧ d.line.isSome ∧ r.device.muted = d.muted ∧
          r.device.level? = d.level?) := by
  unfold drive
  cases hline : d.line with
  | none => simp
  | some line =>
    have hlevel := TracedLine.lastDriven_drive (muteLevel mute) line
    have hbefore : d.level? = TracedLine.lastDriven line := by simp [level?, hline]
    dsimp only
    generalize OutputLine.drive (muteLevel mute) line = answer at hlevel ⊢
    obtain ⟨driven, line'⟩ := answer
    cases driven with
    | true => exact ⟨rfl, .inl ⟨rfl, rfl, fun _ => hlevel⟩⟩
    | false => exact ⟨rfl, .inr ⟨rfl, rfl, rfl, hlevel.trans hbefore.symm⟩⟩

omit [TracedLine π] in
theorem call_eq (call : CodecCall) (d : PlaybackConverter π) :
    Codec.call call d = match call.asks? with
      | some mute => d.drive mute
      | none => { result := .ok (), device := d } := by
  cases call <;> rfl

/-- A call that fails is a drive that failed. -/
theorem call_error {call : CodecCall} {d : PlaybackConverter π} {e : CodecFailure}
    (h : (Codec.call call d).result = .error e) :
    e = .gpio ∧ (Codec.call call d).device.muted = d.muted ∧
      (Codec.call call d).device.level? = d.level? := by
  rw [call_eq] at h ⊢
  cases hasks : call.asks? with
  | none =>
    rw [hasks] at h
    cases h
  | some mute =>
    rw [hasks] at h
    obtain ⟨-, ⟨hok, -⟩ | ⟨herror, -, hmuted, hlevel⟩⟩ := d.drive_cases mute
    · rw [hok] at h
      cases h
    · rw [herror] at h
      cases h
      exact ⟨rfl, hmuted, hlevel⟩

/-! ## Any calls -/

theorem Told.isSome {d : PlaybackConverter π} (h : d.Told) : d.line.isSome := by
  unfold Told level? at h
  cases hline : d.line with
  | none =>
    rw [hline] at h
    cases h
  | some line => rfl

/-- **One call** keeps line and flag together. -/
theorem Told.call {d : PlaybackConverter π} (h : d.Told) (call : CodecCall) :
    (Codec.call call d).device.Told := by
  rw [call_eq]
  cases call.asks? with
  | none => exact h
  | some mute =>
    obtain ⟨-, ⟨-, -, htold⟩ | ⟨-, -, hmuted, hlevel⟩⟩ := d.drive_cases mute
    · exact htold h.isSome
    · -- what was told before the drive that failed is told still
      unfold Told
      rw [hmuted, hlevel]
      exact h

theorem Told.afterCalls {d : PlaybackConverter π} (h : d.Told) (calls : List CodecCall) :
    (Codec.afterCalls calls d).Told := by
  induction calls generalizing d with
  | nil => exact h
  | cons call calls ih => exact ih (h.call call)

/-- A converter that could take its line is muted, line and flag. -/
theorem told_onLine {line : π} (h : (onLine line).result = .ok ()) : (onLine line).device.Told := by
  obtain ⟨-, ⟨-, -, htold⟩ | ⟨herror, -⟩⟩ :=
    ({ line := some line, muted := true } : PlaybackConverter π).drive_cases true
  · exact htold rfl
  · exact absurd (h.symm.trans herror) (by simp)

/-- What some calls asked the output to be last, which was muted at first. -/
def lastAsked (calls : List CodecCall) : Bool := (calls.reverse.findSome? CodecCall.asks?).getD true

omit [TracedLine π] in
/-- **Without a line** no call fails, and the flag is what was asked for last. -/
theorem afterCalls_withoutLine (calls : List CodecCall) :
    Codec.afterCalls calls (withoutLine : PlaybackConverter π) = ⟨none, lastAsked calls⟩ := by
  induction calls using List.reverseRecOn with
  | nil => rfl
  | append_singleton calls call ih =>
    have hlast : lastAsked (calls ++ [call]) = call.asks?.getD (lastAsked calls) := by
      unfold lastAsked
      rw [List.reverse_concat, List.findSome?_cons]
      cases call.asks? <;> rfl
    rw [Codec.afterCalls_append, ih, hlast]
    show (Codec.call call (⟨none, lastAsked calls⟩ : PlaybackConverter π)).device = _
    rw [call_eq]
    cases call.asks? <;> rfl

end PlaybackConverter

/-! ## A front end -/

namespace FrontEnd

variable {α δ : Type} [Codec α] [Codec δ]

/-- **A call on both sides** ends with the failure of the capture side, or is the call on the
playback side. -/
theorem onBoth_cases (f : FrontEnd α δ) (call : CodecCall) :
    (∃ cause, (Codec.call call f.capture).result = .error cause ∧
        (f.onBoth call).result = .error cause ∧ (f.onBoth call).device.playback = f.playback) ∨
      (Codec.call call f.capture).result = .ok () ∧
        (f.onBoth call).result = (Codec.call call f.playback).result ∧
        (f.onBoth call).device.playback = (Codec.call call f.playback).device := by
  unfold onBoth
  dsimp only
  cases hcapture : (Codec.call call f.capture).result with
  | error cause =>
    have hfirst : (f.onCapture call).result = .error cause := hcapture
    rw [hfirst]
    exact .inl ⟨cause, rfl, hfirst, rfl⟩
  | ok _ =>
    have hfirst : (f.onCapture call).result = .ok () := hcapture
    rw [hfirst]
    exact .inr ⟨rfl, rfl, rfl⟩

theorem call_eq (call : CodecCall) (f : FrontEnd α δ) :
    Codec.call call f = if call.isMute then f.onPlayback call else f.onBoth call := by
  cases call <;> rfl

/-- A failure of the capture side is the answer, and the playback side is not asked. -/
theorem call_of_capture_error {f : FrontEnd α δ} {call : CodecCall} {cause : CodecFailure}
    (hmute : call.isMute = false) (h : (Codec.call call f.capture).result = .error cause) :
    (Codec.call call f).result = .error cause ∧
      (Codec.call call f).device.playback = f.playback := by
  rw [call_eq, hmute]
  obtain ⟨cause', hcause, hresult, hsame⟩ | ⟨hok, -⟩ := f.onBoth_cases call
  · cases h.symm.trans hcause
    exact ⟨hresult, hsame⟩
  · cases h.symm.trans hok

/-- Any other failure is one of the playback side. -/
theorem call_error {f : FrontEnd α δ} {call : CodecCall} {e : CodecFailure}
    (h : (Codec.call call f).result = .error e) :
    call.isMute = false ∧ (Codec.call call f.capture).result = .error e ∨
      (Codec.call call f.playback).result = .error e ∧
        (Codec.call call f).device.playback = (Codec.call call f.playback).device := by
  rw [call_eq] at h ⊢
  cases hmute : call.isMute with
  | true =>
    rw [hmute] at h
    exact .inr ⟨h, rfl⟩
  | false =>
    rw [hmute] at h
    obtain ⟨cause, hcause, hresult, -⟩ | ⟨-, hresult, hpassed⟩ := f.onBoth_cases call
    · cases hresult.symm.trans h
      exact .inl ⟨rfl, hcause⟩
    · exact .inr ⟨hresult.symm.trans h, hpassed⟩

/-- A call leaves the playback side alone, or is passed on to it. -/
theorem playback_call (f : FrontEnd α δ) (call : CodecCall) :
    (Codec.call call f).device.playback = f.playback ∨
      (Codec.call call f).device.playback = (Codec.call call f.playback).device := by
  rw [call_eq]
  split
  · exact .inr rfl
  · obtain ⟨cause, -, -, hplayback⟩ | ⟨-, -, hplayback⟩ := f.onBoth_cases call
    · exact .inl hplayback
    · exact .inr hplayback

/-- **What calls do to the playback side**, some of them do to it alone. -/
theorem playback_afterCalls (calls : List CodecCall) (f : FrontEnd α δ) :
    ∃ passed, passed.Sublist calls ∧
      (Codec.afterCalls calls f).playback = Codec.afterCalls passed f.playback := by
  induction calls generalizing f with
  | nil => exact ⟨[], .slnil, rfl⟩
  | cons call calls ih =>
    -- the calls that are passed on are collected, and the others dropped
    obtain ⟨passed, hsub, hplayback⟩ := ih (Codec.call call f).device
    rcases f.playback_call call with hsame | hpassed
    · rw [hsame] at hplayback
      exact ⟨passed, hsub.cons call, hplayback⟩
    · rw [hpassed] at hplayback
      exact ⟨call :: passed, hsub.cons_cons call, hplayback⟩

end FrontEnd

namespace PlaybackConverter

/-- **The mute flag tells the level of the line.**  For every line that could be taken, whatever
drives of it fail later, and every list of calls,
(1) a converter that is called directly is muted if and only if its line was last driven low, and a
    call that fails is a drive that failed, and changes neither line nor flag;
(2) the same holds of a converter inside a front end, over any capture side;
(3) a call that fails on the capture side is answered with that failure, and does not touch the
    converter; and no other call fails but for the line;
(4) a converter without a line fails no call, and is muted as it was asked last. -/
theorem mute_flag_tells_level {α π : Type} [Codec α] [OutputLine π] [TracedLine π] {line : π}
    (h : (onLine line).result = .ok ()) (calls : List CodecCall) :
    let d := Codec.afterCalls calls (onLine line).device
    let f (capture : α) := Codec.afterCalls calls (FrontEnd.mk capture (onLine line).device)
    let bare := Codec.afterCalls calls (withoutLine : PlaybackConverter π)
    ((d.muted = true ↔ d.level? = some .low) ∧
      ∀ call e, (Codec.call call d).result = .error e →
        e = .gpio ∧ (Codec.call call d).device.muted = d.muted ∧
          (Codec.call call d).device.level? = d.level?) ∧
    (∀ capture, ((f capture).playback.muted = true ↔ (f capture).playback.level? = some .low) ∧
      (∀ call cause, call.isMute = false →
        (Codec.call call (f capture).capture).result = .error cause →
          (Codec.call call (f capture)).result = .error cause ∧
            (Codec.call call (f capture)).device.playback = (f capture).playback) ∧
      ∀ call e, (Codec.call call (f capture)).result = .error e →
        call.isMute = false ∧ (Codec.call call (f capture).capture).result = .error e ∨
          e = .gpio ∧
            (Codec.call call (f capture)).device.playback.muted = (f capture).playback.muted ∧
            (Codec.call call (f capture)).device.playback.level? = (f capture).playback.level?) ∧
    bare.muted = lastAsked calls ∧ ∀ call, (Codec.call call bare).result = .ok () := by
  intro d f bare
  have htold := told_onLine h
  refine ⟨⟨(htold.afterCalls calls).muted_iff, fun call e => call_error⟩, fun capture => ?_, ?_⟩
  · obtain ⟨passed, -, hplayback⟩ :=
      FrontEnd.playback_afterCalls calls (FrontEnd.mk capture (onLine line).device)
    have hf : (f capture).playback.Told := by
      show (Codec.afterCalls calls (FrontEnd.mk capture (onLine line).device)).playback.Told
      rw [hplayback]
      exact htold.afterCalls passed
    refine ⟨hf.muted_iff, fun _ _ => FrontEnd.call_of_capture_error, fun call e herror => ?_⟩
    obtain hcapture | ⟨hdrive, hpassed⟩ := FrontEnd.call_error herror
    · exact .inl hcapture
    · have hkept := call_error hdrive
      rw [← hpassed] at hkept
      exact .inr hkept
  · have hbare : bare = ⟨none, lastAsked calls⟩ := afterCalls_withoutLine calls
    rw [hbare]
    refine ⟨rfl, fun call => ?_⟩
    rw [call_eq]
    cases call.asks? <;> rfl

/-- The third drive of this line fails. -/
def stickingLine : Bench.MuteLine where
  faults := [2]

/-- Unmuted, and then not muted again because the line sticks, directly and in a front end whose
capture side does not respond. -/
theorem mute_flag_tells_level_sticking :
    let absent : Bench.BoardCapture := ⟨{ absent := some Chip.chip0.address }⟩
    let d := Codec.afterCalls [.setMute false, .init] (onLine stickingLine).device
    let f := Codec.afterCalls [.setMute false, .init]
      (FrontEnd.mk absent (onLine stickingLine).device)
    (onLine stickingLine).result = .ok () ∧
      d.muted = false ∧ (d.muted = true ↔ d.level? = some .low) ∧
      f.playback.muted = false ∧ (f.playback.muted = true ↔ f.playback.level? = some .low) ∧
      (Codec.call .init f).result = .error .notResponding ∧
      (Codec.call .init f).device.playback = f.playback := by
  intro absent d f
  have hline : (onLine stickingLine).result = .ok () := rfl
  obtain ⟨⟨hdirect, -⟩, hinside, -⟩ :=
    mute_flag_tells_level (α := Bench.BoardCapture) hline [.setMute false, .init]
  obtain ⟨hf, hcapture, -⟩ := hinside absent
  obtain ⟨hfailed, hsame⟩ := hcapture .init .notResponding rfl (by decide +kernel)
  exact ⟨hline, rfl, hdirect, by decide +kernel, hf, hfailed, hsame⟩

end PlaybackConverter

end DuplexAudio
