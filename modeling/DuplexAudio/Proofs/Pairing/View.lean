/-
  What the two bytes of a pair tracker say, and what each call on a tracker does to that.

  A tracker that was only ever changed by its own calls is in one of few states: `state` is idle or
  holds one half with the bit of exactly one direction, and `ready` holds a half or nothing.
  `Shows t pending published` says so for given values of both; everything later about trackers is
  derived from how the calls act on these values (`complete_eq`, `takePair_eq`) and never looks at
  the bytes again.  What a completion answers and leaves pending depends on `state` alone
  (`complete_of_state`).

  `Call` names the calls and `play` makes a list of them, one after the other, on any machine that
  answers calls.
-/
import DuplexAudio.Stream.PairTracker
import Mathlib.Data.List.Induction

namespace DuplexAudio

/-- The direction that a completion has to be paired with. -/
def Direction.other : Direction → Direction
  | rx => tx
  | tx => rx

theorem Direction.other_ne (d : Direction) : d.other ≠ d := by cases d <;> decide

theorem Direction.eq_or_eq_other (d e : Direction) : e = d ∨ e = d.other := by
  cases d <;> cases e <;> decide

/-- The half that is streamed `n` rounds after `h`. -/
def Half.later (h : Half) : Nat → Half
  | 0 => h
  | n + 1 => (h.later n).other

namespace PairTracker

/-! ## Calls -/

/-- A call on a tracker. -/
inductive Call where
  | complete (direction : Direction) (half : Half)
  | take
  | reset
  /-- The counters are set to zero. -/
  | clear
  deriving DecidableEq, Repr

/-- The answer to a call, and the tracker afterwards.  Only completions and takes have one. -/
def respond (t : PairTracker) : Call → Option Half × PairTracker
  | .complete direction half => t.complete direction half
  | .take => t.takePair
  | .reset => (none, t.reset)
  | .clear => (none, t.clearCounters)

/-- The answers of a machine to a list of calls, in order, and the machine afterwards. -/
def play {S : Type} (respond : S → Call → Option Half × S) (s : S) :
    List Call → List (Option Half) × S
  | [] => ([], s)
  | c :: rest =>
    let (answer, s) := respond s c
    let (answers, s) := play respond s rest
    (answer :: answers, s)

/-- The tracker after a list of calls. -/
def run (t : PairTracker) (calls : List Call) : PairTracker := (play respond t calls).2

theorem run_append (t : PairTracker) (before after : List Call) :
    t.run (before ++ after) = (t.run before).run after := by
  induction before generalizing t with
  | nil => rfl
  | cons c rest ih => exact ih (t.respond c).2

theorem run_concat (t : PairTracker) (calls : List Call) (c : Call) :
    t.run (calls ++ [c]) = ((t.run calls).respond c).2 := run_append t calls [c]

/-- **Simulation.**  Two machines that answer every call alike and stay related, answer every list
    of calls alike and stay related. -/
theorem play_related {S T : Type} {f : S → Call → Option Half × S} {g : T → Call → Option Half × T}
    {R : S → T → Prop}
    (step : ∀ s t c, R s t → (f s c).1 = (g t c).1 ∧ R (f s c).2 (g t c).2)
    {s : S} {t : T} (h : R s t) (calls : List Call) :
    (play f s calls).1 = (play g t calls).1 ∧ R (play f s calls).2 (play g t calls).2 := by
  induction calls generalizing s t with
  | nil => exact ⟨rfl, h⟩
  | cons c rest ih =>
    obtain ⟨hanswer, hnext⟩ := step s t c h
    obtain ⟨hanswers, hlast⟩ := ih hnext
    refine ⟨?_, hlast⟩
    show (f s c).1 :: (play f (f s c).2 rest).1 = (g t c).1 :: (play g (g t c).2 rest).1
    rw [hanswer, hanswers]

/-! ## What the bytes say -/

/-- The byte of a pending completion: the half, and the direction that has completed it. -/
def stateOf : Option (Half × Direction) → UInt8
  | none => 0
  | some (half, direction) => pack half direction.doneBit

/-- The byte of a published half. -/
def readyOf : Option Half → UInt8
  | none => noReady
  | some half => half.code

theorem halfOf_stateOf (pending : Option (Half × Direction)) :
    halfOf (stateOf pending) = pending.map Prod.fst := by
  rcases pending with _ | ⟨k, e⟩
  · rfl
  · cases k <;> cases e <;> rfl

/-- The completion mask holds the bit of the pending direction and nothing else. -/
theorem mask_stateOf (pending : Option (Half × Direction)) :
    stateOf pending &&& maskBits = (pending.map fun p => p.2.doneBit).getD 0 := by
  rcases pending with _ | ⟨k, e⟩
  · rfl
  · cases k <;> cases e <;> rfl

/-- **A completion.**  It publishes its half exactly when the other direction has completed the same
    half; otherwise it becomes the pending one, and what was pending of the other half is given
    up. -/
theorem complete_of_state {t : PairTracker} {pending : Option (Half × Direction)}
    (h : t.state = stateOf pending) (d : Direction) (k : Half) :
    t.complete d k =
      if pending = some (k, d.other) then (some k, { t with state := 0 }.publish k)
      else
        (none, { t with
          state := stateOf (some (k, d))
          dropped :=
            if pending.map Prod.fst = some k.other then t.dropped + 1 else t.dropped }) := by
  simp only [complete, tracked, h, halfOf_stateOf, mask_stateOf]
  rcases pending with _ | ⟨k', e⟩
  · cases k <;> cases d <;> rfl
  · cases k' <;> cases e <;> cases k <;> cases d <;> rfl

/-- The bytes of a tracker say which completion is pending and which half is published. -/
structure Shows (t : PairTracker) (pending : Option (Half × Direction)) (published : Option Half) :
    Prop where
  state : t.state = stateOf pending
  ready : t.ready = readyOf published

theorem shows_new : Shows {} none none := ⟨rfl, rfl⟩

namespace Shows

variable {t : PairTracker} {pending : Option (Half × Direction)} {published : Option Half}

theorem tracked (h : t.Shows pending published) : t.tracked = pending.map Prod.fst := by
  rw [PairTracker.tracked, h.state, halfOf_stateOf]

theorem hasPair (h : t.Shows pending published) : t.hasPair = published.isSome := by
  rw [PairTracker.hasPair, h.ready]
  rcases published with _ | k
  · rfl
  · cases k <;> rfl

/-! ## What the calls do -/

/-- A completion, with what it does to the published half written out. -/
theorem complete_eq (h : t.Shows pending published) (d : Direction) (k : Half) :
    t.complete d k =
      if pending = some (k, d.other) then
        (some k, { t with
          state := 0
          ready := k.code
          overruns := if published.isSome then t.overruns + 1 else t.overruns })
      else
        (none, { t with
          state := stateOf (some (k, d))
          dropped :=
            if pending.map Prod.fst = some k.other then t.dropped + 1 else t.dropped }) := by
  -- publishing sees the tracker in another state, but with the same published half
  have hpublish : ({ t with state := 0 } : PairTracker).publish k = { t with
      state := 0
      ready := k.code
      overruns := if published.isSome then t.overruns + 1 else t.overruns } := by
    rw [PairTracker.publish, ← h.hasPair]
    rfl
  rw [complete_of_state h.state, hpublish]

/-- A take answers the published half and leaves nothing published. -/
theorem takePair_eq (h : t.Shows pending published) :
    t.takePair = (published, { t with ready := noReady }) := by
  rw [takePair, h.ready]
  rcases published with _ | k
  · rfl
  · rw [readyOf, Half.ofCode?_code]

theorem takePair (h : t.Shows pending published) : t.takePair.2.Shows pending none :=
  ⟨h.state, rfl⟩

theorem reset (_ : t.Shows pending published) : t.reset.Shows none none := ⟨rfl, rfl⟩

theorem clearCounters (h : t.Shows pending published) : t.clearCounters.Shows pending published :=
  ⟨h.state, h.ready⟩

/-- A completion of the direction that was waited for leaves nothing pending. -/
theorem complete_of_eq (h : t.Shows pending published) {d : Direction} {k : Half}
    (hp : pending = some (k, d.other)) :
    (t.complete d k).1 = some k ∧ (t.complete d k).2.Shows none (some k) := by
  rw [h.complete_eq, if_pos hp]
  exact ⟨rfl, rfl, rfl⟩

/-- Any other completion is pending afterwards. -/
theorem complete_of_ne (h : t.Shows pending published) {d : Direction} {k : Half}
    (hp : pending ≠ some (k, d.other)) :
    (t.complete d k).1 = none ∧ (t.complete d k).2.Shows (some (k, d)) published := by
  rw [h.complete_eq, if_neg hp]
  exact ⟨rfl, rfl, h.ready⟩

end Shows

end PairTracker

end DuplexAudio
