/-
  Conservation of completions and of pairs.

  A completion makes a pair with another one, or repeats the one that is pending, or is given up, or
  is still pending.  A published pair is taken, or replaced by a later one, or still published:

      completions = 2 · published + given up + repeated + (1 if one is pending)
      published   = taken + replaced + (1 if a pair is published)

  The tracker counts what is given up and what is replaced in machine words, so both hold modulo the
  range of a word.

  `unpaired` and `untaken` are the part of the laws that a tracker tells by itself.  Each call
  changes them by what it contributes to the other terms (`complete_unpaired`, `complete_untaken`
  and `takePair_untaken`), and the laws of a list of calls are the sums of those (`run_balance`, by
  induction on the calls).  `calls_conserved` is the headline: from cleared counters nothing is left
  over.
-/
import DuplexAudio.Proofs.Pairing.View
import Mathlib.Algebra.Group.Nat.Defs

namespace DuplexAudio

namespace PairTracker

/-! ## What is counted -/

/-- The calls of a list, each with the tracker that it is made on. -/
def moments (t : PairTracker) : List Call → List (PairTracker × Call)
  | [] => []
  | c :: rest => (t, c) :: moments (t.respond c).2 rest

/-- Whether a call is a completion. -/
def Call.isCompletion : Call → Bool
  | complete _ _ => true
  | take | reset | clear => false

/-- Whether a call is a completion that publishes its half. -/
def publishes : PairTracker × Call → Bool
  | (t, .complete d k) => (t.complete d k).1.isSome
  | _ => false

/-- Whether a call is a completion of the direction that has completed the tracked half already. -/
def repeats : PairTracker × Call → Bool
  | (t, .complete d k) => t.tracked = some k && t.state &&& d.doneBit ≠ 0
  | _ => false

/-- Whether a call takes a published half. -/
def takes : PairTracker × Call → Bool
  | (t, .take) => t.takePair.1.isSome
  | _ => false

/-- Completions that no pair was made of: those given up, and the pending one. -/
def unpaired (t : PairTracker) : Nat := t.dropped.toNat + if t.tracked.isSome then 1 else 0

/-- Published pairs that were not taken: those replaced, and the one that is published. -/
def untaken (t : PairTracker) : Nat := t.overruns.toNat + if t.hasPair then 1 else 0

/-! ## One call -/

/-- What is pending when a completion arrives: its counterpart, the same completion, or nothing of
its half. -/
theorem pending_cases (pending : Option (Half × Direction)) (d : Direction) (k : Half) :
    pending = some (k, d.other) ∨ pending = some (k, d) ∨
      pending = none ∨ ∃ e, pending = some (k.other, e) := by
  rcases pending with _ | ⟨k', e⟩
  · simp
  · rcases Half.eq_or_eq_other k k' with rfl | rfl
    · rcases Direction.eq_or_eq_other d e with rfl | rfl <;> simp
    · exact .inr (.inr (.inr ⟨e, rfl⟩))

namespace Shows

variable {t : PairTracker} {pending : Option (Half × Direction)} {published : Option Half}

theorem unpaired_eq (h : t.Shows pending published) :
    t.unpaired = t.dropped.toNat + if pending.isSome then 1 else 0 := by
  rw [unpaired, h.tracked, Option.isSome_map]

theorem untaken_eq (h : t.Shows pending published) :
    t.untaken = t.overruns.toNat + if published.isSome then 1 else 0 := by
  rw [untaken, h.hasPair]

theorem repeats_eq (h : t.Shows pending published) (d : Direction) (k : Half) :
    repeats (t, .complete d k) = decide (pending = some (k, d)) := by
  show (decide (t.tracked = some k) && decide (t.state &&& d.doneBit ≠ 0)) = _
  rw [h.tracked, h.state]
  rcases pending with _ | ⟨k', e⟩
  · rfl
  · cases k' <;> cases e <;> cases k <;> cases d <;> decide

/-- A completion is unpaired afterwards, unless it repeats the pending one or makes a pair. -/
theorem complete_unpaired (h : t.Shows pending published) (d : Direction) (k : Half) :
    (1 + t.unpaired) % 2 ^ 32 =
      (2 * (if publishes (t, .complete d k) then 1 else 0) +
        (if repeats (t, .complete d k) then 1 else 0) + (t.complete d k).2.unpaired) % 2 ^ 32 := by
  have hd := d.other_ne
  have hk := k.other_ne
  rw [h.repeats_eq, h.unpaired_eq, publishes]
  rcases pending_cases pending d k with hp | hp | hp | ⟨e, hp⟩
  · -- the pending completion is used up
    rw [(h.complete_of_eq hp).2.unpaired_eq, h.complete_eq, hp]
    simp [hd]
    omega
  · -- nothing changes
    have hne : pending ≠ some (k, d.other) := by simp [hp, hd.symm]
    rw [(h.complete_of_ne hne).2.unpaired_eq, h.complete_eq, hp]
    simp [hd.symm, hk.symm]
  · -- it becomes the pending one
    have hne : pending ≠ some (k, d.other) := by simp [hp]
    rw [(h.complete_of_ne hne).2.unpaired_eq, h.complete_eq, hp]
    simp
    omega
  · -- it becomes the pending one, and the one before is given up
    have hne : pending ≠ some (k, d.other) := by simp [hp, hk]
    rw [(h.complete_of_ne hne).2.unpaired_eq, h.complete_eq, hp]
    simp [hk, UInt32.toNat_add]
    omega

/-- A completion adds a pair to what is untaken exactly when it publishes one. -/
theorem complete_untaken (h : t.Shows pending published) (d : Direction) (k : Half) :
    ((if publishes (t, .complete d k) then 1 else 0) + t.untaken) % 2 ^ 32 =
      (t.complete d k).2.untaken % 2 ^ 32 := by
  rw [h.untaken_eq, publishes]
  by_cases hp : pending = some (k, d.other)
  · rw [(h.complete_of_eq hp).2.untaken_eq, h.complete_eq, if_pos hp]
    cases published <;> simp [UInt32.toNat_add] <;> omega
  · rw [(h.complete_of_ne hp).2.untaken_eq, h.complete_eq, if_neg hp]
    simp

/-- A pair that is taken is untaken no more. -/
theorem takePair_untaken (h : t.Shows pending published) :
    t.untaken = (if takes (t, .take) then 1 else 0) + t.takePair.2.untaken := by
  rw [h.untaken_eq, h.takePair.untaken_eq, takes, h.takePair_eq]
  simp
  omega

/-- After every call the bytes say something. -/
theorem respond (h : t.Shows pending published) (c : Call) :
    ∃ pending' published', (t.respond c).2.Shows pending' published' := by
  cases c with
  | complete d k =>
    by_cases hp : pending = some (k, d.other)
    · exact ⟨none, some k, (h.complete_of_eq hp).2⟩
    · exact ⟨some (k, d), published, (h.complete_of_ne hp).2⟩
  | take => exact ⟨pending, none, h.takePair⟩
  | reset => exact ⟨none, none, h.reset⟩
  | clear => exact ⟨pending, published, h.clearCounters⟩

/-- **One call.**  What a completion or a take contributes to either law is what the tracker tells
more afterwards. -/
theorem respond_balance (h : t.Shows pending published) {c : Call} (hreset : c ≠ .reset)
    (hclear : c ≠ .clear) :
    ((if c.isCompletion then 1 else 0) + t.unpaired) % 2 ^ 32 =
      (2 * (if publishes (t, c) then 1 else 0) + (if repeats (t, c) then 1 else 0) +
        (t.respond c).2.unpaired) % 2 ^ 32 ∧
    ((if publishes (t, c) then 1 else 0) + t.untaken) % 2 ^ 32 =
      ((if takes (t, c) then 1 else 0) + (t.respond c).2.untaken) % 2 ^ 32 := by
  cases c with
  | complete d k =>
    have huntaken := h.complete_untaken d k
    refine ⟨h.complete_unpaired d k, ?_⟩
    show _ = ((if false then 1 else 0) + (t.complete d k).2.untaken) % 2 ^ 32
    simpa using huntaken
  | take =>
    refine ⟨?_, ?_⟩
    · show ((if false then 1 else 0) + t.unpaired) % 2 ^ 32 =
        (2 * (if false then 1 else 0) + (if false then 1 else 0) + t.unpaired) % 2 ^ 32
      simp
    · rw [h.takePair_untaken]
      show ((if false then 1 else 0) + _) % 2 ^ 32 = _
      simp
      rfl
  | reset => exact absurd rfl hreset
  | clear => exact absurd rfl hclear

end Shows

/-! ## A list of calls -/

/-- **Both laws** for a list of completions and takes on a tracker with any counters: what the list
contributes is what the tracker tells more afterwards. -/
theorem run_balance {t : PairTracker} {pending : Option (Half × Direction)}
    {published : Option Half} (h : t.Shows pending published) {calls : List Call}
    (hcalls : ∀ c ∈ calls, c ≠ .reset ∧ c ≠ .clear) :
    (calls.countP Call.isCompletion + t.unpaired) % 2 ^ 32 =
      (2 * (t.moments calls).countP publishes + (t.moments calls).countP repeats +
        (t.run calls).unpaired) % 2 ^ 32 ∧
    ((t.moments calls).countP publishes + t.untaken) % 2 ^ 32 =
      ((t.moments calls).countP takes + (t.run calls).untaken) % 2 ^ 32 := by
  induction calls generalizing t pending published with
  | nil => simp [moments, run, play]
  | cons c rest ih =>
    obtain ⟨hreset, hclear⟩ := hcalls c List.mem_cons_self
    obtain ⟨_, _, hnext⟩ := h.respond c
    obtain ⟨hpairs, htaken⟩ := h.respond_balance hreset hclear
    obtain ⟨hpairs', htaken'⟩ := ih hnext fun c' hc' => hcalls c' (List.mem_cons_of_mem c hc')
    have hrun : t.run (c :: rest) = (t.respond c).2.run rest := rfl
    rw [hrun, moments]
    simp only [List.countP_cons]
    constructor <;> omega

/-! ## The headline -/

/-- **Nothing is lost unnoticed.**  After any completions and takes on a tracker that was reset, with
its counters cleared, and modulo the range of a word:
(1) the completions are twice the published pairs, those given up, those that repeated the pending
    one, and the pending one if there is one;
(2) the published pairs are those taken, those replaced, and the one that is published if there is
    one. -/
theorem calls_conserved (t : PairTracker) {calls : List Call}
    (hcalls : ∀ c ∈ calls, c ≠ .reset ∧ c ≠ .clear) :
    let start := t.reset.clearCounters
    let last := start.run calls
    calls.countP Call.isCompletion % 2 ^ 32 =
      (2 * (start.moments calls).countP publishes + last.dropped.toNat +
        (start.moments calls).countP repeats + if last.tracked.isSome then 1 else 0) % 2 ^ 32 ∧
    (start.moments calls).countP publishes % 2 ^ 32 =
      ((start.moments calls).countP takes + last.overruns.toNat +
        if last.hasPair then 1 else 0) % 2 ^ 32 := by
  intro start last
  obtain ⟨hpairs, htaken⟩ := run_balance shows_new hcalls
  have hstart : start = {} := rfl
  have hunpaired : unpaired {} = 0 := rfl
  have huntaken : untaken {} = 0 := rfl
  rw [hunpaired] at hpairs
  rw [huntaken] at htaken
  have hlast : last = run {} calls := rfl
  rw [hlast, hstart]
  unfold unpaired at hpairs
  unfold untaken at htaken
  constructor <;> omega

/-- Calls in which everything occurs: a repeated completion, a pair that is replaced and one that is
taken, a completion that is given up and one that stays pending. -/
def eventful : List Call :=
  [.complete .rx .first, .complete .rx .first, .complete .tx .first, .complete .tx .second,
    .complete .rx .second, .take, .complete .rx .first, .complete .tx .second]

/-- Seven completions make two pairs, one is repeated, one given up and one pending; of the pairs one
is taken and one replaced. -/
theorem calls_conserved_eventful :
    (∀ c ∈ eventful, c ≠ .reset ∧ c ≠ .clear) ∧
      eventful.countP Call.isCompletion = 7 ∧ (run {} eventful).dropped = 1 ∧
      (run {} eventful).overruns = 1 ∧
      (7 % 2 ^ 32 =
        (2 * (moments {} eventful).countP publishes + 1 + (moments {} eventful).countP repeats +
          if (run {} eventful).tracked.isSome then 1 else 0) % 2 ^ 32 ∧
      (moments {} eventful).countP publishes % 2 ^ 32 =
        ((moments {} eventful).countP takes + 1 +
          if (run {} eventful).hasPair then 1 else 0) % 2 ^ 32) := by
  have hcalls : ∀ c ∈ eventful, c ≠ .reset ∧ c ≠ .clear := by decide
  exact ⟨hcalls, by decide, by decide, by decide, calls_conserved {} hcalls⟩

end PairTracker

end DuplexAudio
