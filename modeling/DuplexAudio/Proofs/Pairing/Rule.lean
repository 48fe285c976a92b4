/-
  The rule of pairing, and that a tracker follows it.

  `PairRule` is the rule as one would say it: the tracked half, a flag for each direction, and the
  half that was published last.  A completion of another half forgets both flags; it sets the flag
  of its direction; once both are set the half is published and nothing is tracked.

  1. **Refinement** (`respond_follows`, then `play_related` over a list of calls): a tracker whose
     bytes say what the rule holds answers every call as the rule does, and its bytes say what the
     rule holds afterwards.

  2. **Origin** (`run_shows`): a pending completion was left by an earlier call that is still
     outstanding.  Since then the tracker saw only repetitions of that call, takes, and cleared
     counters; so no completion of the other half, no reset and no publication lie in between.

  `run_follows_rule` puts both together for every list of calls on a new tracker.
-/
import DuplexAudio.Proofs.Pairing.View

namespace DuplexAudio

open PairTracker (Call play)

/-! ## The rule -/

/-- The rule of pairing in plain values. -/
structure PairRule where
  /-- The half being tracked. -/
  tracked : Option Half := none
  /-- Whether the receive direction has completed it. -/
  rx : Bool := false
  /-- Whether the transmit direction has completed it. -/
  tx : Bool := false
  /-- The half that was published last, unless it was taken or reset since. -/
  published : Option Half := none

namespace PairRule

/-- Tracks a half, and forgets what was completed of another one. -/
def follow (r : PairRule) (half : Half) : PairRule :=
  if r.tracked = some half then r else { r with tracked := some half, rx := false, tx := false }

/-- Sets the flag of a direction. -/
def mark (r : PairRule) : Direction → PairRule
  | .rx => { r with rx := true }
  | .tx => { r with tx := true }

/-- A direction completed a half. -/
def complete (r : PairRule) (direction : Direction) (half : Half) : Option Half × PairRule :=
  let r := (r.follow half).mark direction
  if r.rx && r.tx then (some half, { published := some half }) else (none, r)

/-- The answer to a call, and the rule afterwards. -/
def respond (r : PairRule) : Call → Option Half × PairRule
  | .complete direction half => r.complete direction half
  | .take => (r.published, { r with published := none })
  | .reset => (none, {})
  | .clear => (none, r)

/-- The rule with a given completion pending and a given half published. -/
def holding : Option (Half × Direction) → Option Half → PairRule
  | none, published => { published }
  | some (half, direction), published =>
    { tracked := some half, rx := direction = .rx, tx := direction = .tx, published }

theorem tracked_holding (pending : Option (Half × Direction)) (published : Option Half) :
    (holding pending published).tracked = pending.map Prod.fst := by
  rcases pending with _ | ⟨k, e⟩ <;> rfl

/-- A completion of the direction that was waited for publishes. -/
theorem complete_holding_eq (published : Option Half) (d : Direction) (k : Half) :
    (holding (some (k, d.other)) published).complete d k = (some k, holding none (some k)) := by
  cases d <;> simp [complete, holding, follow, mark, Direction.other]

/-- Any other completion is pending afterwards. -/
theorem complete_holding_ne {pending : Option (Half × Direction)} {d : Direction} {k : Half}
    (hp : pending ≠ some (k, d.other)) (published : Option Half) :
    (holding pending published).complete d k = (none, holding (some (k, d)) published) := by
  rcases pending with _ | ⟨k', e⟩
  · cases d <;> simp [complete, holding, follow, mark]
  · by_cases hk : k' = k
    · subst hk
      -- the same half: then it is the same direction again
      rcases Direction.eq_or_eq_other d e with rfl | rfl
      · cases e <;> simp [complete, holding, follow, mark]
      · exact absurd rfl hp
    · cases d <;> simp [complete, holding, follow, mark, hk]

end PairRule

namespace PairTracker

/-! ## A tracker follows the rule -/

/-- The bytes of a tracker say what the rule holds. -/
def Follows (t : PairTracker) (r : PairRule) : Prop :=
  ∃ pending published, t.Shows pending published ∧ r = PairRule.holding pending published

/-- **One call.**  The answers agree, and the tracker still follows the rule. -/
theorem respond_follows (t : PairTracker) (r : PairRule) (c : Call) (h : t.Follows r) :
    (t.respond c).1 = (r.respond c).1 ∧ (t.respond c).2.Follows (r.respond c).2 := by
  obtain ⟨pending, published, ht, rfl⟩ := h
  cases c with
  | complete d k =>
    by_cases hp : pending = some (k, d.other)
    · obtain ⟨hanswer, hnext⟩ := ht.complete_of_eq hp
      subst hp
      show (t.complete d k).1 = ((PairRule.holding _ published).complete d k).1 ∧
        (t.complete d k).2.Follows ((PairRule.holding _ published).complete d k).2
      rw [PairRule.complete_holding_eq]
      exact ⟨hanswer, none, some k, hnext, rfl⟩
    · obtain ⟨hanswer, hnext⟩ := ht.complete_of_ne hp
      show (t.complete d k).1 = ((PairRule.holding pending published).complete d k).1 ∧
        (t.complete d k).2.Follows ((PairRule.holding pending published).complete d k).2
      rw [PairRule.complete_holding_ne hp]
      exact ⟨hanswer, some (k, d), published, hnext, rfl⟩
  | take =>
    have hanswer : t.takePair.1 = published := by rw [ht.takePair_eq]
    refine ⟨?_, pending, none, ht.takePair, ?_⟩
    · show t.takePair.1 = (PairRule.holding pending published).published
      rw [hanswer]
      rcases pending with _ | ⟨k, e⟩ <;> rfl
    · rcases pending with _ | ⟨k, e⟩ <;> rfl
  | reset => exact ⟨rfl, none, none, ht.reset, rfl⟩
  | clear => exact ⟨rfl, pending, published, ht.clearCounters, rfl⟩

/-! ## Where a pending completion comes from -/

/-- The calls leave a completion outstanding: after it there was nothing but the same completion
    again, takes, and cleared counters. -/
def Outstanding (calls : List Call) (half : Half) (direction : Direction) : Prop :=
  ∃ before between, calls = before ++ .complete direction half :: between ∧
    ∀ c ∈ between, c = .complete direction half ∨ c = .take ∨ c = .clear

theorem outstanding_complete (calls : List Call) (k : Half) (d : Direction) :
    Outstanding (calls ++ [.complete d k]) k d :=
  ⟨calls, [], rfl, fun _ hc => absurd hc List.not_mem_nil⟩

theorem Outstanding.concat {calls : List Call} {k : Half} {e : Direction}
    (h : Outstanding calls k e) {c : Call} (hc : c = .take ∨ c = .clear) :
    Outstanding (calls ++ [c]) k e := by
  obtain ⟨before, between, rfl, hbetween⟩ := h
  refine ⟨before, between ++ [c], by rw [List.append_assoc, List.cons_append], ?_⟩
  intro c' hc'
  rcases List.mem_append.mp hc' with hmem | hmem
  · exact hbetween c' hmem
  · rw [List.mem_singleton.mp hmem]
    exact Or.inr hc

/-- **After any list of calls** on a new tracker the bytes say something, and a completion that they
    say is pending is outstanding.  Induction on the calls, the last one first to be looked at. -/
theorem run_shows (calls : List Call) : ∃ pending published,
    (run {} calls).Shows pending published ∧
      ∀ k e, pending = some (k, e) → Outstanding calls k e := by
  induction calls using List.reverseRecOn with
  | nil => exact ⟨none, none, shows_new, fun _ _ h => nomatch h⟩
  | append_singleton calls c ih =>
    obtain ⟨pending, published, ht, hout⟩ := ih
    rw [run_concat]
    cases c with
    | complete d k =>
      by_cases hp : pending = some (k, d.other)
      · exact ⟨none, some k, (ht.complete_of_eq hp).2, fun _ _ h => nomatch h⟩
      · refine ⟨some (k, d), published, (ht.complete_of_ne hp).2, ?_⟩
        rintro k' e ⟨⟩
        exact outstanding_complete calls k d
    | take =>
      exact ⟨pending, none, ht.takePair, fun k e h => (hout k e h).concat (Or.inl rfl)⟩
    | reset => exact ⟨none, none, ht.reset, fun _ _ h => nomatch h⟩
    | clear =>
      exact ⟨pending, published, ht.clearCounters, fun k e h => (hout k e h).concat (Or.inr rfl)⟩

/-! ## The headline -/

/-- **A tracker follows the rule**, whatever is called on it and in whatever order:
    (1) every answer is the rule's, and so is the tracked half;
    (2) `state` is idle or holds one half with the bit of one direction, and `ready` is one of three
        values;
    (3) a completion publishes nothing or its own half, and the latter only if the completion of the
        same half by the other direction is outstanding. -/
theorem run_follows_rule (calls : List Call) :
    ((play respond {} calls).1 = (play PairRule.respond {} calls).1 ∧
      (run {} calls).tracked = (play PairRule.respond {} calls).2.tracked) ∧
    (((run {} calls).state = 0 ∨ ∃ half d, (run {} calls).state = pack half (Direction.doneBit d)) ∧
      ((run {} calls).ready = 0 ∨ (run {} calls).ready = 1 ∨ (run {} calls).ready = 0xff)) ∧
    ∀ d half, ((run {} calls).complete d half).1 = none ∨
      ((run {} calls).complete d half).1 = some half ∧
        ∃ before between, calls = before ++ .complete d.other half :: between ∧
          ∀ c ∈ between, c = .complete d.other half ∨ c = .take ∨ c = .clear := by
  refine ⟨?_, ?_, fun d half => ?_⟩
  · obtain ⟨hanswers, pending, published, ht, hr⟩ :=
      play_related respond_follows (⟨none, none, shows_new, rfl⟩ : Follows {} {}) calls
    refine ⟨hanswers, ?_⟩
    rw [hr, PairRule.tracked_holding]
    exact ht.tracked
  · obtain ⟨pending, published, ht, -⟩ := run_shows calls
    rw [ht.state, ht.ready]
    refine ⟨?_, ?_⟩
    · rcases pending with _ | ⟨k, e⟩
      · exact Or.inl rfl
      · exact Or.inr ⟨k, e, rfl⟩
    · rcases published with _ | k
      · exact Or.inr (Or.inr rfl)
      · cases k
        · exact Or.inl rfl
        · exact Or.inr (Or.inl rfl)
  · obtain ⟨pending, published, ht, hout⟩ := run_shows calls
    by_cases hp : pending = some (half, d.other)
    · exact Or.inr ⟨(ht.complete_of_eq hp).1, hout half d.other hp⟩
    · exact Or.inl (ht.complete_of_ne hp).1

/-- A completion of the other half in between makes a pair late, and a pair is taken once. -/
example :
    (play respond {} [.complete .rx .first, .complete .tx .second, .complete .tx .first,
      .complete .rx .first, .take, .take]).1 =
      [none, none, none, some .first, some .first, none] := by decide

end PairTracker

end DuplexAudio
