/-
  Rounds that lose a completion.

  In a round both directions complete one half, in either order, unless the interrupt of one of them
  is lost; the next round is about the other half.

  **The invariant** (`Between`): between two rounds a completion is pending exactly if the last round
  lost its counterpart, and it is of the half of that round.  The first completion of the next round
  is of the other half and gives it up (`complete_of_behind`), so what a round publishes depends on
  what arrives in this round alone (`play_round`), and a lost completion costs one block.

  `losses_cost_their_round` is the headline, for every list of rounds from an idle tracker.
-/
import DuplexAudio.Proofs.Pairing.View
import Mathlib.Algebra.Group.Nat.Defs

namespace DuplexAudio

namespace PairTracker

/-! ## Rounds -/

/-- What arrives of a round. -/
inductive Round where
  /-- Both completions, that of `last` after the other. -/
  | both (last : Direction)
  /-- One completion; the other is lost. -/
  | only (direction : Direction)
  deriving DecidableEq, Repr

namespace Round

/-- Whether a completion is lost. -/
def loses : Round → Bool
  | both _ => false
  | only _ => true

/-- The completions of a round about a half, as they arrive. -/
def calls (half : Half) : Round → List Call
  | both last => [.complete last.other half, .complete last half]
  | only d => [.complete d half]

/-- The completion that a round about a half leaves pending. -/
def leaves (half : Half) : Round → Option (Half × Direction)
  | both _ => none
  | only d => some (half, d)

theorem isSome_leaves (half : Half) (r : Round) : (r.leaves half).isSome = r.loses := by
  cases r <;> rfl

/-- What a round leaves pending is behind the next round, which is about the other half. -/
theorem leaves_ne (half : Half) (r : Round) (d : Direction) :
    r.leaves half ≠ some (half.other, d) := by
  have hother := half.other_ne
  cases r <;> simp [leaves, hother.symm]

end Round

/-- The completions of a list of rounds, the first of them about `half`. -/
def schedule (half : Half) (rounds : List Round) : List Call :=
  rounds.zipIdx.flatMap fun (r, n) => r.calls (half.later n)

/-- The halves of the rounds in which both completions arrive, in order. -/
def completeHalves (half : Half) (rounds : List Round) : List Half :=
  rounds.zipIdx.filterMap fun (r, n) => if r.loses then none else some (half.later n)

theorem schedule_concat (half : Half) (rounds : List Round) (r : Round) :
    schedule half (rounds ++ [r]) = schedule half rounds ++ r.calls (half.later rounds.length) := by
  simp [schedule, List.zipIdx_append]

theorem completeHalves_concat (half : Half) (rounds : List Round) (r : Round) :
    completeHalves half (rounds ++ [r]) =
      completeHalves half rounds ++ if r.loses then [] else [half.later rounds.length] := by
  cases h : r.loses <;> simp [completeHalves, List.zipIdx_append, h]

/-- The halves that a list of calls publishes, in order. -/
def publications (t : PairTracker) (calls : List Call) : List Half :=
  (play respond t calls).1.filterMap id

theorem publications_cons (t : PairTracker) (c : Call) (rest : List Call) :
    t.publications (c :: rest) = (t.respond c).1.toList ++ (t.respond c).2.publications rest := by
  show ((t.respond c).1 :: (play respond (t.respond c).2 rest).1).filterMap id = _
  cases (t.respond c).1 <;> rfl

theorem publications_append (t : PairTracker) (before after : List Call) :
    t.publications (before ++ after) =
      t.publications before ++ (t.run before).publications after := by
  induction before generalizing t with
  | nil => rfl
  | cons c rest ih =>
    rw [List.cons_append, publications_cons, publications_cons, ih, List.append_assoc]
    rfl

/-! ## One round -/

section

variable {t : PairTracker} {pending : Option (Half × Direction)} {half : Half}

/-- With nothing pending of its half, a completion becomes the pending one, and what was pending is
given up. -/
theorem complete_of_behind (h : t.state = stateOf pending)
    (hbehind : ∀ d, pending ≠ some (half, d)) (d : Direction) :
    t.complete d half = (none, { t with
      state := stateOf (some (half, d))
      dropped := if pending.isSome then t.dropped + 1 else t.dropped }) := by
  rw [complete_of_state h, if_neg (hbehind d.other)]
  rcases pending with _ | ⟨k, e⟩
  · rfl
  · rcases Half.eq_or_eq_other half k with rfl | rfl
    · exact absurd rfl (hbehind e)
    · simp

/-- **One round**, with nothing pending of its half: it publishes its half if both completions
arrive, and what was pending before it is given up. -/
theorem play_round (h : t.state = stateOf pending) (hbehind : ∀ d, pending ≠ some (half, d))
    (r : Round) :
    t.publications (r.calls half) = (if r.loses then [] else [half]) ∧
      (t.run (r.calls half)).state = stateOf (r.leaves half) ∧
      (t.run (r.calls half)).dropped = if pending.isSome then t.dropped + 1 else t.dropped := by
  cases r with
  | both last =>
    have hfirst := complete_of_behind h hbehind last.other
    -- the second completion finds its counterpart
    have hpending : (t.complete last.other half).2.state = stateOf (some (half, last.other)) := by
      rw [hfirst]
    have hsecond := complete_of_state hpending last half
    rw [if_pos rfl] at hsecond
    refine ⟨?_, ?_, ?_⟩
    · show t.publications [.complete last.other half, .complete last half] = [half]
      rw [publications_cons, publications_cons]
      show (t.complete last.other half).1.toList ++
        (((t.complete last.other half).2.complete last half).1.toList ++ []) = [half]
      rw [hsecond, hfirst]
      rfl
    · show ((t.complete last.other half).2.complete last half).2.state = 0
      rw [hsecond]
      rfl
    · show ((t.complete last.other half).2.complete last half).2.dropped = _
      rw [hsecond, hfirst]
      rfl
  | only d =>
    have hfirst := complete_of_behind h hbehind d
    refine ⟨?_, ?_, ?_⟩
    · show t.publications [.complete d half] = []
      rw [publications_cons]
      show (t.complete d half).1.toList ++ [] = []
      rw [hfirst]
      rfl
    · show (t.complete d half).2.state = stateOf (some (half, d))
      rw [hfirst]
    · show (t.complete d half).2.dropped = _
      rw [hfirst]

end

/-! ## All rounds -/

/-- The rounds that lose a completion are those before the last one, and perhaps the last one. -/
theorem countP_loses (rounds : List Round) :
    rounds.countP Round.loses = rounds.dropLast.countP Round.loses +
      if (rounds.getLast?.map Round.loses).getD false then 1 else 0 := by
  rcases List.eq_nil_or_concat rounds with rfl | ⟨earlier, last, rfl⟩
  · rfl
  · rw [List.concat_eq_append, List.dropLast_concat, List.getLast?_concat, List.countP_append,
      List.countP_singleton]
    rfl

/-- What a tracker that was idle holds after a list of rounds. -/
structure Between (t : PairTracker) (half : Half) (rounds : List Round)
    (waiting : Option (Half × Direction)) (t' : PairTracker) : Prop where
  state : t'.state = stateOf waiting
  /-- A completion is pending if the last round lost its counterpart. -/
  isSome : waiting.isSome = (rounds.getLast?.map Round.loses).getD false
  /-- It is of another half than the next round. -/
  behind : ∀ d, waiting ≠ some (half.later rounds.length, d)
  dropped : t'.dropped.toNat =
    (t.dropped.toNat + rounds.dropLast.countP Round.loses) % 2 ^ 32

/-- **After every list of rounds.**  Induction on the rounds, the last one first to be looked at:
what the round before it left pending is given up by this one. -/
theorem between_schedule {t : PairTracker} (h : t.state = 0) (half : Half) (rounds : List Round) :
    t.publications (schedule half rounds) = completeHalves half rounds ∧
      ∃ waiting, Between t half rounds waiting (t.run (schedule half rounds)) := by
  induction rounds using List.reverseRecOn with
  | nil =>
    have hlt := t.dropped.toNat_lt
    refine ⟨rfl, none, h, rfl, fun d => (Option.some_ne_none _).symm, ?_⟩
    show t.dropped.toNat = (t.dropped.toNat + 0) % 2 ^ 32
    omega
  | append_singleton rounds r ih =>
    obtain ⟨hpublished, waiting, hbetween⟩ := ih
    obtain ⟨hround, hstate, hdropped⟩ := play_round hbetween.state hbetween.behind r
    rw [schedule_concat, completeHalves_concat, run_append]
    refine ⟨?_, r.leaves (half.later rounds.length), hstate, ?_, ?_, ?_⟩
    · rw [publications_append, hpublished, hround]
    · rw [List.getLast?_concat]
      exact r.isSome_leaves _
    · rw [List.length_append]
      exact r.leaves_ne _
    · have hbefore := hbetween.dropped
      rw [hdropped, List.dropLast_concat, countP_loses, ← hbetween.isSome]
      cases waiting.isSome <;> simp [UInt32.toNat_add] <;> omega

/-! ## The headline -/

/-- **A lost completion costs its own round and no other.**  From an idle tracker, over any rounds
with alternating halves:
(1) the published halves are those of the rounds in which both completions arrive, in order;
(2) the completions given up are counted modulo the range of a word, one for each round that lost
    its counterpart and was followed by another round;
(3) a half is tracked afterwards exactly if the last round lost a completion. -/
theorem losses_cost_their_round {t : PairTracker} (h : t.state = 0) (half : Half)
    (rounds : List Round) :
    let last := t.run (schedule half rounds)
    t.publications (schedule half rounds) = completeHalves half rounds ∧
    last.dropped.toNat = (t.dropped.toNat + rounds.dropLast.countP Round.loses) % 2 ^ 32 ∧
    (last.tracked.isSome = true ↔ ∃ d, rounds.getLast? = some (.only d)) := by
  intro last
  obtain ⟨hpublished, waiting, hbetween⟩ := between_schedule h half rounds
  refine ⟨hpublished, hbetween.dropped, ?_⟩
  rw [tracked, hbetween.state, halfOf_stateOf, Option.isSome_map, hbetween.isSome]
  rcases rounds.getLast? with _ | r
  · simp
  · cases r <;> simp [Round.loses]

/-- Two rounds in a row lose a completion, the third is whole, and the last loses one again; the
count of what was given up runs over. -/
theorem losses_cost_their_round_wrapped :
    ({ dropped := 0xffffffff } : PairTracker).state = 0 ∧
      publications { dropped := 0xffffffff }
        (schedule .second [.only .rx, .only .tx, .both .rx, .only .tx]) = [.second] ∧
      (run { dropped := 0xffffffff }
        (schedule .second [.only .rx, .only .tx, .both .rx, .only .tx])).dropped.toNat = 1 ∧
      (run { dropped := 0xffffffff }
        (schedule .second [.only .rx, .only .tx, .both .rx, .only .tx])).tracked.isSome = true := by
  obtain ⟨hpublished, hdropped, htracked⟩ :=
    @losses_cost_their_round { dropped := 0xffffffff } rfl .second
      [.only .rx, .only .tx, .both .rx, .only .tx]
  exact ⟨rfl, hpublished, hdropped, htracked.mpr ⟨.tx, rfl⟩⟩

end PairTracker

end DuplexAudio
