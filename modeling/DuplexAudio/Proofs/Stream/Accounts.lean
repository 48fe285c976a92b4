/-
  Every published pair is accounted for, and none is run twice.

  Pairs are published by interrupts and taken by calls.  A call that takes a pair begins a block
  over it, unless a fault is latched or another block is in progress, and the block may be completed
  or unwind.  Nothing waits for a block: interrupts may arrive while it is underway, and so may
  further calls, from the processor itself for example.

  `Service` is a stream that is used in this way, with the block that is underway and notes of what
  became of the pairs.  A call whose block goes right on to its end is `runPair` (`call_finish`).

  **The invariant** is `Accounted`:

  - the published pairs are, modulo the range of a word, those completed and those replaced, which
    the stream counts, those that were taken but not completed, the one that is published, and the
    one whose block is underway;
  - what is published is the half that was announced last, and no call has taken a pair since
    (`Fresh`); a block that is underway, or completed, was begun over such a half (`Serving`).

  Each kind of step keeps it: an interrupt publishes a pair or none (`interrupt`), a call takes what
  is published (`call`), a block ends (`finish`), and everything else leaves the pairs alone
  (`of_quiet`).  `pairs_accounted` is the headline.
-/
import DuplexAudio.Bench.Instruments
import DuplexAudio.Proofs.Pairing.Conservation
import DuplexAudio.Proofs.Stream.Run

namespace DuplexAudio

namespace Stream

/-! ## Serving pairs -/

/-- A block that was begun over a pair, and what it will be processed with. -/
structure Underway (π η : Type) where
  block : OpenBlock
  processor : π
  bay : CartridgeBay η

/-- Something that became of a pair, and the half that the pair is about. -/
inductive Note where
  /-- An interrupt published it. -/
  | ready (half : Half)
  /-- A call took it, and began a block over it. -/
  | begun (half : Half)
  /-- A call took it, but could not begin a block. -/
  | refused (half : Half)
  | completed (half : Half)
  /-- The processor unwound. -/
  | unwound (half : Half)
  deriving DecidableEq, Repr

namespace Note

def isReady : Note → Bool
  | ready _ => true
  | _ => false

/-- Whether a call took a pair. -/
def isTake : Note → Bool
  | begun _ | refused _ => true
  | _ => false

/-- Whether a block was begun or ended. -/
def isBlock : Note → Bool
  | begun _ | completed _ | unwound _ => true
  | _ => false

/-- Whether a pair that was taken will never be completed. -/
def isFailure : Note → Bool
  | refused _ | unwound _ => true
  | _ => false

/-- What the answer to an interrupt leaves in the notes. -/
def ofOutcome : InterruptOutcome → List Note
  | .pairReady half => [ready half]
  | .idle | .fault _ => []

/-- What a call for a pair leaves in the notes once its block has ended. -/
def ofCall : Option Half → BlockEnding → List Note
  | none, _ => []
  | some half, .refused => [refused half]
  | some half, .completed => [begun half, completed half]
  | some half, .unwound => [begun half, unwound half]

end Note

/-- A stream whose pairs are served. -/
structure Service (π η : Type) where
  stream : Stream := {}
  underway : Option (Underway π η) := none
  /-- What became of the pairs so far, oldest first. -/
  notes : List Note := []

namespace Service

/-- One thing that may happen to a stream whose pairs are served. -/
inductive Step (π η : Type) where
  /-- The stream starts or stops to listen to interrupts. -/
  | arm (on : Bool)
  | interrupt (event : Interrupt)
  | mix (f : MixSettings → MixSettings)
  /-- The receive channel stores a captured block. -/
  | capture (half : Half) (block : CaptureBlock)
  /-- The published pair, if there is one, is taken to be run. -/
  | call (processor : π) (bay : CartridgeBay η)
  /-- The block that is underway goes on to its end. -/
  | finish

variable {π η : Type}

/-- An interrupt arrives. -/
def interrupt (s : Service π η) (event : Interrupt) : Service π η :=
  let (outcome, stream) := s.stream.onInterrupt event
  { s with stream, notes := s.notes ++ Note.ofOutcome outcome }

section Run

variable [Processor π] [CartridgeHook η]

/-- Takes the published pair, if there is one, and begins a block over it. -/
def call (s : Service π η) (p : π) (bay : CartridgeBay η) : Service π η :=
  match s.stream.takePair with
  | (none, stream) => { s with stream }
  | (some half, stream) =>
    if stream.accepts then
      let (stream, bay, block, _) := stream.beginBlock half bay
      { stream, underway := some ⟨block, p, bay⟩, notes := s.notes ++ [.begun half] }
    else { s with stream, notes := s.notes ++ [.refused half] }

/-- Takes the block that is underway to its end. -/
def finish (s : Service π η) : Service π η :=
  match s.underway with
  | none => s
  | some ⟨block, p, bay⟩ =>
    let r := s.stream.finishBlock block p bay
    let note := if r.ending = .completed then Note.completed block.half else .unwound block.half
    { stream := r.stream, notes := s.notes ++ [note] }

def after (s : Service π η) : Step π η → Service π η
  | .arm on => { s with stream := s.stream.setArmed on }
  | .interrupt event => s.interrupt event
  | .mix f => { s with stream := s.stream.mapSettings f }
  | .capture half block =>
    { s with stream := { s.stream with buffers := s.stream.buffers.writeCapture half block } }
  | .call p bay => s.call p bay
  | .finish => s.finish

/-- The service after a list of steps. -/
def run (s : Service π η) (steps : List (Step π η)) : Service π η := steps.foldl after s

/-- **A call outside a block**, followed by the end of its block, is `runPair`. -/
theorem call_finish {s : Service π η} (h : s.underway = none) (p : π) (bay : CartridgeBay η) :
    (s.call p bay).finish =
        { stream := (s.stream.runPair p bay).2.stream
          notes := s.notes ++ Note.ofCall s.stream.published (s.stream.runPair p bay).2.ending } ∧
      (s.stream.runPair p bay).1 =
        if (s.stream.runPair p bay).2.ending = .completed then s.stream.published else none := by
  obtain ⟨stream, underway, notes⟩ := s
  subst h
  cases htake : stream.takePair with
  | mk taken rest =>
    have hpublished : stream.published = taken := congrArg Prod.fst htake
    cases taken with
    | none => simp [call, finish, runPair, htake, hpublished, Note.ofCall]
    | some half =>
      by_cases haccepts : rest.accepts = true
      · have hending := finishBlock_ending (s := rest.occupy) rfl ⟨half, rest.settings⟩ p
          (bay.pulled framesPerBlock)
        rcases hending with ⟨hending, -⟩ | ⟨hending, -⟩ <;>
          simp [call, finish, runPair, runBlock, beginBlock, htake, haccepts, hpublished,
            Note.ofCall, hending]
      · simp [call, finish, runPair, runBlock, htake, haccepts, hpublished, Note.ofCall]

/-- **A call that cannot begin a block** is `runPair`. -/
theorem call_of_not_accepts {s : Service π η} (h : s.stream.accepts = false) (p : π)
    (bay : CartridgeBay η) :
    s.call p bay =
        { s with
          stream := (s.stream.runPair p bay).2.stream
          notes := s.notes ++ Note.ofCall s.stream.published .refused } ∧
      (s.stream.runPair p bay).1 = none := by
  obtain ⟨stream, underway, notes⟩ := s
  have hrest : stream.takePair.2.accepts = false := h
  cases htake : stream.takePair with
  | mk taken rest =>
    have hpublished : stream.published = taken := congrArg Prod.fst htake
    rw [htake] at hrest
    cases taken with
    | none => simp [call, runPair, htake, hpublished, Note.ofCall]
    | some half =>
      simp [call, runPair, runBlock_of_not_accepts hrest, htake, hrest, hpublished, Note.ofCall]

end Run

/-! ## What the notes say about a half -/

/-- The half was announced, and since then no other was and no pair was taken. -/
def Fresh (notes : List Note) (half : Half) : Prop :=
  ∃ earlier since, notes = earlier ++ .ready half :: since ∧
    ∀ n ∈ since, n.isReady = false ∧ n.isTake = false

/-- The last block was begun over the half, which was fresh then, and has not ended. -/
def Serving (notes : List Note) (half : Half) : Prop :=
  ∃ before within, notes = before ++ .begun half :: within ∧ Fresh before half ∧
    ∀ n ∈ within, n.isBlock = false

/-- Every block that was completed was being served until then. -/
def Vouched (notes : List Note) : Prop :=
  ∀ before half, before ++ [.completed half] <+: notes → Serving before half

section Notes

variable {notes : List Note} {half : Half} {n : Note}

theorem fresh_ready (notes : List Note) (half : Half) : Fresh (notes ++ [.ready half]) half :=
  ⟨notes, [], rfl, by simp⟩

theorem Fresh.concat (h : Fresh notes half) (hready : n.isReady = false)
    (htake : n.isTake = false) : Fresh (notes ++ [n]) half := by
  obtain ⟨earlier, since, rfl, hsince⟩ := h
  refine ⟨earlier, since ++ [n], by simp, ?_⟩
  intro m hm
  rcases List.mem_append.mp hm with hm | hm
  · exact hsince m hm
  · rw [List.mem_singleton.mp hm]
    exact ⟨hready, htake⟩

theorem Fresh.begun (h : Fresh notes half) : Serving (notes ++ [.begun half]) half :=
  ⟨notes, [], rfl, h, by simp⟩

theorem Serving.concat (h : Serving notes half) (hn : n.isBlock = false) :
    Serving (notes ++ [n]) half := by
  obtain ⟨before, within, rfl, hfresh, hwithin⟩ := h
  refine ⟨before, within ++ [n], by simp, hfresh, ?_⟩
  intro m hm
  rcases List.mem_append.mp hm with hm | hm
  · exact hwithin m hm
  · rw [List.mem_singleton.mp hm]
    exact hn

theorem vouched_nil : Vouched [] := by
  intro before half h
  simp at h

/-- Only the end of a block has to be vouched for. -/
theorem Vouched.concat (h : Vouched notes)
    (hn : ∀ half, n = .completed half → Serving notes half) : Vouched (notes ++ [n]) := by
  intro before half hprefix
  rcases List.prefix_concat_iff.mp hprefix with hlast | hearlier
  · obtain ⟨rfl, hn'⟩ := List.append_inj' hlast rfl
    exact hn half (List.singleton_inj.mp hn').symm
  · exact h before half hearlier

end Notes

/-! ## The invariant -/

/-- Every pair that was published so far is accounted for. -/
structure Accounted (s : Service π η) : Prop where
  shows : ∃ pending published, s.stream.pairs.Shows pending published
  occupied : s.underway.isSome → s.stream.occupied = true
  balance : s.notes.countP Note.isReady % 2 ^ 32 =
    (s.stream.processed.toNat + s.stream.pairs.untaken + s.notes.countP Note.isFailure +
      if s.underway.isSome then 1 else 0) % 2 ^ 32
  fresh : ∀ half, s.stream.published = some half → Fresh s.notes half
  serving : ∀ u, s.underway = some u → Serving s.notes u.block.half
  vouched : Vouched s.notes

namespace Accounted

variable {s : Service π η} {stream : Stream}

/-- What leaves the pairs, the count of blocks and the block in progress alone. -/
theorem of_quiet (h : s.Accounted) (hpairs : stream.pairs = s.stream.pairs)
    (hprocessed : stream.processed = s.stream.processed)
    (hoccupied : stream.occupied = s.stream.occupied) : Accounted { s with stream } where
  shows := by simpa only [hpairs] using h.shows
  occupied := by simpa only [hoccupied] using h.occupied
  balance := by simpa only [hpairs, hprocessed] using h.balance
  fresh := by
    have hpublished : stream.published = s.stream.published :=
      published_of_ready (congrArg PairTracker.ready hpairs)
    simpa only [hpublished] using h.fresh
  serving := h.serving
  vouched := h.vouched

/-- A completion publishes a pair, or leaves what is published as it is. -/
theorem complete (h : s.Accounted) {d : Direction} {k : Half} {ready : Option Half}
    {pairs : PairTracker} (hcomplete : (ready, pairs) = s.stream.pairs.complete d k) :
    Accounted { s with
      stream := { s.stream with pairs }
      notes := s.notes ++ (ready.map Note.ready).toList } := by
  obtain ⟨pending, published, hshows⟩ := h.shows
  have hbalance := h.balance
  have hnext := hshows.respond (.complete d k)
  have huntaken := hshows.complete_untaken d k
  have hready := s.stream.pairs.complete_ready d k
  simp only [PairTracker.respond, PairTracker.publishes, ← hcomplete] at hnext huntaken hready
  rcases hready with ⟨rfl, hcode⟩ | ⟨rfl, hsame⟩
  · have hpublished : Half.ofCode? pairs.ready = some k := by rw [hcode, Half.ofCode?_code]
    refine ⟨hnext, h.occupied, ?_, ?_, ?_, ?_⟩
    · simp [Note.isReady, Note.isFailure] at huntaken ⊢
      omega
    · intro half hhalf
      cases hpublished.symm.trans hhalf
      exact fresh_ready s.notes k
    · intro u hu
      exact (h.serving u hu).concat rfl
    · exact h.vouched.concat fun half => Note.noConfusion
  · have hpublished : Half.ofCode? pairs.ready = s.stream.published := congrArg Half.ofCode? hsame
    simp at huntaken ⊢
    refine ⟨hnext, h.occupied, ?_, ?_, h.serving, h.vouched⟩
    · dsimp only
      omega
    · intro half hhalf
      exact h.fresh half (hpublished.symm.trans hhalf)

/-- **An interrupt** is a completion, or leaves the pairs alone. -/
theorem interrupt (h : s.Accounted) (event : Interrupt) : (s.interrupt event).Accounted := by
  have hquiet {stream : Stream} (hpairs : stream.pairs = s.stream.pairs)
      (hprocessed : stream.processed = s.stream.processed)
      (hoccupied : stream.occupied = s.stream.occupied) :
      Accounted { s with stream, notes := s.notes ++ [] } := by
    rw [List.append_nil]
    exact h.of_quiet hpairs hprocessed hoccupied
  unfold Service.interrupt
  rcases s.stream.onInterrupt_cases event with
    ⟨-, hout⟩ | ⟨error, -, -, hout⟩ | ⟨error, -, -, hout⟩ | ⟨ready, pairs, -, -, hpairs, hout⟩
  · rw [hout]
    exact hquiet rfl rfl rfl
  · rw [hout]
    exact hquiet rfl rfl rfl
  · rw [hout]
    exact hquiet rfl rfl rfl
  · rw [hout]
    rcases hpairs with hsame | ⟨half, hcomplete⟩
    · obtain ⟨rfl, rfl⟩ := Prod.mk.inj hsame
      exact hquiet rfl rfl rfl
    · cases ready with
      | none => exact h.complete hcomplete
      | some ready => exact h.complete hcomplete

/-- What a take leaves: nothing is published any more, and a pair that was is no longer untaken. -/
theorem take (h : s.Accounted) :
    (∃ pending published, s.stream.takePair.2.pairs.Shows pending published) ∧
      s.stream.pairs.untaken =
        (if s.stream.published.isSome then 1 else 0) + s.stream.takePair.2.pairs.untaken ∧
      s.stream.takePair.2.processed = s.stream.processed ∧
      ∀ half, s.stream.takePair.2.published ≠ some half := by
  obtain ⟨pending, published, hshows⟩ := h.shows
  have hnone : s.stream.takePair.2.published = none := rfl
  refine ⟨hshows.respond .take, hshows.takePair_untaken, rfl, ?_⟩
  intro half hhalf
  exact absurd (hnone.symm.trans hhalf) (Option.some_ne_none half).symm

/-- There was nothing to take. -/
theorem takeNothing (h : s.Accounted) (hnothing : s.stream.published = none) :
    Accounted { s with stream := s.stream.takePair.2 } := by
  obtain ⟨hnext, huntaken, hprocessed, hnone⟩ := h.take
  have hbalance := h.balance
  refine ⟨hnext, h.occupied, ?_, fun half hhalf => absurd hhalf (hnone half), h.serving, h.vouched⟩
  simp [hnothing, hprocessed] at huntaken ⊢
  omega

/-- The pair is taken, but no block is begun. -/
theorem refuse (h : s.Accounted) {half : Half} (hhalf : s.stream.published = some half) :
    Accounted { s with
      stream := s.stream.takePair.2, notes := s.notes ++ [.refused half] } := by
  obtain ⟨hnext, huntaken, hprocessed, hnone⟩ := h.take
  have hbalance := h.balance
  refine ⟨hnext, h.occupied, ?_, fun half hhalf => absurd hhalf (hnone half), ?_, ?_⟩
  · simp [hhalf, hprocessed, Note.isReady, Note.isFailure] at huntaken ⊢
    omega
  · intro u hu
    exact (h.serving u hu).concat rfl
  · exact h.vouched.concat fun half => Note.noConfusion

/-- The pair is taken, and a block is begun over it on a stream that is free. -/
theorem beginBlock (h : s.Accounted) {u : Underway π η}
    (hhalf : s.stream.published = some u.block.half) (hfree : s.stream.occupied = false) :
    Accounted {
      stream := s.stream.takePair.2.occupy
      underway := some u
      notes := s.notes ++ [.begun u.block.half] } := by
  obtain ⟨hnext, huntaken, hprocessed, hnone⟩ := h.take
  have hbalance := h.balance
  have hidle : s.underway.isSome = false :=
    Bool.eq_false_iff.mpr fun hsome => Bool.false_ne_true (hfree.symm.trans (h.occupied hsome))
  refine ⟨hnext, fun _ => rfl, ?_, fun half hhalf => absurd hhalf (hnone half), ?_, ?_⟩
  · simp [hhalf, hprocessed, hidle, occupy, Note.isReady, Note.isFailure] at huntaken hbalance ⊢
    omega
  · intro u' hu
    cases hu
    exact (h.fresh u.block.half hhalf).begun
  · exact h.vouched.concat fun half => Note.noConfusion

variable [CartridgeHook η]

/-- **A call** takes the published pair, if there is one, and either begins a block over it or is
refused. -/
theorem call (h : s.Accounted) (p : π) (bay : CartridgeBay η) : (s.call p bay).Accounted := by
  unfold Service.call
  split
  · next stream htake =>
    obtain rfl : s.stream.takePair.2 = stream := congrArg Prod.snd htake
    exact h.takeNothing (congrArg Prod.fst htake)
  · next half stream htake =>
    obtain rfl : s.stream.takePair.2 = stream := congrArg Prod.snd htake
    have hhalf : s.stream.published = some half := congrArg Prod.fst htake
    split
    · next haccepts =>
      have hfree : s.stream.takePair.2.occupied = false := by
        simp [accepts] at haccepts
        exact haccepts.2
      exact h.beginBlock hhalf hfree
    · exact h.refuse hhalf

omit [CartridgeHook η] in
/-- The block that was underway has ended: it is counted, or will never be completed. -/
theorem of_ended (h : s.Accounted) {u : Underway π η} (hunderway : s.underway = some u)
    (hpairs : stream.pairs = s.stream.pairs) {n : Note} (hready : n.isReady = false)
    (htake : n.isTake = false) (hhalf : ∀ half, n = .completed half → half = u.block.half)
    (hcount : (stream.processed.toNat + if n.isFailure then 1 else 0) % 2 ^ 32 =
      (s.stream.processed.toNat + 1) % 2 ^ 32) :
    Accounted ({ stream, notes := s.notes ++ [n] } : Service π η) := by
  have hbalance := h.balance
  refine ⟨?_, ?_, ?_, ?_, ?_, ?_⟩
  · rw [hpairs]
    exact h.shows
  · intro hnone
    exact absurd hnone Bool.false_ne_true
  · simp [hpairs, hready, hunderway, List.countP_singleton] at hbalance hcount ⊢
    omega
  · intro half hsome
    have hpublished : stream.published = s.stream.published :=
      published_of_ready (congrArg PairTracker.ready hpairs)
    exact (h.fresh half (hpublished.symm.trans hsome)).concat hready htake
  · intro u' hu'
    exact absurd hu'.symm (Option.some_ne_none u')
  · refine h.vouched.concat fun half hn => ?_
    rw [hhalf half hn]
    exact h.serving u hunderway

variable [Processor π]

/-- **The end of a block.** -/
theorem finish (h : s.Accounted) : s.finish.Accounted := by
  unfold Service.finish
  split
  · exact h
  · next block p bay hunderway =>
    have hoccupied := h.occupied (by rw [hunderway]; rfl)
    have hpairs := (finishBlock_frame s.stream block p bay).pairs
    dsimp only
    rcases finishBlock_ending hoccupied block p bay with
      ⟨hending, hprocessed⟩ | ⟨hending, hprocessed⟩
    · rw [if_pos hending]
      refine h.of_ended hunderway hpairs rfl rfl (fun half hhalf => ?_) ?_
      · cases hhalf
        rfl
      · simp [hprocessed, Note.isFailure, UInt32.toNat_add]
    · rw [if_neg (by simp [hending])]
      refine h.of_ended hunderway hpairs rfl rfl (fun half => Note.noConfusion) ?_
      rw [hprocessed]
      rfl

/-- **One step.** -/
theorem after (h : s.Accounted) (step : Step π η) : (s.after step).Accounted := by
  cases step with
  | arm on => exact h.of_quiet rfl rfl rfl
  | interrupt event => exact h.interrupt event
  | mix f => exact h.of_quiet rfl rfl rfl
  | capture half block => exact h.of_quiet rfl rfl rfl
  | call p bay => exact h.call p bay
  | finish => exact h.finish

/-- **Every list of steps.**  Induction on the list. -/
theorem run (h : s.Accounted) (steps : List (Step π η)) : (s.run steps).Accounted := by
  induction steps generalizing s with
  | nil => exact h
  | cons step rest ih => exact ih (h.after step)

end Accounted

theorem accounted_start (s : Stream) :
    Accounted ({ stream := s.reset.clearCounters } : Service π η) where
  shows := ⟨none, none, rfl, rfl⟩
  occupied h := absurd h Bool.false_ne_true
  balance := rfl
  fresh half h := absurd h.symm (Option.some_ne_none half)
  serving u h := absurd h.symm (Option.some_ne_none u)
  vouched := vouched_nil

end Service

/-! ## The headline -/

/-- **Every pair is accounted for, and none is run twice.**  After any steps on a stream that was
reset, with its counters cleared:
(1) modulo the range of a word, the pairs that interrupts have published are the blocks counted, the
    pairs replaced, the one that is published if there is one, those that were taken but not
    completed, and the one whose block is underway if there is one;
(2) a block is completed over the half that it was begun over; when it was begun, that half was the
    one published last, and no call had taken a pair since;
(3) a call outside a block, whose block goes right on to its end, is `runPair`; it answers the half
    exactly if the block is completed;
(4) a call inside a block is `runPair` too; it takes what is published and answers nothing. -/
theorem pairs_accounted {π η : Type} [Processor π] [CartridgeHook η] (s : Stream)
    (steps : List (Service.Step π η)) :
    let last := Service.run { stream := s.reset.clearCounters } steps
    last.notes.countP Note.isReady % 2 ^ 32 =
      (last.stream.counters.processed.toNat + last.stream.counters.overruns.toNat +
        (if last.stream.pairs.hasPair then 1 else 0) + last.notes.countP Note.isFailure +
        if last.underway.isSome then 1 else 0) % 2 ^ 32 ∧
    (∀ before half, before ++ [.completed half] <+: last.notes →
      ∃ earlier since within, before = earlier ++ .ready half :: since ++ .begun half :: within ∧
        (∀ n ∈ since, n.isReady = false ∧ n.isTake = false) ∧
        ∀ n ∈ within, n.isBlock = false) ∧
    (last.underway = none → ∀ (p : π) (bay : CartridgeBay η),
      let r := last.stream.runPair p bay
      (last.call p bay).finish =
          { stream := r.2.stream
            notes := last.notes ++ Note.ofCall last.stream.published r.2.ending } ∧
        r.1 = if r.2.ending = .completed then last.stream.published else none) ∧
    (last.underway ≠ none → ∀ (p : π) (bay : CartridgeBay η),
      last.call p bay =
          { last with
            stream := (last.stream.runPair p bay).2.stream
            notes := last.notes ++ Note.ofCall last.stream.published .refused } ∧
        (last.stream.runPair p bay).1 = none) := by
  intro last
  have h : last.Accounted := (Service.accounted_start s).run steps
  refine ⟨?_, ?_, ?_, ?_⟩
  · have hbalance := h.balance
    unfold PairTracker.untaken at hbalance
    show _ = (last.stream.processed.toNat + last.stream.pairs.overruns.toNat + _ + _ + _) % 2 ^ 32
    omega
  · intro before half hprefix
    obtain ⟨_, within, rfl, ⟨earlier, since, rfl, hsince⟩, hwithin⟩ := h.vouched before half hprefix
    exact ⟨earlier, since, within, rfl, hsince, hwithin⟩
  · intro hidle p bay
    exact Service.call_finish hidle p bay
  · intro hunderway p bay
    have hoccupied := h.occupied (Option.isSome_iff_ne_none.mpr hunderway)
    exact Service.call_of_not_accepts (by simp [accepts, hoccupied]) p bay

/-- Both completions of a half. -/
def burst (half : Half) : List (Service.Step Bench.Instrument Bench.Hook) :=
  [.interrupt ⟨.rx, .completing half⟩, .interrupt ⟨.tx, .completing half⟩]

-- of five pairs one is replaced, one completed, one taken inside a block, one unwound, and one left
example :
    (Service.run {} (.arm true :: burst .first ++ burst .second ++ [.call .mixer {}] ++
      burst .first ++ [.call .mixer {}, .finish] ++ burst .second ++
      [.call .unwinding {}, .finish] ++ burst .first)).notes =
    [.ready .first, .ready .second, .begun .second, .ready .first, .refused .first,
      .completed .second, .ready .second, .begun .second, .unwound .second, .ready .first] := by
  decide +kernel

end Stream

end DuplexAudio
