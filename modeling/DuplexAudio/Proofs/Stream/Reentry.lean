/-
  Blocks that are refused, that are asked for inside others, or that unwind.

  Inside a block the stream is occupied.  Whatever its hooks and its processor ask for is refused
  there, so what they come to is known from them alone: `Callback.settle` and `Activity.settle`
  follow the refusals only.

  1. On an occupied stream an activity and a hook come to just that, and the stream stays as it is
     (`perform_settled`, `follow_settled`).
  2. A call for a block is refused, or unwinds in its pull hook, its processor or its push hook, or
     is completed; `CallEnd` says what each of these leaves.
  3. All of them leave a free stream free.  By induction on the uses, a stream is free between any
     two of them, so that only a latched fault refuses the next block (`uses_free`).
-/
import DuplexAudio.Bench.Instruments
import DuplexAudio.Proofs.Stream.Run
import DuplexAudio.Stream.Callback

namespace DuplexAudio

/-! ## What the refusals come to -/

/-- What an activity comes to when every block that it asks for is refused. -/
structure Activity.Settled (π : Type) where
  processor : π
  output : BlockOutput
  finished : Bool
  /-- How many blocks it asks for. -/
  asked : Nat

/-- Follows an activity through refusals. -/
def Activity.settle {π : Type} : Activity π → Activity.Settled π
  | .finish processor output => { processor, output, finished := true, asked := 0 }
  | .unwind processor output => { processor, output, finished := false, asked := 0 }
  | .nested _ _ resume =>
    let r := (resume false).settle
    { r with asked := r.asked + 1 }

/-- What a hook comes to when every block that it asks for is refused. -/
structure Callback.Settled (ρ : Type) where
  left : ρ
  returned : Bool
  /-- How many blocks it asks for. -/
  asked : Nat

/-- Follows a hook through refusals. -/
def Callback.settle {ρ : Type} : Callback ρ → Callback.Settled ρ
  | .finish left => { left, returned := true, asked := 0 }
  | .unwind left => { left, returned := false, asked := 0 }
  | .nested _ _ resume =>
    let r := (resume false).settle
    { r with asked := r.asked + 1 }

/-- Whether an event hands the output of a block on. -/
def StreamEvent.Delivers : StreamEvent → Prop
  | publish _ _ | push _ _ => True
  | store _ _ | acquire _ _ | pull _ | process _ | nested _ => False

namespace Stream

theorem accepts_of_occupied {s : Stream} (h : s.occupied = true) : s.accepts = false := by
  simp [accepts, h]

theorem accepts_iff (s : Stream) : s.accepts = true ↔ s.fault = none ∧ s.occupied = false := by
  simp [accepts]

/-- **On an occupied stream an activity is told refusals only**, and the stream stays as it is.
Induction on the activity. -/
theorem perform_settled {π : Type} (a : Activity π) {s : Stream} (h : s.occupied = true) :
    perform a s =
      { processor := a.settle.processor
        output := a.settle.output
        finished := a.settle.finished
        stream := s
        events := List.replicate a.settle.asked (.nested false) } := by
  induction a with
  | finish next output => rfl
  | unwind next output => rfl
  | nested half inner resume ihInner ihResume =>
    unfold perform
    rw [if_neg (Bool.eq_false_iff.mp (accepts_of_occupied h)), ihResume false]
    rfl

/-- **On an occupied stream a hook is told refusals only**, and the stream stays as it is.
Induction on the hook. -/
theorem follow_settled {ρ : Type} (c : Callback ρ) {s : Stream} (h : s.occupied = true) :
    follow c s =
      { left := c.settle.left
        returned := c.settle.returned
        stream := s
        events := List.replicate c.settle.asked (.nested false) } := by
  induction c with
  | finish left => rfl
  | unwind left => rfl
  | nested half inner resume ih =>
    have hasked : (request half inner).settle.finished = false := rfl
    unfold follow
    rw [perform_settled (request half inner) h]
    dsimp only
    rw [hasked, ih false]
    rfl

/-! ## Hooks inside a block -/

section Hooks

variable {η : Type} (c : Callbacks η) (bay : CartridgeBay η) {s : Stream}

theorem callPull_stream (h : s.occupied = true) : (s.callPull c bay).stream = s := by
  unfold callPull
  split
  · rfl
  · rw [follow_settled _ h]

theorem callPush_stream (h : s.occupied = true) : (s.callPush c bay).stream = s := by
  unfold callPush
  split
  · rfl
  · rw [follow_settled _ h]

/-- A pull hook is called at most once, and what it asks for is refused. -/
theorem callPull_events (h : s.occupied = true) :
    ∀ e ∈ (s.callPull c bay).events, e = .pull framesPerBlock ∨ e = .nested false := by
  intro e he
  unfold callPull at he
  split at he
  · exact absurd he List.not_mem_nil
  · rw [follow_settled _ h] at he
    rcases List.mem_cons.mp he with rfl | he
    · exact .inl rfl
    · exact .inr (List.eq_of_mem_replicate he)

/-- A push hook is called at most once, and what it asks for is refused. -/
theorem callPush_events (h : s.occupied = true) :
    ∀ e ∈ (s.callPush c bay).events,
      e = .push framesPerBlock bay.output ∨ e = .nested false := by
  intro e he
  unfold callPush at he
  split at he
  · exact absurd he List.not_mem_nil
  · rw [follow_settled _ h] at he
    rcases List.mem_cons.mp he with rfl | he
    · exact .inl rfl
    · exact .inr (List.eq_of_mem_replicate he)

/-- A pull hook has no access to the push hook. -/
theorem callPull_push : (s.callPull c bay).left.push = bay.push := by
  unfold callPull
  split <;> rfl

end Hooks

/-! ## How a call for a block ends -/

/-- A block in progress on a free stream is released as that stream. -/
theorem release_occupy {s : Stream} (h : s.occupied = false) : s.occupy.release = s := by
  unfold occupy release
  rw [← h]

theorem release_stored {s : Stream} (h : s.occupied = false) (half : Half)
    (played : PlaybackBlock) : (s.occupy.stored half played).release = s.stored half played := by
  unfold occupy release stored
  rw [← h]

theorem occupied_stored (s : Stream) (half : Half) (played : PlaybackBlock) :
    (s.stored half played).occupied = s.occupied := by
  unfold stored
  rfl

theorem processed_stored (s : Stream) (half : Half) (played : PlaybackBlock) :
    (s.stored half played).processed = s.processed := by
  unfold stored
  rfl

theorem occupied_counted (s : Stream) : s.counted.occupied = s.occupied := rfl

variable {π η : Type} [Processor π]

/-- What the processor of a block comes to. -/
def Called.settle (pulled : Called (CartridgeBay η)) (half : Half) (p : π) : Activity.Settled π :=
  (Processor.process p (pulled.shown half)).settle

/-- What the processor of a block did, up to what it stored. -/
def Called.workEvents (pulled : Called (CartridgeBay η)) (half : Half) (w : Activity.Settled π) :
    List StreamEvent :=
  .process (pulled.shown half) :: List.replicate w.asked (.nested false) ++ [.store .tx half]

omit [Processor π] in
theorem Called.workEvents_publish (pulled : Called (CartridgeBay η)) (half : Half)
    (w : Activity.Settled π) (rest : List StreamEvent) :
    .process (pulled.shown half) :: List.replicate w.asked (.nested false)
        ++ ([.store .tx half, .publish .tx half] ++ rest) =
      pulled.workEvents half w ++ .publish .tx half :: rest := by
  simp [workEvents]

/-- The bay that the push hook finds. -/
def Called.delivered (pulled : Called (CartridgeBay η)) (w : Activity.Settled π) : CartridgeBay η :=
  { pulled.left with output := w.output.cartridgeOut }

/-- The call of the push hook, if there is one. -/
def Called.pushed (pulled : Called (CartridgeBay η)) (c : Callbacks η) (half : Half)
    (w : Activity.Settled π) : Called (CartridgeBay η) :=
  (pulled.stream.stored half w.output.played).callPush c (pulled.delivered w)

/-- The ends of a call for a block, with what each of them leaves. -/
inductive CallEnd (s : Stream) (c : Callbacks η) (half : Half) (p : π) (bay : CartridgeBay η) :
    BlockRun π η → Prop where
  /-- A fault is latched or another block is in progress. -/
  | refused (haccepts : s.accepts = false) :
    CallEnd s c half p bay { stream := s, processor := p, bay, ending := .refused, events := [] }
  /-- The pull hook unwinds. -/
  | pull (haccepts : s.accepts = true) (hpull : (s.occupy.callPull c bay).returned = false) :
    CallEnd s c half p bay
      { stream := s
        processor := p
        bay := (s.occupy.callPull c bay).left
        ending := .unwound
        events := .acquire .rx half :: (s.occupy.callPull c bay).events }
  /-- The processor unwinds. -/
  | processor (haccepts : s.accepts = true) (pulled : Called (CartridgeBay η))
    (w : Activity.Settled π) (hpulled : pulled = s.occupy.callPull c bay)
    (hw : w = pulled.settle half p) (hpull : pulled.returned = true)
    (hfinish : w.finished = false) :
    CallEnd s c half p bay
      { stream := s.stored half w.output.played
        processor := w.processor
        bay := pulled.delivered w
        ending := .unwound
        events := .acquire .rx half :: pulled.events ++ pulled.workEvents half w }
  /-- The push hook unwinds. -/
  | push (haccepts : s.accepts = true) (pulled : Called (CartridgeBay η))
    (w : Activity.Settled π) (hpulled : pulled = s.occupy.callPull c bay)
    (hw : w = pulled.settle half p) (hpull : pulled.returned = true)
    (hfinish : w.finished = true) (hpush : (pulled.pushed c half w).returned = false) :
    CallEnd s c half p bay
      { stream := s.stored half w.output.played
        processor := w.processor
        bay := (pulled.pushed c half w).left
        ending := .unwound
        events := .acquire .rx half :: pulled.events
          ++ (pulled.workEvents half w ++ .publish .tx half :: (pulled.pushed c half w).events) }
  | completed (haccepts : s.accepts = true) (pulled : Called (CartridgeBay η))
    (w : Activity.Settled π) (hpulled : pulled = s.occupy.callPull c bay)
    (hw : w = pulled.settle half p) (hpull : pulled.returned = true)
    (hfinish : w.finished = true) (hpush : (pulled.pushed c half w).returned = true) :
    CallEnd s c half p bay
      { stream := (s.stored half w.output.played).counted
        processor := w.processor
        bay := (pulled.pushed c half w).left
        ending := .completed
        events := .acquire .rx half :: pulled.events
          ++ (pulled.workEvents half w ++ .publish .tx half :: (pulled.pushed c half w).events) }

/-- **Every call for a block has one of these ends.** -/
theorem callBlock_end (s : Stream) (c : Callbacks η) (half : Half) (p : π) (bay : CartridgeBay η) :
    CallEnd s c half p bay (s.callBlock c half p bay) := by
  unfold callBlock
  split
  · next haccepts =>
    obtain ⟨-, hfree⟩ := s.accepts_iff.mp haccepts
    dsimp only
    generalize hpulled : s.occupy.callPull c bay = pulled
    have hstream : pulled.stream = s.occupy := hpulled ▸ callPull_stream c bay rfl
    have hoccupied : pulled.stream.occupied = true := congrArg Stream.occupied hstream
    split
    · next hpull =>
      generalize hw : pulled.settle half p = w
      -- the processor and the push hook find the stream occupied as well
      have hwork : perform (Processor.process p (pulled.shown half)) pulled.stream =
          { processor := w.processor, output := w.output, finished := w.finished
            stream := s.occupy, events := List.replicate w.asked (.nested false) } := by
        rw [perform_settled _ hoccupied, ← hw, hstream]
        rfl
      have hpushed : (s.occupy.stored half w.output.played).callPush c
          { pulled.left with output := w.output.cartridgeOut } = pulled.pushed c half w := by
        rw [← hstream]
        rfl
      have hreleased : (pulled.pushed c half w).stream.release = s.stored half w.output.played := by
        rw [← hpushed, callPush_stream c _ (occupied_stored _ half _), release_stored hfree]
      unfold Called.conclude
      rw [hwork]
      unfold Called.deliver
      dsimp only
      cases hfinish : w.finished with
      | false =>
        rw [if_neg Bool.false_ne_true]
        dsimp only
        rw [release_stored hfree]
        exact .processor haccepts pulled w hpulled.symm hw.symm hpull hfinish
      | true =>
        rw [if_pos rfl]
        dsimp only
        rw [hpushed, hreleased]
        rw [pulled.workEvents_publish half w]
        cases hpush : (pulled.pushed c half w).returned with
        | false => exact .push haccepts pulled w hpulled.symm hw.symm hpull hfinish hpush
        | true => exact .completed haccepts pulled w hpulled.symm hw.symm hpull hfinish hpush
    · next hpull =>
      subst hpulled
      rw [hstream, release_occupy hfree]
      exact .pull haccepts (Bool.eq_false_iff.mpr hpull)
  · next haccepts => exact .refused (Bool.eq_false_iff.mpr haccepts)

/-! ## What every end has in common -/

omit [Processor π] in
/-- What the processor of a block asks for is refused, and it publishes and pushes nothing. -/
theorem Called.workEvents_cases (pulled : Called (CartridgeBay η)) (half : Half)
    (w : Activity.Settled π) :
    ∀ e ∈ pulled.workEvents half w,
      e = .process (pulled.shown half) ∨ e = .nested false ∨ e = .store .tx half := by
  intro e he
  unfold workEvents at he
  simp only [List.cons_append, List.mem_cons, List.mem_append, List.not_mem_nil, or_false] at he
  rcases he with rfl | he | rfl
  · exact .inl rfl
  · exact .inr (.inl (List.eq_of_mem_replicate he))
  · exact .inr (.inr rfl)

omit [Processor π] in
theorem Called.pushed_events {pulled : Called (CartridgeBay η)}
    (hoccupied : pulled.stream.occupied = true) (c : Callbacks η) (half : Half)
    (w : Activity.Settled π) :
    ∀ e ∈ (pulled.pushed c half w).events,
      e = .push framesPerBlock w.output.cartridgeOut ∨ e = .nested false :=
  callPush_events c (pulled.delivered w) ((occupied_stored _ half _).trans hoccupied)

namespace CallEnd

variable {s : Stream} {c : Callbacks η} {half : Half} {p : π} {bay : CartridgeBay η}
  {r : BlockRun π η}

theorem refused_iff (h : CallEnd s c half p bay r) :
    r.ending = .refused ↔ s.fault ≠ none ∨ s.occupied = true := by
  have hrefuses : s.fault ≠ none ∨ s.occupied = true ↔ s.accepts = false := by
    rw [← Bool.not_eq_true, s.accepts_iff, Classical.not_and_iff_not_or_not,
      Bool.not_eq_false]
  rw [hrefuses]
  cases h with
  | refused haccepts => exact ⟨fun _ => haccepts, fun _ => rfl⟩
  | pull haccepts | processor haccepts | push haccepts | completed haccepts =>
    rw [haccepts]
    exact ⟨BlockEnding.noConfusion, Bool.noConfusion⟩

theorem untouched (h : CallEnd s c half p bay r) (hrefused : r.ending = .refused) :
    r = { stream := s, processor := p, bay, ending := .refused, events := [] } := by
  cases h with
  | refused => rfl
  | pull | processor | push | completed => exact BlockEnding.noConfusion hrefused

theorem frame (h : CallEnd s c half p bay r) : Frame s r.stream := by
  have hstored (played : PlaybackBlock) : Frame s (s.stored half played) := by
    unfold stored
    exact ⟨rfl, rfl, rfl, rfl⟩
  cases h with
  | refused | pull => exact Frame.refl s
  | processor | push => exact hstored _
  | completed => exact (hstored _).trans (counted_frame _)

theorem released (h : CallEnd s c half p bay r) (hfree : s.occupied = false) :
    r.stream.occupied = false := by
  cases h with
  | refused | pull => exact hfree
  | processor _ _ w | push _ _ w => exact (occupied_stored s half w.output.played).trans hfree
  | completed _ _ w =>
    rw [occupied_counted]
    exact (occupied_stored s half w.output.played).trans hfree

/-- No block is run inside another. -/
theorem nested (h : CallEnd s c half p bay r) : .nested true ∉ r.events := by
  have hpulled : .nested true ∉ (s.occupy.callPull c bay).events := fun he => by
    rcases callPull_events c bay rfl _ he with hpull | hnested
    · exact StreamEvent.noConfusion hpull
    · exact Bool.noConfusion (StreamEvent.nested.inj hnested)
  have hwork {pulled : Called (CartridgeBay η)} {w : Activity.Settled π} :
      .nested true ∉ pulled.workEvents half w := fun he => by
    rcases pulled.workEvents_cases half w _ he with hprocess | hnested | hstore
    · exact StreamEvent.noConfusion hprocess
    · exact Bool.noConfusion (StreamEvent.nested.inj hnested)
    · exact StreamEvent.noConfusion hstore
  have hpushed {w : Activity.Settled π} :
      .nested true ∉ ((s.occupy.callPull c bay).pushed c half w).events := fun he => by
    have hoccupied := congrArg Stream.occupied (callPull_stream (s := s.occupy) c bay rfl)
    rcases Called.pushed_events hoccupied c half w _ he with hpush | hnested
    · exact StreamEvent.noConfusion hpush
    · exact Bool.noConfusion (StreamEvent.nested.inj hnested)
  cases h with
  | refused => exact List.not_mem_nil
  | pull => simp [hpulled]
  | processor _ pulled w hp => simp [hp, hpulled, hwork]
  | push _ pulled w hp => simp [hp, hpulled, hwork, hpushed]
  | completed _ pulled w hp => simp [hp, hpulled, hwork, hpushed]

/-- If neither hook unwinds and the processor finishes, although all that they ask for is refused,
then the block is completed: its output is stored and it is counted. -/
theorem completes (h : CallEnd s c half p bay r) (hrun : r.ending ≠ .refused)
    {pulled : Called (CartridgeBay η)} (hp : pulled = s.occupy.callPull c bay)
    {w : Activity.Settled π} (hw : w = pulled.settle half p) (hpull : pulled.returned = true)
    (hfinish : w.finished = true) (hpush : (pulled.pushed c half w).returned = true) :
    r.ending = .completed ∧ r.stream = (s.stored half w.output.played).counted := by
  subst hw hp
  cases h with
  | refused => exact absurd rfl hrun
  | pull _ hunwind => exact absurd (hunwind.symm.trans hpull) Bool.noConfusion
  | processor _ pulled w hp hw _ hunwind =>
    subst hp hw
    exact absurd (hunwind.symm.trans hfinish) Bool.noConfusion
  | push _ pulled w hp hw _ _ hunwind =>
    subst hp hw
    exact absurd (hunwind.symm.trans hpush) Bool.noConfusion
  | completed _ pulled w hp hw =>
    subst hp hw
    exact ⟨rfl, rfl⟩

/-- If the processor unwinds then nothing is published, pushed or counted. -/
theorem unwinds (h : CallEnd s c half p bay r) (hrun : r.ending ≠ .refused)
    {pulled : Called (CartridgeBay η)} (hp : pulled = s.occupy.callPull c bay)
    {w : Activity.Settled π} (hw : w = pulled.settle half p) (hpull : pulled.returned = true)
    (hunwind : w.finished = false) :
    r.ending = .unwound ∧ r.stream.processed = s.processed ∧ r.bay.push = bay.push ∧
      ∀ e ∈ r.events, ¬e.Delivers := by
  subst hw hp
  cases h with
  | refused => exact absurd rfl hrun
  | pull _ hpulls => exact absurd (hpulls.symm.trans hpull) Bool.noConfusion
  | push _ pulled w hp hw _ hfinish | completed _ pulled w hp hw _ hfinish =>
    subst hp hw
    exact absurd (hunwind.symm.trans hfinish) Bool.noConfusion
  | processor _ pulled w hp hw =>
    subst hp
    refine ⟨rfl, processed_stored s half _, callPull_push c bay, fun e he hdelivers => ?_⟩
    simp only [List.cons_append, List.mem_cons, List.mem_append] at he
    rcases he with rfl | he | he
    · exact hdelivers
    · rcases callPull_events c bay rfl e he with rfl | rfl <;> exact hdelivers
    · rcases Called.workEvents_cases _ half w e he with rfl | rfl | rfl <;> exact hdelivers

end CallEnd

/-! ## Uses of a stream -/

/-- A use of a stream from outside any block: a call on it, or a block with hooks that may unwind
or call back. -/
inductive Use (π η : Type) where
  | call (c : Call π η)
  | block (c : Callbacks η) (half : Half) (processor : π) (bay : CartridgeBay η)
  | pair (c : Callbacks η) (processor : π) (bay : CartridgeBay η)

variable [CartridgeHook η]

/-- The stream after a use. -/
def used (s : Stream) : Use π η → Stream
  | .call c => s.after c
  | .block c half processor bay => (s.callBlock c half processor bay).stream
  | .pair c processor bay => (s.callPair c processor bay).2.stream

/-- The stream after a list of uses. -/
def uses (s : Stream) (list : List (Use π η)) : Stream := list.foldl used s

omit [CartridgeHook η] in
theorem callPair_free {s : Stream} (h : s.occupied = false) (c : Callbacks η) (p : π)
    (bay : CartridgeBay η) : (s.callPair c p bay).2.stream.occupied = false := by
  have htake : s.takePair.2.occupied = false := h
  unfold callPair
  split
  · next htaken => exact (congrArg (fun t => t.2.occupied) htaken).symm.trans htake
  · next half taken htaken =>
    have hfree : taken.occupied = false :=
      (congrArg (fun t => t.2.occupied) htaken).symm.trans htake
    exact (callBlock_end taken c half p bay).released hfree

/-- **One use of a free stream leaves it free**, however it ends. -/
theorem used_free {s : Stream} (h : s.occupied = false) (u : Use π η) :
    (s.used u).occupied = false := by
  cases u with
  | block c half p bay => exact (callBlock_end s c half p bay).released h
  | pair c p bay => exact callPair_free h c p bay
  | call c =>
    cases c with
    | run half p bay =>
      show (s.runBlock half p bay).stream.occupied = false
      rw [← callBlock_returning]
      exact (callBlock_end s _ half p bay).released h
    | runPair p bay =>
      show (s.runPair p bay).2.stream.occupied = false
      rw [← callPair_returning]
      exact callPair_free h _ p bay
    | interrupt event =>
      show (s.onInterrupt event).2.occupied = false
      rcases s.onInterrupt_cases event with
        ⟨-, hout⟩ | ⟨error, -, -, hout⟩ | ⟨error, -, -, hout⟩ | ⟨ready, pairs, -, -, -, hout⟩ <;>
      · rw [hout]
        exact h
    | reset => rfl
    | arm | take | mix | clear => exact h
    | capture half block =>
      unfold used after
      exact h

/-- **Between two uses a stream is free**: induction on the uses. -/
theorem uses_free (list : List (Use π η)) {s : Stream} (h : s.occupied = false) :
    (s.uses list).occupied = false := by
  induction list generalizing s with
  | nil => exact h
  | cons u list ih => exact ih (used_free h u)

/-! ## The stream stays usable -/

/-- What holds of a call for a block on any stream, in the middle of another block included. -/
structure Contained (s : Stream) (c : Callbacks η) (half : Half) (p : π) (bay : CartridgeBay η)
    (r : BlockRun π η) : Prop where
  refused_iff : r.ending = .refused ↔ s.fault ≠ none ∨ s.occupied = true
  /-- A block that is refused touches nothing. -/
  untouched : r.ending = .refused →
    r = { stream := s, processor := p, bay, ending := .refused, events := [] }
  /-- No block is run inside another. -/
  nested : .nested true ∉ r.events
  /-- A block that asks for others, and goes on when they are refused, is completed. -/
  completes : r.ending ≠ .refused → ∀ pulled w, pulled = s.occupy.callPull c bay →
    w = pulled.settle half p → pulled.returned = true → w.finished = true →
    (pulled.pushed c half w).returned = true →
      r.ending = .completed ∧ r.stream = (s.stored half w.output.played).counted
  /-- A block whose processor unwinds hands nothing on and is not counted. -/
  unwinds : r.ending ≠ .refused → ∀ pulled w, pulled = s.occupy.callPull c bay →
    w = pulled.settle half p → pulled.returned = true → w.finished = false →
      r.ending = .unwound ∧ r.stream.processed = s.processed ∧ r.bay.push = bay.push ∧
        ∀ e ∈ r.events, ¬e.Delivers
  frame : Frame s r.stream
  released : s.occupied = false → r.stream.occupied = false

/-- **Refusals, blocks inside blocks and unwinding leave a stream usable.**  Every call for a block
keeps to what `Contained` says.  After any uses of a new stream, however their processors and hooks
ended, none is in progress: the next block is refused only if a fault is latched. -/
theorem blocks_contained :
    (∀ (s : Stream) (c : Callbacks η) (half : Half) (p : π) (bay : CartridgeBay η),
      Contained s c half p bay (s.callBlock c half p bay)) ∧
    ∀ list : List (Use π η),
      (({} : Stream).uses list).occupied = false ∧
      ∀ (c : Callbacks η) (half : Half) (p : π) (bay : CartridgeBay η),
        ((({} : Stream).uses list).callBlock c half p bay).ending = .refused ↔
          (({} : Stream).uses list).fault ≠ none := by
  refine ⟨fun s c half p bay => ?_, fun list => ?_⟩
  · have hend := callBlock_end s c half p bay
    exact {
      refused_iff := hend.refused_iff
      untouched := hend.untouched
      nested := hend.nested
      completes := fun hrun pulled w hp hw => hend.completes hrun hp hw
      unwinds := fun hrun pulled w hp hw => hend.unwinds hrun hp hw
      frame := hend.frame
      released := hend.released }
  · have hfree : (({} : Stream).uses list).occupied = false := uses_free list rfl
    refine ⟨hfree, fun c half p bay => ?_⟩
    rw [(callBlock_end _ c half p bay).refused_iff, hfree]
    exact or_iff_left Bool.false_ne_true

/-- A processor that asks for the other half inside its own block completes its block. -/
example :
    (({} : Stream).callBlock (.returning Bench.Hook) .first (⟨.second⟩ : Bench.Reentrant) {}).ending
      = .completed := by decide +kernel

end Stream

end DuplexAudio
