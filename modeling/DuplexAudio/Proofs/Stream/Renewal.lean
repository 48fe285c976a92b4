/-
  A reset makes a stream new.

  Whatever happened to a stream, a reset leaves what a new stream with the same settings would be,
  except that the counters go on from where they were.

  1. **Ahead** — `s.ahead k` is the stream `s` with its counters ahead by `k`, modulo the range of a
     word.  A reset stream is a new one, ahead by the counters that it had (`reset_eq_ahead`).

  2. **Nothing looks at the counters** — each operation answers the same on a stream that is ahead,
     does the same to memory, and leaves it ahead by as much; only a clearing of the counters lets
     it be caught up with.  Said as one equation for each operation, from the inside of a block
     (`perform_ahead`, `follow_ahead`) to whole uses (`observe_ahead`, `used_ahead`).

  3. By induction on the uses, what follows a reset cannot be told from what follows on a new stream
     (`reset_renews`).
-/
import DuplexAudio.Proofs.Stream.Reentry

namespace DuplexAudio

/-! ## Trackers that are ahead -/

namespace PairTracker

/-- The tracker with its counters ahead. -/
def ahead (t : PairTracker) (dropped overruns : UInt32) : PairTracker :=
  { t with dropped := t.dropped + dropped, overruns := t.overruns + overruns }

variable (t : PairTracker) (dropped overruns : UInt32)

theorem publish_ahead (half : Half) :
    (t.ahead dropped overruns).publish half = (t.publish half).ahead dropped overruns := by
  have hpair : (t.ahead dropped overruns).hasPair = t.hasPair := rfl
  unfold publish
  rw [hpair]
  cases t.hasPair with
  | false => rfl
  | true => simp [ahead, UInt32.add_assoc, UInt32.add_comm 1]

theorem complete_ahead (d : Direction) (half : Half) :
    (t.ahead dropped overruns).complete d half =
      ((t.complete d half).1, (t.complete d half).2.ahead dropped overruns) := by
  have hdropped (stale : Prop) [Decidable stale] :
      (if stale then (t.ahead dropped overruns).dropped + 1
        else (t.ahead dropped overruns).dropped) =
        (if stale then t.dropped + 1 else t.dropped) + dropped := by
    split
    · show t.dropped + dropped + 1 = t.dropped + 1 + dropped
      rw [UInt32.add_assoc, UInt32.add_comm dropped, ← UInt32.add_assoc]
    · rfl
  have htracked : (t.ahead dropped overruns).tracked = t.tracked := rfl
  have hstate : (t.ahead dropped overruns).state = t.state := rfl
  unfold complete
  simp only [hdropped, htracked, hstate]
  by_cases hmask :
      (if t.tracked = some half then t.state &&& maskBits else 0) ||| d.doneBit = maskBits
  · simp only [if_pos hmask]
    generalize (if ¬t.tracked = some half ∧ t.state &&& maskBits ≠ 0 then _ else t.dropped) = given
    exact congrArg (Prod.mk (some half))
      (publish_ahead { t with state := 0, dropped := given } dropped overruns half)
  · simp only [if_neg hmask]
    rfl

end PairTracker

namespace Stream

/-- The stream with its counters ahead. -/
def ahead (s : Stream) (k : StreamCounters) : Stream :=
  { s with
    pairs := s.pairs.ahead k.dropped k.overruns
    processed := s.processed + k.processed }

/-- **A reset stream is a new one**, ahead by the counters that it had. -/
theorem reset_eq_ahead (s : Stream) :
    s.reset = (({} : Stream).mapSettings fun _ => s.settings).ahead s.counters := by
  simp [reset, ahead, mapSettings, counters, PairTracker.reset, PairTracker.ahead,
    PairTracker.noReady]

/-! ## Each operation on a stream that is ahead -/

section Operations

variable (s : Stream) (k : StreamCounters)

theorem onInterrupt_ahead (event : Interrupt) :
    (s.ahead k).onInterrupt event =
      ((s.onInterrupt event).1, (s.onInterrupt event).2.ahead k) := by
  have hfailure : (s.ahead k).failure? = s.failure? := rfl
  have harmed : (s.ahead k).armed = s.armed := rfl
  unfold onInterrupt
  rw [hfailure, harmed]
  split
  · rfl
  · split
    · rfl
    · split
      · rfl
      · rfl
      · next half _ =>
        dsimp only
        rw [show (s.ahead k).pairs = s.pairs.ahead k.dropped k.overruns from rfl,
          PairTracker.complete_ahead]
        rfl

theorem takePair_ahead : (s.ahead k).takePair = (s.takePair.1, s.takePair.2.ahead k) := rfl

theorem reset_ahead : (s.ahead k).reset = s.reset.ahead k := by
  unfold reset ahead
  rfl

theorem capture_ahead (half : Half) (block : CaptureBlock) :
    { s.ahead k with buffers := (s.ahead k).buffers.writeCapture half block } =
      ({ s with buffers := s.buffers.writeCapture half block } : Stream).ahead k := by
  unfold ahead
  rfl

/-- Cleared counters are not ahead any more. -/
theorem clearCounters_ahead : (s.ahead k).clearCounters = s.clearCounters.ahead ⟨0, 0, 0⟩ := by
  simp [clearCounters, ahead, PairTracker.clearCounters, PairTracker.ahead]

theorem occupy_ahead : (s.ahead k).occupy = s.occupy.ahead k := rfl

theorem release_ahead : (s.ahead k).release = s.release.ahead k := rfl

theorem stored_ahead (half : Half) (played : PlaybackBlock) :
    (s.ahead k).stored half played = (s.stored half played).ahead k := by
  unfold stored ahead
  rfl

theorem written_ahead (half : Half) (played : PlaybackBlock) :
    (s.ahead k).written half played = (s.written half played).ahead k := by
  unfold written ahead
  rfl

theorem counted_ahead : (s.ahead k).counted = s.counted.ahead k := by
  simp [counted, ahead, UInt32.add_assoc, UInt32.add_comm 1]

end Operations

/-! ## Inside a block -/

/-- **An activity on a stream that is ahead.**  Induction on the activity. -/
theorem perform_ahead {π : Type} (a : Activity π) (s : Stream) (k : StreamCounters) :
    perform a (s.ahead k) = { perform a s with stream := (perform a s).stream.ahead k } := by
  induction a generalizing s with
  | finish next output => rfl
  | unwind next output => rfl
  | nested half inner resume ihInner ihResume =>
    have haccepts : (s.ahead k).accepts = s.accepts := rfl
    have hview : (s.ahead k).view ⟨half, (s.ahead k).settings⟩ CartridgeAudio.silence
        CartridgeAudio.silence =
          s.view ⟨half, s.settings⟩ CartridgeAudio.silence CartridgeAudio.silence := rfl
    unfold perform
    rw [haccepts, hview]
    split
    · dsimp only
      rw [occupy_ahead, ihInner]
      dsimp only
      rw [written_ahead]
      split
      · rw [counted_ahead, ihResume]
      · rw [ihResume]
    · dsimp only
      rw [ihResume]

/-- **A hook on a stream that is ahead.**  Induction on the hook. -/
theorem follow_ahead {ρ : Type} (c : Callback ρ) (s : Stream) (k : StreamCounters) :
    follow c (s.ahead k) = { follow c s with stream := (follow c s).stream.ahead k } := by
  induction c generalizing s with
  | finish left => rfl
  | unwind left => rfl
  | nested half inner resume ih =>
    unfold follow
    rw [perform_ahead]
    dsimp only
    rw [ih]

section Blocks

variable {π η : Type} (s : Stream) (k : StreamCounters) (c : Callbacks η) (bay : CartridgeBay η)

theorem callPull_ahead :
    (s.ahead k).callPull c bay =
      { s.callPull c bay with stream := (s.callPull c bay).stream.ahead k } := by
  unfold callPull
  split
  · rfl
  · rw [follow_ahead]

theorem callPush_ahead :
    (s.ahead k).callPush c bay =
      { s.callPush c bay with stream := (s.callPush c bay).stream.ahead k } := by
  unfold callPush
  split
  · rfl
  · rw [follow_ahead]

theorem deliver_ahead (pulled : Called (CartridgeBay η)) (half : Half) (w : Worked π) :
    pulled.deliver c half { w with stream := w.stream.ahead k } =
      { pulled.deliver c half w with stream := (pulled.deliver c half w).stream.ahead k } := by
  unfold Called.deliver
  dsimp only
  rw [stored_ahead, callPush_ahead]
  dsimp only
  split
  · dsimp only
    split <;> rw [release_ahead]
    rw [counted_ahead]
  · rw [release_ahead]

variable [Processor π]

theorem conclude_ahead (pulled : Called (CartridgeBay η)) (half : Half) (p : π) :
    Called.conclude { pulled with stream := pulled.stream.ahead k } c half p =
      { pulled.conclude c half p with stream := (pulled.conclude c half p).stream.ahead k } := by
  have hshown : Called.shown { pulled with stream := pulled.stream.ahead k } half =
      pulled.shown half := rfl
  unfold Called.conclude
  rw [hshown]
  dsimp only
  rw [perform_ahead]
  have hdeliver := deliver_ahead k c pulled half
    (perform (Processor.process p (pulled.shown half)) pulled.stream)
  -- a delivery looks at the bay that was pulled, and not at the stream
  unfold Called.deliver at hdeliver ⊢
  rw [hdeliver]

/-- **A block on a stream that is ahead.** -/
theorem callBlock_ahead (half : Half) (p : π) :
    (s.ahead k).callBlock c half p bay =
      { s.callBlock c half p bay with stream := (s.callBlock c half p bay).stream.ahead k } := by
  have haccepts : (s.ahead k).accepts = s.accepts := rfl
  unfold callBlock
  rw [haccepts]
  split
  · dsimp only
    rw [occupy_ahead, callPull_ahead]
    dsimp only
    split
    · rw [conclude_ahead]
    · rw [release_ahead]
  · rfl

theorem callPair_ahead (p : π) :
    (s.ahead k).callPair c p bay =
      ((s.callPair c p bay).1,
        { (s.callPair c p bay).2 with stream := (s.callPair c p bay).2.stream.ahead k }) := by
  unfold callPair
  rw [takePair_ahead]
  rcases s.takePair with ⟨_ | half, rest⟩
  · rfl
  · dsimp only
    rw [callBlock_ahead]

variable [CartridgeHook η]

theorem runBlock_ahead (half : Half) (p : π) :
    (s.ahead k).runBlock half p bay =
      { s.runBlock half p bay with stream := (s.runBlock half p bay).stream.ahead k } := by
  rw [← callBlock_returning, callBlock_ahead, callBlock_returning]

theorem runPair_ahead (p : π) :
    (s.ahead k).runPair p bay =
      ((s.runPair p bay).1,
        { (s.runPair p bay).2 with stream := (s.runPair p bay).2.stream.ahead k }) := by
  rw [← callPair_returning, callPair_ahead, callPair_returning]

end Blocks

/-! ## Uses and what they show -/

/-- What a use of a stream returns. -/
inductive Reply (π η : Type) where
  /-- Nothing. -/
  | done
  | outcome (outcome : InterruptOutcome)
  | taken (half : Option Half)
  /-- How a block ended, and its processor and its bay afterwards. -/
  | block (ending : BlockEnding) (processor : π) (bay : CartridgeBay η)
  /-- The same of a block over the published pair, and the half that was answered. -/
  | pair (half : Option Half) (ending : BlockEnding) (processor : π) (bay : CartridgeBay η)

/-- Whether a use clears the counters. -/
def Use.clears {π η : Type} : Use π η → Bool
  | .call .clear => true
  | .call _ | .block _ _ _ _ | .pair _ _ _ => false

section Uses

variable {π η : Type} [Processor π] [CartridgeHook η]

/-- What a use of a stream shows: what it returns, and what it does to memory and hooks. -/
def observe (s : Stream) : Use π η → Reply π η × List StreamEvent
  | .call (.interrupt event) => (.outcome (s.onInterrupt event).1, [])
  | .call .take => (.taken s.takePair.1, [])
  | .call (.run half p bay) =>
    let r := s.runBlock half p bay
    (.block r.ending r.processor r.bay, r.events)
  | .call (.runPair p bay) =>
    let (half, r) := s.runPair p bay
    (.pair half r.ending r.processor r.bay, r.events)
  | .call c => (.done, s.eventsOf c)
  | .block c half p bay =>
    let r := s.callBlock c half p bay
    (.block r.ending r.processor r.bay, r.events)
  | .pair c p bay =>
    let (half, r) := s.callPair c p bay
    (.pair half r.ending r.processor r.bay, r.events)

/-- What the uses of a list show, in order. -/
def observations (s : Stream) : List (Use π η) → List (Reply π η × List StreamEvent)
  | [] => []
  | u :: rest => s.observe u :: (s.used u).observations rest

/-- **A use shows the same on a stream that is ahead.** -/
theorem observe_ahead (s : Stream) (k : StreamCounters) (u : Use π η) :
    (s.ahead k).observe u = s.observe u := by
  cases u with
  | block c half p bay =>
    dsimp only [observe]
    rw [callBlock_ahead]
  | pair c p bay =>
    dsimp only [observe]
    rw [callPair_ahead]
  | call c =>
    cases c with
    | interrupt event =>
      dsimp only [observe]
      rw [onInterrupt_ahead]
    | run half p bay =>
      dsimp only [observe]
      rw [runBlock_ahead]
    | runPair p bay =>
      dsimp only [observe]
      rw [runPair_ahead]
    | reset | arm | take | mix | clear | capture => rfl

/-- **A use leaves a stream ahead by as much**, unless it clears the counters. -/
theorem used_ahead (s : Stream) (k : StreamCounters) (u : Use π η) :
    (s.ahead k).used u = (s.used u).ahead (if u.clears then ⟨0, 0, 0⟩ else k) := by
  cases u with
  | block c half p bay =>
    show ((s.ahead k).callBlock c half p bay).stream = _
    rw [callBlock_ahead]
    rfl
  | pair c p bay =>
    show ((s.ahead k).callPair c p bay).2.stream = _
    rw [callPair_ahead]
    rfl
  | call c =>
    cases c with
    | interrupt event =>
      show ((s.ahead k).onInterrupt event).2 = _
      rw [onInterrupt_ahead]
      rfl
    | run half p bay =>
      show ((s.ahead k).runBlock half p bay).stream = _
      rw [runBlock_ahead]
      rfl
    | runPair p bay =>
      show ((s.ahead k).runPair p bay).2.stream = _
      rw [runPair_ahead]
      rfl
    | clear => exact clearCounters_ahead s k
    | reset => exact reset_ahead s k
    | capture half block => exact capture_ahead s k half block
    | arm | take | mix => rfl

/-- **Every list of uses.**  Induction on the list; once the counters were cleared there is nothing
left to be ahead by. -/
theorem uses_ahead (s : Stream) (k : StreamCounters) (list : List (Use π η)) :
    (s.ahead k).observations list = s.observations list ∧
      (s.ahead k).uses list =
        (s.uses list).ahead (if list.any Use.clears then ⟨0, 0, 0⟩ else k) := by
  induction list generalizing s k with
  | nil => exact ⟨rfl, rfl⟩
  | cons u list ih =>
    obtain ⟨hobservations, huses⟩ := ih (s.used u) (if u.clears then ⟨0, 0, 0⟩ else k)
    constructor
    · show (s.ahead k).observe u :: ((s.ahead k).used u).observations list = _
      rw [observe_ahead, used_ahead, hobservations]
      rfl
    · show ((s.ahead k).used u).uses list = ((s.used u).uses list).ahead _
      rw [used_ahead, huses, List.any_cons]
      cases u.clears <;> cases list.any Use.clears <;> rfl

/-- **A reset makes a stream new**, in whatever state it was:
(1) it leaves the settings and the counters alone, silences what is played and what was captured,
    and publishes both halves of what is played after everything was silenced;
(2) whatever is done then — interrupts, arming, takes, settings, captures, further resets, and
    blocks with any processors and any hooks — shows what it would show on a new stream with the
    same settings, and leaves the same stream with its counters ahead by what they were at the
    reset, or not ahead any more once they were cleared. -/
theorem reset_renews (s : Stream) :
    (s.reset.settings = s.settings ∧ s.reset.counters = s.counters ∧
      (∀ half, s.reset.buffers.playback.readHalf half = Block.silence ∧
        s.reset.buffers.capture.readHalf half = Block.silence) ∧
      ∀ half, ∃ before after,
        s.eventsOf (.reset : Call π η) = before ++ .publish .tx half :: after ∧
          .store .tx half ∈ before ∧ ∀ d h, .store d h ∉ after) ∧
    ∀ list : List (Use π η),
      let new := ({} : Stream).mapSettings fun _ => s.settings
      s.reset.observations list = new.observations list ∧
        s.reset.uses list =
          (new.uses list).ahead (if list.any Use.clears then ⟨0, 0, 0⟩ else s.counters) := by
  refine ⟨⟨?_, ?_, fun half => ⟨?_, ?_⟩, fun half => ?_⟩, fun list => ?_⟩
  · unfold reset
    rfl
  · unfold counters reset PairTracker.reset
    rfl
  · exact DoubleBuffer.readHalf_silence half
  · exact DoubleBuffer.readHalf_silence half
  · cases half with
    | first =>
      exact ⟨[.store .rx .first, .store .rx .second, .store .tx .first, .store .tx .second],
        [.publish .tx .second], rfl, by simp, by simp⟩
    | second =>
      exact ⟨[.store .rx .first, .store .rx .second, .store .tx .first, .store .tx .second,
        .publish .tx .first], [], rfl, by simp, by simp⟩
  · dsimp only
    rw [reset_eq_ahead]
    exact uses_ahead _ s.counters list

end Uses

end Stream

end DuplexAudio
