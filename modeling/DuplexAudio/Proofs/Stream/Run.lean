/-
  Runs of a stream: lists of calls on it, and what happens to memory on the way.

  Between two calls the receive channel may store a captured block; everything else that changes a
  stream is a call on it.  `trace` is what all calls of a list did, oldest first.

  The main facts here are about where blocks reach.  Whatever the processor does, unwinding and
  asking for nested blocks included:

  - a block stores into and publishes the playback region only, and acquires the capture region
    only (`runBlock_ofBlock`); the reset is the one call that reaches further;
  - a block neither arms nor disarms the stream, latches or clears no fault, and leaves the pairing
    of completions and the settings of the mix alone (`finishBlock_frame`);
  - no other block is begun inside it, and it is counted if and only if it is completed
    (`finishBlock_ending`).

  What an interrupt can do is said once, in `onInterrupt_cases`.
-/
import DuplexAudio.Stream.BlockRun

namespace DuplexAudio

namespace Stream

/-- A call on a stream, or a store of the receive channel between two calls. -/
inductive Call (π η : Type) where
  | reset
  /-- The stream starts or stops to listen to interrupts. -/
  | arm (on : Bool)
  | interrupt (event : Interrupt)
  | take
  /-- A block is run over a half. -/
  | run (half : Half) (processor : π) (bay : CartridgeBay η)
  /-- A block is run over the published half, if there is one. -/
  | runPair (processor : π) (bay : CartridgeBay η)
  | mix (f : MixSettings → MixSettings)
  | clear
  /-- The receive channel stores a captured block. -/
  | capture (half : Half) (block : CaptureBlock)

variable {π η : Type} [Processor π] [CartridgeHook η]

/-- The stream after a call. -/
def after (s : Stream) : Call π η → Stream
  | .reset => s.reset
  | .arm on => s.setArmed on
  | .interrupt event => (s.onInterrupt event).2
  | .take => s.takePair.2
  | .run half processor bay => (s.runBlock half processor bay).stream
  | .runPair processor bay => (s.runPair processor bay).2.stream
  | .mix f => s.mapSettings f
  | .clear => s.clearCounters
  | .capture half block => { s with buffers := s.buffers.writeCapture half block }

/-- What happens during a call, oldest first. -/
def eventsOf (s : Stream) : Call π η → List StreamEvent
  | .reset => resetEvents
  | .run half processor bay => (s.runBlock half processor bay).events
  | .runPair processor bay => (s.runPair processor bay).2.events
  | .arm _ | .interrupt _ | .take | .mix _ | .clear | .capture _ _ => []

/-- The stream after a list of calls. -/
def run (s : Stream) (calls : List (Call π η)) : Stream := calls.foldl after s

/-- What happens during a list of calls, oldest first. -/
def trace (s : Stream) : List (Call π η) → List StreamEvent
  | [] => []
  | c :: rest => s.eventsOf c ++ (s.after c).trace rest

theorem trace_append (s : Stream) (before rest : List (Call π η)) :
    s.trace (before ++ rest) = s.trace before ++ (s.run before).trace rest := by
  induction before generalizing s with
  | nil => rfl
  | cons c before ih =>
    show s.eventsOf c ++ (s.after c).trace (before ++ rest) = _
    rw [ih, ← List.append_assoc]
    rfl

/-- Every event of a trace belongs to one of its calls, and splits the trace there. -/
theorem trace_split {s : Stream} {calls : List (Call π η)} {e : StreamEvent}
    {before rest : List StreamEvent} (h : s.trace calls = before ++ e :: rest) :
    ∃ earlier c later head tail, calls = earlier ++ c :: later ∧
      before = s.trace earlier ++ head ∧ (s.run earlier).eventsOf c = head ++ e :: tail := by
  induction calls generalizing s before with
  | nil => exact absurd h.symm (List.append_ne_nil_of_right_ne_nil _ (List.cons_ne_nil _ _))
  | cons c calls ih =>
    have hsplit : s.eventsOf c ++ (s.after c).trace calls = before ++ e :: rest := h
    rcases List.append_eq_append_iff.mp hsplit with ⟨mid, hbefore, hrest⟩ | ⟨mid, hevents, hrest⟩
    · -- the event comes after the first call
      obtain ⟨earlier, c', later, head, tail, hcalls, hmid, htail⟩ := ih hrest
      refine ⟨c :: earlier, c', later, head, tail, ?_, ?_, htail⟩
      · rw [hcalls, List.cons_append]
      · rw [hbefore, hmid, ← List.append_assoc]
        rfl
    · rcases List.cons_eq_append_iff.mp hrest with ⟨hmid, htrace⟩ | ⟨mid', hmid, -⟩
      · -- the events of the first call end just before it
        have hrest' : (s.after c).trace calls = [] ++ e :: rest := htrace
        obtain ⟨earlier, c', later, head, tail, hcalls, hhead, htail⟩ := ih hrest'
        obtain ⟨hearlier, hhead⟩ := List.append_eq_nil_iff.mp hhead.symm
        refine ⟨c :: earlier, c', later, head, tail, ?_, ?_, htail⟩
        · rw [hcalls, List.cons_append]
        · show before = s.eventsOf c ++ (s.after c).trace earlier ++ head
          rw [hearlier, hhead, hevents, hmid]
          simp only [List.append_nil]
      · refine ⟨[], c, calls, before, mid', rfl, rfl, ?_⟩
        rw [← hmid]
        exact hevents

/-- The events of every call of a list are part of its trace. -/
theorem mem_trace_of_mem_eventsOf {s : Stream} {earlier later : List (Call π η)} {c : Call π η}
    {e : StreamEvent} (h : e ∈ (s.run earlier).eventsOf c) :
    e ∈ s.trace (earlier ++ c :: later) := by
  rw [trace_append]
  exact List.mem_append_right _ (List.mem_append_left _ h)

end Stream

/-! ## Where blocks reach -/

/-- Stores and publications reach the playback region only, and acquisitions the capture region. -/
def StreamEvent.OfBlock : StreamEvent → Prop
  | store d _ => d = .tx
  | publish d _ => d = .tx
  | acquire d _ => d = .rx
  | pull _ | process _ | push _ _ | nested _ => True

namespace Stream

variable {π η : Type}

/-- **An activity keeps to its side**, nested blocks included: induction on the activity. -/
theorem perform_ofBlock (a : Activity π) (s : Stream) : ∀ e ∈ (perform a s).events, e.OfBlock := by
  induction a generalizing s with
  | finish next output => exact fun e he => absurd he List.not_mem_nil
  | unwind next output => exact fun e he => absurd he List.not_mem_nil
  | nested half inner resume ihInner ihResume =>
    intro e he
    unfold perform at he
    split at he
    · dsimp only at he
      split at he
      · simp only [List.mem_append, List.mem_cons, List.not_mem_nil, or_false] at he
        rcases he with (((rfl | rfl) | he) | rfl | rfl | rfl) | he
        · rfl
        · trivial
        · exact ihInner _ _ e he
        · rfl
        · rfl
        · trivial
        · exact ihResume _ _ e he
      · simp only [List.mem_append, List.mem_cons, List.not_mem_nil, or_false] at he
        rcases he with (((rfl | rfl) | he) | rfl | rfl) | he
        · rfl
        · trivial
        · exact ihInner _ _ e he
        · rfl
        · trivial
        · exact ihResume _ _ e he
    · rcases List.mem_cons.mp he with rfl | he
      · trivial
      · exact ihResume _ _ e he

theorem pullEvents_ofBlock (bay : CartridgeBay η) : ∀ e ∈ pullEvents bay, e.OfBlock := by
  intro e he
  unfold pullEvents at he
  split at he
  · rw [List.mem_singleton.mp he]
    trivial
  · exact absurd he List.not_mem_nil

theorem pushEvents_ofBlock (bay : CartridgeBay η) : ∀ e ∈ pushEvents bay, e.OfBlock := by
  intro e he
  unfold pushEvents at he
  split at he
  · rw [List.mem_singleton.mp he]
    trivial
  · exact absurd he List.not_mem_nil

variable [Processor π] [CartridgeHook η]

theorem finishBlock_ofBlock (s : Stream) (b : OpenBlock) (p : π) (bay : CartridgeBay η) :
    ∀ e ∈ (s.finishBlock b p bay).events, e.OfBlock := by
  intro e he
  have hperform := perform_ofBlock (Processor.process p (s.view b bay.input bay.output)) s
  unfold finishBlock at he
  dsimp only at he
  split at he
  · simp only [List.mem_append, List.mem_cons, List.not_mem_nil, or_false] at he
    rcases he with ((rfl | he) | rfl) | rfl | he
    · trivial
    · exact hperform e he
    · rfl
    · rfl
    · exact pushEvents_ofBlock _ e he
  · simp only [List.mem_append, List.mem_cons, List.not_mem_nil, or_false] at he
    rcases he with (rfl | he) | rfl
    · trivial
    · exact hperform e he
    · rfl

theorem runBlock_ofBlock (s : Stream) (half : Half) (p : π) (bay : CartridgeBay η) :
    ∀ e ∈ (s.runBlock half p bay).events, e.OfBlock := by
  intro e he
  unfold runBlock at he
  split at he
  · rcases List.mem_append.mp he with he | he
    · rcases List.mem_cons.mp he with rfl | he
      · rfl
      · exact pullEvents_ofBlock bay e he
    · exact finishBlock_ofBlock _ _ p _ e he
  · exact absurd he List.not_mem_nil

theorem runPair_ofBlock (s : Stream) (p : π) (bay : CartridgeBay η) :
    ∀ e ∈ (s.runPair p bay).2.events, e.OfBlock := by
  intro e he
  unfold runPair at he
  split at he
  · exact absurd he List.not_mem_nil
  · exact runBlock_ofBlock _ _ p bay e he

/-- Every call but the reset keeps to its side. -/
theorem eventsOf_ofBlock (s : Stream) {c : Call π η} (hc : c ≠ .reset) :
    ∀ e ∈ s.eventsOf c, e.OfBlock := by
  cases c with
  | reset => exact absurd rfl hc
  | run half processor bay => exact runBlock_ofBlock s half processor bay
  | runPair processor bay => exact runPair_ofBlock s processor bay
  | arm | interrupt | take | mix | clear | capture => exact fun e he => absurd he List.not_mem_nil

end Stream

/-! ## What an interrupt can do -/

/-- The flags of an interrupt that completes a half. -/
def TransferFlags.completing : Half → TransferFlags
  | .first => ⟨halfTransfer⟩
  | .second => ⟨transferComplete⟩

theorem TransferFlags.completed_completing (h : Half) (d : Direction) :
    (completing h).completed d = .ok (some h) := by cases h <;> rfl

/-- A completion publishes its half, or leaves what is published as it is. -/
theorem PairTracker.complete_ready (t : PairTracker) (d : Direction) (k : Half) :
    ((t.complete d k).1 = some k ∧ (t.complete d k).2.ready = k.code) ∨
      ((t.complete d k).1 = none ∧ (t.complete d k).2.ready = t.ready) := by
  unfold complete
  dsimp only
  by_cases hmask :
      (if t.tracked = some k then t.state &&& maskBits else 0) ||| d.doneBit = maskBits
  · rw [if_pos hmask]
    exact .inl ⟨rfl, rfl⟩
  · rw [if_neg hmask]
    exact .inr ⟨rfl, rfl⟩

namespace Stream

/-- **One interrupt**: it is ignored, or answered by the latched fault, or it latches one, or it is
about the pairing and changes nothing else: it reports no completion, or it is one. -/
theorem onInterrupt_cases (s : Stream) (event : Interrupt) :
    (s.armed = false ∧ s.onInterrupt event = (.idle, s)) ∨
    (∃ error, s.armed = true ∧ s.failure? = some error ∧
      s.onInterrupt event = (.fault error, s)) ∨
    (∃ error, s.armed = true ∧ s.fault = none ∧
      s.onInterrupt event = (.fault error, s.latch event.direction)) ∨
    (∃ (ready : Option Half) (pairs : PairTracker), s.armed = true ∧ s.fault = none ∧
      ((ready, pairs) = (none, s.pairs) ∨
        ∃ half, (ready, pairs) = s.pairs.complete event.direction half) ∧
      s.onInterrupt event = ((ready.map .pairReady).getD .idle, { s with pairs })) := by
  unfold onInterrupt
  by_cases harmed : s.armed = true
  · rw [if_neg (not_not_intro harmed)]
    right
    cases hfailure : s.failure? with
    | some error => exact .inl ⟨error, harmed, rfl, rfl⟩
    | none =>
      have hfault : s.fault = none := Option.map_eq_none_iff.mp hfailure
      right
      dsimp only
      split
      · next error _ => exact .inl ⟨error, harmed, hfault, rfl⟩
      · exact .inr ⟨none, s.pairs, harmed, hfault, .inl rfl, rfl⟩
      · next half _ =>
        exact .inr ⟨(s.pairs.complete event.direction half).1,
          (s.pairs.complete event.direction half).2, harmed, hfault, .inr ⟨half, rfl⟩, rfl⟩
  · exact .inl ⟨Bool.eq_false_iff.mpr harmed, if_pos harmed⟩

/-- The half that is published and not yet taken. -/
def published (s : Stream) : Option Half := s.takePair.1

theorem published_of_ready {s s' : Stream} (h : s'.pairs.ready = s.pairs.ready) :
    s'.published = s.published := congrArg Half.ofCode? h

/-- **An interrupt publishes the half that it answers**, and nothing else. -/
theorem onInterrupt_published (s : Stream) (event : Interrupt) :
    (∃ half, (s.onInterrupt event).1 = .pairReady half ∧
        (s.onInterrupt event).2.published = some half) ∨
      ((∀ half, (s.onInterrupt event).1 ≠ .pairReady half) ∧
        (s.onInterrupt event).2.published = s.published) := by
  rcases s.onInterrupt_cases event with
    ⟨-, hout⟩ | ⟨error, -, -, hout⟩ | ⟨error, -, -, hout⟩ | ⟨ready, pairs, -, -, hpairs, hout⟩
  · rw [hout]
    exact .inr ⟨fun half => InterruptOutcome.noConfusion, rfl⟩
  · rw [hout]
    exact .inr ⟨fun half => InterruptOutcome.noConfusion, rfl⟩
  · rw [hout]
    exact .inr ⟨fun half => InterruptOutcome.noConfusion, rfl⟩
  · rw [hout]
    rcases hpairs with hsame | ⟨half, hcomplete⟩
    · obtain ⟨rfl, rfl⟩ := Prod.mk.inj hsame
      exact .inr ⟨fun half => InterruptOutcome.noConfusion, rfl⟩
    · have hready := s.pairs.complete_ready event.direction half
      rw [← hcomplete] at hready
      rcases hready with ⟨rfl, hready⟩ | ⟨rfl, hready⟩
      · refine .inl ⟨half, rfl, ?_⟩
        show Half.ofCode? pairs.ready = some half
        rw [hready, Half.ofCode?_code]
      · exact .inr ⟨fun half => InterruptOutcome.noConfusion, published_of_ready hready⟩

/-! ## What blocks leave alone -/

variable {π η : Type} [Processor π] [CartridgeHook η]

/-- What a block has no access to. -/
structure Frame (s s' : Stream) : Prop where
  armed : s'.armed = s.armed
  fault : s'.fault = s.fault
  pairs : s'.pairs = s.pairs
  settings : s'.settings = s.settings

theorem Frame.refl (s : Stream) : Frame s s := ⟨rfl, rfl, rfl, rfl⟩

theorem Frame.trans {s s' s'' : Stream} (h : Frame s s') (h' : Frame s' s'') : Frame s s'' :=
  ⟨h'.armed.trans h.armed, h'.fault.trans h.fault, h'.pairs.trans h.pairs,
    h'.settings.trans h.settings⟩

theorem occupy_frame (s : Stream) : Frame s s.occupy := ⟨rfl, rfl, rfl, rfl⟩

theorem written_frame (s : Stream) (half : Half) (played : PlaybackBlock) :
    Frame s (s.written half played) := by
  unfold written
  exact ⟨rfl, rfl, rfl, rfl⟩

theorem counted_frame (s : Stream) : Frame s s.counted := ⟨rfl, rfl, rfl, rfl⟩

omit [Processor π] [CartridgeHook η] in
/-- **An activity keeps to its block**: induction on the activity. -/
theorem perform_frame (a : Activity π) (s : Stream) : Frame s (perform a s).stream := by
  induction a generalizing s with
  | finish next output => exact Frame.refl s
  | unwind next output => exact Frame.refl s
  | nested half inner resume ihInner ihResume =>
    unfold perform
    split
    · dsimp only
      -- the nested block occupies the stream, is performed and written
      have hinner := (occupy_frame s).trans
        (ihInner (s.view ⟨half, s.settings⟩ CartridgeAudio.silence CartridgeAudio.silence) s.occupy)
      split
      · exact ((hinner.trans (written_frame _ half _)).trans (counted_frame _)).trans
          (ihResume true _)
      · exact (hinner.trans (written_frame _ half _)).trans (ihResume false _)
    · exact ihResume false s

theorem finishBlock_frame (s : Stream) (b : OpenBlock) (p : π) (bay : CartridgeBay η) :
    Frame s (s.finishBlock b p bay).stream := by
  have hperform := perform_frame (Processor.process p (s.view b bay.input bay.output)) s
  have hwritten := hperform.trans (written_frame _ b.half
    (perform (Processor.process p (s.view b bay.input bay.output)) s).output.played)
  unfold finishBlock
  dsimp only
  split
  · exact hwritten.trans (counted_frame _)
  · exact hwritten

/-- A block ends with the stream free for the next one. -/
theorem finishBlock_free (s : Stream) (b : OpenBlock) (p : π) (bay : CartridgeBay η) :
    (s.finishBlock b p bay).stream.occupied = false := by
  unfold finishBlock
  dsimp only
  split <;> rfl

omit [Processor π] [CartridgeHook η] in
/-- **Inside a block no other is begun**: whatever an activity asks for, it leaves the stream as it
is.  Induction on the activity. -/
theorem perform_of_occupied (a : Activity π) {s : Stream} (h : s.occupied = true) :
    (perform a s).stream = s := by
  have haccepts : s.accepts = false := by simp [accepts, h]
  induction a with
  | finish next output => rfl
  | unwind next output => rfl
  | nested half inner resume ihInner ihResume =>
    unfold perform
    simp only [haccepts, Bool.false_eq_true, if_false]
    exact ihResume false

theorem processed_written (s : Stream) (half : Half) (played : PlaybackBlock) :
    (s.written half played).processed = s.processed := by
  unfold written
  rfl

theorem processed_counted (s : Stream) : s.counted.processed = s.processed + 1 := rfl

/-- **The end of a block** on a stream that it occupies: it is counted if it is completed, and not
if the processor unwound. -/
theorem finishBlock_ending {s : Stream} (h : s.occupied = true) (b : OpenBlock) (p : π)
    (bay : CartridgeBay η) :
    ((s.finishBlock b p bay).ending = .completed ∧
        (s.finishBlock b p bay).stream.processed = s.processed + 1) ∨
      ((s.finishBlock b p bay).ending = .unwound ∧
        (s.finishBlock b p bay).stream.processed = s.processed) := by
  have hperform := perform_of_occupied (Processor.process p (s.view b bay.input bay.output)) h
  unfold finishBlock
  dsimp only
  split
  · refine .inl ⟨rfl, ?_⟩
    rw [processed_counted, processed_written, hperform]
  · refine .inr ⟨rfl, ?_⟩
    rw [processed_written, hperform]

end Stream

end DuplexAudio
