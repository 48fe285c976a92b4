/-
  A transfer error silences a stream for good.

  The fault latch, the arming and the pairing of completions are separate values, and each of them
  goes on changing after an error: the stream may be armed again, more interrupts may arrive from
  either direction, and a pair that was published before the error may still be taken.  None of that
  brings a block or a pair back.

  **The invariant** is `Silenced d s s'`: the stream `s'` has the error of direction `d` latched,
  and in what is played, paired and counted it is still as `s` was when the error arrived, except
  that a published pair may have been taken since.  It holds once the error is latched, and every call but
  a reset and a clearing of the counters keeps it and leaves no event (`Silenced.after`), since the
  latch is looked at before anything else: an interrupt is answered by it (`onInterrupt_of_fault`)
  and a block is refused for it (`runBlock_of_fault`, `runPair_of_fault`).

  `silent_after_error` puts this together for every list of calls after the error.
-/
import DuplexAudio.Bench.Instruments
import DuplexAudio.Proofs.Stream.Run

namespace DuplexAudio

namespace Stream

/-! ## What a latched fault answers -/

section Latched

variable {s : Stream} {d : Direction}

/-- A latched fault answers every interrupt while the stream is armed, and changes nothing. -/
theorem onInterrupt_of_fault (h : s.fault = some d) (event : Interrupt) :
    s.onInterrupt event = (if s.armed then .fault (.dma d) else .idle, s) := by
  have hfailure : s.failure? = some (.dma d) := by rw [failure?, h]; rfl
  rcases s.onInterrupt_cases event with
    ⟨harmed, hout⟩ | ⟨error, harmed, herror, hout⟩ | ⟨error, -, hnone, -⟩ |
    ⟨ready, pairs, -, hnone, -, -⟩
  · rw [hout, harmed]
    rfl
  · rw [hfailure] at herror
    cases herror
    rw [hout, harmed]
    rfl
  · rw [h] at hnone
    exact absurd hnone (Option.some_ne_none d)
  · rw [h] at hnone
    exact absurd hnone (Option.some_ne_none d)

theorem accepts_of_fault (h : s.fault = some d) : s.accepts = false := by
  rw [accepts, h]
  rfl

variable {π η : Type} [Processor π] [CartridgeHook η]

/-- A block is refused for a latched fault. -/
theorem runBlock_of_fault (h : s.fault = some d) (half : Half) (p : π) (bay : CartridgeBay η) :
    s.runBlock half p bay =
      { stream := s, processor := p, bay, ending := .refused, events := [] } :=
  runBlock_of_not_accepts (accepts_of_fault h) half p bay

/-- With a fault latched, a published pair is taken but no block is run over it. -/
theorem runPair_of_fault (h : s.fault = some d) (p : π) (bay : CartridgeBay η) :
    s.runPair p bay =
      (none,
        { stream := s.takePair.2, processor := p, bay, ending := .refused, events := [] }) := by
  unfold runPair
  split
  · next stream htake =>
    rw [htake]
  · next half stream htake =>
    have hstream : s.takePair.2.fault = some d := h
    rw [htake] at hstream
    rw [runBlock_of_fault hstream, htake]
    rfl

end Latched

/-! ## The invariant -/

/-- The error of direction `d` was latched when the stream was `s`; since then nothing that is
played, paired or counted has changed, except that a published pair may have been taken. -/
structure Silenced (d : Direction) (s s' : Stream) : Prop where
  fault : s'.fault = some d
  playback : s'.buffers.playback = s.buffers.playback
  pairs : s'.pairs = s.pairs ∨ s'.pairs = s.pairs.takePair.2
  processed : s'.processed = s.processed

namespace Silenced

variable {d : Direction} {s s' : Stream}

/-- An error that is latched silences the stream at once. -/
theorem of_latch (h : s.fault = none) (d : Direction) : Silenced d s (s.latch d) where
  fault := by
    show s.fault.or (some d) = some d
    rw [h]
    rfl
  playback := rfl
  pairs := .inl rfl
  processed := rfl

/-- The partial completion and both counters of the pairing stay. -/
theorem partialCompletion (h : Silenced d s s') :
    s'.pairs.state = s.pairs.state ∧ s'.pairs.dropped = s.pairs.dropped ∧
      s'.pairs.overruns = s.pairs.overruns := by
  rcases h.pairs with hsame | htaken
  · rw [hsame]
    exact ⟨rfl, rfl, rfl⟩
  · rw [htaken]
    exact ⟨rfl, rfl, rfl⟩

theorem counters_eq (h : Silenced d s s') : s'.counters = s.counters := by
  obtain ⟨-, hdropped, hoverruns⟩ := h.partialCompletion
  rw [counters, counters, hdropped, hoverruns, h.processed]

/-- A pair that is still published was published when the error arrived. -/
theorem hasPair_of_hasPair (h : Silenced d s s') (hpair : s'.pairs.hasPair = true) :
    s.pairs.hasPair = true := by
  rcases h.pairs with hsame | htaken
  · rwa [hsame] at hpair
  · rw [htaken] at hpair
    exact absurd hpair (by simp [PairTracker.takePair, PairTracker.hasPair])

theorem take (h : Silenced d s s') : Silenced d s s'.takePair.2 where
  fault := h.fault
  playback := h.playback
  pairs := by
    refine .inr ?_
    show s'.pairs.takePair.2 = s.pairs.takePair.2
    rcases h.pairs with hsame | htaken
    · rw [hsame]
    · rw [htaken]
      rfl
  processed := h.processed

variable {π η : Type} [Processor π] [CartridgeHook η]

/-- **One call.**  Everything but a reset and a clearing of the counters keeps the stream silenced,
and leaves no event. -/
theorem after (h : Silenced d s s') {c : Call π η} (hreset : c ≠ .reset) (hclear : c ≠ .clear) :
    Silenced d s (s'.after c) ∧ s'.eventsOf c = [] := by
  cases c with
  | reset => exact absurd rfl hreset
  | clear => exact absurd rfl hclear
  | arm on => exact ⟨⟨h.fault, h.playback, h.pairs, h.processed⟩, rfl⟩
  | mix f => exact ⟨⟨h.fault, h.playback, h.pairs, h.processed⟩, rfl⟩
  | capture half block =>
    have hcapture : Silenced d s { s' with buffers := s'.buffers.writeCapture half block } :=
      ⟨h.fault, (Buffers.playback_writeCapture _ _ _).trans h.playback, h.pairs, h.processed⟩
    exact ⟨hcapture, rfl⟩
  | interrupt event =>
    refine ⟨?_, rfl⟩
    show Silenced d s (s'.onInterrupt event).2
    rw [onInterrupt_of_fault h.fault]
    exact h
  | take => exact ⟨h.take, rfl⟩
  | run half processor bay =>
    show Silenced d s (s'.runBlock half processor bay).stream ∧
      (s'.runBlock half processor bay).events = []
    rw [runBlock_of_fault h.fault]
    exact ⟨h, rfl⟩
  | runPair processor bay =>
    show Silenced d s (s'.runPair processor bay).2.stream ∧ (s'.runPair processor bay).2.events = []
    rw [runPair_of_fault h.fault]
    exact ⟨h.take, rfl⟩

/-- **Every list of calls.**  Induction on the list. -/
theorem run (h : Silenced d s s') {calls : List (Call π η)}
    (hcalls : ∀ c ∈ calls, c ≠ .reset ∧ c ≠ .clear) :
    Silenced d s (s'.run calls) ∧ s'.trace calls = [] := by
  induction calls generalizing s' with
  | nil => exact ⟨h, rfl⟩
  | cons c calls ih =>
    obtain ⟨hreset, hclear⟩ := hcalls c List.mem_cons_self
    obtain ⟨hnext, hevents⟩ := h.after hreset hclear
    obtain ⟨hlast, htrace⟩ := ih hnext fun c' hc' => hcalls c' (List.mem_cons_of_mem c hc')
    refine ⟨hlast, ?_⟩
    show s'.eventsOf c ++ (s'.after c).trace calls = []
    rw [hevents, htrace]
    rfl

end Silenced

/-! ## The headline -/

/-- The first error on an armed stream is latched with its direction. -/
theorem onInterrupt_of_error {s : Stream} {event : Interrupt} {error : LinkFailure}
    (harmed : s.armed = true) (hfault : s.fault = none)
    (herror : event.flags.completed event.direction = .error error) :
    s.onInterrupt event = (.fault (.dma event.direction), s.latch event.direction) := by
  have hdma : error = .dma event.direction := by
    unfold TransferFlags.completed at herror
    split at herror
    · exact (Except.error.inj herror).symm
    · split at herror
      · exact nomatch herror
      · split at herror
        · exact nomatch herror
        · exact nomatch herror
  have hfailure : s.failure? = none := by rw [failure?, hfault]; rfl
  unfold onInterrupt
  rw [if_neg (not_not_intro harmed), hfailure, herror, hdma]

/-- **A transfer error silences a stream for good.**  Once an error of direction `d` was decoded on
an armed stream without a fault, and whatever is called from then on except a reset and a clearing
of the counters:
(1) the latched fault is the error of direction `d`;
(2) an interrupt of either direction, whatever it reports, changes nothing; it is answered by that
    fault if the stream was armed again, and is ignored otherwise;
(3) every block is refused, and so is every block over a published pair;
(4) what is played, the partial completion and the counters are as when the error arrived, and
    nothing has happened to memory;
(5) a published pair may be taken, and none is published any more. -/
theorem silent_after_error {s : Stream} {event : Interrupt} {error : LinkFailure}
    (harmed : s.armed = true) (hfault : s.fault = none)
    (herror : event.flags.completed event.direction = .error error)
    {π η : Type} [Processor π] [CartridgeHook η]
    {calls : List (Call π η)} (hcalls : ∀ c ∈ calls, c ≠ .reset ∧ c ≠ .clear) :
    let struck := (s.onInterrupt event).2
    let later := struck.run calls
    (s.onInterrupt event).1 = .fault (.dma event.direction) ∧
    later.failure? = some (.dma event.direction) ∧
    (∀ event' : Interrupt, later.onInterrupt event' =
      (if later.armed then .fault (.dma event.direction) else .idle, later)) ∧
    (∀ (half : Half) (p : π) (bay : CartridgeBay η), later.runBlock half p bay =
      { stream := later, processor := p, bay, ending := .refused, events := [] }) ∧
    (∀ (p : π) (bay : CartridgeBay η), (later.runPair p bay).1 = none) ∧
    later.buffers.playback = s.buffers.playback ∧
    later.pairs.state = s.pairs.state ∧
    later.counters = s.counters ∧
    struck.trace calls = [] ∧
    ∀ earlier rest, calls = earlier ++ rest →
      later.pairs.hasPair = true → (struck.run earlier).pairs.hasPair = true := by
  intro struck later
  have hout := onInterrupt_of_error harmed hfault herror
  have hstruck : Silenced event.direction s struck := by
    show Silenced event.direction s (s.onInterrupt event).2
    rw [hout]
    exact .of_latch hfault _
  obtain ⟨hlater, htrace⟩ := hstruck.run hcalls
  refine ⟨by rw [hout], ?_, onInterrupt_of_fault hlater.fault, runBlock_of_fault hlater.fault,
    fun p bay => ?_, hlater.playback, hlater.partialCompletion.1, hlater.counters_eq, htrace, ?_⟩
  · show later.fault.map LinkFailure.dma = _
    rw [hlater.fault]
    rfl
  · rw [runPair_of_fault hlater.fault]
  · -- the calls after any moment are silenced with respect to that moment
    rintro earlier rest rfl hpair
    have hearlier := (hstruck.run fun c hc => hcalls c (List.mem_append_left _ hc)).1
    have hmoment : Silenced event.direction (struck.run earlier) (struck.run earlier) :=
      ⟨hearlier.fault, rfl, .inl rfl, rfl⟩
    have hrest := (hmoment.run fun c hc => hcalls c (List.mem_append_right _ hc)).1
    have hsplit : later = (struck.run earlier).run rest := List.foldl_append
    rw [hsplit] at hpair
    exact hrest.hasPair_of_hasPair hpair

/-! ## An error with a pair in flight -/

/-- The calls that publish the first half and leave the second half partially completed. -/
def pairInFlight : List (Call Mixer Bench.Hook) :=
  [.arm true, .interrupt ⟨.rx, ⟨0x01⟩⟩, .interrupt ⟨.tx, ⟨0x01⟩⟩, .interrupt ⟨.rx, ⟨0x02⟩⟩]

/-- The calls that try to go on after an error: the stream is armed again, the second half is
completed, the other direction fails too, and the published pair is run. -/
def attempts : List (Call Mixer Bench.Hook) :=
  [.arm true, .interrupt ⟨.tx, ⟨0x02⟩⟩, .interrupt ⟨.rx, ⟨0x10⟩⟩, .runPair {} {},
    .run .second {} {}]

/-- The pair was published before the error of the transmit direction, and is never run. -/
theorem silent_pairInFlight :
    (run {} pairInFlight).armed = true ∧ (run {} pairInFlight).fault = none ∧
      (TransferFlags.mk 0x04).completed .tx = .error (.dma .tx) ∧
      (∀ c ∈ attempts, c ≠ .reset ∧ c ≠ .clear) ∧
      (run {} pairInFlight).pairs.hasPair = true ∧
      (((run {} pairInFlight).onInterrupt ⟨.tx, ⟨0x04⟩⟩).2.run attempts).failure? =
        some (.dma .tx) ∧
      ((run {} pairInFlight).onInterrupt ⟨.tx, ⟨0x04⟩⟩).2.trace attempts = [] := by
  have harmed : (run {} pairInFlight).armed = true := by decide +kernel
  have hfault : (run {} pairInFlight).fault = none := by decide +kernel
  have herror : (TransferFlags.mk 0x04).completed .tx = .error (.dma .tx) := rfl
  have hattempts : ∀ c ∈ attempts, c ≠ .reset ∧ c ≠ .clear := by simp [attempts]
  have hsilent :=
    @silent_after_error _ ⟨.tx, ⟨0x04⟩⟩ _ harmed hfault herror _ _ _ _ _ hattempts
  obtain ⟨-, hfailure, -, -, -, -, -, -, htrace, -⟩ := hsilent
  exact ⟨harmed, hfault, herror, hattempts, by decide +kernel, hfailure, htrace⟩

end Stream

end DuplexAudio
