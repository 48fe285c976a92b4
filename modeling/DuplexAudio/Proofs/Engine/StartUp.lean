/-
  Interrupts that arrive while the link is starting.

  The stream is armed before the link is started, so transfers may complete and fail before the
  start of the link returns.  By then the engine is still ready.  What the interrupts do meanwhile
  changes three things that the rest of the start looks at: the state, the latch and the arming.

  1. **They change together** (`startLink_of_no_error`, `startLink_of_error`).  If no interrupt
     reports an error, none of the three has changed.  Otherwise the first error is latched, the
     stream is disarmed and the engine is at fault, and the interrupts after it changed nothing.

  2. **The last part of the start** finds them so, creates the worker either way, and then unmutes
     (`promote_of_ready`) or gives up with the error that is latched (`promote_of_latched`).

  The calls on the converters that come before find a stream that does not listen, so whatever they
  raise is ignored.  `start_under_interrupts` is the headline, for every run before the start and
  every list of interrupts.
-/
import DuplexAudio.Proofs.Engine.ClickFree

namespace DuplexAudio

namespace Engine

variable {σ τ π η : Type} {e : Engine σ τ π η} {d : Direction}

/-! ## The start of the link -/

section Link

variable [SerialLink τ]

/-- What a start of the link on an armed stream leaves, but for the interrupts. -/
theorem startLink_rearmed (e : Engine σ τ π η) :
    e.rearmed.startLink.1 = (SerialLink.start e.link).result ∧
      e.rearmed.startLink.2.link = (SerialLink.start e.link).device ∧
      e.rearmed.startLink.2.codec = e.codec := by
  obtain ⟨-, -, -, hlink, hcodec⟩ := e.rearmed_frame
  obtain ⟨hdevice, hsame⟩ := e.rearmed.devices_answered .start (SerialLink.start e.rearmed.link)
  have hresult : e.rearmed.startLink.1 = (SerialLink.start e.rearmed.link).result := rfl
  refine ⟨hresult.trans ?_, hdevice.trans ?_, hsame.trans hcodec⟩
  · rw [hlink]
  · rw [hlink]

/-- **No error while the link was starting**: nothing is latched and the state is as it was. -/
theorem startLink_of_no_error
    (h : Interrupt.firstError? (SerialLink.start e.link).interrupts = none) :
    e.rearmed.startLink.2.stream.fault = none ∧ e.rearmed.startLink.2.state = e.state := by
  obtain ⟨-, -, hstate, hlink, -⟩ := e.rearmed_frame
  rw [← hlink] at h
  obtain ⟨hstill, hsame⟩ := e.rearmed_listening.answered_of_no_error .start h
  exact ⟨hstill.fault, hsame.trans hstate⟩

/-- **An error while the link was starting**: the first one is latched. -/
theorem startLink_of_error
    (h : Interrupt.firstError? (SerialLink.start e.link).interrupts = some d) :
    e.rearmed.startLink.2.stream.armed = false ∧ e.rearmed.startLink.2.stream.fault = some d ∧
      e.rearmed.startLink.2.state = e.state.afterError := by
  obtain ⟨-, -, hstate, hlink, -⟩ := e.rearmed_frame
  rw [← hlink] at h
  obtain ⟨hoff, hlatched, hfault⟩ := e.rearmed_listening.answered_of_error .start h
  exact ⟨hoff, hlatched, hfault.trans (congrArg Lifecycle.afterError hstate)⟩

end Link

/-! ## The last part of a start -/

section Codec

variable [Codec σ]

/-- A call during which nothing arrives leaves the state as it is. -/
theorem state_mute_of_quiet {mute : Bool}
    (h : (Codec.call (.setMute mute) e.codec).interrupts = []) : (e.mute mute).state = e.state := by
  have hcall : (e.callCodec (.setMute mute)).2.state = e.state := by
    dsimp only [callCodec]
    rw [h]
    rfl
  exact (e.mute_listening mute).2.trans hcall

variable [SerialLink τ] [Processor π] [CartridgeHook η]

/-- With no error latched the engine runs. -/
theorem promote_of_ready (hlink : e.linkRunning = true) (hfault : e.stream.fault = none)
    (hready : e.state = .ready) :
    e.promote =
      (.ok (), (({ e with state := .running } : Engine σ τ π η).mute false).log .running) := by
  unfold promote
  rw [if_neg (not_not_intro hlink), if_pos ⟨Option.isNone_iff_eq_none.mpr hfault, hready⟩]

/-- With an error latched the engine is halted, and the start fails with that error. -/
theorem promote_of_latched (hlink : e.linkRunning = true) (hoff : e.stream.armed = false)
    (hlatched : e.stream.fault = some d) :
    e.promote =
      (.error (.transport (.dma d)), e.halt.fail (.transport (.dma d))) := by
  have hfault : e.halt.stream.fault = some d := by
    by_cases hstreaming : e.Streaming
    · rw [hstreaming.fault_halt, ((e.meanwhile_mute true).disarmed hoff).1]
      exact hlatched
    · rw [halt_of_not_streaming hstreaming]
      exact hlatched
  have hcause : e.halt.stream.failure?.getD .notRunning = .dma d := by
    unfold Stream.failure?
    rw [hfault]
    rfl
  have hbarred : ¬(e.stream.fault.isNone = true ∧ e.state = .ready) := by
    rw [hlatched]
    exact fun h => absurd h.1 Bool.false_ne_true
  unfold promote
  rw [if_neg (not_not_intro hlink), if_neg hbarred]
  dsimp only [refuse]
  rw [hcause]

/-! ## What the system gives -/

/-- Whether the system gives threads is none of a halt's business. -/
theorem threadRefusal_halt (e : Engine σ τ π η) : e.halt.threadRefusal = e.threadRefusal := by
  by_cases hstreaming : e.Streaming
  · have hfinish (e : Engine σ τ π η) : e.finishServe.threadRefusal = e.threadRefusal := by
      unfold finishServe
      split <;> rfl
    have hjoin (e : Engine σ τ π η) : e.join.threadRefusal = e.threadRefusal := by
      unfold join
      dsimp only
      split <;> exact hfinish e
    rw [halt_of_streaming hstreaming, hjoin]
    exact (e.kept_mute true).threadRefusal
  · rw [halt_of_not_streaming hstreaming]

omit [Processor π] [CartridgeHook η] in
theorem threadRefusal_bringUp (e : Engine σ τ π η) :
    e.bringUp.2.threadRefusal = e.threadRefusal := by
  have hinit := (e.kept_callCodec .init).threadRefusal
  unfold bringUp
  split
  · next hcall =>
    rw [hcall] at hinit
    exact hinit
  · next asked hcall =>
    rw [hcall] at hinit
    have hlinked := asked.kept_configureLink.threadRefusal
    split
    · next hlink =>
      rw [hlink] at hlinked
      exact hlinked.trans hinit
    · next hlink =>
      rw [hlink] at hlinked
      dsimp only [log, record, resetStream, recordStream, mapStream]
      exact hlinked.trans hinit

theorem threadRefusal_init (e : Engine σ τ π η) : e.init.2.threadRefusal = e.threadRefusal := by
  unfold init
  split
  · rfl
  · rw [threadRefusal_bringUp, threadRefusal_halt]

omit [SerialLink τ] [Processor π] [CartridgeHook η] in
theorem threadRefusal_configuring (e : Engine σ τ π η) :
    e.configuring.2.threadRefusal = e.threadRefusal :=
  ((e.mute true).kept_callCodec .configure).threadRefusal.trans (e.kept_mute true).threadRefusal

omit [Codec σ] [Processor π] [CartridgeHook η] in
theorem threadRefusal_startLink (e : Engine σ τ π η) :
    e.rearmed.startLink.2.threadRefusal = e.threadRefusal := by
  refine (e.rearmed.kept_answered _ _).threadRefusal.trans ?_
  dsimp only [rearmed, resetStream, recordStream, mapStream]

/-! ## A start of the link with interrupts -/

/-- With a link that starts and a thread for it, the worker is created. -/
theorem arm_of_started (h : e.Resting) (hok : (SerialLink.start e.link).result = .ok ())
    (hthread : e.threadRefusal = none) : e.arm = e.rearmed.startLink.2.staffed.promote := by
  have hresult := e.startLink_rearmed.1.trans hok
  have hgiven := e.threadRefusal_startLink.trans hthread
  obtain ⟨cause, hfailed, -⟩ | ⟨-, ⟨-, harm⟩ | ⟨cause, hrefused, -⟩⟩ := h.arm_cases
  · exact nomatch hfailed.symm.trans hresult
  · exact harm
  · exact nomatch hrefused.symm.trans hgiven

omit [Codec σ] [Processor π] [CartridgeHook η] in
theorem linkRunning_staffed (hrunning : SerialLink.isRunning (SerialLink.start e.link).device = true) :
    e.rearmed.startLink.2.staffed.linkRunning = true := by
  show SerialLink.isRunning e.rearmed.startLink.2.link = true
  rw [e.startLink_rearmed.2.1]
  exact hrunning

/-- **The link starts and no error arrives**: the engine runs, and the output is unmuted. -/
theorem arm_of_no_error (h : e.Resting) (hready : e.state = .ready)
    (hok : (SerialLink.start e.link).result = .ok ())
    (hrunning : SerialLink.isRunning (SerialLink.start e.link).device = true)
    (hthread : e.threadRefusal = none)
    (hnone : Interrupt.firstError? (SerialLink.start e.link).interrupts = none) :
    e.arm.1 = .ok () ∧
      Commanded e e.arm.2 [.link .start, .spawned, .codec (.setMute false) .running] ∧
      ((Codec.call (.setMute false) e.codec).interrupts = [] → e.arm.2.state = .running) := by
  obtain ⟨-, -, hcodec⟩ := e.startLink_rearmed
  obtain ⟨hfault, hstate⟩ := startLink_of_no_error hnone
  have hpromote : e.arm = (.ok (), (({ e.rearmed.startLink.2.staffed with state := .running } :
      Engine σ τ π η).mute false).log .running) := by
    rw [arm_of_started h hok hthread]
    exact promote_of_ready (linkRunning_staffed hrunning) hfault (hstate.trans hready)
  rw [hpromote]
  refine ⟨rfl, ?_, fun hquiet => ?_⟩
  · have hpromoted : Commanded e { e.rearmed.startLink.2.staffed with state := .running }
        [.link .start, .spawned] := e.commanded_linked.staffed.congr rfl
    exact (hpromoted.mute false).log _
  · refine state_mute_of_quiet (e := { e.rearmed.startLink.2.staffed with state := .running }) ?_
    show (Codec.call (.setMute false) e.rearmed.startLink.2.codec).interrupts = []
    rw [hcodec]
    exact hquiet

/-- **The link starts and an error arrives**: the engine is halted again, and the output was never
unmuted. -/
theorem arm_of_error (h : e.Resting) (hready : e.state = .ready)
    (hok : (SerialLink.start e.link).result = .ok ())
    (hrunning : SerialLink.isRunning (SerialLink.start e.link).device = true)
    (hthread : e.threadRefusal = none)
    (hfirst : Interrupt.firstError? (SerialLink.start e.link).interrupts = some d)
    (hstop : ∀ l : τ, SerialLink.isRunning (SerialLink.stop l) = false) :
    e.arm.1 = .error (.transport (.dma d)) ∧
      Downed e e.arm.2
        [.link .start, .spawned, .codec (.setMute true) .fault, .link .stop, .joined] ∧
      e.arm.2.linkRunning = false := by
  obtain ⟨hoff, hlatched, hfault⟩ := startLink_of_error hfirst
  rw [hready] at hfault
  have hstate : e.rearmed.startLink.2.staffed.state = .fault := hfault
  have hheld : e.rearmed.startLink.2.staffed.worker.isHeld = true := rfl
  have hpromote : e.arm = (.error (.transport (.dma d)),
      e.rearmed.startLink.2.staffed.halt.fail (.transport (.dma d))) := by
    rw [arm_of_started h hok hthread]
    exact promote_of_latched (linkRunning_staffed hrunning) hoff hlatched
  have hcommands : e.rearmed.startLink.2.staffed.haltCommands =
      [.codec (.setMute true) .fault, .link .stop, .joined] := by
    unfold haltCommands
    rw [if_pos (.inl hheld), if_pos hheld, hstate]
    rfl
  have hdowned := downed_halt (e := e.rearmed.startLink.2.staffed) (.inl hheld)
    (.transport (.dma d))
  rw [hcommands] at hdowned
  rw [hpromote]
  exact ⟨rfl, ⟨hdowned.state, hdowned.resting, e.commanded_linked.staffed.trans hdowned.commands⟩,
    linkRunning_halt_of_stop hstop _⟩

/-- **The link starts and there is no thread for the worker**: whatever arrived, the engine is put at
fault and the link stopped again. -/
theorem arm_of_refusal (h : e.Resting)
    (hok : (SerialLink.start e.link).result = .ok ())
    {cause : String} (hthread : e.threadRefusal = some cause) :
    e.arm.1 = .error .spawn ∧ Downed e e.arm.2 [.link .start, .link .stop] := by
  have hresult := e.startLink_rearmed.1.trans hok
  have hgiven := e.threadRefusal_startLink.trans hthread
  obtain ⟨cause', hfailed, -⟩ | ⟨-, ⟨hfree, -⟩ | ⟨cause', -, harm⟩⟩ := h.arm_cases
  · exact nomatch hfailed.symm.trans hresult
  · exact nomatch hfree.symm.trans hgiven
  · rw [harm]
    exact ⟨rfl, h.downed_refusal cause'⟩

/-! ## The whole start -/

theorem startReady_of_configured (hready : e.state = .ready) (hok : e.configuring.1 = .ok ()) :
    e.startReady = e.configuring.2.arm := by
  have hfault : e.state ≠ .fault := by
    rw [hready]
    exact Lifecycle.noConfusion
  unfold startReady
  rw [if_neg hfault]
  split
  · next hresult =>
    rw [show e.configuring = _ from hresult] at hok
    exact nomatch hok
  · next e' hresult =>
    rw [show e.configuring = _ from hresult]

/-- **A start that begins ready**, at once or after its own bring-up. -/
theorem Tended.start_ready (h : e.Tended)
    (hready : e.state = .ready ∨ e.state = .stopped ∧ e.init.1 = .ok ()) :
    e.start = e.init.2.startReady ∧ e.init.2.Resting ∧ e.init.2.state = .ready ∧
      Commanded e e.init.2 e.upCommands := by
  rcases hready with hready | ⟨hstopped, hok⟩
  · have hup := h.up (.inl hready)
    have hrunning : e.state ≠ .running := by
      rw [hready]
      exact Lifecycle.noConfusion
    have hfault : e.state ≠ .fault := by
      rw [hready]
      exact Lifecycle.noConfusion
    have hcommands : e.upCommands = [] := if_pos hup
    rw [init_of_up ⟨hup, hfault⟩, hcommands]
    exact ⟨start_of_initialized hrunning hup, h.resting hrunning hfault, hready, .refl e⟩
  · have hdown := h.down hstopped
    have hrunning : e.state ≠ .running := by
      rw [hstopped]
      exact Lifecycle.noConfusion
    have hcommands : e.upCommands = e.haltCommands ++ bringUpCommands e.state :=
      if_neg (Bool.eq_false_iff.mp hdown)
    have hbringUp := h.halt.bringUp
    rw [← init_of_not_initialized hdown, h.state_halt hrunning] at hbringUp
    rcases hbringUp with ⟨-, hrest, hready, -, hasked⟩ | ⟨cause, cs, herror, -⟩
    · rw [hcommands]
      exact ⟨start_of_brought_up hrunning hdown hok, hrest, hready,
        ((Commanded.refl e).halt).trans hasked⟩
    · rw [hok] at herror
      exact nomatch herror

variable [LinkProbe τ]

/-- **What arrives while the link is starting** decides the start.  After every run that leaves an
engine ready, or stopped with devices that come up, let the converters accept their configuration and
the link start and report that it is clocking, and let it raise any interrupts while it starts.
(1) If none of them reports an error, the start succeeds and unmutes last; and the engine is
    running, unless the unmuting call itself raises interrupts.
(2) If some report errors, the start fails with the direction of the first of them.  The engine is
    at fault and disarmed, there is no worker and, if a stop of the link ends its clocks, no clock.
    The output was muted last and never unmuted.
(3) Both are so if the system gives a thread for the worker.  If it does not, the start fails for
    that, with errors or without, and leaves the engine as in (2). -/
theorem start_under_interrupts (codec : σ) (link : τ) (processor : π) (config : FrameLayout)
    (moves : List (Move σ τ π η)) :
    let e : Engine σ τ π η := (new codec link processor config).run moves
    let asked := e.init.2.configuring
    let started := SerialLink.start asked.2.link
    e.state = .ready ∨ e.state = .stopped ∧ e.init.1 = .ok () →
    asked.1 = .ok () → started.result = .ok () → SerialLink.isRunning started.device = true →
    (e.threadRefusal = none →
      (Interrupt.firstError? started.interrupts = none →
        e.start.1 = .ok () ∧
        ((Codec.call (.setMute false) asked.2.codec).interrupts = [] →
          e.start.2.state = .running) ∧
        e.start.2.journal.lastMute? = some false ∧
        Commanded e e.start.2 (e.upCommands ++
          [.codec (.setMute true) .ready, .codec .configure .ready, .link .start, .spawned,
            .codec (.setMute false) .running])) ∧
      ∀ d, Interrupt.firstError? started.interrupts = some d →
        (∀ l : τ, SerialLink.isRunning (SerialLink.stop l) = false) →
        e.start.1 = .error (.transport (.dma d)) ∧ e.start.2.state = .fault ∧
        e.start.2.linkRunning = false ∧ e.start.2.worker.isHeld = false ∧
        e.start.2.stream.armed = false ∧ e.start.2.journal.lastMute? = some true ∧
        e.upCommands.NeverUnmutes ∧
        Commanded e e.start.2 (e.upCommands ++
          [.codec (.setMute true) .ready, .codec .configure .ready, .link .start, .spawned,
            .codec (.setMute true) .fault, .link .stop, .joined])) ∧
    ∀ cause, e.threadRefusal = some cause →
      e.start.1 = .error .spawn ∧ e.start.2.state = .fault ∧
      e.start.2.worker.isHeld = false ∧ e.start.2.stream.armed = false ∧
      e.start.2.journal.lastMute? = some true ∧ e.upCommands.NeverUnmutes ∧
      Commanded e e.start.2 (e.upCommands ++
        [.codec (.setMute true) .ready, .codec .configure .ready, .link .start, .link .stop]) := by
  intro e asked started hbegins hconfigured hok hrunning
  have htended : e.Tended := tended_run codec link processor config moves
  obtain ⟨hstart, hup, hready, hbrought⟩ := htended.start_ready hbegins
  obtain ⟨hrest, hstill, hasked⟩ := hup.configuring hready
  have harm : e.start = asked.2.arm := hstart.trans (startReady_of_configured hready hconfigured)
  have hsame : asked.2.threadRefusal = e.threadRefusal :=
    e.init.2.threadRefusal_configuring.trans e.threadRefusal_init
  have hnever : e.upCommands.NeverUnmutes := e.upCommands_neverUnmutes
  refine ⟨fun hgives => ⟨fun hnone => ?_, fun d hfirst hstop => ?_⟩, fun cause hrefuses => ?_⟩
  · have hthread := hsame.trans hgives
    obtain ⟨hresult, hgiven, hstate⟩ := arm_of_no_error hrest hstill hok hrunning hthread hnone
    have hcommands := hbrought.trans (hasked.trans hgiven)
    rw [harm]
    refine ⟨hresult, hstate, ?_, hcommands⟩
    rw [hcommands.lastMute?, List.filterMap_append, List.getLast?_append]
    rfl
  · have hthread := hsame.trans hgives
    obtain ⟨hresult, hdowned, hidle⟩ :=
      arm_of_error hrest hstill hok hrunning hthread hfirst hstop
    have hcommands := hbrought.trans (hasked.trans hdowned.commands)
    rw [harm]
    refine ⟨hresult, hdowned.state, hidle, hdowned.resting.vacant, hdowned.resting.disarmed, ?_,
      hnever, hcommands⟩
    rw [hcommands.lastMute?, List.filterMap_append, List.getLast?_append]
    rfl
  · obtain ⟨hresult, hdowned⟩ := arm_of_refusal hrest hok (hsame.trans hrefuses)
    have hcommands := hbrought.trans (hasked.trans hdowned.commands)
    rw [harm]
    refine ⟨hresult, hdowned.state, hdowned.resting.vacant, hdowned.resting.disarmed, ?_, hnever,
      hcommands⟩
    rw [hcommands.lastMute?, List.filterMap_append, List.getLast?_append]
    rfl

end Codec

/-! ## A link whose transfers fail while it starts -/

/-- A link whose start completes the first half in one direction, then meets an error of the other
direction, and then one of the first. -/
def failingLink : Bench.BenchLink where
  mode := .raising [⟨.rx, ⟨0x01⟩⟩, ⟨.tx, ⟨0x10⟩⟩, ⟨.rx, ⟨0x04⟩⟩]

/-- An engine on such a link, after some moves. -/
def failing (moves : List (Move Bench.ScriptedCodec Bench.BenchLink Bench.Instrument Bench.Hook)) :
    Engine Bench.ScriptedCodec Bench.BenchLink Bench.Instrument Bench.Hook :=
  (new {} failingLink .mixer {}).run moves

/-- The start fails with the error of the transmit direction, which came first, and the output stays
muted.  On the same link with nothing to raise, the start runs, unless there is no thread for the
worker. -/
theorem start_failing :
    (failing [.init]).state = .ready ∧
    (failing [.init]).start.1 = .error (.transport (.dma .tx)) ∧
    (failing [.init]).start.2.journal.lastMute? = some true ∧
    (failing [.link .plain]).state = .stopped ∧
    (failing [.link .plain]).start.1 = .ok () ∧
    (failing [.link .plain]).start.2.state = .running ∧
    (failing [.link .plain, .threads (some "no memory")]).start.1 = .error .spawn := by
  have hready : (failing [.init]).state = .ready := by decide +kernel
  have hstopped : (failing [.link .plain]).state = .stopped := by decide +kernel
  have hstopped' : (failing [.link .plain, .threads (some "no memory")]).state = .stopped := by
    decide +kernel
  have hcommon
      (moves : List (Move Bench.ScriptedCodec Bench.BenchLink Bench.Instrument Bench.Hook)) :=
    start_under_interrupts ({} : Bench.ScriptedCodec) failingLink Bench.Instrument.mixer {} moves
  obtain ⟨hgiven, -⟩ := hcommon [.init] (.inl hready) (by decide +kernel) (by decide +kernel)
    (by decide +kernel)
  obtain ⟨hfailed, -, -, -, -, hmuted, -⟩ := (hgiven rfl).2 .tx (by decide +kernel)
    SerialLink.Obedient.isRunning_stop
  obtain ⟨hplain, -⟩ := hcommon [.link .plain] (.inr ⟨hstopped, by decide +kernel⟩)
    (by decide +kernel) (by decide +kernel) (by decide +kernel)
  obtain ⟨hok, hruns, -⟩ := (hplain rfl).1 (by decide +kernel)
  obtain ⟨-, hrefused⟩ := hcommon [.link .plain, .threads (some "no memory")]
    (.inr ⟨hstopped', by decide +kernel⟩) (by decide +kernel) (by decide +kernel)
    (by decide +kernel)
  exact ⟨hready, hfailed, hmuted, hstopped, hok, hruns rfl, (hrefused _ rfl).1⟩

end Engine

end DuplexAudio
