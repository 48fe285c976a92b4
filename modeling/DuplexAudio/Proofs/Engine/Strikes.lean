/-
  A transfer error that strikes a running engine.

  It may arrive between two operations, or while a device is being called.  A running engine calls a
  device in three places only: to mute, at the beginning of a stop and of a teardown, and to unmute,
  at the end of the start that made it run (`Tended.running_after`).  So there are four ways to be
  struck (`Strike`), and in three of them the operation goes on after the error, with whatever else
  its device call raises.

  1. **What is struck is quiet at once** (`Strike.quiescent`), and the operation that was going on
     leaves it so: what is left of the call is ignored by a stream that is disarmed, and neither a
     halt nor the rest of a start touches what is played.

  2. **It stays quiet** as long as nothing resets the stream, and after three of the four ways only a
     bring-up does (`Strike.barred`).  After the fourth a plain start does too: a stop that was
     struck while it muted ends ready all the same, with the bar lifted (`not_quiet_jarring_stop`).

  `quiet_after_error` says both, for every run before the error and every list of moves after it.
-/
import DuplexAudio.Proofs.Engine.StopRace

namespace DuplexAudio

namespace Engine

variable {σ τ π η : Type} {e s : Engine σ τ π η}

/-! ## An error during a call -/

theorem absorb_append (e : Engine σ τ π η) (events events' : List Interrupt) :
    e.absorb (events ++ events') = (e.absorb events).absorb events' := List.foldl_append

/-- An engine that was running before some interrupts and is at fault after them was struck by one of
them.  Induction on their list. -/
theorem absorb_struck {events : List Interrupt} (hrunning : e.state = .running)
    (hfault : (e.absorb events).state = .fault) :
    ∃ earlier event later, events = earlier ++ event :: later ∧
      (e.absorb earlier).state = .running ∧ (e.absorb (earlier ++ [event])).state = .fault := by
  induction events generalizing e with
  | nil => exact absurd (hrunning.symm.trans hfault) Lifecycle.noConfusion
  | cons event events ih =>
    rcases (e.interrupted_absorb [event]).state with hsame | hstruck
    · -- not this one yet, so one of the rest
      obtain ⟨earlier, event', later, rfl, hstill, herror⟩ := ih (hsame.trans hrunning) hfault
      exact ⟨event :: earlier, event', later, rfl, hstill, herror⟩
    · exact ⟨[], event, events, rfl, hrunning, hstruck⟩

section Codec

variable [Codec σ]

/-- The engine as a call on its codec leaves it, but for the interrupts that arrived meanwhile. -/
def called (e : Engine σ τ π η) (call : CodecCall) : Engine σ τ π η :=
  let r := Codec.call call e.codec
  let e := e.record (.codec call e.state)
  { e with codec := r.device, journal := e.journal ++ r.wires.map EngineEvent.wire }

theorem callCodec_eq (e : Engine σ τ π η) (call : CodecCall) :
    e.callCodec call = ((Codec.call call e.codec).result,
      (e.called call).absorb (Codec.call call e.codec).interrupts) := rfl

/-- An interrupt that arrives while the codec is called with `call` puts the running engine at fault,
and leaves it as `s`. -/
def StruckDuring (e : Engine σ τ π η) (call : CodecCall) (s : Engine σ τ π η) : Prop :=
  ∃ earlier event later, (Codec.call call e.codec).interrupts = earlier ++ event :: later ∧
    ((e.called call).absorb earlier).state = .running ∧
    s = (e.called call).absorb (earlier ++ [event]) ∧ s.state = .fault

/-- **A running engine that is at fault after the codec was told to mute or to unmute** was struck
meanwhile. -/
theorem struck_of_fault (hrunning : e.state = .running) {mute : Bool}
    (hfault : (e.mute mute).state = .fault) : ∃ s, StruckDuring e (.setMute mute) s := by
  rw [(e.mute_listening mute).2, callCodec_eq] at hfault
  obtain ⟨earlier, event, later, hinterrupts, hstill, herror⟩ :=
    absorb_struck (e := e.called (.setMute mute)) hrunning hfault
  exact ⟨_, earlier, event, later, hinterrupts, hstill, rfl, herror⟩

/-- What is struck is quiet from then on, to the end of the call. -/
theorem StruckDuring.quiescent {mute : Bool} (h : StruckDuring e (.setMute mute) s)
    (hnone : e.stream.fault = none) (houtside : ∀ b, s.worker ≠ .inBlock b) :
    Quiescent s (e.mute mute) := by
  obtain ⟨earlier, event, later, hinterrupts, hrunning, hs, herror⟩ := h
  have hnone' : ((e.called (.setMute mute)).absorb earlier).stream.fault = none :=
    ((interrupted_absorb _ earlier).fault hrunning).trans hnone
  have hlatched : s.stream.armed = false ∧ ∃ d, s.stream.fault = some d := by
    rw [hs, absorb_append] at herror ⊢
    exact latched_of_error hnone' hrunning herror
  have hcall : Quiescent s (e.callCodec (.setMute mute)).2 := by
    rw [callCodec_eq, hinterrupts, List.append_cons, absorb_append, ← hs]
    exact (Quiescent.here hlatched.1 hlatched.2 houtside).absorb later
  rcases e.mute_eq mute with hmute | ⟨cause, hmute⟩
  · rw [hmute]
    exact hcall
  · rw [hmute]
    exact hcall.log _

/-- A fault is left standing to the end of the call. -/
theorem StruckDuring.state {mute : Bool} (h : StruckDuring e (.setMute mute) s) :
    (e.mute mute).state = .fault := by
  obtain ⟨earlier, event, later, hinterrupts, -, hs, herror⟩ := h
  rw [(e.mute_listening mute).2, callCodec_eq, hinterrupts, List.append_cons, absorb_append, ← hs]
  exact (s.interrupted_absorb later).fault_of_fault herror

end Codec

/-! ## The four ways to be struck -/

section Moves

variable [Codec σ] [SerialLink τ] [Processor π] [CartridgeHook η] [LinkProbe τ]

/-- **How a transfer error strikes a running engine** in the course of a move, and the engine `s`
that it leaves. -/
inductive Strike (e : Engine σ τ π η) : Move σ τ π η → Engine σ τ π η → Prop where
  /-- Between two operations. -/
  | interrupt {event : Interrupt} (running : e.state = .running)
      (error : (e.deliver event).2.state = .fault) : Strike e (.interrupt event) (e.deliver event).2
  /-- While a start unmutes, with the engine just made to run. -/
  | start {armed linked s : Engine σ τ π η} (launched : Launched armed linked e.start.2)
      (struck : StruckDuring { linked.spawn.2 with state := .running } (.setMute false) s) :
      Strike e .start s
  /-- While a stop mutes. -/
  | stop {s : Engine σ τ π η} (running : e.state = .running)
      (struck : StruckDuring e (.setMute true) s) : Strike e .stop s
  /-- While a teardown mutes. -/
  | teardown {s : Engine σ τ π η} (running : e.state = .running)
      (struck : StruckDuring e (.setMute true) s) : Strike e .teardown s

omit [LinkProbe τ] in
/-- A halt that was struck while it muted is quiet to its end. -/
theorem Tended.quiescent_halt (h : e.Tended) (hrunning : e.state = .running)
    (hmuted : Quiescent s (e.mute true)) : Quiescent s e.halt := by
  have hdisarmed : Quiescent s ((e.mute true).mapStream (·.setArmed false)) :=
    { hmuted with disarmed := rfl }
  -- a running engine has a worker, so there is something to halt
  rw [halt_of_streaming (.inl (h.held hrunning))]
  exact hdisarmed.stopLink.join

/-- **What is struck is quiet from then on**, to the end of the operation that was going on. -/
theorem Strike.quiescent {m : Move σ τ π η} (h : Strike e m s) (htended : e.Tended)
    (houtside : ∀ b, s.worker ≠ .inBlock b) : Quiescent s (e.after m) := by
  have hnone (hrunning : e.state = .running) : e.stream.fault = none :=
    (htended.listening hrunning).fault
  cases h with
  | interrupt running error =>
    obtain ⟨hdisarmed, hlatched⟩ := latched_of_error (hnone running) running error
    exact .here hdisarmed hlatched houtside
  | @start armed linked _ launched struck =>
    -- nothing is latched when the engine is made to run
    have hspawned : linked.spawn.2.stream.fault = none := by
      rw [linked.stream_spawn]
      exact launched.fault
    show Quiescent s e.start.2
    rw [launched.launched]
    exact (struck.quiescent hspawned houtside).log _
  | stop running struck =>
    have hhalted := htended.quiescent_halt running (struck.quiescent (hnone running) houtside)
    show Quiescent s e.stop
    rw [stop_of_running running]
    refine Quiescent.log ?_ _
    exact { hhalted with }
  | teardown running struck =>
    have hhalted := htended.quiescent_halt running (struck.quiescent (hnone running) houtside)
    show Quiescent s e.teardown
    refine Quiescent.log ?_ _
    exact { hhalted with }

/-- **What is struck is barred from a plain start**, unless it was struck during a stop. -/
theorem Strike.barred {m : Move σ τ π η} (h : Strike e m s) (hm : m ≠ .stop) :
    (e.after m).Barred := by
  cases h with
  | interrupt running error => exact .inl error
  | @start armed linked _ launched struck =>
    left
    show e.start.2.state = .fault
    rw [launched.launched]
    exact struck.state
  | stop running struck => exact absurd rfl hm
  | teardown running struck => exact .inr rfl

/-- **How a running engine leaves that state**: by an interrupt, in a stop or a teardown, or in a
poll that finds the worker dead, which is no transfer error. -/
theorem Tended.running_after (h : e.Tended) (hrunning : e.state = .running) (m : Move σ τ π η) :
    (e.after m).state = .running ∨
      (∃ event, m = .interrupt event ∧ (e.deliver event).2.state = .fault) ∨
      m = .stop ∨ m = .teardown ∨ m = .poll ∧ e.worker = .dead := by
  have hfault : e.state ≠ .fault := fun hfault => Lifecycle.noConfusion (hrunning.symm.trans hfault)
  cases m with
  | init =>
    left
    show e.init.2.state = .running
    rw [init_of_up ⟨h.up (.inr hrunning), hfault⟩]
    exact hrunning
  | start =>
    left
    show e.start.2.state = .running
    rw [start_of_running hrunning]
    exact hrunning
  | stop => exact .inr (.inr (.inl rfl))
  | teardown => exact .inr (.inr (.inr (.inl rfl)))
  | poll =>
    by_cases hdead : e.worker = .dead
    · exact .inr (.inr (.inr (.inr ⟨rfl, hdead⟩)))
    · have hnoticed : e.noticeWorker = e := if_neg fun hnotice => hdead hnotice.1
      left
      show e.poll.2.state = .running
      unfold poll
      dsimp only
      rw [hnoticed, if_neg fun hhalts => hfault hhalts.1]
      exact hrunning
  | interrupt event =>
    rcases (e.interrupted_deliver event).state with hsame | herror
    · exact .inl (hsame.trans hrunning)
    · exact .inr (.inl ⟨event, rfl, herror⟩)
  | wakeUp => exact .inl (e.aside_beginServe.state.trans hrunning)
  | finishBlock => exact .inl (e.aside_finishServe.state.trans hrunning)
  | registerPull | registerPush | editCartridges | editProcessor | mix | capture | codec | link
  | threads => exact .inl ((e.aside_edit rfl).state.trans hrunning)

/-- Whatever strikes an engine that is running, or that a start has made run, is a strike. -/
theorem Tended.strike_of_fault (h : e.Tended) :
    (∀ event, e.state = .running → (e.deliver event).2.state = .fault →
      Strike e (.interrupt event) (e.deliver event).2) ∧
    (e.state = .running → (e.mute true).state = .fault →
      ∃ s, Strike e .stop s ∧ Strike e .teardown s) ∧
    (e.state ≠ .running → e.start.1 = .ok () → e.start.2.state = .fault →
      ∃ s, Strike e .start s) := by
  refine ⟨fun event hrunning herror => .interrupt hrunning herror, fun hrunning hfault => ?_,
    fun hstopped hok hfault => ?_⟩
  · obtain ⟨s, hstruck⟩ := struck_of_fault hrunning hfault
    exact ⟨s, .stop hrunning hstruck, .teardown hrunning hstruck⟩
  · have hvacant : e.Vacant := fun hrunning hstate => (h.resting hrunning hstate).vacant
    rcases Engine.start_cases hvacant with ⟨hrunning, -⟩ | ⟨hfailed, -⟩ | ⟨-, armed, linked, hlaunched⟩
    · exact absurd hrunning hstopped
    · exact absurd hok hfailed
    · -- what a start that succeeds does last is to unmute
      rw [hlaunched.launched] at hfault
      obtain ⟨s, hstruck⟩ :=
        struck_of_fault (e := { linked.spawn.2 with state := .running }) rfl hfault
      exact ⟨s, .start hlaunched hstruck⟩

/-! ## The headline -/

/-- Between the engines `s` and `e` nothing was heard of the stream, and nothing will be. -/
structure Silenced (s e : Engine σ τ π η) : Prop where
  /-- Every further interrupt is ignored and changes nothing. -/
  ignores : ∀ event : Interrupt, e.deliver event = (.idle, e)
  signals : e.signals = s.signals
  processed : e.stream.processed = s.stream.processed
  playback : ∀ half : Half,
    e.stream.buffers.playback.readHalf half = s.stream.buffers.playback.readHalf half
  /-- Nothing has happened but quiet events: no block and no hook was run, the output was not
  unmuted, and the interrupts that arrived during the calls of the devices led to nothing. -/
  journal : ∃ events, e.journal = s.journal ++ events ∧ ∀ event ∈ events, event.isQuiet = true

omit [Codec σ] [SerialLink τ] [Processor π] [CartridgeHook η] [LinkProbe τ] in
theorem Quiescent.silenced (h : Quiescent s e) : Silenced s e where
  ignores := deliver_of_disarmed h.disarmed
  signals := h.signals
  processed := h.processed
  playback half := by rw [h.playback]
  journal := h.journal

/-- **A transfer error quiets an engine until its stream is reset.**  After every run, whatever the
devices do:
(1) an engine that a move finds running goes on running, unless the move is an interrupt that puts it
    at fault, a stop, a teardown, or a poll that finds the worker dead;
(2) whenever an interrupt puts an engine at fault that is running, or that a start has made run, be
    it on its own or during the calls of a start, a stop or a teardown, the engine is struck in one
    of the four ways;
(3) an engine that is struck with no block in progress, but not while it is being stopped, is silent
    from then on through every list of moves in which none brings it up;
(4) an engine that is struck while it is being stopped is ready once it is stopped, and is silent
    through every list of moves in which none resets its stream, be it a bring-up, or a start that
    gets past the converters. -/
theorem quiet_after_error (codec : σ) (link : τ) (processor : π) (config : FrameLayout)
    (before : List (Move σ τ π η)) :
    let found : Engine σ τ π η := (new codec link processor config).run before
    (∀ m, found.state = .running → (found.after m).state = .running ∨
      (∃ event, m = .interrupt event ∧ (found.deliver event).2.state = .fault) ∨
      m = .stop ∨ m = .teardown ∨ m = .poll ∧ found.worker = .dead) ∧
    ((∀ event, found.state = .running → (found.deliver event).2.state = .fault →
        Strike found (.interrupt event) (found.deliver event).2) ∧
      (found.state = .running → (found.mute true).state = .fault →
        ∃ s, Strike found .stop s ∧ Strike found .teardown s) ∧
      (found.state ≠ .running → found.start.1 = .ok () → found.start.2.state = .fault →
        ∃ s, Strike found .start s)) ∧
    (∀ m s, Strike found m s → (∀ b, s.worker ≠ .inBlock b) → m ≠ .stop →
      ∀ moves, (found.after m).meets renews moves = false →
        Silenced s ((found.after m).run moves)) ∧
    ∀ s, Strike found .stop s → (∀ b, s.worker ≠ .inBlock b) →
      found.stop.state = .ready ∧
      ∀ moves, found.stop.meets resets moves = false → Silenced s (found.stop.run moves) := by
  intro found
  have htended : found.Tended := tended_run codec link processor config before
  refine ⟨fun m hrunning => htended.running_after hrunning m, htended.strike_of_fault,
    fun m s hstrike houtside hm moves hmoves => ?_,
    fun s hstrike houtside => ⟨?_, fun moves hmoves => ?_⟩⟩
  · have hstruck := hstrike.quiescent htended houtside
    exact (hstruck.run ((hstrike.barred hm).meets_resets hmoves)).silenced
  · cases hstrike with
    | stop running struck =>
      rw [stop_of_running running]
      rfl
  · exact ((hstrike.quiescent htended houtside).run hmoves).silenced

end Moves

/-! ## An error with a wake-up in flight -/

/-- A start, and an interrupt of either direction for the first half: the pair is published and the
worker was not yet scheduled. -/
def wakeUpInFlight : List (Move Bench.ScriptedCodec (Loopback Unit) Bench.Instrument Bench.Hook) :=
  [.start, .interrupt ⟨.rx, ⟨0x01⟩⟩, .interrupt ⟨.tx, ⟨0x01⟩⟩]

/-- What may come after the error: the worker wakes up, more interrupts arrive, and every operation
is tried, the last start with converters that do not answer. -/
def afterwards : List (Move Bench.ScriptedCodec (Loopback Unit) Bench.Instrument Bench.Hook) :=
  [.interrupt ⟨.tx, ⟨0x02⟩⟩, .wakeUp, .start, .registerPull (some .idle), .poll, .stop,
    .teardown, .codec fun _ => { init := some .notResponding }, .start, .wakeUp]

/-- The engine that the error finds. -/
def inFlight : Scripted := (new {} {} .mixer {}).run wakeUpInFlight

/-- The pair that was published before the error is never played. -/
theorem quiet_wakeUpInFlight :
    (inFlight.state = .running ∧ inFlight.worker = .idle ∧ inFlight.wake = true ∧
      inFlight.stream.published = some .first) ∧
    Strike inFlight (.interrupt ⟨.rx, ⟨0x04⟩⟩) (inFlight.deliver ⟨.rx, ⟨0x04⟩⟩).2 ∧
    (inFlight.after (.interrupt ⟨.rx, ⟨0x04⟩⟩)).meets renews afterwards = false ∧
    Silenced (inFlight.deliver ⟨.rx, ⟨0x04⟩⟩).2
      ((inFlight.after (.interrupt ⟨.rx, ⟨0x04⟩⟩)).run afterwards) := by
  have hrunning : inFlight.state = .running := by decide +kernel
  have hidle : inFlight.worker = .idle := by decide +kernel
  have houtside : ∀ b, (inFlight.deliver ⟨.rx, ⟨0x04⟩⟩).2.worker ≠ .inBlock b := by
    rw [(inFlight.interrupted_deliver _).worker, hidle]
    exact fun _ => Worker.noConfusion
  have hmoves : (inFlight.after (.interrupt ⟨.rx, ⟨0x04⟩⟩)).meets renews afterwards = false := by
    decide +kernel
  obtain ⟨-, ⟨hinterrupt, -⟩, hquiet, -⟩ := quiet_after_error ({} : Bench.ScriptedCodec)
    ({} : Loopback Unit) Bench.Instrument.mixer {} wakeUpInFlight
  have hstrike : Strike inFlight (.interrupt ⟨.rx, ⟨0x04⟩⟩) (inFlight.deliver ⟨.rx, ⟨0x04⟩⟩).2 :=
    hinterrupt _ hrunning (by decide +kernel)
  have hother : Move.interrupt ⟨.rx, ⟨0x04⟩⟩ ≠
      (.stop : Move Bench.ScriptedCodec (Loopback Unit) Bench.Instrument Bench.Hook) := by
    intro hstop
    cases hstop
  exact ⟨⟨hrunning, hidle, by decide +kernel, by decide +kernel⟩, hstrike, hmoves,
    hquiet _ _ hstrike houtside hother afterwards hmoves⟩

/-! ## An error while the engine is being stopped -/

/-- The engine that the error leaves, with the rest of the stop still to come. -/
def struckStop : Engine JarringCodec (Loopback Unit) Bench.Instrument Bench.Hook :=
  (jarring [.start]).mute true

/-- A start, and a pair that the worker serves. -/
def startedAnew : List (Move JarringCodec (Loopback Unit) Bench.Instrument Bench.Hook) :=
  [.start, .interrupt ⟨.rx, ⟨0x01⟩⟩, .interrupt ⟨.tx, ⟨0x01⟩⟩, .wakeUp, .finishBlock]

/-- **An engine that is struck while it is being stopped is heard again** with no bring-up in
between: a start unmutes the output, and a pair is published, waited upon and played. -/
theorem not_quiet_jarring_stop :
    Strike (jarring [.start]) .stop struckStop ∧ struckStop.worker = .idle ∧
    ((jarring [.start]).after .stop).meets renews startedAnew = false ∧
    (((jarring [.start]).after .stop).run [.start]).journal.lastMute? = some false ∧
    (((jarring [.start]).after .stop).run startedAnew).signals = struckStop.signals + 1 ∧
    (((jarring [.start]).after .stop).run startedAnew).stream.processed =
      struckStop.stream.processed + 1 := by
  refine ⟨.stop (by decide +kernel) ⟨[], ⟨.rx, ⟨0x04⟩⟩, [], rfl, by decide +kernel, ?_,
    by decide +kernel⟩, by decide +kernel, by decide +kernel, by decide +kernel,
    by decide +kernel, by decide +kernel⟩
  rfl

end Engine

end DuplexAudio
