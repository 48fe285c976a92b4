/-
  What keeps an engine quiet after a transfer error.

  The error arrives in the middle of things: the worker and the link are still there, the output is
  unmuted, and a pair may be published with its wake-up posted.  Any number of operations may come
  before the halt, and during each of their device calls further interrupts may arrive.

  1. **The invariant** is `Quiescent o e`: the stream of `e` is disarmed with a fault latched, no
     block is in progress, and whatever is played, counted and journaled is as in `o`, the engine
     that the error left, but for events that are quiet themselves.  A disarmed stream ignores every
     interrupt (`deliver_of_disarmed`), so no device call can break the invariant, and a latched
     fault refuses every block (`Quiescent.beginServe`), so a wake-up in flight does no more than
     take the pair.

  2. **What ends it** is a reset of the stream, and there are two ways to one: a move that brings
     the engine up (`renews`), and a start that finds it up and gets past the converters (`rearms`).
     Every list of moves with none of either keeps the invariant (`Quiescent.run`).

  3. **What bars the second way**: as long as the engine is at fault or was taken down, a start meets
     the fault or a bring-up before it gets to the stream (`Barred`).  Nothing but a bring-up lifts
     that (`Barred.after`).
-/
import DuplexAudio.Proofs.Engine.Running
import DuplexAudio.Proofs.Stream.Silence

namespace DuplexAudio

/-- Events that neither touch what is played nor unmute the output nor hand anything to the worker:
no event of a block or a hook, no command to unmute, and no interrupt that led to something. -/
def EngineEvent.isQuiet : EngineEvent → Bool
  | .stream _ | .codec (.setMute false) _ => false
  | .interrupt outcome _ => outcome = .idle
  | _ => true

namespace Engine

variable {σ τ π η : Type} {o e e' : Engine σ τ π η}

/-! ## The invariant -/

/-- Since the error left the engine `o`, it was quiet up to `e`, and will go on to be. -/
structure Quiescent (o e : Engine σ τ π η) : Prop where
  disarmed : e.stream.armed = false
  latched : ∃ d, e.stream.fault = some d
  outside : ∀ b, e.worker ≠ .inBlock b
  signals : e.signals = o.signals
  processed : e.stream.processed = o.stream.processed
  playback : e.stream.buffers.playback = o.stream.buffers.playback
  journal : ∃ events, e.journal = o.journal ++ events ∧ ∀ event ∈ events, event.isQuiet = true

/-- The quiet begins with a stream that is disarmed with a fault latched. -/
theorem Quiescent.here (disarmed : e.stream.armed = false) (latched : ∃ d, e.stream.fault = some d)
    (outside : ∀ b, e.worker ≠ .inBlock b) : Quiescent e e where
  disarmed := disarmed
  latched := latched
  outside := outside
  signals := rfl
  processed := rfl
  playback := rfl
  journal := ⟨[], (List.append_nil _).symm, fun _ hmem => absurd hmem List.not_mem_nil⟩

/-- A disarmed stream ignores every interrupt. -/
theorem deliver_of_disarmed (h : e.stream.armed = false) (event : Interrupt) :
    e.deliver event = (.idle, e) := by
  have hignored : e.stream.onInterrupt event = (.idle, e.stream) :=
    if_pos (Bool.eq_false_iff.mp h)
  unfold deliver
  rw [hignored]

namespace Quiescent

/-! ### What no interrupt and no device can break -/

theorem journaled (h : Quiescent o e) {events : Journal}
    (hquiet : ∀ event ∈ events, event.isQuiet = true) :
    Quiescent o { e with journal := e.journal ++ events } := by
  obtain ⟨earlier, hjournal, hearlier⟩ := h.journal
  refine { h with journal := ⟨earlier ++ events, ?_, fun event hmem => ?_⟩ }
  · rw [hjournal, List.append_assoc]
  · rcases List.mem_append.mp hmem with hmem | hmem
    · exact hearlier event hmem
    · exact hquiet event hmem

theorem record (h : Quiescent o e) {event : EngineEvent} (hquiet : event.isQuiet = true) :
    Quiescent o (e.record event) :=
  h.journaled fun _ hmem => List.mem_singleton.mp hmem ▸ hquiet

theorem log (h : Quiescent o e) (n : Notice) : Quiescent o (e.log n) := h.record rfl

theorem wires (h : Quiescent o e) (events : List WireEvent) :
    Quiescent o { e with journal := e.journal ++ events.map .wire } := by
  refine h.journaled fun event hmem => ?_
  obtain ⟨w, -, rfl⟩ := List.mem_map.mp hmem
  rfl

/-- Interrupts that arrive during a call are all ignored: induction on their list. -/
theorem absorb (h : Quiescent o e) (events : List Interrupt) : Quiescent o (e.absorb events) := by
  induction events generalizing e with
  | nil => exact h
  | cons event events ih =>
    refine ih (e := (e.deliver event).2.record
      (.interrupt (e.deliver event).1 (e.deliver event).2.state)) ?_
    rw [deliver_of_disarmed h.disarmed]
    exact h.record rfl

theorem fail (h : Quiescent o e) (cause : EngineFailure) : Quiescent o (e.fail cause) :=
  { h.log (.fault cause) with }

theorem callCodec [Codec σ] (h : Quiescent o e) {call : CodecCall} (hcall : call ≠ .setMute false) :
    Quiescent o (e.callCodec call).2 := by
  have hasked : Quiescent o (e.record (.codec call e.state)) := by
    refine h.record ?_
    cases call with
    | init | configure => rfl
    | setMute mute =>
      cases mute with
      | true => rfl
      | false => exact absurd rfl hcall
  have hwires := hasked.wires (Codec.call call e.codec).wires
  unfold Engine.callCodec
  refine absorb ?_ _
  exact { hwires with }

/-- Muting; a failure of the codec is logged. -/
theorem mute [Codec σ] (h : Quiescent o e) : Quiescent o (e.mute true) := by
  have hcall : Quiescent o (e.callCodec (.setMute true)).2 := h.callCodec (by decide)
  unfold Engine.mute
  split
  · next hresult =>
    rw [hresult] at hcall
    exact hcall
  · next hresult =>
    rw [hresult] at hcall
    exact hcall.log _

theorem configureLink [SerialLink τ] (h : Quiescent o e) : Quiescent o e.configureLink.2 := by
  have hasked : Quiescent o (e.record (.link .configure)) := h.record rfl
  have hwires := hasked.wires (SerialLink.configure e.config e.link).wires
  unfold Engine.configureLink answered
  refine absorb ?_ _
  exact { hwires with }

theorem stopLink [SerialLink τ] (h : Quiescent o e) : Quiescent o e.stopLink := by
  unfold Engine.stopLink
  refine Quiescent.record ?_ rfl
  exact { h with }

/-- What is done only while there is no worker is quiet if what is done is. -/
theorem whileIdle {α : Type} {f : Engine σ τ π η → α × Engine σ τ π η}
    (h : Quiescent o e) (hf : Quiescent o (f e).2) : Quiescent o (e.whileIdle f).2 := by
  unfold Engine.whileIdle
  split
  · exact h
  · exact hf

theorem mapStream (h : Quiescent o e) {f : Stream → Stream}
    (harmed : (f e.stream).armed = e.stream.armed) (hfault : (f e.stream).fault = e.stream.fault)
    (hprocessed : (f e.stream).processed = e.stream.processed)
    (hplayback : (f e.stream).buffers.playback = e.stream.buffers.playback) :
    Quiescent o (e.mapStream f) where
  disarmed := harmed.trans h.disarmed
  latched := h.latched.imp fun _ hlatched => hfault.trans hlatched
  outside := h.outside
  signals := h.signals
  processed := hprocessed.trans h.processed
  playback := hplayback.trans h.playback
  journal := h.journal

/-! ### The worker and a halt -/

section Worker

variable [CartridgeHook η]

/-- **A wake-up in flight** takes the published pair, and that is all: no block is begun while a
fault is latched. -/
theorem beginServe (h : Quiescent o e) : Quiescent o e.beginServe := by
  obtain ⟨d, hfault⟩ := h.latched
  unfold Engine.beginServe
  split
  · split
    · next stream htake =>
      have hstream : stream = e.stream.takePair.2 := (congrArg Prod.snd htake).symm
      rw [hstream]
      exact { h with }
    · next half stream htake =>
      have hstream : stream = e.stream.takePair.2 := (congrArg Prod.snd htake).symm
      have hrefused : stream.accepts = false := by
        rw [hstream]
        exact Stream.accepts_of_fault (d := d) hfault
      rw [if_neg (Bool.eq_false_iff.mp hrefused), hstream]
      exact { h with }
  · exact h

variable [Processor π]

theorem finishServe (h : Quiescent o e) : Quiescent o e.finishServe := by
  rw [finishServe_outside h.outside]
  exact h

theorem join (h : Quiescent o e) : Quiescent o e.join := by
  have hended (wake : Bool) :
      Quiescent o ({ e.finishServe with worker := .absent, wake }.record .joined) := by
    refine Quiescent.record ?_ rfl
    exact { h.finishServe with outside := fun _ => Worker.noConfusion }
  unfold Engine.join
  dsimp only
  split
  · exact h.finishServe
  · exact (hended true).log _
  · exact hended false
  · exact hended false

theorem halt [Codec σ] [SerialLink τ] (h : Quiescent o e) : Quiescent o e.halt := by
  have hmuted : Quiescent o ((e.mute true).mapStream (·.setArmed false)) :=
    { h.mute with disarmed := rfl }
  unfold Engine.halt
  split
  · exact h
  · exact hmuted.stopLink.join

end Worker

/-! ### Bring-ups and starts -/

/-- A bring-up that fails has failed before the stream was reset. -/
theorem bringUp [Codec σ] [SerialLink τ] (h : Quiescent o e) (hfailed : e.bringUp.1.isOk = false) :
    Quiescent o e.bringUp.2 := by
  have hinit : Quiescent o (e.callCodec .init).2 := h.callCodec CodecCall.noConfusion
  revert hfailed
  unfold Engine.bringUp
  split
  · next hcall =>
    rw [hcall] at hinit
    exact fun _ => hinit.fail _
  · next e' hcall =>
    rw [hcall] at hinit
    have hconfigure := hinit.configureLink
    split
    · next hlink =>
      rw [hlink] at hconfigure
      exact fun _ => hconfigure.fail _
    · exact fun hfailed => Bool.noConfusion hfailed

section Operations

variable [Codec σ] [SerialLink τ] [Processor π] [CartridgeHook η]

theorem stop (h : Quiescent o e) : Quiescent o e.stop := by
  unfold Engine.stop
  split
  · exact h
  · refine Quiescent.log ?_ _
    exact { h.halt with }
  · exact h.halt
  · exact h.halt

theorem poll (h : Quiescent o e) : Quiescent o e.poll.2 := by
  have hnotice : Quiescent o e.noticeWorker := by
    unfold noticeWorker
    split
    · exact h.fail _
    · exact h
  unfold Engine.poll
  dsimp only
  split
  · split
    · exact (hnotice.log _).halt
    · exact hnotice.halt
  · exact hnotice

theorem teardown (h : Quiescent o e) : Quiescent o e.teardown := by
  unfold Engine.teardown
  refine Quiescent.log ?_ _
  exact { h.halt with }

end Operations

end Quiescent

/-! ## What resets the stream -/

/-- What a start asks of the converters of an engine that was brought up. -/
def configuring [Codec σ] (e : Engine σ τ π η) : Except CodecFailure Unit × Engine σ τ π η :=
  (e.mute true).callCodec .configure

section Moves

variable [Codec σ] [SerialLink τ] [Processor π] [CartridgeHook η] [LinkProbe τ]

/-- A move that brings the engine up, and so resets the stream. -/
def renews (e : Engine σ τ π η) : Move σ τ π η → Bool
  | .init => !(e.initialized && e.state ≠ .fault) && e.init.1.isOk
  | .start => e.state ≠ .running && !e.initialized && e.init.1.isOk
  | _ => false

/-- A move that gets to the stream of an engine that was brought up before, and resets it. -/
def rearms (e : Engine σ τ π η) : Move σ τ π η → Bool
  | .start => e.state ≠ .running && e.state ≠ .fault && e.initialized && e.configuring.1.isOk
  | _ => false

/-- A move that resets the stream. -/
def resets (e : Engine σ τ π η) (m : Move σ τ π η) : Bool := e.renews m || e.rearms m

/-- A list of moves with one in it of which `p` holds where it finds the engine. -/
def meets (e : Engine σ τ π η) (p : Engine σ τ π η → Move σ τ π η → Bool) :
    List (Move σ τ π η) → Bool
  | [] => false
  | m :: rest => p e m || (e.after m).meets p rest

/-! ### One move that does not -/

omit [LinkProbe τ] in
/-- An `init` that has something to do either succeeds or ends at fault. -/
theorem state_init_of_failed (hfailed : e.init.1.isOk = false) : e.init.2.state = .fault := by
  revert hfailed
  unfold init
  split
  · exact fun hfailed => Bool.noConfusion hfailed
  · intro hfailed
    rcases e.halt.bringUp_cases with ⟨hok, -⟩ | ⟨-, hfault⟩
    · rw [hok] at hfailed
      exact Bool.noConfusion hfailed
    · exact hfault

namespace Quiescent

theorem init (h : Quiescent o e) (hm : e.renews .init = false) : Quiescent o e.init.2 := by
  have hfailed : (!(e.initialized && e.state ≠ .fault) && e.init.1.isOk) = false := hm
  revert hfailed
  unfold Engine.init
  split
  · exact fun _ => h
  · next hdown =>
    intro hfailed
    refine h.halt.bringUp ?_
    have hneeded : (e.initialized && e.state ≠ .fault) = false :=
      Bool.eq_false_iff.mpr fun hup => hdown (by simpa using hup)
    rwa [hneeded] at hfailed

omit [LinkProbe τ] in
/-- A start of an engine that was brought up gets no further than to the converters. -/
theorem startReady (h : Quiescent o e)
    (hfailed : e.state ≠ .fault → e.configuring.1.isOk = false) : Quiescent o e.startReady.2 := by
  have hasked : Quiescent o e.configuring.2 := h.mute.callCodec CodecCall.noConfusion
  unfold Engine.startReady
  split
  · exact h.mute
  · next hfault =>
    have hrefused := hfailed hfault
    split
    · next hcall =>
      rw [show e.configuring = _ from hcall] at hasked
      exact hasked.fail _
    · next hcall =>
      rw [show e.configuring = _ from hcall] at hrefused
      exact Bool.noConfusion hrefused

theorem start (h : Quiescent o e) (hrenews : e.renews .start = false)
    (hrearms : e.rearms .start = false) : Quiescent o e.start.2 := by
  by_cases hrunning : e.state = .running
  · rw [start_of_running hrunning]
    exact h
  · cases hinitialized : e.initialized with
    | true =>
      have hstart : e.start = e.startReady := by
        unfold Engine.start
        rw [if_neg hrunning, if_pos hinitialized]
      rw [hstart]
      refine h.startReady fun hfault => ?_
      simpa [rearms, hrunning, hfault, hinitialized] using hrearms
    | false =>
      have hfailed : e.init.1.isOk = false := by
        simpa [renews, hrunning, hinitialized] using hrenews
      have hinit : Quiescent o e.init.2 := h.init (by simp [renews, hfailed])
      cases hresult : e.init.1 with
      | ok =>
        rw [hresult] at hfailed
        exact Bool.noConfusion hfailed
      | error cause =>
        rw [start_of_not_initialized hrunning hinitialized hresult]
        exact hinit.mute

/-- **One move** that does not reset the stream. -/
theorem after (h : Quiescent o e) {m : Move σ τ π η} (hm : e.resets m = false) :
    Quiescent o (e.after m) := by
  obtain ⟨hrenews, hrearms⟩ := Bool.or_eq_false_iff.mp hm
  cases m with
  | init => exact h.init hrenews
  | start => exact h.start hrenews hrearms
  | stop => exact h.stop
  | poll => exact h.poll
  | teardown => exact h.teardown
  | registerPull | registerPush | editCartridges | editProcessor => exact h.whileIdle { h with }
  | interrupt event =>
    have hignored : e.after (.interrupt event) = e :=
      congrArg Prod.snd (deliver_of_disarmed h.disarmed event)
    rw [hignored]
    exact h
  | wakeUp => exact h.beginServe
  | finishBlock => exact h.finishServe
  | capture half block =>
    let store (s : Stream) : Stream := { s with buffers := s.buffers.writeCapture half block }
    have hplayback : (store e.stream).buffers.playback = e.stream.buffers.playback :=
      Buffers.playback_writeCapture _ half block
    exact h.mapStream rfl rfl rfl hplayback
  | mix | codec | link | threads => exact { h with }

/-- **Every list of moves** in which none resets the stream: induction on the list. -/
theorem run (h : Quiescent o e) {moves : List (Move σ τ π η)}
    (hmoves : e.meets resets moves = false) : Quiescent o (e.run moves) := by
  induction moves generalizing e with
  | nil => exact h
  | cons m moves ih =>
    obtain ⟨hm, hrest⟩ := Bool.or_eq_false_iff.mp hmoves
    exact ih (h.after hm) hrest

end Quiescent

/-! ### What keeps a start from it -/

/-- A start meets a fault or a bring-up before it gets to the stream. -/
def Barred (e : Engine σ τ π η) : Prop := e.state = .fault ∨ e.initialized = false

omit [Codec σ] [SerialLink τ] [Processor π] [CartridgeHook η] [LinkProbe τ] in
theorem Calm.barred (h : Calm e e') (hbarred : e.Barred) : e'.Barred := by
  rcases hbarred with hfault | hdown
  · exact .inl (h.state hfault)
  · exact .inr (h.initialized.trans hdown)

omit [SerialLink τ] [Processor π] [CartridgeHook η] in
theorem Barred.rearms (h : e.Barred) (m : Move σ τ π η) : e.rearms m = false := by
  cases m with
  | start =>
    rcases h with hfault | hdown
    · simp [Engine.rearms, hfault]
    · simp [Engine.rearms, hdown]
  | _ => rfl

/-- A barred start only mutes, or tries a bring-up first. -/
theorem Barred.start (h : e.Barred) (hm : e.renews .start = false) : e.start.2.Barred := by
  by_cases hrunning : e.state = .running
  · rw [start_of_running hrunning]
    exact h
  · cases hinitialized : e.initialized with
    | true =>
      have hfault : e.state = .fault := by
        rcases h with hfault | hdown
        · exact hfault
        · rw [hdown] at hinitialized
          exact Bool.noConfusion hinitialized
      rw [start_of_fault hfault hinitialized]
      exact (e.calm_mute true).barred h
    | false =>
      have hfailed : e.init.1.isOk = false := by
        simpa [renews, hrunning, hinitialized] using hm
      cases hresult : e.init.1 with
      | ok =>
        rw [hresult] at hfailed
        exact Bool.noConfusion hfailed
      | error cause =>
        rw [start_of_not_initialized hrunning hinitialized hresult]
        have hfault := state_init_of_failed hfailed
        exact .inl ((interrupted_mute _ true).fault_of_fault hfault)

/-- **One move** that does not bring the engine up leaves the bar where it is. -/
theorem Barred.after (h : e.Barred) {m : Move σ τ π η} (hm : e.renews m = false) :
    (e.after m).Barred := by
  rcases e.after_cases m with rfl | rfl | rfl | hcalm
  · have hneeded : (e.initialized && e.state ≠ .fault) = false := by
      rcases h with hfault | hdown
      · simp [hfault]
      · simp [hdown]
    have hfailed : (!(e.initialized && e.state ≠ .fault) && e.init.1.isOk) = false := hm
    rw [hneeded] at hfailed
    exact .inl (state_init_of_failed hfailed)
  · exact h.start hm
  · exact .inr rfl
  · exact hcalm.barred h

/-- A barred engine meets no reset of its stream before it is brought up.  Induction on the list. -/
theorem Barred.meets_resets (h : e.Barred) {moves : List (Move σ τ π η)}
    (hmoves : e.meets renews moves = false) : e.meets resets moves = false := by
  induction moves generalizing e with
  | nil => rfl
  | cons m moves ih =>
    obtain ⟨hm, hrest⟩ := Bool.or_eq_false_iff.mp hmoves
    refine Bool.or_eq_false_iff.mpr ⟨?_, ih (h.after hm) hrest⟩
    exact Bool.or_eq_false_iff.mpr ⟨hm, h.rearms m⟩

end Moves

/-! ## How it begins -/

/-- **The error** that puts a running engine at fault disarms the stream and is latched. -/
theorem latched_of_error (hnone : e.stream.fault = none) (hrunning : e.state = .running)
    {event : Interrupt} (herror : (e.deliver event).2.state = .fault) :
    (e.deliver event).2.stream.armed = false ∧
      ∃ d, (e.deliver event).2.stream.fault = some d := by
  unfold deliver at herror ⊢
  rcases e.stream.onInterrupt_cases event with
    ⟨-, hout⟩ | ⟨error, -, hfailure, -⟩ | ⟨error, -, -, hout⟩ | ⟨ready, pairs, -, -, -, hout⟩
  · rw [hout] at herror
    exact absurd (hrunning.symm.trans herror) Lifecycle.noConfusion
  · -- nothing is latched while running
    rw [Stream.failure?, hnone] at hfailure
    exact absurd hfailure (Option.some_ne_none error).symm
  · rw [hout]
    refine ⟨rfl, event.direction, ?_⟩
    show e.stream.fault.or (some event.direction) = some event.direction
    rw [hnone]
    rfl
  · rw [hout] at herror
    cases ready with
    | none => exact absurd (hrunning.symm.trans herror) Lifecycle.noConfusion
    | some half => exact absurd (hrunning.symm.trans herror) Lifecycle.noConfusion

end Engine

end DuplexAudio
