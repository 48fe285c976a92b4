/-
  The life cycle of an engine is coherent.

  Five operations with many early exits, the interrupts and the worker's end all move the same few
  values: the state, whether the devices were brought up, the worker, the link, the arming of the
  stream and the mute line.  This module proves that they always agree, in whatever order the
  operations are called, whichever of them fail, and whatever the interrupts and the processor do.

  **The invariant** is `Posture.Coherent`.  Its load-bearing half is weaker and much easier to keep:
  whatever is armed or unmuted has a worker to be ended with it (`Posture.Supervised`).  A halt of
  a supervised engine leaves it at rest (`Supervised.halted`), and an engine at rest is coherent in
  whichever state but running it is put next (`AtRest.coherent`).  So every path that ends in a halt
  is coherent for one and the same reason, and the only path that has to build the other half of the
  invariant is a start that succeeds (`promote_coherent`).

  Interrupts arrive between the operations here, not during a call on the codec.  During the mute of
  a stop they would break the invariant: the engine would be put ready with the error latched.
-/
import DuplexAudio.Bench.Board
import DuplexAudio.Bench.Instruments
import DuplexAudio.Proofs.Engine.Posture

namespace DuplexAudio

/-! ## The invariant -/

namespace Posture

/-- **What always agrees** in the posture of an engine. -/
structure Coherent (p : Posture) : Prop where
  /-- The stream listens exactly while running. -/
  armed_iff : p.armed = true ↔ p.state = .running
  /-- While running, the last mute command unmuted the output. -/
  running : p.state = .running →
    p.initialized = true ∧ p.held = true ∧ p.clocking = true ∧ p.faulted = false ∧
      p.lastMute = some false
  ready : p.state = .ready →
    p.initialized = true ∧ p.held = false ∧ p.clocking = false ∧ p.faulted = false
  stopped : p.state = .stopped → p.initialized = false ∧ p.held = false ∧ p.clocking = false
  held_iff : p.held = true ↔ p.clocking = true
  held_state : p.held = true → p.state = .running ∨ p.state = .fault
  /-- An output that was last unmuted still has its worker and its link. -/
  unmuted : p.lastMute = some false → p.held = true

/-- Whatever is armed or unmuted has a worker to be ended with it. -/
structure Supervised (p : Posture) : Prop where
  armed : p.armed = true → p.held = true
  unmuted : p.lastMute = some false → p.held = true

/-- Nothing is streaming, and nothing was left unmuted. -/
structure AtRest (p : Posture) : Prop where
  held : p.held = false
  clocking : p.clocking = false
  armed : p.armed = false
  muted : p.lastMute ≠ some false

variable {p : Posture}

theorem Coherent.toSupervised (h : p.Coherent) : p.Supervised where
  armed harmed := (h.running (h.armed_iff.mp harmed)).2.1
  unmuted := h.unmuted

/-- **A halt brings a supervised engine to rest.** -/
theorem Supervised.halted (h : p.Supervised) : p.halted.AtRest := by
  unfold Posture.halted
  by_cases hlive : p.held = true ∨ p.clocking = true
  · rw [if_pos hlive]
    exact ⟨rfl, rfl, rfl, fun hmute => Bool.noConfusion (Option.some.inj hmute)⟩
  · rw [if_neg hlive]
    obtain ⟨hheld, hclocking⟩ := not_or.mp hlive
    exact ⟨Bool.eq_false_iff.mpr hheld, Bool.eq_false_iff.mpr hclocking,
      Bool.eq_false_iff.mpr fun harmed => hheld (h.armed harmed),
      fun hmute => hheld (h.unmuted hmute)⟩

/-- What is not streaming is at rest. -/
theorem Coherent.atRest (h : p.Coherent) (hheld : p.held = false) : p.AtRest where
  held := hheld
  clocking := Bool.eq_false_iff.mpr fun hclocking =>
    Bool.eq_false_iff.mp hheld (h.held_iff.mpr hclocking)
  armed := Bool.eq_false_iff.mpr fun harmed =>
    Bool.eq_false_iff.mp hheld (h.toSupervised.armed harmed)
  muted hmute := Bool.eq_false_iff.mp hheld (h.unmuted hmute)

/-- **An engine at rest is coherent in every state but running** that agrees with whether it was
brought up. -/
theorem AtRest.coherent (h : p.AtRest) (hrunning : p.state ≠ .running)
    (hready : p.state = .ready → p.initialized = true ∧ p.faulted = false)
    (hstopped : p.state = .stopped → p.initialized = false) : p.Coherent where
  armed_iff := by
    rw [h.armed]
    exact ⟨fun harmed => absurd harmed Bool.false_ne_true, fun hstate => absurd hstate hrunning⟩
  running hstate := absurd hstate hrunning
  ready hstate := ⟨(hready hstate).1, h.held, h.clocking, (hready hstate).2⟩
  stopped hstate := ⟨hstopped hstate, h.held, h.clocking⟩
  held_iff := by rw [h.held, h.clocking]
  held_state hheld := by rw [h.held] at hheld; exact absurd hheld Bool.false_ne_true
  unmuted hmute := absurd hmute h.muted

theorem AtRest.coherent_fault (h : p.AtRest) :
    Coherent { p with state := .fault } :=
  AtRest.coherent ⟨h.held, h.clocking, h.armed, h.muted⟩ Lifecycle.noConfusion
    Lifecycle.noConfusion Lifecycle.noConfusion

/-- Muting agrees with an engine that was brought up and does not run. -/
theorem Coherent.muted (h : p.Coherent) (hstate : p.state = .ready ∨ p.state = .fault) :
    Coherent { p with lastMute := some true } where
  armed_iff := h.armed_iff
  running hrunning := by
    rcases hstate with hready | hfault
    · exact Lifecycle.noConfusion (hready.symm.trans hrunning)
    · exact Lifecycle.noConfusion (hfault.symm.trans hrunning)
  ready := h.ready
  stopped := h.stopped
  held_iff := h.held_iff
  held_state := h.held_state
  unmuted hmute := Bool.noConfusion (Option.some.inj hmute)

/-- **A transfer error** can only strike a running engine; its worker and its link stay, until the
halt is completed. -/
theorem Coherent.struck (h : p.Coherent) (harmed : p.armed = true) : p.struck.Coherent := by
  have hstate := h.armed_iff.mp harmed
  obtain ⟨-, hheld, hclocking, -, -⟩ := h.running hstate
  have hstruck : p.struck.state = .fault := by
    show p.state.afterError = .fault
    rw [hstate]
    rfl
  exact {
    armed_iff := by rw [hstruck]; exact ⟨Bool.noConfusion, Lifecycle.noConfusion⟩
    running := by rw [hstruck]; exact Lifecycle.noConfusion
    ready := by rw [hstruck]; exact Lifecycle.noConfusion
    stopped := by rw [hstruck]; exact Lifecycle.noConfusion
    held_iff := h.held_iff
    held_state := fun _ => .inr hstruck
    unmuted := h.unmuted }

@[simp] theorem halted_state (p : Posture) : p.halted.state = p.state := by
  unfold Posture.halted
  split <;> rfl

@[simp] theorem halted_initialized (p : Posture) : p.halted.initialized = p.initialized := by
  unfold Posture.halted
  split <;> rfl

@[simp] theorem halted_faulted (p : Posture) : p.halted.faulted = p.faulted := by
  unfold Posture.halted
  split <;> rfl

end Posture

/-! ## What every operation keeps -/

namespace Engine

variable {σ π η : Type} {e : Engine σ (Loopback Unit) π η}

theorem refuse_coherent (cause : EngineFailure) (h : e.posture.AtRest) :
    (e.refuse cause).2.posture.Coherent := by
  show (e.fail cause).posture.Coherent
  rw [posture_fail]
  exact h.coherent_fault

theorem retract_coherent (cause : EngineFailure) (hheld : e.posture.held = false)
    (hmuted : e.posture.lastMute ≠ some false) : (e.retract cause).2.posture.Coherent := by
  rw [posture_retract]
  exact Posture.AtRest.coherent_fault
    (p := { e.posture with armed := false, clocking := false }) ⟨hheld, rfl, rfl, hmuted⟩

theorem deliver_coherent (h : e.posture.Coherent) (event : Interrupt) :
    (e.deliver event).2.posture.Coherent := by
  have harmed : e.stream.armed = true → e.stream.fault = none := fun harmed => by
    have hfaulted := (h.running (h.armed_iff.mp harmed)).2.2.2.1
    exact Option.isNone_iff_eq_none.mp (Option.isSome_eq_false_iff.mp hfaulted)
  rcases e.posture_deliver event harmed with hsame | ⟨harmed, hstruck⟩
  · rwa [hsame]
  · rw [hstruck]
    exact h.struck harmed

variable [Codec σ] [Codec.Quiet σ]

theorem bringUp_coherent (h : e.posture.AtRest) : e.bringUp.2.posture.Coherent := by
  rcases e.posture_bringUp with ⟨-, hraised⟩ | ⟨-, hfault⟩
  · rw [hraised]
    exact Posture.AtRest.coherent ⟨h.held, h.clocking, rfl, h.muted⟩ Lifecycle.noConfusion
      (fun _ => ⟨rfl, rfl⟩) Lifecycle.noConfusion
  · rw [hfault]
    exact h.coherent_fault

theorem bringUp_state :
    e.bringUp.2.posture.state = .ready ∨ e.bringUp.2.posture.state = .fault := by
  rcases e.posture_bringUp with ⟨-, hraised⟩ | ⟨-, hfault⟩
  · rw [hraised]
    exact .inl rfl
  · rw [hfault]
    exact .inr rfl

variable [Processor π] [CartridgeHook η]

theorem halt_atRest (h : e.posture.Supervised) : e.halt.posture.AtRest := by
  rw [posture_halt]
  exact h.halted

/-- A halt is coherent wherever the engine is not left running. -/
theorem halt_coherent (h : e.posture.Supervised) (hrunning : e.posture.state ≠ .running)
    (hready : e.posture.state = .ready → e.posture.initialized = true ∧ e.posture.faulted = false)
    (hstopped : e.posture.state = .stopped → e.posture.initialized = false) :
    e.halt.posture.Coherent := by
  refine (halt_atRest h).coherent ?_ ?_ ?_
  · rwa [posture_halt, Posture.halted_state]
  · rwa [posture_halt, Posture.halted_state, Posture.halted_initialized, Posture.halted_faulted]
  · rwa [posture_halt, Posture.halted_state, Posture.halted_initialized]

theorem init_coherent (h : e.posture.Coherent) : e.init.2.posture.Coherent := by
  unfold init
  split
  · exact h
  · exact bringUp_coherent (halt_atRest h.toSupervised)

/-- **The unmuting end of a start.** With the link clocking, no fault latched and the state ready,
the engine runs. -/
theorem promote_coherent (hclocking : e.posture.clocking = true) (hstate : e.state = .ready)
    (hfault : e.stream.fault = none) (harmed : e.posture.armed = true)
    (hheld : e.posture.held = true) (hinitialized : e.posture.initialized = true) :
    e.promote.2.posture.Coherent := by
  have hrunning : ¬¬e.linkRunning = true := not_not_intro hclocking
  unfold promote
  rw [if_neg hrunning, if_pos ⟨Option.isNone_iff_eq_none.mpr hfault, hstate⟩]
  dsimp only
  rw [posture_log, posture_mute]
  have hfaulted : e.posture.faulted = false := by
    show e.stream.fault.isSome = false
    rw [hfault]
    rfl
  exact {
    armed_iff := ⟨fun _ => rfl, fun _ => harmed⟩
    running := fun _ => ⟨hinitialized, hheld, hclocking, hfaulted, rfl⟩
    ready := Lifecycle.noConfusion
    stopped := Lifecycle.noConfusion
    held_iff := ⟨fun _ => hclocking, fun _ => hheld⟩
    held_state := fun _ => .inl rfl
    unmuted := fun _ => hheld }

/-- The arming part of a start: a link that refuses and a worker that is not created leave the
engine at rest and at fault. -/
theorem arm_coherent (h : e.posture.AtRest) (hstate : e.posture.state = .ready)
    (hinitialized : e.posture.initialized = true) : e.arm.2.posture.Coherent := by
  have harmed : (e.resetStream.mapStream (·.setArmed true)).posture =
      { e.posture with armed := true, faulted := false } := by
    rw [posture_setArmed, posture_resetStream]
  have hlink := (e.resetStream.mapStream (·.setArmed true)).posture_startLink
  obtain ⟨cause, linked, hstart, harm⟩ | ⟨linked, hstart, hspawn⟩ := e.arm_cases
  · rw [hstart, harmed] at hlink
    obtain ⟨hok, -⟩ | ⟨-, hrefused⟩ := hlink
    · cases hok
    · rw [harm]
      refine retract_coherent _ ?_ ?_
      · rw [hrefused]
        exact h.held
      · rw [hrefused]
        exact h.muted
  · rw [hstart, harmed] at hlink
    obtain ⟨-, hstarted⟩ | ⟨⟨_, herror⟩, -⟩ := hlink
    · have hcreated := linked.posture_spawn
      rw [hstarted] at hcreated
      obtain ⟨spawned, hrefused, harm⟩ | ⟨spawned, hgiven, harm⟩ := hspawn
      · rw [hrefused] at hcreated
        obtain ⟨hok, -⟩ | ⟨-, hheld, hspawned⟩ := hcreated
        · cases hok
        · rw [harm]
          refine retract_coherent _ ?_ ?_
          · rw [hspawned]
            exact hheld
          · rw [hspawned]
            exact h.muted
      · -- the link clocks and the worker is there: the engine is promoted
        rw [hgiven] at hcreated
        obtain ⟨-, hspawned⟩ | ⟨herror, -⟩ := hcreated
        · rw [harm]
          refine promote_coherent ?_ ?_ ?_ ?_ ?_ ?_
          · rw [hspawned]
          · show spawned.posture.state = .ready
            rw [hspawned]
            exact hstate
          · have hfaulted : spawned.posture.faulted = false := by rw [hspawned]
            exact Option.isNone_iff_eq_none.mp (Option.isSome_eq_false_iff.mp hfaulted)
          · rw [hspawned]
          · rw [hspawned]
          · rw [hspawned]
            exact hinitialized
        · cases herror
    · cases herror

/-- A start of what was brought up, from the mute on. -/
theorem startReady_coherent (h : e.posture.Coherent)
    (hstate : e.posture.state = .ready ∨ e.posture.state = .fault) :
    e.startReady.2.posture.Coherent := by
  have hmuted : (e.mute true).posture.Coherent := by
    rw [posture_mute]
    exact h.muted hstate
  unfold startReady
  split
  · exact hmuted
  · next hfault =>
    have hready : (e.mute true).posture.state = .ready := by
      rw [posture_mute]
      exact hstate.resolve_right hfault
    have hconfigured := (e.mute true).posture_callCodec_of_none .configure rfl
    obtain ⟨hinitialized, hheld, -, -⟩ := hmuted.ready hready
    rw [← hconfigured] at hmuted hready hinitialized hheld
    split
    · next e' hcall =>
      rw [hcall] at hmuted hheld
      exact refuse_coherent _ (hmuted.atRest hheld)
    · next e' hcall =>
      rw [hcall] at hmuted hready hinitialized hheld
      exact arm_coherent (hmuted.atRest hheld) hready hinitialized

theorem start_coherent (h : e.posture.Coherent) : e.start.2.posture.Coherent := by
  unfold start
  split
  · exact h
  · next hrunning =>
    split
    · next hinitialized =>
      refine startReady_coherent h ?_
      cases hstate : e.posture.state with
      | stopped => exact absurd hinitialized (Bool.eq_false_iff.mp (h.stopped hstate).1)
      | ready => exact .inl rfl
      | running => exact absurd hstate hrunning
      | fault => exact .inr rfl
    · next hinitialized =>
      -- the implicit bring-up ends ready or at fault, so the mute after it agrees with the state
      have hinit : e.init = e.halt.bringUp := if_neg fun hup => hinitialized hup.1
      have hcoherent := init_coherent h
      have hstate := e.halt.bringUp_state
      rw [← hinit] at hstate
      split
      · next e' hcall =>
        rw [hcall] at hcoherent hstate
        rw [posture_mute]
        exact hcoherent.muted hstate
      · next e' hcall =>
        rw [hcall] at hcoherent hstate
        exact startReady_coherent hcoherent hstate

theorem stop_coherent (h : e.posture.Coherent) : e.stop.posture.Coherent := by
  unfold stop
  split
  · exact h
  · next hstate =>
    -- no error was latched while it ran, and the halt latches none
    obtain ⟨hinitialized, -, -, hfaulted, -⟩ := h.running hstate
    have hrest := halt_atRest h.toSupervised
    rw [posture_log]
    show Posture.Coherent { e.halt.posture with state := .ready }
    refine Posture.AtRest.coherent ⟨hrest.held, hrest.clocking, hrest.armed, hrest.muted⟩
      Lifecycle.noConfusion (fun _ => ?_) Lifecycle.noConfusion
    rw [posture_halt]
    exact ⟨(Posture.halted_initialized _).trans hinitialized,
      (Posture.halted_faulted _).trans hfaulted⟩
  · next hstate =>
    obtain ⟨hinitialized, -, -, hfaulted⟩ := h.ready hstate
    refine halt_coherent h.toSupervised ?_ (fun _ => ⟨hinitialized, hfaulted⟩) ?_
    · rw [show e.posture.state = .ready from hstate]
      exact Lifecycle.noConfusion
    · rw [show e.posture.state = .ready from hstate]
      exact Lifecycle.noConfusion
  · next hstate =>
    rw [← show e.posture.state = e.state from rfl] at hstate
    refine halt_coherent h.toSupervised ?_ ?_ ?_ <;> rw [hstate] <;> exact Lifecycle.noConfusion

theorem teardown_coherent (h : e.posture.Coherent) : e.teardown.posture.Coherent := by
  have hrest := halt_atRest h.toSupervised
  unfold teardown
  rw [posture_log]
  show Posture.Coherent { e.halt.posture with initialized := false, state := .stopped }
  exact Posture.AtRest.coherent ⟨hrest.held, hrest.clocking, hrest.armed, hrest.muted⟩
    Lifecycle.noConfusion Lifecycle.noConfusion fun _ => rfl

theorem halt_coherent_of_fault (h : e.posture.Supervised) (hstate : e.posture.state = .fault) :
    e.halt.posture.Coherent := by
  refine halt_coherent h ?_ ?_ ?_ <;> rw [hstate] <;> exact Lifecycle.noConfusion

theorem poll_coherent (h : e.posture.Coherent) : e.poll.2.posture.Coherent := by
  have hfailed := e.posture_fail .workerExited
  -- a worker that ended puts the engine at fault with the stream still armed, but it is still held,
  -- and so the same poll halts it
  have hnotice : e.noticeWorker.posture.Supervised ∧
      (e.noticeWorker.posture.Coherent ∨
        e.noticeWorker.posture.state = .fault ∧ e.noticeWorker.posture.held = true) := by
    unfold noticeWorker
    split
    · next hdead =>
      rw [hfailed]
      refine ⟨⟨h.toSupervised.armed, h.toSupervised.unmuted⟩, .inr ⟨rfl, ?_⟩⟩
      show e.worker.isHeld = true
      rw [hdead.1]
      rfl
    · exact ⟨h.toSupervised, .inl h⟩
  obtain ⟨hsupervised, hcoherent⟩ := hnotice
  unfold poll
  dsimp only
  split
  · next hhalts =>
    have hstate : e.noticeWorker.posture.state = .fault := hhalts.1
    split
    · refine halt_coherent_of_fault ?_ ?_
      · rwa [posture_log]
      · rwa [posture_log]
    · exact halt_coherent_of_fault hsupervised hstate
  · next hstays =>
    rcases hcoherent with hcoherent | ⟨hstate, hheld⟩
    · exact hcoherent
    · exact absurd ⟨hstate, .inl hheld⟩ hstays

/-! ## Every run -/

/-- **Every move keeps the engine coherent.** -/
theorem after_coherent (e : Engine σ (Loopback Unit) π η) (m : Move σ (Loopback Unit) π η)
    (h : e.posture.Coherent) : (e.after m).posture.Coherent := by
  cases m with
  | init => exact init_coherent h
  | start => exact start_coherent h
  | stop => exact stop_coherent h
  | poll => exact poll_coherent h
  | teardown => exact teardown_coherent h
  | registerPull hook =>
    have hsame : (e.after (.registerPull hook)).posture = e.posture := e.posture_whileIdle rfl
    rwa [hsame]
  | registerPush hook =>
    have hsame : (e.after (.registerPush hook)).posture = e.posture := e.posture_whileIdle rfl
    rwa [hsame]
  | editCartridges f =>
    have hsame : (e.after (.editCartridges f)).posture = e.posture := e.posture_whileIdle rfl
    rwa [hsame]
  | editProcessor f =>
    have hsame : (e.after (.editProcessor f)).posture = e.posture := e.posture_whileIdle rfl
    rwa [hsame]
  | mix f => exact h
  | interrupt event => exact deliver_coherent h event
  | wakeUp => exact e.posture_beginServe.symm ▸ h
  | finishBlock => exact e.posture_finishServe.symm ▸ h
  | capture half block =>
    show (e.mapStream _).posture.Coherent
    rw [posture_mapStream]
    exact h
  | codec f => exact h
  | link touch => exact h
  | threads refusal => exact h

omit [Codec σ] [Codec.Quiet σ] [Processor π] [CartridgeHook η] in
theorem new_coherent (codec : σ) {link : Loopback Unit} (hlink : link.running = false)
    (processor : π) (config : FrameLayout) :
    (new codec link processor config : Engine σ (Loopback Unit) π η).posture.Coherent :=
  have hmuted : Journal.lastMute? [] ≠ some false := by decide
  Posture.AtRest.coherent ⟨rfl, hlink, rfl, hmuted⟩ Lifecycle.noConfusion Lifecycle.noConfusion
    fun _ => rfl

/-- **The life cycle is coherent after every run**: whatever operations are called in whatever
order, however the codec answers, wherever the link refuses to start, and whatever interrupts arrive
and blocks unwind between them. -/
theorem run_coherent (codec : σ) {link : Loopback Unit} (hlink : link.running = false)
    (processor : π) (config : FrameLayout) (moves : List (Move σ (Loopback Unit) π η)) :
    ((new codec link processor config).run moves).posture.Coherent :=
  run_invariant after_coherent (new_coherent codec hlink processor config) moves

/-- On a test board: an engine that a transfer error struck while running, before the halt is
completed.  Worker and link are there, and the output is still unmuted. -/
theorem coherent_struck_board :
    ({} : Loopback Unit).running = false ∧
      ((new ⟨⟨{}⟩, ⟨some {}, true⟩⟩ {} .mixer {} :
          Engine Bench.BoardFrontEnd (Loopback Unit) Bench.Instrument Bench.Hook).run
        [.start, .interrupt ⟨.rx, ⟨0x04⟩⟩]).posture.Coherent ∧
      ((new ⟨⟨{}⟩, ⟨some {}, true⟩⟩ {} .mixer {} :
          Engine Bench.BoardFrontEnd (Loopback Unit) Bench.Instrument Bench.Hook).run
        [.start, .interrupt ⟨.rx, ⟨0x04⟩⟩]).posture.lastMute = some false :=
  ⟨rfl, run_coherent _ rfl _ _ _, by decide +kernel⟩

end Engine

end DuplexAudio
