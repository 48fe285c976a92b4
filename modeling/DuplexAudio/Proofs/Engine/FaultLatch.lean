/-
  How firmly a fault is latched.

  An engine at fault should stay there until it is brought up afresh or taken down, and should
  refuse to start meanwhile without touching the converters or the link.  Here the devices are
  arbitrary: they may fail at any call and raise any interrupts during it.

  **The latch holds exactly while the engine is initialized** (`latched_iff_initialized`).
  Everything that does not bring devices up is `Calm`: it leaves a fault standing, it leaves
  `initialized` as it is, and it asks for nothing that belongs to a bring-up.  A start of an
  initialized engine at fault is calm, because the guard on the state is the first thing it meets.

  A start of an engine that is not initialized meets the implicit `init` before that guard.  So a
  fault from a failed bring-up, the first one or the first after a teardown, is not latched: the
  next start tries the bring-up again, and runs if it succeeds (`not_latched_failed_bringUp`).
-/
import DuplexAudio.Bench.EngineBench
import DuplexAudio.Proofs.Engine.Run

namespace DuplexAudio

/-- Calls that belong to a bring-up or to a start. -/
def EngineEvent.bringsUp : EngineEvent → Bool
  | .codec .init _ | .codec .configure _ | .link .configure | .link .start => true
  | _ => false

theorem EngineFailure.ofCodec_ne_faulted (cause : CodecFailure) : ofCodec cause ≠ .faulted := by
  unfold ofCodec
  split <;> exact EngineFailure.noConfusion

namespace Engine

variable {σ τ π η : Type} {e e' e'' : Engine σ τ π η}

/-! ## What brings nothing up -/

/-- A fault is left standing and nothing is brought up on the way from one engine to another. -/
structure Calm (e e' : Engine σ τ π η) : Prop where
  state : e.state = .fault → e'.state = .fault
  initialized : e'.initialized = e.initialized
  journal : ∃ events, e'.journal = e.journal ++ events ∧ ∀ event ∈ events, event.bringsUp = false

/-- Whatever does not show in the state and the journal is calm. -/
theorem Calm.of_eq (hstate : e'.state = e.state) (hinitialized : e'.initialized = e.initialized)
    (hjournal : e'.journal = e.journal) : Calm e e' where
  state h := hstate.trans h
  initialized := hinitialized
  journal := ⟨[], by rw [hjournal, List.append_nil], fun _ hmem => absurd hmem List.not_mem_nil⟩

theorem Calm.refl (e : Engine σ τ π η) : Calm e e := .of_eq rfl rfl rfl

theorem Calm.trans (h : Calm e e') (h' : Calm e' e'') : Calm e e'' := by
  obtain ⟨events, hjournal, hevents⟩ := h.journal
  obtain ⟨events', hjournal', hevents'⟩ := h'.journal
  refine ⟨fun hstate => h'.state (h.state hstate), h'.initialized.trans h.initialized,
    events ++ events', ?_, ?_⟩
  · rw [hjournal', hjournal, List.append_assoc]
  · intro event hmem
    rcases List.mem_append.mp hmem with hmem | hmem
    · exact hevents event hmem
    · exact hevents' event hmem

theorem Calm.journaled (h : Calm e e') {events : Journal}
    (hevents : ∀ event ∈ events, event.bringsUp = false) :
    Calm e { e' with journal := e'.journal ++ events } :=
  h.trans ⟨id, rfl, events, rfl, hevents⟩

theorem Calm.record (h : Calm e e') {event : EngineEvent} (hevent : event.bringsUp = false) :
    Calm e (e'.record event) :=
  h.journaled fun _ hmem => List.mem_singleton.mp hmem ▸ hevent

theorem Calm.log (h : Calm e e') (n : Notice) : Calm e (e'.log n) := h.record rfl

theorem Calm.joined (h : Calm e e') (wake : Bool) :
    Calm e ({ e' with worker := .absent, wake }.record .joined) := by
  refine Calm.record (h.trans ?_) rfl
  exact .of_eq rfl rfl rfl

theorem Calm.recordStream (h : Calm e e') (events : List StreamEvent) :
    Calm e (e'.recordStream events) := by
  refine h.journaled fun event hmem => ?_
  obtain ⟨s, -, rfl⟩ := List.mem_map.mp hmem
  rfl

theorem Calm.wires (h : Calm e e') (events : List WireEvent) :
    Calm e { e' with journal := e'.journal ++ events.map .wire } := by
  refine h.journaled fun event hmem => ?_
  obtain ⟨w, -, rfl⟩ := List.mem_map.mp hmem
  rfl

theorem calm_fail (e : Engine σ τ π η) (cause : EngineFailure) : Calm e (e.fail cause) :=
  ⟨fun _ => rfl, rfl, ((Calm.refl e).log (.fault cause)).journal⟩

theorem calm_deliver (e : Engine σ τ π η) (event : Interrupt) : Calm e (e.deliver event).2 := by
  unfold deliver
  obtain ⟨outcome, stream⟩ := e.stream.onInterrupt event
  cases outcome with
  | idle => exact .of_eq rfl rfl rfl
  | pairReady half => exact .of_eq rfl rfl rfl
  | fault error =>
    refine ⟨fun hstate => ?_, rfl, (Calm.refl e).journal⟩
    show e.state.afterError = .fault
    rw [hstate]
    rfl

/-- Interrupts that arrive during a call leave a fault standing: induction on their list. -/
theorem calm_absorb (e : Engine σ τ π η) (events : List Interrupt) : Calm e (e.absorb events) := by
  induction events generalizing e with
  | nil => exact .refl e
  | cons event events ih =>
    have hstep : Calm e ((e.deliver event).2.record
        (.interrupt (e.deliver event).1 (e.deliver event).2.state)) :=
      (e.calm_deliver event).record rfl
    exact hstep.trans (ih _)

theorem calm_mapStream (e : Engine σ τ π η) (f : Stream → Stream) : Calm e (e.mapStream f) :=
  .of_eq rfl rfl rfl

theorem calm_whileIdle {α : Type} {f : Engine σ τ π η → α × Engine σ τ π η}
    (h : Calm e (f e).2) : Calm e (e.whileIdle f).2 := by
  unfold whileIdle
  split
  · exact .refl e
  · exact h

/-! ## The worker, a halt and the operations that only halt -/

section Worker

variable [CartridgeHook η]

theorem calm_beginServe (e : Engine σ τ π η) : Calm e e.beginServe := by
  unfold beginServe
  split
  · split
    · exact .of_eq rfl rfl rfl
    · split
      · dsimp only [Stream.beginBlock]
        refine Calm.recordStream ?_ _
        exact .of_eq rfl rfl rfl
      · exact .of_eq rfl rfl rfl
  · exact .refl e

variable [Processor π]

theorem calm_finishServe (e : Engine σ τ π η) : Calm e e.finishServe := by
  unfold finishServe
  split
  · dsimp only
    refine Calm.recordStream ?_ _
    exact .of_eq rfl rfl rfl
  · exact .refl e

theorem calm_join (e : Engine σ τ π η) : Calm e e.join := by
  have hfinish := e.calm_finishServe
  unfold join
  dsimp only
  split
  · exact hfinish
  · exact (hfinish.joined true).log _
  · exact hfinish.joined false
  · exact hfinish.joined false

end Worker

theorem calm_mute [Codec σ] (e : Engine σ τ π η) (mute : Bool) : Calm e (e.mute mute) := by
  have hcall : Calm e (e.callCodec (.setMute mute)).2 := by
    have hasked : Calm e (e.record (.codec (.setMute mute) e.state)) := (Calm.refl e).record rfl
    unfold callCodec
    refine Calm.trans ?_ (calm_absorb _ _)
    exact ⟨hasked.state, hasked.initialized, (hasked.wires _).journal⟩
  unfold Engine.mute
  split
  · next hresult =>
    rw [hresult] at hcall
    exact hcall
  · next hresult =>
    rw [hresult] at hcall
    exact hcall.log _

theorem calm_stopLink [SerialLink τ] (e : Engine σ τ π η) : Calm e e.stopLink := by
  unfold stopLink
  refine Calm.record ?_ rfl
  exact .of_eq rfl rfl rfl

section Operations

variable [Codec σ] [SerialLink τ] [Processor π] [CartridgeHook η]

theorem calm_halt (e : Engine σ τ π η) : Calm e e.halt := by
  unfold halt
  split
  · exact .refl e
  · exact (((e.calm_mute true).trans (calm_mapStream _ _)).trans (calm_stopLink _)).trans
      (calm_join _)

theorem calm_stop (e : Engine σ τ π η) : Calm e e.stop := by
  unfold stop
  split
  · exact .refl e
  · next hrunning =>
    have hhalt := e.calm_halt
    refine Calm.log ?_ _
    refine ⟨fun hfault => ?_, hhalt.initialized, hhalt.journal⟩
    rw [hrunning] at hfault
    exact absurd hfault Lifecycle.noConfusion
  · exact e.calm_halt
  · exact e.calm_halt

theorem calm_poll (e : Engine σ τ π η) : Calm e e.poll.2 := by
  have hnotice : Calm e e.noticeWorker := by
    unfold noticeWorker
    split
    · exact e.calm_fail _
    · exact .refl e
  unfold poll
  dsimp only
  split
  · split
    · exact (hnotice.log _).trans (calm_halt _)
    · exact hnotice.trans (calm_halt _)
  · exact hnotice

/-- An `init` of an engine that is up does nothing. -/
theorem init_of_up (h : e.initialized = true ∧ e.state ≠ .fault) : e.init = (.ok (), e) := if_pos h

/-- A start of an engine that is running does nothing. -/
theorem start_of_running (h : e.state = .running) : e.start = (.ok (), e) := if_pos h

/-- **A start of an initialized engine at fault** mutes, and that is all. -/
theorem start_of_fault (h : e.state = .fault) (hinitialized : e.initialized = true) :
    e.start = (.error .faulted, e.mute true) := by
  have hrunning : e.state ≠ .running := by
    rw [h]
    exact Lifecycle.noConfusion
  unfold start startReady
  rw [if_neg hrunning, if_pos hinitialized, if_pos h]

end Operations

/-! ## A bring-up, and a start of what was not brought up -/

/-- A bring-up ends ready, or at fault with a cause of its own. -/
theorem bringUp_cases [Codec σ] [SerialLink τ] (e : Engine σ τ π η) :
    (e.bringUp.1 = .ok () ∧ e.bringUp.2.state = .ready) ∨
      (∃ cause, e.bringUp.1 = .error cause ∧ cause ≠ .faulted) ∧ e.bringUp.2.state = .fault := by
  unfold bringUp
  split
  · next cause _ _ =>
    exact .inr ⟨⟨_, rfl, EngineFailure.ofCodec_ne_faulted cause⟩, rfl⟩
  · split
    · exact .inr ⟨⟨_, rfl, EngineFailure.noConfusion⟩, rfl⟩
    · exact .inl ⟨rfl, rfl⟩

section Start

variable [Codec σ] [SerialLink τ] [Processor π] [CartridgeHook η]

/-- A fault is always brought up afresh, whether or not the engine was initialized. -/
theorem init_of_fault (h : e.state = .fault) : e.init = e.halt.bringUp :=
  if_neg fun hup => hup.2 h

theorem promote_ne_faulted (e : Engine σ τ π η) : e.promote.1 ≠ .error .faulted := by
  unfold promote
  split
  · exact fun h => EngineFailure.noConfusion (Except.error.inj h)
  · split
    · exact fun h => nomatch h
    · exact fun h => EngineFailure.noConfusion (Except.error.inj h)

theorem arm_ne_faulted (e : Engine σ τ π η) : e.arm.1 ≠ .error .faulted := by
  obtain ⟨_, _, -, harm⟩ | ⟨_, -, ⟨_, -, harm⟩ | ⟨spawned, -, harm⟩⟩ := e.arm_cases
  · rw [harm]
    exact fun h => EngineFailure.noConfusion (Except.error.inj h)
  · rw [harm]
    exact fun h => EngineFailure.noConfusion (Except.error.inj h)
  · rw [harm]
    exact spawned.promote_ne_faulted

/-- Only the guard on the state answers that the engine is at fault. -/
theorem startReady_ne_faulted (h : e.state ≠ .fault) : e.startReady.1 ≠ .error .faulted := by
  unfold startReady
  rw [if_neg h]
  split
  · next cause _ _ =>
    exact fun h => EngineFailure.ofCodec_ne_faulted cause (Except.error.inj h)
  · exact arm_ne_faulted _

/-- Without `initialized`, a start begins with a bring-up; if that fails it mutes and hands on the
cause. -/
theorem start_of_not_initialized (hrunning : e.state ≠ .running)
    (hinitialized : e.initialized = false) {cause : EngineFailure}
    (hinit : e.init.1 = .error cause) : e.start = (.error cause, e.init.2.mute true) := by
  unfold start
  rw [if_neg hrunning, if_neg (Bool.eq_false_iff.mp hinitialized)]
  split
  · next hresult =>
    rw [hresult] at hinit
    cases hinit
    rw [hresult]
  · next hresult =>
    rw [hresult] at hinit
    cases hinit

/-- **A start that was never brought up** does not meet the guard on the state. -/
theorem start_ne_faulted (h : e.state = .fault) (hinitialized : e.initialized = false) :
    e.start.1 ≠ .error .faulted := by
  have hrunning : e.state ≠ .running := by
    rw [h]
    exact Lifecycle.noConfusion
  have hbringUp := e.halt.bringUp_cases
  rw [← init_of_fault h] at hbringUp
  rcases hbringUp with ⟨hok, hready⟩ | ⟨⟨cause, herror, hcause⟩, -⟩
  · -- the bring-up succeeded, and the state is ready when the guard is met
    unfold start
    rw [if_neg hrunning, if_neg (Bool.eq_false_iff.mp hinitialized)]
    split
    · next hinit =>
      rw [hinit] at hok
      cases hok
    · next hinit =>
      rw [hinit] at hready
      refine startReady_ne_faulted ?_
      rw [hready]
      exact Lifecycle.noConfusion
  · rw [start_of_not_initialized hrunning hinitialized herror]
    exact fun hsame => hcause (Except.error.inj hsame)

variable [LinkProbe τ]

/-- Every move but a bring-up, a start and a teardown is calm. -/
theorem after_cases (e : Engine σ τ π η) (m : Move σ τ π η) :
    m = .init ∨ m = .start ∨ m = .teardown ∨ Calm e (e.after m) := by
  cases m with
  | init => exact .inl rfl
  | start => exact .inr (.inl rfl)
  | teardown => exact .inr (.inr (.inl rfl))
  | stop => exact .inr (.inr (.inr e.calm_stop))
  | poll => exact .inr (.inr (.inr e.calm_poll))
  | registerPull hook => exact .inr (.inr (.inr (calm_whileIdle (.of_eq rfl rfl rfl))))
  | registerPush hook => exact .inr (.inr (.inr (calm_whileIdle (.of_eq rfl rfl rfl))))
  | editCartridges f => exact .inr (.inr (.inr (calm_whileIdle (.of_eq rfl rfl rfl))))
  | editProcessor f => exact .inr (.inr (.inr (calm_whileIdle (.of_eq rfl rfl rfl))))
  | interrupt event => exact .inr (.inr (.inr (e.calm_deliver event)))
  | wakeUp => exact .inr (.inr (.inr e.calm_beginServe))
  | finishBlock => exact .inr (.inr (.inr e.calm_finishServe))
  | capture half block =>
    exact .inr (.inr (.inr (e.calm_mapStream fun s =>
      { s with buffers := s.buffers.writeCapture half block })))
  | mix | codec | link | threads => exact .inr (.inr (.inr (.of_eq rfl rfl rfl)))

/-! ## The latch -/

/-- **The ways out of a fault**: an `init` that succeeds, a teardown, and the `init` inside the
start of an engine that is not initialized. -/
theorem left_of_fault (h : e.state = .fault) {m : Move σ τ π η}
    (hleft : (e.after m).state ≠ .fault) :
    (m = .init ∧ e.init.1 = .ok () ∧ (e.after m).state = .ready) ∨
      (m = .teardown ∧ (e.after m).state = .stopped) ∨
      (m = .start ∧ e.initialized = false ∧ e.init.1 = .ok ()) := by
  have hbringUp := e.halt.bringUp_cases
  rw [← init_of_fault h] at hbringUp
  rcases e.after_cases m with rfl | rfl | rfl | hcalm
  · rcases hbringUp with ⟨hok, hready⟩ | ⟨-, hfault⟩
    · exact .inl ⟨rfl, hok, hready⟩
    · exact absurd hfault hleft
  · right; right
    have hleft' : e.start.2.state ≠ .fault := hleft
    cases hinitialized : e.initialized with
    | true =>
      -- the guard on the state: a mute, and no more
      rw [start_of_fault h hinitialized] at hleft'
      exact absurd ((e.calm_mute true).state h) hleft'
    | false =>
      rcases hbringUp with ⟨hok, -⟩ | ⟨⟨cause, herror, -⟩, hfault⟩
      · exact ⟨rfl, rfl, hok⟩
      · have hrunning : e.state ≠ .running := by
          rw [h]
          exact Lifecycle.noConfusion
        rw [start_of_not_initialized hrunning hinitialized herror] at hleft'
        exact absurd ((calm_mute _ true).state hfault) hleft'
  · exact .inr (.inl ⟨rfl, rfl⟩)
  · exact absurd (hcalm.state h) hleft

/-- **A fault outlasts every run** of an initialized engine without an `init` and a teardown, and the
engine stays initialized.  Induction on the run. -/
theorem run_of_initialized (h : e.state = .fault) (hinitialized : e.initialized = true)
    {moves : List (Move σ τ π η)} (hmoves : ∀ m ∈ moves, m ≠ .init ∧ m ≠ .teardown) :
    (e.run moves).state = .fault ∧ (e.run moves).initialized = true := by
  induction moves generalizing e with
  | nil => exact ⟨h, hinitialized⟩
  | cons m moves ih =>
    obtain ⟨hinit, hteardown⟩ := hmoves m List.mem_cons_self
    have hcalm : Calm e (e.after m) := by
      rcases e.after_cases m with hm | rfl | hm | hcalm
      · exact absurd hm hinit
      · show Calm e e.start.2
        rw [start_of_fault h hinitialized]
        exact e.calm_mute true
      · exact absurd hm hteardown
      · exact hcalm
    exact ih (hcalm.state h) (hcalm.initialized.trans hinitialized)
      fun m' hm' => hmoves m' (List.mem_cons_of_mem m hm')

/-- **The latch**: a start is refused for the fault, leaves it standing and asks for nothing that
belongs to a bring-up or a start; only a successful `init` and a teardown leave the fault; and until
one of them is tried, every run stays at fault and every start after it is refused. -/
structure Latched (e : Engine σ τ π η) : Prop where
  refused : e.start.1 = .error .faulted
  stays : e.start.2.state = .fault
  asks : ∃ events, e.start.2.journal = e.journal ++ events ∧
    ∀ event ∈ events, event.bringsUp = false
  left : ∀ m : Move σ τ π η, (e.after m).state ≠ .fault →
    (m = .init ∧ e.init.1 = .ok () ∧ (e.after m).state = .ready) ∨
      (m = .teardown ∧ (e.after m).state = .stopped)
  outlasts : ∀ moves : List (Move σ τ π η), (∀ m ∈ moves, m ≠ .init ∧ m ≠ .teardown) →
    (e.run moves).state = .fault ∧ (e.run moves).start.1 = .error .faulted

theorem latched_of_initialized (h : e.state = .fault) (hinitialized : e.initialized = true) :
    e.Latched := by
  have hstart := start_of_fault h hinitialized
  have hmute := e.calm_mute true
  refine ⟨by rw [hstart], ?_, ?_, fun m hleft => ?_, fun moves hmoves => ?_⟩
  · rw [hstart]
    exact hmute.state h
  · rw [hstart]
    exact hmute.journal
  · rcases left_of_fault h hleft with hinit | hteardown | ⟨-, hnot, -⟩
    · exact .inl hinit
    · exact .inr hteardown
    · rw [hinitialized] at hnot
      exact Bool.noConfusion hnot
  · obtain ⟨hfault, hstill⟩ := run_of_initialized h hinitialized hmoves
    exact ⟨hfault, congrArg Prod.fst (start_of_fault hfault hstill)⟩

/-- **A fault is latched exactly while the engine is initialized**, whatever the devices do. -/
theorem latched_iff_initialized (h : e.state = .fault) : e.Latched ↔ e.initialized = true := by
  constructor
  · intro hlatched
    rcases Decidable.em (e.initialized = true) with hinitialized | hinitialized
    · exact hinitialized
    · exact absurd hlatched.refused (start_ne_faulted h (Bool.eq_false_iff.mpr hinitialized))
  · exact latched_of_initialized h

end Start

/-! ## Both cases on a bench -/

/-- An engine with a codec that answers as it is told to. -/
abbrev Scripted := Engine Bench.ScriptedCodec (Loopback Unit) Bench.Instrument Bench.Hook

/-- Converters that refuse their configuration: the engine was brought up by then, and the fault is
latched. -/
theorem latched_refused_configuration :
    ((new { configure := some .clockLockTimeout } {} .mixer {} : Scripted).run
      [.start]).state = .fault ∧
    ((new { configure := some .clockLockTimeout } {} .mixer {} : Scripted).run
      [.start]).Latched := by
  refine ⟨by decide +kernel, ?_⟩
  exact (latched_iff_initialized (by decide +kernel)).mpr (by decide +kernel)

/-- **A fault from a failed first bring-up is not latched**: once the converters answer, a start
brings them up and runs. -/
theorem not_latched_failed_bringUp :
    ((new { init := some .notResponding } {} .mixer {} : Scripted).run
      [.init, .codec fun _ => {}]).state = .fault ∧
    ¬((new { init := some .notResponding } {} .mixer {} : Scripted).run
      [.init, .codec fun _ => {}]).Latched ∧
    ((new { init := some .notResponding } {} .mixer {} : Scripted).run
      [.init, .codec fun _ => {}, .start]).state = .running := by
  refine ⟨by decide +kernel, fun hlatched => ?_, by decide +kernel⟩
  exact absurd hlatched.stays (by decide +kernel)

end Engine

end DuplexAudio
