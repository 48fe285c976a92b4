/-
  The worker owns the cartridge bay and the processor.

  They belong to the worker for as long as one is held.  The control side is refused meanwhile;
  otherwise what it asks for is done at once.

  1. **The guard coincides with the life cycle.**  That there is a worker while running, and none
     while ready or stopped, is `Tended`.  Once there is one it is held until an operation that
     completes a halt (`Tended.held_after`), and at fault each of these ends it
     (`released_at_fault`).

  2. **What a move can do to the bay and the processor** is said once, in `Handled`: a block begins
     or ends, the devices are brought up, or somebody asks for it while there is no worker.  What
     changes the processor, the cartridge blocks and the hooks is read off it.

  Codec and link are arbitrary.
-/
import DuplexAudio.Proofs.Engine.Holdings

namespace DuplexAudio

namespace Move

variable {σ τ π η : Type} [LinkProbe τ]

/-- The operations that register a hook, or remove it. -/
def registers : Move σ τ π η → Bool
  | .registerPull _ | .registerPush _ => true
  | _ => false

end Move

namespace Engine

variable {σ τ π η : Type} {e : Engine σ τ π η}

section Moves

variable [Codec σ] [SerialLink τ] [LinkProbe τ] [Processor π] [CartridgeHook η]

/-! ## A fault and its worker -/

/-- **A worker is held until one of the operations that complete a halt**, and so is a fault. -/
theorem Tended.held_after (h : e.Tended) (hheld : e.worker.isHeld = true) {m : Move σ τ π η}
    (hm : m.completesHalt = false) :
    (e.after m).worker.isHeld = true ∧ (e.state = .fault → (e.after m).state = .fault) := by
  have hedit (hsame : Undisturbed e (e.after m)) :
      (e.after m).worker.isHeld = true ∧ (e.state = .fault → (e.after m).state = .fault) :=
    ⟨(congrArg Worker.isHeld hsame.worker).trans hheld, hsame.state.trans⟩
  have hinterrupted (hinterrupted : Interrupted e (e.after m)) :
      (e.after m).worker.isHeld = true ∧ (e.state = .fault → (e.after m).state = .fault) :=
    ⟨(congrArg Worker.isHeld hinterrupted.worker).trans hheld, hinterrupted.fault_of_fault⟩
  cases m with
  | start =>
    -- with a worker the engine is running, and there is nothing to do, or it is at fault
    obtain ⟨hup, hrunning | hfault⟩ := h.live hheld
    · have hnothing := start_of_running hrunning
      exact hedit (.of_eq (congrArg Prod.snd hnothing))
    · refine hinterrupted ?_
      show Interrupted e e.start.2
      rw [start_of_fault hfault hup]
      exact e.interrupted_mute true
  | interrupt event => exact hinterrupted (e.interrupted_deliver event)
  | wakeUp => exact ⟨e.beginServe_held.1.trans hheld, e.beginServe_held.2.trans⟩
  | finishBlock => exact ⟨e.finishServe_held.1.trans hheld, e.finishServe_held.2.trans⟩
  | registerPull | registerPush | editCartridges | editProcessor | mix | capture | codec | link
  | threads =>
    exact hedit (e.undisturbed_edit rfl)
  | init | stop | poll | teardown => exact Bool.noConfusion hm

/-- **At fault, those operations end it.** -/
theorem released_at_fault (hfault : e.state = .fault) (hheld : e.worker.isHeld = true)
    {m : Move σ τ π η} (hm : m.completesHalt = true) : (e.after m).worker.isHeld = false := by
  cases m with
  | init =>
    show e.init.2.worker.isHeld = false
    rw [init_of_fault hfault, worker_bringUp, isHeld_halt]
  | stop =>
    show e.stop.worker.isHeld = false
    unfold stop
    rw [hfault]
    exact e.isHeld_halt
  | poll =>
    show e.poll.2.worker.isHeld = false
    rcases e.poll_halts with ⟨-, hdone, -⟩ | ⟨e', hhalts, -⟩
    · exact absurd (.inl hheld) (hdone hfault)
    · rw [hhalts]
      exact e'.isHeld_halt
  | teardown => exact e.isHeld_halt
  | start | registerPull | registerPush | editCartridges | editProcessor | mix | interrupt | wakeUp
  | finishBlock | capture | codec | link | threads => exact Bool.noConfusion hm

/-! ## What a move can do -/

/-- A move with which the worker begins a block. -/
def BeginsBlock (e : Engine σ τ π η) (m : Move σ τ π η) : Prop :=
  e.worker = .idle ∧ ∃ b, (e.after m).worker = .inBlock b

/-- A move with which a block ends that was in progress. -/
def EndsBlock (e : Engine σ τ π η) (m : Move σ τ π η) : Prop :=
  (∃ b, e.worker = .inBlock b) ∧ ∀ b, (e.after m).worker ≠ .inBlock b

/-- What the two cartridge blocks hold. -/
def cartridges (e : Engine σ τ π η) : CartridgeAudio × CartridgeAudio := (e.bay.input, e.bay.output)

/-- Which hooks are registered. -/
def hooks (e : Engine σ τ π η) : Bool × Bool := (e.bay.pull.isSome, e.bay.push.isSome)

/-- **What a move can do** to the processor and the bay. -/
inductive Handled (e : Engine σ τ π η) (m : Move σ τ π η) : Prop where
  | same (owned : (e.after m).owned = e.owned)
  | begun (begins : e.BeginsBlock m)
      (owned : (e.after m).owned = (e.processor, e.bay.pulled framesPerBlock))
  | ended (ends : e.EndsBlock m) (owned : (e.after m).owned = e.finishServe.owned)
  /-- The devices were brought up, perhaps after the end of the block in progress. -/
  | restored (restores : e.restores m = true) {e' : Engine σ τ π η}
      (settled : e' = e ∨ (e.EndsBlock m ∧ e' = e.finishServe))
      (owned : (e.after m).owned = (e'.processor, e'.bay.clear))
  | registered (registers : m.registers = true) (processor : (e.after m).processor = e.processor)
      (cartridges : (e.after m).cartridges = e.cartridges)
  | cartridges {f} (edits : m = .editCartridges f) (vacant : e.worker.isHeld = false)
      (processor : (e.after m).processor = e.processor) (hooks : (e.after m).hooks = e.hooks)
  | processor {f} (edits : m = .editProcessor f) (vacant : e.worker.isHeld = false)
      (bay : (e.after m).bay = e.bay)

/-- The engine whose holdings an operation finds, by whether it ends a block. -/
theorem settledBy_cases (e : Engine σ τ π η) (m : Move σ τ π η) :
    e.settledBy m = e ∨ (e.EndsBlock m ∧ e.settledBy m = e.finishServe) := by
  unfold settledBy
  split
  · exact .inl rfl
  · next hvacant =>
    have hended := outside_of_vacant (Bool.eq_false_iff.mpr hvacant)
    cases hworker : e.worker with
    | inBlock b => exact .inr ⟨⟨⟨b, hworker⟩, hended⟩, rfl⟩
    | absent | idle | dead =>
      left
      refine finishServe_outside fun b hinside => ?_
      exact Worker.noConfusion (hworker.symm.trans hinside)

/-- An operation of the life cycle. -/
theorem Tended.handled_control (h : e.Tended) (hengaged : e.Engaged) {m : Move σ τ π η}
    (hm : m.isControl = true) : e.Handled m := by
  have howned := h.owned_control hengaged hm
  unfold ownedAfter at howned
  cases hrestores : e.restores m with
  | true =>
    rw [hrestores, if_pos rfl] at howned
    exact .restored hrestores (e.settledBy_cases m) howned
  | false =>
    rw [hrestores, if_neg Bool.false_ne_true] at howned
    rcases e.settledBy_cases m with hsame | ⟨hends, hfinished⟩
    · rw [hsame] at howned
      exact .same howned
    · rw [hfinished] at howned
      exact .ended hends howned

/-- **Every move** does one of these. -/
theorem handled (h : e.Tended) (hengaged : e.Engaged) (m : Move σ τ π η) : e.Handled m := by
  -- what asks for the bay or the processor while there is a worker, changes nothing
  have hrefused (hnothing : e.worker.isHeld = true → e.after m = e)
      (hfree : e.worker.isHeld = false → e.Handled m) : e.Handled m := by
    cases hheld : e.worker.isHeld with
    | true => exact .same (congrArg owned (hnothing hheld))
    | false => exact hfree hheld
  cases m with
  | init | start | stop | poll | teardown => exact h.handled_control hengaged rfl
  | interrupt | mix | capture | codec | link | threads => exact .same (e.owned_outside rfl)
  | wakeUp =>
    rcases e.beginServe_owned with ⟨howned, -⟩ | ⟨hidle, hbegun, -, howned⟩
    · exact .same howned
    · exact .begun ⟨hidle, hbegun⟩ howned
  | finishBlock =>
    cases hworker : e.worker with
    | inBlock b => exact .ended ⟨⟨b, hworker⟩, e.finishServe_worker⟩ rfl
    | absent | idle | dead =>
      refine .same (congrArg owned (finishServe_outside fun b hinside => ?_))
      exact Worker.noConfusion (hworker.symm.trans hinside)
  | registerPull hook =>
    refine hrefused (fun hheld => congrArg Prod.snd (if_pos hheld)) fun hvacant => ?_
    have hdone : e.after (.registerPull hook : Move σ τ π η) =
        { e with bay := { e.bay with pull := hook } } :=
      congrArg Prod.snd (if_neg (Bool.eq_false_iff.mp hvacant))
    exact .registered rfl (by rw [hdone]) (by rw [hdone]; rfl)
  | registerPush hook =>
    refine hrefused (fun hheld => congrArg Prod.snd (if_pos hheld)) fun hvacant => ?_
    have hdone : e.after (.registerPush hook : Move σ τ π η) =
        { e with bay := { e.bay with push := hook } } :=
      congrArg Prod.snd (if_neg (Bool.eq_false_iff.mp hvacant))
    exact .registered rfl (by rw [hdone]) (by rw [hdone]; rfl)
  | editCartridges f =>
    refine hrefused (fun hheld => congrArg Prod.snd (if_pos hheld)) fun hvacant => ?_
    have hdone : e.after (.editCartridges f : Move σ τ π η) =
        { e with bay := { e.bay with
          input := (f e.bay.input e.bay.output).1
          output := (f e.bay.input e.bay.output).2 } } :=
      congrArg Prod.snd (if_neg (Bool.eq_false_iff.mp hvacant))
    exact .cartridges rfl hvacant (by rw [hdone]) (by rw [hdone]; rfl)
  | editProcessor f =>
    refine hrefused (fun hheld => congrArg Prod.snd (if_pos hheld)) fun hvacant => ?_
    have hdone :
        e.after (.editProcessor f : Move σ τ π η) = { e with processor := f e.processor } :=
      congrArg Prod.snd (if_neg (Bool.eq_false_iff.mp hvacant))
    exact .processor rfl hvacant (by rw [hdone])

omit [SerialLink τ] [Codec σ] [LinkProbe τ] in
/-- The end of a block leaves the hooks registered. -/
theorem hooks_finishServe (e : Engine σ τ π η) : e.finishServe.hooks = e.hooks := by
  unfold hooks
  rw [e.finishServe_hooks.1, e.finishServe_hooks.2]

namespace Handled

variable {m : Move σ τ π η}

/-- **What changes the processor**: the end of a block, and access to it while there is no
worker. -/
theorem processor_after (h : e.Handled m) :
    (e.after m).processor = e.processor ∨ e.EndsBlock m ∨
      ∃ f, m = .editProcessor f ∧ e.worker.isHeld = false := by
  cases h with
  | same howned | begun _ howned => exact .inl (congrArg Prod.fst howned)
  | ended hends => exact .inr (.inl hends)
  | restored _ hsettled howned =>
    rcases hsettled with rfl | ⟨hends, -⟩
    · exact .inl (congrArg Prod.fst howned)
    · exact .inr (.inl hends)
  | registered _ hsame | cartridges _ _ hsame => exact .inl hsame
  | processor hedits hvacant => exact .inr (.inr ⟨_, hedits, hvacant⟩)

/-- **What changes the cartridge blocks**: a block that begins or ends, a bring-up that succeeds,
and access to them while there is no worker. -/
theorem cartridges_after (h : e.Handled m) :
    (e.after m).cartridges = e.cartridges ∨ e.BeginsBlock m ∨ e.EndsBlock m ∨
      e.restores m = true ∨ ∃ f, m = .editCartridges f ∧ e.worker.isHeld = false := by
  have hbay (hsame : (e.after m).bay = e.bay) : (e.after m).cartridges = e.cartridges :=
    congrArg (fun bay => (bay.input, bay.output)) hsame
  cases h with
  | same howned => exact .inl (hbay (congrArg Prod.snd howned))
  | begun hbegins => exact .inr (.inl hbegins)
  | ended hends => exact .inr (.inr (.inl hends))
  | restored hrestores => exact .inr (.inr (.inr (.inl hrestores)))
  | registered _ _ hsame => exact .inl hsame
  | cartridges hedits hvacant => exact .inr (.inr (.inr (.inr ⟨_, hedits, hvacant⟩)))
  | processor _ _ hsame => exact .inl (hbay hsame)

/-- **Hooks stay registered** until somebody registers others. -/
theorem hooks_after (h : e.Handled m) (hm : m.registers = false) :
    (e.after m).hooks = e.hooks := by
  have hbay {bay : CartridgeBay η} (hsame : (e.after m).bay = bay) :
      (e.after m).hooks = (bay.pull.isSome, bay.push.isSome) :=
    congrArg (fun bay => (bay.pull.isSome, bay.push.isSome)) hsame
  cases h with
  | same howned => exact hbay (congrArg Prod.snd howned)
  | begun _ howned =>
    rw [hbay (congrArg Prod.snd howned)]
    unfold CartridgeBay.pulled hooks
    cases e.bay.pull <;> rfl
  | ended _ howned => exact (hbay (congrArg Prod.snd howned)).trans e.hooks_finishServe
  | restored _ hsettled howned =>
    rw [hbay (congrArg Prod.snd howned)]
    rcases hsettled with rfl | ⟨-, rfl⟩
    · rfl
    · exact e.hooks_finishServe
  | registered hregisters => exact absurd (hregisters.symm.trans hm) Bool.noConfusion
  | cartridges _ _ _ hsame => exact hsame
  | processor _ _ hsame => exact hbay hsame

end Handled

/-! ## The headline -/

/-- **The worker owns the bay and the processor**, and hands them back when it is ended. -/
structure OwnedByWorker (e : Engine σ τ π η) : Prop where
  /-- With a worker, all four operations are refused, and nothing is called or changed. -/
  busy : e.worker.isHeld = true →
    (∀ hook, e.registerPull hook = (.error .busy, e)) ∧
    (∀ hook, e.registerPush hook = (.error .busy, e)) ∧
    (∀ (α : Type) (f : CartridgeAudio → CartridgeAudio → α × CartridgeAudio × CartridgeAudio),
      e.accessCartridges f = (.error .busy, e)) ∧
    ∀ (α : Type) (f : π → α × π), e.accessProcessor f = (.error .busy, e)
  /-- Without one they are done at once, and change what they are about. -/
  direct : e.worker.isHeld = false →
    (∀ hook, e.registerPull hook = (.ok (), { e with bay := { e.bay with pull := hook } })) ∧
    (∀ hook, e.registerPush hook = (.ok (), { e with bay := { e.bay with push := hook } })) ∧
    (∀ (α : Type) (f : CartridgeAudio → CartridgeAudio → α × CartridgeAudio × CartridgeAudio),
      e.accessCartridges f = (.ok (f e.bay.input e.bay.output).1,
        { e with bay := { e.bay with
          input := (f e.bay.input e.bay.output).2.1
          output := (f e.bay.input e.bay.output).2.2 } })) ∧
    ∀ (α : Type) (f : π → α × π), e.accessProcessor f =
      (.ok (f e.processor).1, { e with processor := (f e.processor).2 })
  running : e.state = .running → e.worker.isHeld = true
  idle : e.state = .ready ∨ e.state = .stopped → e.worker.isHeld = false
  /-- Whatever comes, a worker is held, and a fault stands, until the halt is completed. -/
  kept : e.worker.isHeld = true → ∀ m : Move σ τ π η, m.completesHalt = false →
    (e.after m).worker.isHeld = true ∧ (e.state = .fault → (e.after m).state = .fault)
  released : e.state = .fault → e.worker.isHeld = true → ∀ m : Move σ τ π η,
    m.completesHalt = true → (e.after m).worker.isHeld = false
  /-- What the operations of the life cycle leave of it, to the last sample. -/
  control : ∀ m : Move σ τ π η, m.isControl = true → (e.after m).owned = e.ownedAfter m
  processor : ∀ m : Move σ τ π η, (e.after m).processor = e.processor ∨ e.EndsBlock m ∨
    ∃ f, m = .editProcessor f ∧ e.worker.isHeld = false
  cartridges : ∀ m : Move σ τ π η, (e.after m).cartridges = e.cartridges ∨ e.BeginsBlock m ∨
    e.EndsBlock m ∨ e.restores m = true ∨ ∃ f, m = .editCartridges f ∧ e.worker.isHeld = false
  hooks : ∀ m : Move σ τ π η, m.registers = false → (e.after m).hooks = e.hooks

theorem Tended.ownedByWorker (h : e.Tended) (hengaged : e.Engaged) : e.OwnedByWorker where
  busy hheld := by
    refine ⟨fun hook => ?_, fun hook => ?_, fun α f => ?_, fun α f => ?_⟩ <;> exact if_pos hheld
  direct hvacant := by
    have hfree : ¬e.worker.isHeld = true := Bool.eq_false_iff.mp hvacant
    refine ⟨fun hook => ?_, fun hook => ?_, fun α f => ?_, fun α f => ?_⟩ <;> exact if_neg hfree
  running := h.held
  idle hstate := by
    refine (h.resting ?_ ?_).vacant <;> rcases hstate with hstate | hstate <;> rw [hstate] <;>
      exact Lifecycle.noConfusion
  kept hheld _ := h.held_after hheld
  released hfault hheld _ := released_at_fault hfault hheld
  control _ := h.owned_control hengaged
  processor m := (handled h hengaged m).processor_after
  cartridges m := (handled h hengaged m).cartridges_after
  hooks m := (handled h hengaged m).hooks_after

/-- Hooks stay registered over every list of moves that registers none: induction on the list. -/
theorem run_hooks (h : e.Tended) (hengaged : e.Engaged) {moves : List (Move σ τ π η)}
    (hmoves : ∀ m ∈ moves, m.registers = false) : (e.run moves).hooks = e.hooks := by
  induction moves generalizing e with
  | nil => rfl
  | cons m moves ih =>
    have hm := hmoves m List.mem_cons_self
    have hrest := ih (h.after m) (hengaged.after h m) fun m' hmem =>
      hmoves m' (List.mem_cons_of_mem m hmem)
    exact hrest.trans ((handled h hengaged m).hooks_after hm)

/-- **The worker owns the cartridge bay and the processor.**  After every run, whatever the devices
do, what `OwnedByWorker` says holds of the engine; and the hooks stay registered over everything
that may follow, but for other registrations. -/
theorem worker_owns_bay_and_processor (codec : σ) (link : τ) (processor : π) (config : FrameLayout)
    (moves : List (Move σ τ π η)) :
    let e : Engine σ τ π η := (new codec link processor config).run moves
    e.OwnedByWorker ∧
      ∀ later : List (Move σ τ π η), (∀ m ∈ later, m.registers = false) →
        (e.run later).hooks = e.hooks := by
  intro e
  have htended : e.Tended := tended_run codec link processor config moves
  have hengaged : e.Engaged := engaged_run codec link processor config moves
  exact ⟨htended.ownedByWorker hengaged, fun later hlater => run_hooks htended hengaged hlater⟩

end Moves

end Engine

end DuplexAudio
