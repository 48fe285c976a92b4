/-
  What makes an engine run, and what it is like while it runs.

  Here the devices are arbitrary: they may fail at any call and raise any interrupts during it.

  1. **Interrupts and device calls** (`Interrupted`).  Whatever arrives, the worker and the block in
     progress are left alone, an engine may only fall into a fault, and nothing is published without
     a wake-up.  Every call on a device is of this kind.

  2. **Starts** (`start_cases`).  Only a start makes an engine run, and the ones that do have all
     gone the same way to the end (`Launched`); the others end at fault.

  3. **Moves that leave an engine running** (`Runs`, `runs_of_running`).  Such a move is a launch, a
     published pair, one of the two steps of the worker, or nothing that concerns the worker at all
     (`Undisturbed`).

  From 3 it follows by one case for each kind of move that an engine is `Orderly` after every run
  (`orderly_run`): while it runs no fault is latched, a sleeping worker has left the stream free for
  its next block, and a pair that was published behind the worker's back has a wake-up pending.
-/
import DuplexAudio.Proofs.Engine.FaultLatch
import DuplexAudio.Proofs.Stream.Run

namespace DuplexAudio

/-- An error puts an engine at fault, or finds it stopped. -/
theorem Lifecycle.afterError_cases (s : Lifecycle) :
    s.afterError = .fault ∨ (s = .stopped ∧ s.afterError = .stopped) := by
  cases s with
  | stopped => exact .inr ⟨rfl, rfl⟩
  | ready | running | fault => exact .inl rfl

/-- Moves that change only what the worker owns or is given: hooks, cartridges, processor, mix and
captured blocks, and what happens to a device or to the system by itself. -/
def Move.isEdit {σ τ π η : Type} [LinkProbe τ] : Move σ τ π η → Bool
  | .registerPull _ | .registerPush _ | .editCartridges _ | .editProcessor _ => true
  | .mix _ | .capture _ _ | .codec _ | .link _ | .threads _ => true
  | _ => false

namespace Engine

variable {σ τ π η : Type} {e e' e'' : Engine σ τ π η}

/-! ## Interrupts and device calls -/

/-- What interrupts leave alone, between two calls or during one. -/
structure Interrupted (e e' : Engine σ τ π η) : Prop where
  worker : e'.worker = e.worker
  occupied : e'.stream.occupied = e.stream.occupied
  state : e'.state = e.state ∨ e'.state = .fault
  /-- A fault that is latched while running ends the running. -/
  fault : e'.state = .running → e'.stream.fault = e.stream.fault
  wake : e.wake = true → e'.wake = true
  /-- Nothing is published without a wake-up. -/
  published : e'.wake = false → e'.stream.published = e.stream.published

namespace Interrupted

theorem of_eq (hworker : e'.worker = e.worker) (hstream : e'.stream = e.stream)
    (hstate : e'.state = e.state) (hwake : e'.wake = e.wake) : Interrupted e e' where
  worker := hworker
  occupied := congrArg Stream.occupied hstream
  state := .inl hstate
  fault _ := congrArg Stream.fault hstream
  wake h := hwake.trans h
  published _ := congrArg Stream.published hstream

theorem refl (e : Engine σ τ π η) : Interrupted e e := of_eq rfl rfl rfl rfl

theorem running (h : Interrupted e e') (hrunning : e'.state = .running) : e.state = .running := by
  rcases h.state with hsame | hfault
  · rw [← hsame, hrunning]
  · rw [hfault] at hrunning
    exact absurd hrunning Lifecycle.noConfusion

theorem silent (h : Interrupted e e') (hwake : e'.wake = false) : e.wake = false := by
  rw [← Bool.not_eq_true] at hwake ⊢
  exact fun hpending => hwake (h.wake hpending)

theorem trans (h : Interrupted e e') (h' : Interrupted e' e'') : Interrupted e e'' where
  worker := h'.worker.trans h.worker
  occupied := h'.occupied.trans h.occupied
  state := by
    rcases h'.state with hsame | hfault
    · rw [hsame]
      exact h.state
    · exact .inr hfault
  fault hrunning := (h'.fault hrunning).trans (h.fault (h'.running hrunning))
  wake hwake := h'.wake (h.wake hwake)
  published hwake := (h'.published hwake).trans (h.published (h'.silent hwake))

theorem fault_of_fault (h : Interrupted e e') (hfault : e.state = .fault) : e'.state = .fault := by
  rcases h.state with hsame | hfault'
  · exact hsame.trans hfault
  · exact hfault'

end Interrupted

/-- What an interrupt does to the wake-up and to what is published: a published pair is answered and
posts a wake-up, and everything else touches neither. -/
theorem deliver_published (e : Engine σ τ π η) (event : Interrupt) :
    (∃ half, (e.deliver event).1 = .pairReady half ∧ (e.deliver event).2.wake = true ∧
        (e.deliver event).2.stream.published = some half) ∨
      ((∀ half, (e.deliver event).1 ≠ .pairReady half) ∧ (e.deliver event).2.wake = e.wake ∧
        (e.deliver event).2.stream.published = e.stream.published) := by
  unfold deliver
  rcases e.stream.onInterrupt_published event with ⟨half, hanswer, hsome⟩ | ⟨hanswer, hsame⟩
  · dsimp only
    rw [hanswer]
    exact .inl ⟨half, rfl, rfl, hsome⟩
  · generalize e.stream.onInterrupt event = out at hanswer hsame
    obtain ⟨outcome, stream⟩ := out
    cases outcome with
    | idle => exact .inr ⟨hanswer, rfl, hsame⟩
    | pairReady half => exact absurd rfl (hanswer half)
    | fault error => exact .inr ⟨hanswer, rfl, hsame⟩

theorem deliver_wake {event : Interrupt} {half : Half}
    (hanswer : (e.deliver event).1 = .pairReady half) : (e.deliver event).2.wake = true := by
  rcases e.deliver_published event with ⟨-, -, hwake, -⟩ | ⟨hother, -, -⟩
  · exact hwake
  · exact absurd hanswer (hother half)

theorem interrupted_deliver (e : Engine σ τ π η) (event : Interrupt) :
    Interrupted e (e.deliver event).2 := by
  -- all but the wake-up and the published pair is read off the kinds of interrupts
  have hshape : (e.deliver event).2.worker = e.worker ∧
      (e.deliver event).2.stream.occupied = e.stream.occupied ∧
      ((e.deliver event).2.state = e.state ∧ (e.deliver event).2.stream.fault = e.stream.fault ∨
        (e.deliver event).2.state = e.state.afterError) := by
    unfold deliver
    rcases e.stream.onInterrupt_cases event with
      ⟨-, hout⟩ | ⟨error, -, -, hout⟩ | ⟨error, -, -, hout⟩ | ⟨ready, pairs, -, -, -, hout⟩
    · rw [hout]
      exact ⟨rfl, rfl, .inl ⟨rfl, rfl⟩⟩
    · rw [hout]
      exact ⟨rfl, rfl, .inr rfl⟩
    · rw [hout]
      exact ⟨rfl, rfl, .inr rfl⟩
    · rw [hout]
      cases ready with
      | none => exact ⟨rfl, rfl, .inl ⟨rfl, rfl⟩⟩
      | some half => exact ⟨rfl, rfl, .inl ⟨rfl, rfl⟩⟩
  obtain ⟨hworker, hoccupied, hstate⟩ := hshape
  refine ⟨hworker, hoccupied, ?_, fun hrunning => ?_, fun hwake => ?_, fun hwake => ?_⟩
  · rcases hstate with ⟨hsame, -⟩ | hafter
    · exact .inl hsame
    · rw [hafter]
      rcases e.state.afterError_cases with hfault | ⟨hbefore, hstopped⟩
      · exact .inr hfault
      · exact .inl (hstopped.trans hbefore.symm)
  · rcases hstate with ⟨-, hfault⟩ | hafter
    · exact hfault
    · rw [hafter] at hrunning
      rcases e.state.afterError_cases with hfault | ⟨-, hstopped⟩
      · exact absurd (hfault.symm.trans hrunning) Lifecycle.noConfusion
      · exact absurd (hstopped.symm.trans hrunning) Lifecycle.noConfusion
  · rcases e.deliver_published event with ⟨half, -, hset, -⟩ | ⟨-, hsame, -⟩
    · exact hset
    · exact hsame.trans hwake
  · rcases e.deliver_published event with ⟨half, -, hset, -⟩ | ⟨-, -, hsame⟩
    · rw [hset] at hwake
      exact absurd hwake Bool.noConfusion
    · exact hsame

theorem interrupted_log (e : Engine σ τ π η) (n : Notice) : Interrupted e (e.log n) :=
  .of_eq rfl rfl rfl rfl

/-- Induction on the interrupts that arrived. -/
theorem interrupted_absorb (e : Engine σ τ π η) (events : List Interrupt) :
    Interrupted e (e.absorb events) := by
  induction events generalizing e with
  | nil => exact .refl e
  | cons event events ih =>
    have hstep : Interrupted e ((e.deliver event).2.record
        (.interrupt (e.deliver event).1 (e.deliver event).2.state)) :=
      (e.interrupted_deliver event).trans (.of_eq rfl rfl rfl rfl)
    exact hstep.trans (ih _)

section Codec

variable [Codec σ]

theorem interrupted_callCodec (e : Engine σ τ π η) (call : CodecCall) :
    Interrupted e (e.callCodec call).2 := by
  unfold callCodec
  refine Interrupted.trans ?_ (interrupted_absorb _ _)
  exact .of_eq rfl rfl rfl rfl

theorem interrupted_mute (e : Engine σ τ π η) (mute : Bool) : Interrupted e (e.mute mute) := by
  have hcall := e.interrupted_callCodec (.setMute mute)
  unfold Engine.mute
  split
  · next hresult =>
    rw [hresult] at hcall
    exact hcall
  · next hresult =>
    rw [hresult] at hcall
    exact hcall.trans (interrupted_log _ _)

end Codec

theorem interrupted_answered (e : Engine σ τ π η) (call : LinkCall) (r : Reply τ LinkFailure) :
    Interrupted e (e.answered call r).2 := by
  unfold answered
  refine Interrupted.trans ?_ (interrupted_absorb _ _)
  exact .of_eq rfl rfl rfl rfl

theorem interrupted_configureLink [SerialLink τ] (e : Engine σ τ π η) :
    Interrupted e e.configureLink.2 := e.interrupted_answered _ _

theorem interrupted_startLink [SerialLink τ] (e : Engine σ τ π η) :
    Interrupted e e.startLink.2 := e.interrupted_answered _ _

/-! ## Halts and bring-ups -/

section Worker

variable [Processor π] [CartridgeHook η]

theorem state_finishServe (e : Engine σ τ π η) : e.finishServe.state = e.state := by
  unfold finishServe
  split <;> rfl

theorem state_join (e : Engine σ τ π η) : e.join.state = e.state := by
  have hfinish := e.state_finishServe
  unfold join
  dsimp only
  split <;> exact hfinish

theorem isHeld_join (e : Engine σ τ π η) : e.join.worker.isHeld = false := by
  unfold join
  dsimp only
  split
  · next habsent =>
    rw [habsent]
    rfl
  · rfl
  · rfl
  · rfl

end Worker

section Halt

variable [Codec σ] [SerialLink τ] [Processor π] [CartridgeHook η]

theorem isHeld_halt (e : Engine σ τ π η) : e.halt.worker.isHeld = false := by
  unfold halt
  split
  · next hidle => exact Bool.eq_false_iff.mpr hidle.1
  · exact isHeld_join _

theorem state_halt (e : Engine σ τ π η) : e.halt.state = e.state ∨ e.halt.state = .fault := by
  unfold halt
  split
  · exact .inl rfl
  · rw [state_join]
    exact (e.interrupted_mute true).state

end Halt

/-- A bring-up has no business with the worker. -/
theorem worker_bringUp [Codec σ] [SerialLink τ] (e : Engine σ τ π η) :
    e.bringUp.2.worker = e.worker := by
  have hinit := (e.interrupted_callCodec .init).worker
  unfold bringUp
  split
  · next hcall =>
    rw [hcall] at hinit
    exact hinit
  · next e' hcall =>
    rw [hcall] at hinit
    have hconfigure := e'.interrupted_configureLink.worker
    split
    · next hlink =>
      rw [hlink] at hconfigure
      exact hconfigure.trans hinit
    · next hlink =>
      rw [hlink] at hconfigure
      dsimp only [log, record, mapStream, resetStream, recordStream]
      exact hconfigure.trans hinit

section BringUp

variable [Codec σ] [SerialLink τ] [Processor π] [CartridgeHook η]

/-- An `init` does nothing, or fails, or ends ready with no worker. -/
theorem init_cases (e : Engine σ τ π η) :
    (e.initialized = true ∧ e.init.2 = e) ∨ e.init.2.state = .fault ∨
      (e.init.2.state = .ready ∧ e.init.2.worker.isHeld = false) := by
  unfold init
  split
  · next hup => exact .inl ⟨hup.1, rfl⟩
  · rcases e.halt.bringUp_cases with ⟨-, hready⟩ | ⟨-, hfault⟩
    · refine .inr (.inr ⟨hready, ?_⟩)
      rw [worker_bringUp, isHeld_halt]
    · exact .inr (.inl hfault)

/-- A poll does nothing, or ends at fault. -/
theorem poll_cases (e : Engine σ τ π η) : e.poll.2 = e ∨ e.poll.2.state = .fault := by
  unfold poll
  dsimp only
  split
  · next hhalts =>
    right
    split
    · exact (calm_halt _).state hhalts.1
    · exact (calm_halt _).state hhalts.1
  · unfold noticeWorker
    split
    · exact .inr rfl
    · exact .inl rfl

/-- Whatever is stopped, does not run. -/
theorem stop_cases (e : Engine σ τ π η) :
    e.stop.state ≠ .running ∧ (e.stop = e ∨ e.stop.worker.isHeld = false) := by
  unfold stop
  split
  · next hstopped =>
    rw [hstopped]
    exact ⟨Lifecycle.noConfusion, .inl rfl⟩
  · exact ⟨Lifecycle.noConfusion, .inr e.isHeld_halt⟩
  · next hready =>
    refine ⟨fun hrunning => ?_, .inr e.isHeld_halt⟩
    rcases e.state_halt with hsame | hfault
    · rw [hsame, hready] at hrunning
      exact Lifecycle.noConfusion hrunning
    · rw [hfault] at hrunning
      exact Lifecycle.noConfusion hrunning
  · next hfault =>
    refine ⟨fun hrunning => ?_, .inr e.isHeld_halt⟩
    rw [e.calm_halt.state hfault] at hrunning
    exact Lifecycle.noConfusion hrunning

end BringUp

/-! ## Starts -/

/-- The creation of the worker has no business with the stream. -/
theorem stream_spawn (e : Engine σ τ π η) : e.spawn.2.stream = e.stream := by
  obtain ⟨-, hspawn⟩ | ⟨-, -, hspawn⟩ | ⟨_, -, -, hspawn⟩ := e.spawn_cases <;> rw [hspawn] <;> rfl

section Launch

variable [Codec σ] [SerialLink τ]

/-- A start that went all the way.  With no worker from before, the stream was reset and armed and
the link was started; the worker was created after the link had answered, and the output unmuted
last. -/
structure Launched (armed linked e' : Engine σ τ π η) : Prop where
  /-- There was no worker, and the stream had just been reset. -/
  absent : armed.worker.isHeld = false
  reset : armed.stream.published = none ∧ armed.stream.occupied = false
  answered : armed.startLink = (.ok (), linked)
  fault : linked.stream.fault = none
  given : linked.spawn.1 = .ok ()
  launched : e' = ((({ linked.spawn.2 with state := .running } : Engine σ τ π η).mute false).log
    .running)

namespace Launched

variable {armed linked : Engine σ τ π η}

theorem interrupted (h : Launched armed linked e') :
    Interrupted { linked.spawn.2 with state := .running } e' := by
  rw [h.launched]
  exact (interrupted_mute _ false).trans (interrupted_log _ _)

/-- The answer of the link found the armed engine; interrupts may have arrived meanwhile. -/
theorem interrupted_linked (h : Launched armed linked e') : Interrupted armed linked := by
  have hstart := armed.interrupted_startLink
  rwa [h.answered] at hstart

/-- The worker is created, and a wake-up that is pending by then is dropped. -/
theorem spawn_eq (h : Launched armed linked e') :
    linked.spawn.2 = { linked with worker := .idle, wake := false }.record .spawned := by
  have habsent : linked.worker.isHeld = false := by
    rw [h.interrupted_linked.worker, h.absent]
  obtain ⟨hheld, -⟩ | ⟨-, -, hspawn⟩ | ⟨_, -, -, hspawn⟩ := linked.spawn_cases
  · exact absurd (hheld.symm.trans habsent) Bool.noConfusion
  · rw [hspawn]
  · have hgiven := h.given
    rw [hspawn] at hgiven
    exact nomatch hgiven

theorem worker (h : Launched armed linked e') : e'.worker = .idle := by
  have hspawned := h.interrupted.worker
  rw [h.spawn_eq] at hspawned
  exact hspawned

theorem state (h : Launched armed linked e') : e'.state = .running ∨ e'.state = .fault :=
  h.interrupted.state

theorem occupied (h : Launched armed linked e') : e'.stream.occupied = false := by
  have hspawned := h.interrupted.occupied
  rw [h.spawn_eq] at hspawned
  exact hspawned.trans (h.interrupted_linked.occupied.trans h.reset.2)

theorem noFault (h : Launched armed linked e') (hrunning : e'.state = .running) :
    e'.stream.fault = none := by
  have hspawned := h.interrupted.fault hrunning
  rw [h.spawn_eq] at hspawned
  exact hspawned.trans h.fault

end Launched

end Launch

/-- There is a worker only while running or at fault. -/
def Vacant (e : Engine σ τ π η) : Prop :=
  e.state ≠ .running → e.state ≠ .fault → e.worker.isHeld = false

theorem vacant_of_running (h : e.state = .running) : e.Vacant := fun hstopped => absurd h hstopped

section Start

variable [Codec σ] [SerialLink τ] [Processor π] [CartridgeHook η]

theorem promote_cases (e : Engine σ τ π η) :
    (e.promote.1 ≠ .ok () ∧ e.promote.2.state = .fault) ∨
      (e.stream.fault = none ∧
        e.promote.2 = ({ e with state := .running }.mute false).log .running) := by
  unfold promote
  split
  · exact .inl ⟨nofun, rfl⟩
  · split
    · next hready => exact .inr ⟨Option.isNone_iff_eq_none.mp hready.1, rfl⟩
    · exact .inl ⟨nofun, rfl⟩

theorem startReady_cases (habsent : e.state ≠ .fault → e.worker.isHeld = false) :
    (e.startReady.1 ≠ .ok () ∧ e.startReady.2.state = .fault) ∨
      ∃ armed linked, Launched armed linked e.startReady.2 := by
  unfold startReady
  split
  · next hfault => exact .inl ⟨nofun, (e.interrupted_mute true).fault_of_fault hfault⟩
  · next hready =>
    have hasked := (e.interrupted_mute true).trans (interrupted_callCodec _ .configure)
    split
    · exact .inl ⟨nofun, rfl⟩
    · next configured hcall =>
      rw [hcall] at hasked
      obtain ⟨_, _, -, harm⟩ | ⟨linked, hlinked, ⟨_, -, harm⟩ | ⟨spawned, hspawn, harm⟩⟩ :=
        configured.arm_cases
      · rw [harm]
        exact .inl ⟨nofun, rfl⟩
      · rw [harm]
        exact .inl ⟨nofun, rfl⟩
      · rw [harm]
        rcases spawned.promote_cases with hfailed | ⟨hfault, hpromoted⟩
        · exact .inl hfailed
        · have hlatch : spawned.stream = linked.stream := by
            rw [← show linked.spawn.2 = spawned from congrArg Prod.snd hspawn]
            exact linked.stream_spawn
          refine .inr ⟨_, linked, ?_, ⟨rfl, rfl⟩, hlinked, ?_, congrArg Prod.fst hspawn, ?_⟩
          · dsimp only [mapStream, resetStream, recordStream]
            rw [hasked.worker]
            exact habsent hready
          · rwa [hlatch] at hfault
          · rwa [hspawn]

/-- **Every start** does nothing because the engine is running, or fails and ends at fault, or
launches. -/
theorem start_cases (hvacant : e.Vacant) :
    (e.state = .running ∧ e.start.2 = e) ∨ (e.start.1 ≠ .ok () ∧ e.start.2.state = .fault) ∨
      (e.state ≠ .running ∧ ∃ armed linked, Launched armed linked e.start.2) := by
  unfold start
  split
  · next hrunning => exact .inl ⟨hrunning, rfl⟩
  · next hrunning =>
    right
    have hready {e' : Engine σ τ π η} (h : e'.state ≠ .fault → e'.worker.isHeld = false) :
        (e'.startReady.1 ≠ .ok () ∧ e'.startReady.2.state = .fault) ∨
          (e.state ≠ .running ∧ ∃ armed linked, Launched armed linked e'.startReady.2) :=
      (startReady_cases h).imp_right fun hlaunched => ⟨hrunning, hlaunched⟩
    split
    · exact hready (hvacant hrunning)
    · next hdown =>
      have hinit := e.init_cases
      have hbringUp : e.init = e.halt.bringUp := if_neg fun hup => hdown hup.1
      split
      · next e' hresult =>
        -- a bring-up that fails ends at fault
        rw [hbringUp] at hresult
        rcases e.halt.bringUp_cases with ⟨hok, -⟩ | ⟨-, hfault⟩
        · rw [hresult] at hok
          exact nomatch hok
        · rw [hresult] at hfault
          exact .inl ⟨nofun, (e'.interrupted_mute true).fault_of_fault hfault⟩
      · next e' hresult =>
        rw [hresult] at hinit
        rcases hinit with ⟨hup, -⟩ | hfault | ⟨-, hended⟩
        · exact absurd hup hdown
        · exact hready fun h => absurd hfault h
        · exact hready fun _ => hended

end Start

/-! ## The two steps of the worker -/

section Worker

variable [CartridgeHook η]

/-- The worker that wakes up stays, and so does the state. -/
theorem beginServe_held (e : Engine σ τ π η) :
    e.beginServe.worker.isHeld = e.worker.isHeld ∧ e.beginServe.state = e.state := by
  unfold beginServe
  split
  · next hwaiting =>
    split
    · exact ⟨rfl, rfl⟩
    · split
      · dsimp only [Stream.beginBlock, recordStream]
        rw [hwaiting.1]
        exact ⟨rfl, rfl⟩
      · exact ⟨rfl, rfl⟩
  · exact ⟨rfl, rfl⟩

/-- Without a wake-up nothing happens. -/
theorem beginServe_asleep (h : ¬(e.worker = .idle ∧ e.wake = true)) : e.beginServe = e := if_neg h

/-- **A wake-up** takes what is published, and begins a block over it on a stream that is free. -/
theorem beginServe_woken (hidle : e.worker = .idle) (hwake : e.wake = true)
    (hfault : e.stream.fault = none) (hfree : e.stream.occupied = false) :
    e.beginServe.state = e.state ∧ e.beginServe.stream.fault = none ∧
      e.beginServe.wake = false ∧ e.beginServe.stream.published = none ∧
      ((e.stream.published = none ∧ e.beginServe.worker = .idle ∧
          e.beginServe.stream.occupied = false) ∨
        ∃ half, e.stream.published = some half ∧
          e.beginServe.worker = .inBlock ⟨half, e.stream.settings⟩) := by
  unfold beginServe
  rw [if_pos ⟨hidle, hwake⟩]
  split
  · next stream htake =>
    have hstream : stream = e.stream.takePair.2 := (congrArg Prod.snd htake).symm
    rw [hstream]
    exact ⟨rfl, hfault, rfl, rfl, .inl ⟨congrArg Prod.fst htake, hidle, hfree⟩⟩
  · next half stream htake =>
    have hstream : stream = e.stream.takePair.2 := (congrArg Prod.snd htake).symm
    have haccepts : stream.accepts = true := by
      rw [hstream]
      show (e.stream.fault.isNone && !e.stream.occupied) = true
      rw [hfault, hfree]
      rfl
    rw [if_pos haccepts, hstream]
    exact ⟨rfl, hfault, rfl, rfl, .inr ⟨half, congrArg Prod.fst htake, rfl⟩⟩

variable [Processor π]

theorem finishServe_held (e : Engine σ τ π η) :
    e.finishServe.worker.isHeld = e.worker.isHeld ∧ e.finishServe.state = e.state := by
  refine ⟨?_, e.state_finishServe⟩
  unfold finishServe
  split
  · next hworker =>
    dsimp only [recordStream]
    rw [hworker]
    split <;> rfl
  · rfl

theorem finishServe_outside (h : ∀ b, e.worker ≠ .inBlock b) : e.finishServe = e := by
  unfold finishServe
  split
  · next b hworker => exact absurd hworker (h b)
  · rfl

/-- **The end of a block** leaves the worker asleep or dead, the stream free, and the pairing as it
was. -/
theorem finishServe_inBlock {b : Stream.OpenBlock} (h : e.worker = .inBlock b) :
    e.finishServe.state = e.state ∧ e.finishServe.stream.fault = e.stream.fault ∧
      e.finishServe.wake = e.wake ∧ e.finishServe.stream.published = e.stream.published ∧
      e.finishServe.stream.settings = e.stream.settings ∧
      e.finishServe.stream.occupied = false ∧
      (e.finishServe.worker = .idle ∨ e.finishServe.worker = .dead) := by
  have hframe := Stream.finishBlock_frame e.stream b e.processor e.bay
  have hfree := Stream.finishBlock_free e.stream b e.processor e.bay
  have hready : (e.stream.finishBlock b e.processor e.bay).stream.pairs.ready
      = e.stream.pairs.ready := congrArg PairTracker.ready hframe.pairs
  unfold finishServe
  rw [h]
  refine ⟨rfl, hframe.fault, rfl, Stream.published_of_ready hready, hframe.settings, hfree, ?_⟩
  dsimp only [recordStream]
  split
  · exact .inr rfl
  · exact .inl rfl

end Worker

/-! ## Moves that leave an engine running -/

/-- Nothing that concerns the worker has changed. -/
structure Undisturbed (e e' : Engine σ τ π η) : Prop where
  state : e'.state = e.state
  worker : e'.worker = e.worker
  wake : e'.wake = e.wake
  published : e'.stream.published = e.stream.published
  fault : e'.stream.fault = e.stream.fault
  occupied : e'.stream.occupied = e.stream.occupied

theorem Undisturbed.refl (e : Engine σ τ π η) : Undisturbed e e := ⟨rfl, rfl, rfl, rfl, rfl, rfl⟩

theorem Undisturbed.of_eq (h : e' = e) : Undisturbed e e' := h ▸ refl e

theorem undisturbed_mapStream (e : Engine σ τ π η) (f : Stream → Stream)
    (hpairs : (f e.stream).pairs = e.stream.pairs) (hfault : (f e.stream).fault = e.stream.fault)
    (hoccupied : (f e.stream).occupied = e.stream.occupied) : Undisturbed e (e.mapStream f) where
  state := rfl
  worker := rfl
  wake := rfl
  published := Stream.published_of_ready (congrArg PairTracker.ready hpairs)
  fault := hfault
  occupied := hoccupied

/-- What is done only while there is no worker does not disturb it. -/
theorem undisturbed_whileIdle {α : Type} {f : Engine σ τ π η → α × Engine σ τ π η}
    (h : Undisturbed e (f e).2) : Undisturbed e (e.whileIdle f).2 := by
  unfold whileIdle
  split
  · exact .refl e
  · exact h

section Moves

variable [Codec σ] [SerialLink τ] [LinkProbe τ] [Processor π] [CartridgeHook η]

theorem undisturbed_edit (e : Engine σ τ π η) {m : Move σ τ π η} (hedit : m.isEdit = true) :
    Undisturbed e (e.after m) := by
  cases m with
  | registerPull | registerPush | editCartridges | editProcessor =>
    exact undisturbed_whileIdle ⟨rfl, rfl, rfl, rfl, rfl, rfl⟩
  | capture half block =>
    exact e.undisturbed_mapStream (fun s =>
      { s with buffers := s.buffers.writeCapture half block }) rfl rfl rfl
  | mix | codec | link | threads => exact ⟨rfl, rfl, rfl, rfl, rfl, rfl⟩
  | init | start | stop | poll | teardown | interrupt | wakeUp | finishBlock =>
    exact Bool.noConfusion hedit

/-- How a move leaves an engine running: it launched it, or found it running and was a step of the
worker, or an interrupt that published a pair, or something that does not concern the worker. -/
inductive Runs (e : Engine σ τ π η) : Move σ τ π η → Prop where
  | launched {armed linked : Engine σ τ π η} (stopped : e.state ≠ .running)
      (launched : Launched armed linked e.start.2) : Runs e .start
  | wakeUp : Runs e .wakeUp
  | finishBlock : Runs e .finishBlock
  | published {event : Interrupt} {half : Half} (answer : (e.deliver event).1 = .pairReady half) :
      Runs e (.interrupt event)
  | undisturbed {m : Move σ τ π η} (same : Undisturbed e (e.after m)) : Runs e m

/-- **Every move that leaves an engine running** does so in one of these ways. -/
theorem runs_of_running (hvacant : e.Vacant) {m : Move σ τ π η}
    (hrunning : (e.after m).state = .running) : e.Runs m := by
  -- what ends in another state is not meant
  have hother {state : Lifecycle} (hstate : (e.after m).state = state) (hne : state ≠ .running) :
      e.Runs m := absurd (hstate.symm.trans hrunning) hne
  cases m with
  | init =>
    rcases e.init_cases with ⟨-, hsame⟩ | hfault | ⟨hready, -⟩
    · exact .undisturbed (.of_eq hsame)
    · exact hother hfault Lifecycle.noConfusion
    · exact hother hready Lifecycle.noConfusion
  | start =>
    rcases start_cases hvacant with
      ⟨-, hsame⟩ | ⟨-, hfault⟩ | ⟨hstopped, armed, linked, hlaunched⟩
    · exact .undisturbed (.of_eq hsame)
    · exact hother hfault Lifecycle.noConfusion
    · exact .launched hstopped hlaunched
  | stop => exact absurd hrunning e.stop_cases.1
  | poll =>
    rcases e.poll_cases with hsame | hfault
    · exact .undisturbed (.of_eq hsame)
    · exact hother hfault Lifecycle.noConfusion
  | teardown => exact hother rfl Lifecycle.noConfusion
  | interrupt event =>
    have hinterrupted := e.interrupted_deliver event
    rcases e.deliver_published event with ⟨half, hanswer, -, -⟩ | ⟨-, hwake, hpublished⟩
    · exact .published hanswer
    · exact .undisturbed ⟨hrunning.trans (hinterrupted.running hrunning).symm, hinterrupted.worker,
        hwake, hpublished, hinterrupted.fault hrunning, hinterrupted.occupied⟩
  | wakeUp => exact .wakeUp
  | finishBlock => exact .finishBlock
  | registerPull | registerPush | editCartridges | editProcessor | mix | capture | codec | link
  | threads =>
    exact .undisturbed (e.undisturbed_edit rfl)

/-! ## What holds after every run -/

/-- **What an engine is like** after every run. -/
structure Orderly (e : Engine σ τ π η) : Prop where
  vacant : e.Vacant
  fault : e.state = .running → e.stream.fault = none
  /-- A worker that sleeps has no block in progress. -/
  free : e.state = .running → e.worker = .idle → e.stream.occupied = false
  /-- A pair that is published while the worker is inside a block has posted a wake-up. -/
  noticed : e.state = .running → ∀ b, e.worker = .inBlock b → e.stream.published ≠ none →
    e.wake = true

omit [LinkProbe τ] [Processor π] [CartridgeHook η] in
theorem Launched.orderly {armed linked : Engine σ τ π η} (h : Launched armed linked e) :
    e.Orderly where
  vacant hrunning hfault := by
    rcases h.state with hstate | hstate
    · exact absurd hstate hrunning
    · exact absurd hstate hfault
  fault := h.noFault
  free _ _ := h.occupied
  noticed _ b hworker := by
    rw [h.worker] at hworker
    exact absurd hworker Worker.noConfusion

/-- After every move there is a worker only while running or at fault. -/
theorem Vacant.after (h : e.Vacant) (m : Move σ τ π η) : (e.after m).Vacant := by
  intro hrunning hfault
  -- most moves leave the worker where it is
  have hkept (hworker : (e.after m).worker.isHeld = e.worker.isHeld)
      (hstate : (e.after m).state = e.state ∨ (e.after m).state = .fault) :
      (e.after m).worker.isHeld = false := by
    rcases hstate with hstate | hstate
    · rw [hstate] at hrunning hfault
      rw [hworker]
      exact h hrunning hfault
    · exact absurd hstate hfault
  have hundisturbed (h : Undisturbed e (e.after m)) : (e.after m).worker.isHeld = false :=
    hkept (congrArg Worker.isHeld h.worker) (.inl h.state)
  cases m with
  | init =>
    rcases e.init_cases with ⟨-, hsame⟩ | hstate | ⟨-, hended⟩
    · exact hundisturbed (.of_eq hsame)
    · exact absurd hstate hfault
    · exact hended
  | start =>
    rcases start_cases h with ⟨-, hsame⟩ | ⟨-, hstate⟩ | ⟨-, armed, linked, hlaunched⟩
    · exact hundisturbed (.of_eq hsame)
    · exact absurd hstate hfault
    · exact hlaunched.orderly.vacant hrunning hfault
  | stop =>
    rcases e.stop_cases.2 with hsame | hended
    · exact hundisturbed (.of_eq hsame)
    · exact hended
  | poll =>
    rcases e.poll_cases with hsame | hstate
    · exact hundisturbed (.of_eq hsame)
    · exact absurd hstate hfault
  | teardown => exact e.isHeld_halt
  | interrupt event =>
    have hinterrupted := e.interrupted_deliver event
    exact hkept (congrArg Worker.isHeld hinterrupted.worker) hinterrupted.state
  | wakeUp => exact hkept e.beginServe_held.1 (.inl e.beginServe_held.2)
  | finishBlock => exact hkept e.finishServe_held.1 (.inl e.finishServe_held.2)
  | registerPull | registerPush | editCartridges | editProcessor | mix | capture | codec | link
  | threads =>
    exact hundisturbed (e.undisturbed_edit rfl)

omit [Codec σ] [SerialLink τ] [LinkProbe τ] [Processor π] in
/-- The worker wakes up, on a running engine. -/
theorem Orderly.beginServe (h : e.Orderly) (hrunning : e.state = .running) :
    e.beginServe.Orderly := by
  by_cases hwoken : e.worker = .idle ∧ e.wake = true
  · obtain ⟨hidle, hwake⟩ := hwoken
    obtain ⟨-, hfault, -, hpublished, hworker⟩ :=
      beginServe_woken hidle hwake (h.fault hrunning) (h.free hrunning hidle)
    refine ⟨vacant_of_running (e.beginServe_held.2.trans hrunning), fun _ => hfault,
      fun _ hasleep => ?_, fun _ b _ hsome => absurd hpublished hsome⟩
    rcases hworker with ⟨-, -, hfree⟩ | ⟨half, -, hinBlock⟩
    · exact hfree
    · rw [hinBlock] at hasleep
      exact absurd hasleep Worker.noConfusion
  · rw [beginServe_asleep hwoken]
    exact h

omit [Codec σ] [SerialLink τ] [LinkProbe τ] in
/-- The worker goes on with its block, on a running engine. -/
theorem Orderly.finishServe (h : e.Orderly) (hrunning : e.state = .running) :
    e.finishServe.Orderly := by
  cases hworker : e.worker with
  | inBlock b =>
    obtain ⟨hstate, hfault, -, -, -, hfree, hended⟩ := finishServe_inBlock hworker
    refine ⟨vacant_of_running (hstate.trans hrunning),
      fun _ => hfault.trans (h.fault hrunning), fun _ _ => hfree, fun _ b' hinBlock => ?_⟩
    rcases hended with hidle | hdead
    · rw [hidle] at hinBlock
      exact absurd hinBlock Worker.noConfusion
    · rw [hdead] at hinBlock
      exact absurd hinBlock Worker.noConfusion
  | absent | idle | dead =>
    rw [finishServe_outside fun b hinBlock => by
      rw [hworker] at hinBlock
      exact Worker.noConfusion hinBlock]
    exact h

omit [Codec σ] [SerialLink τ] [LinkProbe τ] [Processor π] [CartridgeHook η] in
/-- Interrupts that leave the engine running, the last of them with a wake-up. -/
theorem Orderly.woken (h : e.Orderly) (hinterrupted : Interrupted e e')
    (hrunning : e'.state = .running) (hwake : e'.wake = true) : e'.Orderly := by
  have hbefore := hinterrupted.running hrunning
  refine ⟨vacant_of_running hrunning, fun _ => ?_, fun _ hidle => ?_, fun _ _ _ _ => hwake⟩
  · exact (hinterrupted.fault hrunning).trans (h.fault hbefore)
  · rw [hinterrupted.worker] at hidle
    exact hinterrupted.occupied.trans (h.free hbefore hidle)

omit [Codec σ] [SerialLink τ] [LinkProbe τ] [Processor π] [CartridgeHook η] in
theorem Orderly.undisturbed (h : e.Orderly) (hsame : Undisturbed e e')
    (hrunning : e'.state = .running) : e'.Orderly := by
  have hbefore : e.state = .running := hsame.state.symm.trans hrunning
  refine ⟨vacant_of_running hrunning, fun _ => hsame.fault.trans (h.fault hbefore),
    fun _ hidle => ?_, fun _ b hinBlock hsome => ?_⟩
  · rw [hsame.worker] at hidle
    exact hsame.occupied.trans (h.free hbefore hidle)
  · rw [hsame.worker] at hinBlock
    rw [hsame.published] at hsome
    exact hsame.wake.trans (h.noticed hbefore b hinBlock hsome)

/-- **Every move keeps an engine orderly**: one case for each way to leave it running. -/
theorem Orderly.after (h : e.Orderly) (m : Move σ τ π η) : (e.after m).Orderly := by
  by_cases hrunning : (e.after m).state = .running
  · cases runs_of_running h.vacant hrunning with
    | launched _ hlaunched => exact hlaunched.orderly
    | wakeUp => exact h.beginServe (e.beginServe_held.2.symm.trans hrunning)
    | finishBlock => exact h.finishServe (e.finishServe_held.2.symm.trans hrunning)
    | published hanswer => exact h.woken (e.interrupted_deliver _) hrunning (deliver_wake hanswer)
    | undisturbed hsame => exact h.undisturbed hsame hrunning
  · exact ⟨h.vacant.after m, fun h => absurd h hrunning, fun h => absurd h hrunning,
      fun h => absurd h hrunning⟩

omit [Codec σ] [SerialLink τ] [LinkProbe τ] [Processor π] [CartridgeHook η] in
theorem new_orderly (codec : σ) (link : τ) (processor : π) (config : FrameLayout) :
    (new codec link processor config : Engine σ τ π η).Orderly :=
  ⟨fun _ _ => rfl, fun h => Lifecycle.noConfusion h, fun h => Lifecycle.noConfusion h,
    fun h => Lifecycle.noConfusion h⟩

/-- **An engine is orderly after every run**, whatever its devices do. -/
theorem orderly_run (codec : σ) (link : τ) (processor : π) (config : FrameLayout)
    (moves : List (Move σ τ π η)) : ((new codec link processor config).run moves).Orderly :=
  run_invariant (fun _ m h => h.after m) (new_orderly codec link processor config) moves

end Moves

end Engine

end DuplexAudio
