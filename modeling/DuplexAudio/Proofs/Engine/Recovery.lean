/-
  A bring-up after a fault leaves nothing of the past.

  An engine at fault may have left behind pairs that are half completed or were never taken, a
  wake-up, a worker that unwound, counters, a changed mix, and samples in every buffer.  The
  bring-up that leads out of the fault has to make all of it unobservable.

  1. **What a bring-up restores** (`Restored`).  Whatever engine it was applied to, a bring-up that
     succeeds leaves the stream as a new engine has it, silent cartridges, and the state ready; it
     keeps the processor, the hooks and the layout, and has no say in what the system gives.

  2. **What is left** after the halt before it is the wake-up, which is dropped when the next worker
     is created, the count of wake-ups, the journal, and what the devices keep for themselves.  So
     the engine is `Alike` to one that was just built and brought up (`alike_of_restored`).

  `recovery_complete` follows with the run lemma of `Alike`, for every engine at fault and all that
  may happen afterwards.  That the devices answer alike from then on is what its `Likeness` says; a
  loopback link has one that ignores its counts of calls (`Likeness.uncounted`).
-/
import Mathlib.Control.Monad.Basic
import DuplexAudio.Proofs.Engine.Likeness

namespace DuplexAudio

namespace Engine

variable {σ τ π η : Type} {e e' : Engine σ τ π η}

/-! ## What a bring-up restores -/

/-- The engine after a bring-up that succeeded. -/
structure Restored (e e' : Engine σ τ π η) : Prop where
  processor : e'.processor = e.processor
  bay : e'.bay = e.bay.clear
  config : e'.config = e.config
  threadRefusal : e'.threadRefusal = e.threadRefusal
  stream : e'.stream = {}
  state : e'.state = .ready
  initialized : e'.initialized = true
  worker : e'.worker = e.worker

/-- **A bring-up that succeeds** restores everything but the processor, the hooks, the layout and the
system. -/
theorem restored_bringUp [Codec σ] [SerialLink τ] (hok : e.bringUp.1 = .ok ()) :
    Restored e e.bringUp.2 := by
  have hworker := e.worker_bringUp
  have hinit := e.kept_callCodec .init
  revert hok hworker
  unfold bringUp
  split
  · exact fun hok => nomatch hok
  · next asked hcall =>
    rw [hcall] at hinit
    have hkept := hinit.trans asked.kept_configureLink
    split
    · exact fun hok => nomatch hok
    · next linked hlink =>
      rw [hlink] at hkept
      intro _ hworker
      refine ⟨?_, ?_, ?_, ?_, rfl, rfl, rfl, hworker⟩
      · dsimp only [log, record, resetStream, recordStream, mapStream]
        exact hkept.processor
      · dsimp only [log, record, resetStream, recordStream, mapStream]
        rw [hkept.bay]
      · dsimp only [log, record, resetStream, recordStream, mapStream]
        exact hkept.config
      · dsimp only [log, record, resetStream, recordStream, mapStream]
        exact hkept.threadRefusal

/-- **Two engines that were restored** from the same processor, hooks and layout, under the same
system, are alike from then on, if their devices are. -/
theorem alike_of_restored [Codec σ] [SerialLink τ] [LinkProbe τ] {L : Likeness σ τ}
    {found built e e' : Engine σ τ π η} (h : Restored found e) (h' : Restored built e')
    (hprocessor : built.processor = found.processor)
    (hbay : built.bay.clear = found.bay.clear) (hconfig : built.config = found.config)
    (hthreads : built.threadRefusal = found.threadRefusal)
    (hvacant : found.worker.isHeld = false) (hvacant' : built.worker.isHeld = false)
    (hcodec : L.codec e.codec e'.codec) (hlink : L.link e.link e'.link) : Alike L e e' e e' where
  codec := hcodec
  link := hlink
  processor := h'.processor.trans (hprocessor.trans h.processor.symm)
  bay := h'.bay.trans (hbay.trans h.bay.symm)
  config := h'.config.trans (hconfig.trans h.config.symm)
  threadRefusal := h'.threadRefusal.trans (hthreads.trans h.threadRefusal.symm)
  stream := h'.stream.trans h.stream.symm
  state := h'.state.trans h.state.symm
  initialized := h'.initialized.trans h.initialized.symm
  worker := by
    have habsent {worker : Worker} (hheld : worker.isHeld = false) : worker = .absent := by
      cases worker with
      | absent => rfl
      | idle | inBlock | dead => exact Bool.noConfusion hheld
    rw [h'.worker, h.worker, habsent hvacant, habsent hvacant']
  wake hheld := by
    rw [h.worker, hvacant] at hheld
    exact Bool.noConfusion hheld
  journal := ⟨[], (List.append_nil _).symm, (List.append_nil _).symm⟩

/-! ## The halt before it -/

section Halt

variable [Codec σ] [SerialLink τ] [Processor π] [CartridgeHook η]

/-- Without a worker a halt leaves alone what the worker would own. -/
theorem kept_halt (h : e.worker = .absent) : Kept e e.halt := by
  by_cases hstreaming : e.Streaming
  · rw [halt_of_streaming hstreaming]
    have hmute := e.kept_mute true
    have habsent : ((e.mute true).mapStream (·.setArmed false)).stopLink.worker = .absent :=
      (e.interrupted_mute true).worker.trans h
    generalize hstopped : ((e.mute true).mapStream (·.setArmed false)).stopLink = stopped at habsent
    have hkept : Kept e stopped := by
      rw [← hstopped]
      exact ⟨hmute.processor, hmute.bay, hmute.config, hmute.threadRefusal⟩
    have hjoin : stopped.join = stopped := by
      unfold join finishServe
      rw [habsent]
      dsimp only
      rw [habsent]
    rw [hjoin]
    exact hkept
  · rw [halt_of_not_streaming hstreaming]
    exact .refl e

end Halt

/-! ## The headline -/

section Moves

variable [Codec σ] [SerialLink τ] [LinkProbe τ] [Processor π] [CartridgeHook η]

/-- A new engine on devices of its own, with the processor, the layout and the hooks of `e`, under a
system that gives threads as it does to `e`. -/
def rebuilt (e : Engine σ τ π η) (codec : σ) (link : τ) : Engine σ τ π η :=
  (new codec link e.processor e.config).run
    [.registerPull e.bay.pull, .registerPush e.bay.push, .threads e.threadRefusal]

/-- **Recovery through a bring-up is complete.**  Take any engine at fault whose `init` succeeds,
with any past; and an engine that is built with the same layout, the processor and the hooks that
the recovered one has, on the same system, and whose `init` succeeds too.  If the devices of the two are alike by then,
then for every list of moves, in which codecs that change by themselves change alike:
(1) both engines answer every operation and every interrupt the same;
(2) afterwards they have the same state, the same stream, with its counters, mix, buffers, pairs and
    latch, the same cartridge bay and the same processor, and a worker that is at the same point;
(3) the same was journaled on both since their `init`.
As this holds for every list of moves, it holds after each move of a list. -/
theorem recovery_complete (L : Likeness σ τ) (faulted : Engine σ τ π η) (codec : σ) (link : τ)
    (moves : List (Move σ τ π η)) :
    let recovered := faulted.init
    let fresh := (recovered.2.rebuilt codec link).init
    faulted.state = .fault → recovered.1 = .ok () → fresh.1 = .ok () →
    L.codec recovered.2.codec fresh.2.codec → L.link recovered.2.link fresh.2.link →
    (∀ m ∈ moves, m.Respects L) →
    fresh.2.answers moves = recovered.2.answers moves ∧
    ((fresh.2.run moves).state = (recovered.2.run moves).state ∧
      (fresh.2.run moves).initialized = (recovered.2.run moves).initialized ∧
      (fresh.2.run moves).stream = (recovered.2.run moves).stream ∧
      (fresh.2.run moves).bay = (recovered.2.run moves).bay ∧
      (fresh.2.run moves).processor = (recovered.2.run moves).processor ∧
      (fresh.2.run moves).worker = (recovered.2.run moves).worker ∧
      (fresh.2.run moves).linkRunning = (recovered.2.run moves).linkRunning) ∧
    ∃ events, (recovered.2.run moves).journal = recovered.2.journal ++ events ∧
      (fresh.2.run moves).journal = fresh.2.journal ++ events := by
  intro recovered fresh hfault hok hfresh hcodec hlink hmoves
  have hrecovered : recovered = faulted.halt.bringUp := init_of_fault hfault
  let built := recovered.2.rebuilt codec link
  have hbuilt : fresh = built.halt.bringUp := init_of_not_initialized rfl
  have hrestored : Restored faulted.halt recovered.2 := by
    rw [hrecovered] at hok ⊢
    exact restored_bringUp hok
  have hrestored' : Restored built.halt fresh.2 := by
    rw [hbuilt] at hfresh ⊢
    exact restored_bringUp hfresh
  have hkept : Kept built built.halt := kept_halt rfl
  have halike : Alike L recovered.2 fresh.2 recovered.2 fresh.2 := by
    refine alike_of_restored hrestored hrestored' ?_ ?_ ?_ ?_ faulted.isHeld_halt
      built.isHeld_halt hcodec hlink
    · rw [hkept.processor]
      exact hrestored.processor
    · rw [hkept.bay]
      show (⟨recovered.2.bay.pull, recovered.2.bay.push, _, _⟩ : CartridgeBay η) = _
      rw [hrestored.bay]
      rfl
    · rw [hkept.config]
      exact hrestored.config
    · rw [hkept.threadRefusal]
      exact hrestored.threadRefusal
  obtain ⟨hanswers, hlast⟩ := halike.run hmoves
  exact ⟨hanswers, ⟨hlast.state, hlast.initialized, hlast.stream, hlast.bay, hlast.processor,
    hlast.worker, hlast.linkRunning⟩, hlast.journal⟩

end Moves

end Engine

/-! ## A loopback link but for its counts -/

/-- Loopback links that differ at most in how often they were called, and in which regions they were
started over last. -/
structure Loopback.Uncounted {ρ : Type} (l l' : Loopback ρ) : Prop where
  config : l'.config = l.config
  running : l'.running = l.running
  failStart : l'.failStart = l.failStart

/-- Equal codecs, and loopback links whose counts are left out. -/
def Likeness.uncounted (σ : Type) [Codec σ] : Likeness σ (Loopback Unit) where
  codec := Eq
  link := Loopback.Uncounted
  call := by
    rintro d _ rfl call
    exact ⟨rfl, rfl, rfl, rfl⟩
  configure := by
    intro l l' h config
    dsimp only [SerialLink.configure, Loopback.configure]
    cases config.validate with
    | error cause => exact ⟨rfl, h, rfl, rfl⟩
    | ok => exact ⟨rfl, ⟨rfl, h.running, h.failStart⟩, rfl, rfl⟩
  start := by
    intro l l' h
    dsimp only [SerialLink.start, Loopback.start]
    rw [h.config, h.running, h.failStart]
    split
    · exact ⟨rfl, h, rfl, rfl⟩
    · split
      · exact ⟨rfl, h, rfl, rfl⟩
      · split
        · exact ⟨rfl, ⟨rfl, rfl, rfl⟩, rfl, rfl⟩
        · exact ⟨rfl, ⟨rfl, rfl, rfl⟩, rfl, rfl⟩
  stop := by
    intro l l' h
    dsimp only [SerialLink.stop, Loopback.stop]
    rw [h.running]
    split
    · exact ⟨h.config, rfl, h.failStart⟩
    · exact h
  isRunning h := h.running
  touch h _ := ⟨h.config, h.running, rfl⟩

namespace Engine

/-! ## After a worker that unwound and a wake-up in flight -/

/-- A start with a hook and another mix; a block that unwinds; then a pair that nobody takes, half
of another one, and an error. -/
def stricken : Scripted :=
  (new {} {} .unwinding {}).run
    [.registerPull (some (.first 0)), .start, .mix fun s => { s with master := 0 },
      .interrupt ⟨.rx, ⟨0x01⟩⟩, .interrupt ⟨.tx, ⟨0x01⟩⟩, .wakeUp, .finishBlock,
      .interrupt ⟨.rx, ⟨0x02⟩⟩, .interrupt ⟨.tx, ⟨0x02⟩⟩, .interrupt ⟨.rx, ⟨0x01⟩⟩,
      .interrupt ⟨.tx, ⟨0x10⟩⟩]

/-- Streaming again, with a processor that finishes. -/
def resumed : List (Move Bench.ScriptedCodec (Loopback Unit) Bench.Instrument Bench.Hook) :=
  [.editProcessor fun _ => .mixer, .start, .interrupt ⟨.rx, ⟨0x01⟩⟩, .interrupt ⟨.tx, ⟨0x01⟩⟩,
    .wakeUp, .finishBlock, .stop]

/-- The next block is played as on a new engine. -/
theorem recovery_complete_stricken :
    (stricken.state = .fault ∧ stricken.worker = .dead ∧ stricken.wake = true ∧
      stricken.stream.published = some .second) ∧
    stricken.init.1 = .ok () ∧ (stricken.init.2.rebuilt {} {}).init.1 = .ok () ∧
    ((stricken.init.2.rebuilt {} {}).init.2.run resumed).stream =
      (stricken.init.2.run resumed).stream ∧
    (stricken.init.2.run resumed).stream.processed = 1 := by
  have hfault : stricken.state = .fault := by decide +kernel
  have hok : stricken.init.1 = .ok () := by decide +kernel
  have hfresh : (stricken.init.2.rebuilt {} {}).init.1 = .ok () := by decide +kernel
  have hcodec : stricken.init.2.codec = (stricken.init.2.rebuilt {} {}).init.2.codec := by rfl
  have hlink : stricken.init.2.link.Uncounted (stricken.init.2.rebuilt {} {}).init.2.link :=
    ⟨by decide +kernel, by decide +kernel, by decide +kernel⟩
  have hresumed : ∀ m ∈ resumed, m.Respects (.uncounted Bench.ScriptedCodec) := by
    rintro m - f - d d' rfl
    rfl
  obtain ⟨-, ⟨-, -, hstream, -⟩, -⟩ := recovery_complete (.uncounted Bench.ScriptedCodec) stricken
    {} {} resumed hfault hok hfresh hcodec hlink hresumed
  exact ⟨⟨hfault, by decide +kernel, by decide +kernel, by decide +kernel⟩, hok, hfresh, hstream,
    by decide +kernel⟩

end Engine

end DuplexAudio
