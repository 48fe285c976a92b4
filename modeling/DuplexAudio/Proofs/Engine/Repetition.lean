/-
  Nothing happens the second time.

  Each operation of the control side may be called again right away, and then finds nothing left to
  do.  There are two reasons:

  1. **Nothing is streaming** after a halt, if a stop of the link ends its clocks
     (`not_streaming_halt`).  A stop, a poll and a teardown of such an engine halt nothing
     (`stop_of_ended`, `poll_of_ended`), and the state that the first call left is one that the
     second leaves alone.

  2. **What succeeded is seen to be done.**  An `init` that succeeded leaves the engine brought up
     and not at fault, and a start leaves it running, which is what the two look at first.

  There is one exception.  A start unmutes last, once the engine is running, and a transfer error
  may be raised during that call.  The start succeeds all the same, and the engine is at fault with
  the error latched (`Launched.running_or_latched`).  `repeated_operations` says both.
-/
import DuplexAudio.Proofs.Engine.Halted
import DuplexAudio.Proofs.Engine.Recovery
import DuplexAudio.Proofs.Engine.StopRace

namespace DuplexAudio

namespace Engine

variable {σ τ π η : Type} {e : Engine σ τ π η}

section Operations

variable [Codec σ] [SerialLink τ] [Processor π] [CartridgeHook η]

/-! ## Stops, polls and teardowns -/

theorem stop_of_ended (h : ¬e.Streaming) (hrunning : e.state ≠ .running) : e.stop = e := by
  unfold stop
  split
  · rfl
  · next hstate => exact absurd hstate hrunning
  · exact halt_of_not_streaming h
  · exact halt_of_not_streaming h

theorem poll_of_ended (h : ¬e.Streaming) : e.poll = (e.state, e) := by
  have halive : ¬(e.worker = .dead ∧ e.state ≠ .fault) := by
    rintro ⟨hdead, -⟩
    refine h (.inl ?_)
    rw [hdead]
    rfl
  have hnotice : e.noticeWorker = e := if_neg halive
  have hnothing : ¬(e.state = .fault ∧ (e.worker.isHeld = true ∨ e.linkRunning = true)) :=
    fun hhalts => h hhalts.2
  unfold poll
  rw [hnotice]
  exact if_neg hnothing

section Twice

variable (hstop : ∀ l : τ, SerialLink.isRunning (SerialLink.stop l) = false)

include hstop

/-- After a halt nothing is streaming, if a stop of the link ends its clocks. -/
theorem not_streaming_halt (e : Engine σ τ π η) : ¬e.halt.Streaming := by
  rintro (hheld | hclocking)
  · exact absurd (e.isHeld_halt.symm.trans hheld) Bool.false_ne_true
  · exact absurd ((e.linkRunning_halt_of_stop hstop).symm.trans hclocking) Bool.false_ne_true

theorem stop_stop (e : Engine σ τ π η) : e.stop.stop = e.stop := by
  cases hstate : e.state with
  | stopped =>
    have hsame : e.stop = e := by
      unfold stop
      rw [hstate]
    rw [hsame, hsame]
  | running =>
    have hended : ¬e.stop.Streaming := by
      rw [stop_of_running hstate]
      exact e.not_streaming_halt hstop
    exact stop_of_ended hended e.stop_cases.1
  | ready | fault =>
    have hhalted : e.stop = e.halt := by
      unfold stop
      rw [hstate]
    have hrunning := e.stop_cases.1
    rw [hhalted] at hrunning ⊢
    exact stop_of_ended (e.not_streaming_halt hstop) hrunning

theorem poll_poll (e : Engine σ τ π η) : e.poll.2.poll = e.poll := by
  rcases e.poll_halts with ⟨hsame, -⟩ | ⟨e', hhalts, -, hfault⟩
  · rw [hsame]
    exact hsame
  · have hended := poll_of_ended (e'.not_streaming_halt hstop)
    rw [e'.calm_halt.state hfault] at hended
    rw [hhalts]
    exact hended

/-- All that a second teardown leaves is its record in the log. -/
theorem teardown_teardown (e : Engine σ τ π η) :
    e.teardown.teardown = e.teardown.log .tornDown := by
  have hended : ¬e.teardown.Streaming := e.not_streaming_halt hstop
  show ({ e.teardown.halt with initialized := false, state := .stopped } :
    Engine σ τ π η).log .tornDown = _
  rw [halt_of_not_streaming hended]
  rfl

end Twice

/-! ## Bring-ups -/

theorem init_init (hok : e.init.1 = .ok ()) : e.init.2.init = (.ok (), e.init.2) := by
  by_cases hup : e.initialized = true ∧ e.state ≠ .fault
  · have hsame := init_of_up hup
    rw [hsame]
    exact hsame
  · have hbrought : e.init = e.halt.bringUp := if_neg hup
    rw [hbrought] at hok ⊢
    have hrestored := restored_bringUp hok
    refine if_pos ⟨hrestored.initialized, ?_⟩
    rw [hrestored.state]
    exact Lifecycle.noConfusion

/-! ## Starts -/

omit [SerialLink τ] [Processor π] [CartridgeHook η] in
/-- A call during which no error is reported leaves the state as it is. -/
theorem state_mute_of_no_error (halert : e.Alert) {mute : Bool}
    (hnone : Interrupt.firstError? (Codec.call (.setMute mute) e.codec).interrupts = none) :
    (e.mute mute).state = e.state := by
  cases harmed : e.stream.armed with
  | true =>
    have hlistening : e.Listening := ⟨harmed, halert harmed⟩
    rw [(e.mute_listening mute).2]
    exact (hlistening.callCodec_of_no_error hnone).2
  | false => exact ((e.meanwhile_mute mute).disarmed harmed).2

namespace Launched

variable {armed linked : Engine σ τ π η}

omit [Processor π] [CartridgeHook η] in
/-- Nothing is latched when the output is about to be unmuted. -/
theorem fault_spawn (h : Launched armed linked e) : linked.spawn.2.stream.fault = none := by
  rw [h.spawn_eq]
  exact h.fault

omit [Processor π] [CartridgeHook η] in
/-- An engine that was launched is running, unless an error was raised while it was being
unmuted. -/
theorem running_or_latched (h : Launched armed linked e) :
    e.state = .running ∨ (e.state = .fault ∧ e.stream.fault ≠ none) := by
  have hunmute := meanwhile_mute ({ linked.spawn.2 with state := .running } : Engine σ τ π η) false
  rw [h.launched]
  rcases hunmute.heard fun _ => h.fault_spawn with ⟨-, -, hstate⟩ | ⟨-, -, hlatched, hstate⟩
  · exact .inl hstate
  · exact .inr ⟨hstate, hlatched⟩

omit [Processor π] [CartridgeHook η] in
theorem running_of_no_error (h : Launched armed linked e)
    (hnone : ∀ d : σ,
      Interrupt.firstError? (Codec.call (.setMute false) d).interrupts = none) :
    e.state = .running := by
  rw [h.launched]
  exact state_mute_of_no_error (e := { linked.spawn.2 with state := .running })
    (fun _ => h.fault_spawn) (hnone _)

end Launched

/-- A start that succeeded found the engine running, or launched it. -/
theorem start_of_ok (hvacant : e.Vacant) (hok : e.start.1 = .ok ()) :
    e.start.2.state = .running ∨ ∃ armed linked, Launched armed linked e.start.2 := by
  rcases start_cases hvacant with ⟨hrunning, hsame⟩ | ⟨hfailed, -⟩ | ⟨-, hlaunched⟩
  · rw [hsame]
    exact .inl hrunning
  · exact absurd hok hfailed
  · exact .inr hlaunched

/-! ## The headline -/

variable [LinkProbe τ]

/-- **Every operation may be repeated.**  After every run, for every codec, and every link whose
clocks end with a stop of it:
(1) a start after one that succeeded succeeds too and changes nothing, if the codec raises no
    transfer error while it unmutes;
(2) if it does, either the same holds, or the first start left the engine at fault with the error
    latched;
(3) an `init` after one that succeeded succeeds too and changes nothing;
(4) a second stop changes nothing, and a second poll answers as the first did and changes nothing;
(5) a second teardown changes nothing but the log.
To change nothing means that the engine is the same with its devices and its journal, so nothing is
asked of a device either. -/
theorem repeated_operations (codec : σ) (link : τ) (processor : π) (config : FrameLayout)
    (moves : List (Move σ τ π η))
    (hstop : ∀ l : τ, SerialLink.isRunning (SerialLink.stop l) = false) :
    let e : Engine σ τ π η := (new codec link processor config).run moves
    ((∀ d : σ, Interrupt.firstError? (Codec.call (.setMute false) d).interrupts = none) →
      e.start.1 = .ok () → e.start.2.start = (.ok (), e.start.2)) ∧
    (e.start.1 = .ok () → e.start.2.start = (.ok (), e.start.2) ∨
      (e.start.2.state = .fault ∧ e.start.2.stream.fault ≠ none)) ∧
    (e.init.1 = .ok () → e.init.2.init = (.ok (), e.init.2)) ∧
    (e.stop.stop = e.stop ∧ e.poll.2.poll = e.poll) ∧
    e.teardown.teardown = e.teardown.log .tornDown := by
  intro e
  have hvacant : e.Vacant := (orderly_run codec link processor config moves).vacant
  refine ⟨fun hnone hok => ?_, fun hok => ?_, init_init,
    ⟨e.stop_stop hstop, e.poll_poll hstop⟩, e.teardown_teardown hstop⟩
  · have hrunning : e.start.2.state = .running := by
      rcases start_of_ok hvacant hok with hrunning | ⟨armed, linked, hlaunched⟩
      · exact hrunning
      · exact hlaunched.running_of_no_error hnone
    exact if_pos hrunning
  · rcases start_of_ok hvacant hok with hrunning | ⟨armed, linked, hlaunched⟩
    · exact .inl (if_pos hrunning)
    · exact hlaunched.running_or_latched.imp_left fun hrunning => if_pos hrunning

end Operations

/-! ## After a worker that unwound -/

/-- The first block, whose processor may unwind; the poll that notices it, and a bring-up. -/
def noticed : List (Move Bench.ScriptedCodec (Loopback Unit) Bench.Instrument Bench.Hook) :=
  firstBlock ++ [.poll, .init]

/-- A second poll answers the fault again and changes nothing; brought up, the engine starts, and
nothing happens when it is started again. -/
theorem repeated_operations_unwound :
    (∀ l : Loopback Unit, SerialLink.isRunning (SerialLink.stop l) = false) ∧
    (unwound.poll.1 = .fault ∧ unwound.poll.2.poll = unwound.poll) ∧
    ((new {} {} .unwinding {} : Scripted).run noticed).start.1 = .ok () ∧
    ((new {} {} .unwinding {} : Scripted).run noticed).start.2.start =
      (.ok (), ((new {} {} .unwinding {} : Scripted).run noticed).start.2) := by
  have hstop : ∀ l : Loopback Unit, SerialLink.isRunning (SerialLink.stop l) = false :=
    SerialLink.Obedient.isRunning_stop
  have hrepeated (moves) := repeated_operations ({} : Bench.ScriptedCodec) ({} : Loopback Unit)
    Bench.Instrument.unwinding {} (moves : List (Move _ _ _ Bench.Hook)) hstop
  have hfault : unwound.poll.1 = .fault := by decide +kernel
  have hok : ((new {} {} .unwinding {} : Scripted).run noticed).start.1 = .ok () := by
    decide +kernel
  obtain ⟨-, -, -, ⟨-, hpoll⟩, -⟩ := hrepeated firstBlock
  exact ⟨hstop, ⟨hfault, hpoll⟩, hok, (hrepeated noticed).1 (fun _ => rfl) hok⟩

end Engine

end DuplexAudio
