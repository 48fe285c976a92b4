/-
  A transfer error during a stop.

  A stop begins with a halt, and a halt begins with muting the output.  The stream is still armed
  then, so a transfer error that is raised while the codec mutes puts the engine at fault like any
  other.  The stop looked at the state before the halt and sets it once the halt is done:

  1. a stop that finds the engine running ends ready, whatever happened during the halt;
  2. so an error that arrives in between leaves its mark on the stream, where it stays latched, but
     not on the state (`stop_forgets_fault`), and the next start is not refused for it.

  An error just before the stop is not lost: a stop that finds the engine at fault leaves it there
  (`calm_stop`).  A start is more careful than a stop.  It makes the engine run only if it is still
  ready, so an error that arrives on the way is not overwritten (`start_under_interrupts`).
-/
import DuplexAudio.Proofs.Engine.StartUp

namespace DuplexAudio

namespace Engine

variable {σ τ π η : Type} {e : Engine σ τ π η}

section Stop

variable [Codec σ]

/-- **The muting of a listening engine**: the first error that the codec raises meanwhile is
latched, and the engine is at fault if it is running. -/
theorem mute_of_listening (h : e.Listening) (hrunning : e.state = .running) (mute : Bool)
    (d : Direction) :
    Interrupt.firstError? (Codec.call (.setMute mute) e.codec).interrupts = some d ↔
      (e.mute mute).state = .fault ∧ (e.mute mute).stream.fault = some d := by
  obtain ⟨hstream, hstate⟩ := e.mute_listening mute
  rw [hstream, hstate]
  cases hfirst : Interrupt.firstError? (Codec.call (.setMute mute) e.codec).interrupts with
  | none =>
    obtain ⟨-, hsame⟩ := h.callCodec_of_no_error hfirst
    rw [hsame, hrunning]
    constructor
    · exact fun hnone => nomatch hnone
    · exact fun hfault => Lifecycle.noConfusion hfault.1
  | some d' =>
    obtain ⟨-, hlatched, hfault⟩ := h.callCodec_of_error hfirst
    rw [hlatched, hfault, hrunning]
    exact ⟨fun hsame => ⟨rfl, hsame⟩, fun hboth => hboth.2⟩

variable [SerialLink τ] [Processor π] [CartridgeHook η]

theorem stop_of_running (h : e.state = .running) :
    e.stop = ({ e.halt with state := .ready } : Engine σ τ π η).log .stopped := by
  unfold stop
  rw [h]

variable [LinkProbe τ]

/-- **A stop forgets a fault that arrives during it.**  After every run that leaves an engine
running, whatever the devices do:
(1) the engine is ready after a stop, and the start after that is not refused for a fault;
(2) the first error that arrives while the output is being muted is of direction `d` if and only if
    the engine is at fault then, and the stop leaves the fault of `d` latched. -/
theorem stop_forgets_fault (codec : σ) (link : τ) (processor : π) (config : FrameLayout)
    (moves : List (Move σ τ π η)) :
    let e : Engine σ τ π η := (new codec link processor config).run moves
    e.state = .running →
    (e.stop.state = .ready ∧ e.stop.start.1 ≠ .error .faulted) ∧
    ∀ d, Interrupt.firstError? (Codec.call (.setMute true) e.codec).interrupts = some d ↔
      (e.mute true).state = .fault ∧ e.stop.stream.fault = some d := by
  intro e hrunning
  have htended : e.Tended := tended_run codec link processor config moves
  have hstop := stop_of_running hrunning
  have hready : e.stop.state = .ready := by
    rw [hstop]
    rfl
  refine ⟨⟨hready, ?_⟩, fun d => ?_⟩
  · obtain ⟨hstart, -, hstill, -⟩ := (htended.after .stop).start_ready (.inl hready)
    have hstart : e.stop.start = e.stop.init.2.startReady := hstart
    rw [hstart]
    refine startReady_ne_faulted ?_
    rw [show e.stop.init.2.state = .ready from hstill]
    exact Lifecycle.noConfusion
  · have hlatched : e.stop.stream.fault = (e.mute true).stream.fault := by
      rw [hstop]
      exact Streaming.fault_halt (.inl (htended.held hrunning))
    rw [hlatched]
    exact mute_of_listening (htended.listening hrunning) hrunning true d

end Stop

/-! ## A codec that jars the link -/

/-- A codec whose muting disturbs the receive channel. -/
inductive JarringCodec where
  | mk

instance : Codec JarringCodec where
  init c := { result := .ok (), device := c }
  configure c := { result := .ok (), device := c }
  setMute mute c :=
    { result := .ok (), device := c, interrupts := if mute then [⟨.rx, ⟨0x04⟩⟩] else [] }

/-- An engine on such a codec, after some moves. -/
def jarring (moves : List (Move JarringCodec (Loopback Unit) Bench.Instrument Bench.Hook)) :
    Engine JarringCodec (Loopback Unit) Bench.Instrument Bench.Hook :=
  (new .mk {} .mixer {}).run moves

/-- The error that arrives during the stop stays latched, and the engine is ready. -/
theorem stop_forgets_fault_jarring :
    (jarring [.start]).state = .running ∧
    (jarring [.start]).stop.state = .ready ∧
    (jarring [.start]).stop.stream.fault = some .rx := by
  have hrunning : (jarring [.start]).state = .running := by decide +kernel
  obtain ⟨⟨hready, -⟩, hfirst⟩ := stop_forgets_fault JarringCodec.mk ({} : Loopback Unit)
    Bench.Instrument.mixer {} ([.start] : List (Move _ _ _ Bench.Hook)) hrunning
  obtain ⟨-, hlatched⟩ := (hfirst .rx).mp rfl
  exact ⟨hrunning, hready, hlatched⟩

/-- **A fault is lost**: the engine is at fault while it is being stopped, is ready after the stop,
and runs again with no bring-up in between. -/
theorem not_faulted_jarring_stop :
    (jarring [.start]).state = .running ∧
    ((jarring [.start]).mute true).state = .fault ∧
    (jarring [.start, .stop]).stream.fault = some .rx ∧
    ¬((jarring [.start, .stop]).state = .fault ∧
      (jarring [.start, .stop]).start.1 = .error .faulted) ∧
    (jarring [.start, .stop]).state = .ready ∧
    (jarring [.start, .stop]).start.1 = .ok () ∧
    (jarring [.start, .stop, .start]).state = .running := by
  decide +kernel

end Engine

end DuplexAudio
