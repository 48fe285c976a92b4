/-
  A serial link with no hardware behind it.

  It keeps the books of a real link: what it was configured with, which regions it was started over,
  whether it is running, and how often each of its calls took effect.  Whoever holds it plays the
  transfer channels, storing captured blocks into the region of the receive channel and copying out
  what the transmit channel would send.

  Regions are named by values of any type `ρ`; memory is then a function from names to buffers, and
  a name stands for one region of each direction.
-/
import DuplexAudio.Memory.DoubleBuffer
import DuplexAudio.Device

namespace DuplexAudio

/-- A serial link in software, over regions named by `ρ`. -/
structure Loopback (ρ : Type) where
  /-- The last layout that was accepted. -/
  config : Option FrameLayout := none
  /-- The regions of the last start, of the receive and of the transmit channel; they stay known
  after a stop. -/
  regions : Option (ρ × ρ) := none
  running : Bool := false
  /-- Configurations that were accepted. -/
  configureCalls : Nat := 0
  /-- Starts that armed the channels. -/
  startCalls : Nat := 0
  /-- Stops that found the channels armed. -/
  stopCalls : Nat := 0
  /-- The failure that the next start meets. -/
  failStart : Option LinkFailure := none

namespace Loopback

variable {ρ : Type}

instance : Inhabited (Loopback ρ) := ⟨{}⟩

/-- Accepts a layout that can be programmed; a refused one changes nothing. -/
def configure (l : Loopback ρ) (config : FrameLayout) : Except LinkFailure Unit × Loopback ρ :=
  match config.validate with
  | .error e => (.error e, l)
  | .ok () => (.ok (), { l with config := some config, configureCalls := l.configureCalls + 1 })

/-- Arms the channels, receiving into `rx` and transmitting from `tx`, which has the same name
unless it is given.  A link that was never configured refuses, a running one has nothing to do, and
an injected failure is met once. -/
def start (l : Loopback ρ) (rx : ρ) (tx : ρ := rx) : Except LinkFailure Unit × Loopback ρ :=
  if l.config.isNone then (.error .notConfigured, l)
  else if l.running then (.ok (), l)
  else
    match l.failStart with
    | some e => (.error e, { l with failStart := none })
    | none =>
      (.ok (), { l with
        regions := some (rx, tx), running := true, startCalls := l.startCalls + 1 })

/-- Disarms the channels; nothing to do if they are not armed. -/
def stop (l : Loopback ρ) : Loopback ρ :=
  if l.running then { l with running := false, stopCalls := l.stopCalls + 1 } else l

/-- Makes the next start fail. -/
def failNextStart (l : Loopback ρ) (e : LinkFailure) : Loopback ρ := { l with failStart := some e }

/-- Plays the receive channel: stores a block into one half of the region it was started over.
Says whether it did; nothing is stored unless the link is running. -/
def capture [DecidableEq ρ] (l : Loopback ρ) (memory : ρ → Buffers) (half : Half)
    (block : CaptureBlock) : Bool × (ρ → Buffers) :=
  match l.running, l.regions with
  | true, some (rx, _) =>
    (true, fun r => if r = rx then (memory r).writeCapture half block else memory r)
  | _, _ => (false, memory)

/-- Plays the transmit channel: one half of the region it was last started over, if it ever was. -/
def playback (l : Loopback ρ) (memory : ρ → Buffers) (half : Half) : Option PlaybackBlock :=
  l.regions.map fun (_, tx) => (memory tx).playback.readHalf half

/-! ## What each call does -/

/-- Configured and at rest: a start has something to do. -/
structure Ready (l : Loopback ρ) : Prop where
  configured : l.config.isSome = true
  atRest : l.running = false

theorem configure_of_error (l : Loopback ρ) {config : FrameLayout} {e : LinkFailure}
    (h : config.validate = .error e) : l.configure config = (.error e, l) := by
  simp only [configure, h]

theorem configure_of_ok (l : Loopback ρ) {config : FrameLayout} (h : config.validate = .ok ()) :
    l.configure config =
      (.ok (), { l with config := some config, configureCalls := l.configureCalls + 1 }) := by
  simp only [configure, h]

section start

variable {l : Loopback ρ} (rx tx : ρ)

theorem start_of_unconfigured (h : l.config = none) :
    l.start rx tx = (.error .notConfigured, l) := by
  simp only [start, h, Option.isNone_none, if_true]

theorem start_of_running (hconfigured : l.config.isSome = true) (h : l.running = true) :
    l.start rx tx = (.ok (), l) := by
  have hsome : l.config.isNone = false := by simpa using hconfigured
  simp only [start, hsome, h, Bool.false_eq_true, if_false, if_true]

theorem start_of_failure (hready : Ready l) {e : LinkFailure} (h : l.failStart = some e) :
    l.start rx tx = (.error e, { l with failStart := none }) := by
  have hsome : l.config.isNone = false := by simpa using hready.configured
  simp only [start, hsome, hready.atRest, h, Bool.false_eq_true, if_false]

theorem start_of_ready (hready : Ready l) (h : l.failStart = none) :
    l.start rx tx =
      (.ok (), { l with
        regions := some (rx, tx), running := true, startCalls := l.startCalls + 1 }) := by
  have hsome : l.config.isNone = false := by simpa using hready.configured
  simp only [start, hsome, hready.atRest, h, Bool.false_eq_true, if_false]

end start

theorem stop_of_running {l : Loopback ρ} (h : l.running = true) :
    l.stop = { l with running := false, stopCalls := l.stopCalls + 1 } := by
  simp only [stop, h, if_true]

theorem stop_of_idle {l : Loopback ρ} (h : l.running = false) : l.stop = l := by
  simp only [stop, h, Bool.false_eq_true, if_false]

@[simp] theorem running_configure (l : Loopback ρ) (config : FrameLayout) :
    (l.configure config).2.running = l.running := by
  cases h : config.validate with
  | error e => rw [l.configure_of_error h]
  | ok => rw [l.configure_of_ok h]

@[simp] theorem running_stop (l : Loopback ρ) : l.stop.running = false := by
  cases h : l.running with
  | true => rw [stop_of_running h]
  | false =>
    rw [stop_of_idle h]
    exact h

end Loopback

/-- A loopback link is a serial link over the one pair of regions of its engine. -/
instance : SerialLink (Loopback Unit) where
  configure config l :=
    let (result, device) := l.configure config
    { result, device }
  start l :=
    let (result, device) := l.start ()
    { result, device }
  stop := Loopback.stop
  isRunning l := l.running

end DuplexAudio
