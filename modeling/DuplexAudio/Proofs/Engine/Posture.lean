/-
  What the life cycle of an engine is about, and what each operation makes of it.

  Most of an engine has no say in whether it may stream: the samples, the mix, the pairing of
  completions, the processor, the cartridges.  What has a say is its `Posture`, seven values read
  off the engine, the stream, the link and the journal.  Every part of an operation has one lemma
  here that gives the posture after it from the posture before it, so that nothing later opens an
  operation of a device, of the stream or of the worker again.

  Two things are fixed for this.  The link is the loopback link, whose every answer is known.  And
  the codec is `Quiet`: it may answer anything, fail at any call and change in any way, but no
  transfer interrupt arrives while one of its calls is running.
-/
import DuplexAudio.Codec.CapturePair
import DuplexAudio.Codec.FrontEnd
import DuplexAudio.Codec.PlaybackConverter
import DuplexAudio.Proofs.Engine.Run
import DuplexAudio.Proofs.Stream.Run

namespace DuplexAudio

/-- A codec during whose calls no interrupt arrives. -/
class Codec.Quiet (σ : Type) [Codec σ] : Prop where
  interrupts_call : ∀ (call : CodecCall) (d : σ), (Codec.call call d).interrupts = []

/-! ## The converters are quiet -/

instance {β : Type} [ControlBus β] : Codec.Quiet (CapturePair β) where
  interrupts_call call p := by cases call <;> rfl

instance {π : Type} [OutputLine π] : Codec.Quiet (PlaybackConverter π) where
  interrupts_call call d := by
    have hdrive (mute : Bool) : (d.drive mute).interrupts = [] := by
      unfold PlaybackConverter.drive
      split
      · rfl
      · split <;> rfl
    cases call with
    | init => exact hdrive true
    | configure => rfl
    | setMute mute => exact hdrive mute

/-- A front end is as quiet as its two sides. -/
instance {α δ : Type} [Codec α] [Codec δ] [Codec.Quiet α] [Codec.Quiet δ] :
    Codec.Quiet (FrontEnd α δ) where
  interrupts_call call f := by
    have hcapture (call : CodecCall) (f : FrontEnd α δ) : (f.onCapture call).interrupts = [] :=
      Codec.Quiet.interrupts_call call f.capture
    have hplayback (call : CodecCall) (f : FrontEnd α δ) : (f.onPlayback call).interrupts = [] :=
      Codec.Quiet.interrupts_call call f.playback
    have hboth (call : CodecCall) : (f.onBoth call).interrupts = [] := by
      unfold FrontEnd.onBoth
      dsimp only
      split
      · exact hcapture call f
      · show (f.onCapture call).interrupts ++ _ = []
        rw [hcapture, hplayback]
        rfl
    cases call with
    | init => exact hboth .init
    | configure => exact hboth .configure
    | setMute mute => exact hplayback (.setMute mute) f

/-! ## The last mute command -/

namespace Journal

theorem lastMute?_append_of_none {j k : Journal} (h : ∀ event ∈ k, muteCommand? event = none) :
    lastMute? (j ++ k) = lastMute? j := by
  unfold lastMute?
  rw [List.filterMap_append, List.filterMap_eq_nil_iff.mpr h, List.append_nil]

theorem lastMute?_concat_setMute (j : Journal) (mute : Bool) (during : Lifecycle) :
    lastMute? (j ++ [.codec (.setMute mute) during]) = some mute := by
  unfold lastMute?
  rw [List.filterMap_append]
  exact List.getLast?_concat

theorem muteCommand?_wires (events : List WireEvent) :
    ∀ event ∈ events.map EngineEvent.wire, muteCommand? event = none := by
  intro event h
  obtain ⟨w, -, rfl⟩ := List.mem_map.mp h
  rfl

end Journal

/-! ## Postures -/

/-- What the life cycle of an engine is about. -/
structure Posture where
  state : Lifecycle
  /-- Whether the devices were brought up. -/
  initialized : Bool
  /-- Whether there is a worker to be joined. -/
  held : Bool
  /-- Whether the link is clocking. -/
  clocking : Bool
  /-- Whether the stream listens to interrupts. -/
  armed : Bool
  /-- Whether a transfer error is latched. -/
  faulted : Bool
  lastMute : Option Bool
  deriving DecidableEq

namespace Posture

/-- The posture after a transfer error. -/
def struck (p : Posture) : Posture :=
  { p with state := p.state.afterError, armed := false, faulted := true }

/-- The posture after a halt. -/
def halted (p : Posture) : Posture :=
  if p.held ∨ p.clocking then
    { p with held := false, clocking := false, armed := false, lastMute := some true }
  else p

/-- The posture of an engine that was just brought up. -/
def raised (p : Posture) : Posture :=
  { p with state := .ready, initialized := true, armed := false, faulted := false }

end Posture

namespace Engine

open Posture

variable {σ π η : Type}

/-- The posture of an engine on a loopback link. -/
def posture (e : Engine σ (Loopback Unit) π η) : Posture where
  state := e.state
  initialized := e.initialized
  held := e.worker.isHeld
  clocking := e.link.running
  armed := e.stream.armed
  faulted := e.stream.fault.isSome
  lastMute := Journal.lastMute? e.journal

variable (e : Engine σ (Loopback Unit) π η)

/-! ## The journal and the stream -/

/-- Only a mute command on the codec shows in the posture. -/
theorem posture_journal {events : Journal}
    (h : ∀ event ∈ events, Journal.muteCommand? event = none) :
    ({ e with journal := e.journal ++ events } : Engine σ (Loopback Unit) π η).posture
      = e.posture := by
  unfold posture
  rw [Journal.lastMute?_append_of_none h]

theorem posture_record {event : EngineEvent} (h : Journal.muteCommand? event = none) :
    (e.record event).posture = e.posture :=
  e.posture_journal fun _ hmem => List.mem_singleton.mp hmem ▸ h

theorem posture_recordStream (events : List StreamEvent) :
    (e.recordStream events).posture = e.posture := by
  refine e.posture_journal fun event hmem => ?_
  obtain ⟨s, -, rfl⟩ := List.mem_map.mp hmem
  rfl

theorem posture_log (n : Notice) : (e.log n).posture = e.posture := e.posture_record rfl

theorem posture_mapStream (f : Stream → Stream) :
    (e.mapStream f).posture =
      { e.posture with armed := (f e.stream).armed, faulted := (f e.stream).fault.isSome } := rfl

theorem posture_setArmed (on : Bool) :
    (e.mapStream (·.setArmed on)).posture = { e.posture with armed := on } :=
  e.posture_mapStream _

theorem posture_resetStream :
    e.resetStream.posture = { e.posture with armed := false, faulted := false } := by
  unfold resetStream
  rw [posture_recordStream, posture_mapStream]
  rfl

theorem posture_restore (f : MixSettings → MixSettings) :
    (e.mapStream fun s => (s.mapSettings f).clearCounters).posture = e.posture := rfl

theorem posture_settle (bay : CartridgeBay η) :
    ({ e with bay, initialized := true, state := .ready } : Engine σ (Loopback Unit) π η).posture
      = { e.posture with initialized := true, state := .ready } := rfl

theorem posture_fail (cause : EngineFailure) :
    (e.fail cause).posture = { e.posture with state := .fault } := by
  have h := e.posture_log (.fault cause)
  show ({ (e.log (.fault cause)).posture with state := .fault } : Posture) = _
  rw [h]

/-- **An interrupt changes the posture only as an error on an armed stream.** -/
theorem posture_deliver (event : Interrupt) (h : e.stream.armed = true → e.stream.fault = none) :
    (e.deliver event).2.posture = e.posture ∨
      e.stream.armed = true ∧ (e.deliver event).2.posture = e.posture.struck := by
  unfold deliver
  rcases e.stream.onInterrupt_cases event with
    ⟨-, hout⟩ | ⟨error, harmed, hfailure, -⟩ | ⟨error, harmed, hfault, hout⟩ |
    ⟨ready, pairs, -, -, -, hout⟩
  · rw [hout]
    exact .inl rfl
  · -- nothing is latched on an armed stream
    rw [Stream.failure?, h harmed] at hfailure
    exact absurd hfailure (Option.some_ne_none error).symm
  · rw [hout]
    refine .inr ⟨harmed, ?_⟩
    unfold posture struck Stream.latch
    rw [hfault]
    rfl
  · rw [hout]
    cases ready with
    | none => exact .inl rfl
    | some half => exact .inl rfl

/-! ## The worker -/

/-- **The worker's creation** leaves it there, or the engine as it was without one. -/
theorem posture_spawn :
    (e.spawn.1 = .ok () ∧ e.spawn.2.posture = { e.posture with held := true }) ∨
      e.spawn.1 = .error .spawn ∧ e.posture.held = false ∧ e.spawn.2.posture = e.posture := by
  obtain ⟨hheld, hspawn⟩ | ⟨-, -, hspawn⟩ | ⟨cause, hheld, -, hspawn⟩ := e.spawn_cases
  · rw [hspawn]
    refine .inl ⟨rfl, ?_⟩
    unfold posture
    rw [hheld]
  · rw [hspawn]
    refine .inl ⟨rfl, ?_⟩
    rw [posture_record]
    · rfl
    · rfl
  · rw [hspawn]
    refine .inr ⟨rfl, hheld, ?_⟩
    rw [posture_log]
    rfl

theorem posture_joined (wake : Bool) :
    ({ e with worker := .absent, wake }.record .joined).posture
      = { e.posture with held := false } := by
  rw [posture_record]
  · rfl
  · rfl

/-- What may be done only while there is no worker keeps the posture if what is done does. -/
theorem posture_whileIdle {α : Type}
    {f : Engine σ (Loopback Unit) π η → α × Engine σ (Loopback Unit) π η}
    (h : (f e).2.posture = e.posture) : (e.whileIdle f).2.posture = e.posture := by
  unfold whileIdle
  split
  · rfl
  · exact h

section Worker

variable [CartridgeHook η]

theorem posture_beginServe : e.beginServe.posture = e.posture := by
  unfold beginServe
  split
  · next hwaiting =>
    have hworker := hwaiting.1
    split
    · next stream htake =>
      have hstream : stream = e.stream.takePair.2 := (congrArg Prod.snd htake).symm
      rw [hstream]
      rfl
    · next half stream htake =>
      have hstream : stream = e.stream.takePair.2 := (congrArg Prod.snd htake).symm
      split
      · rw [posture_recordStream]
        unfold posture
        rw [hstream, hworker]
        rfl
      · rw [hstream]
        rfl
  · rfl

variable [Processor π]

/-- A worker that goes on with its block is still there, alive or dead. -/
theorem posture_finishServe : e.finishServe.posture = e.posture := by
  unfold finishServe
  split
  · next block hworker =>
    -- whatever the processor does, a block neither arms nor clears a fault
    have hframe := Stream.finishBlock_frame e.stream block e.processor e.bay
    rw [posture_recordStream]
    unfold posture
    dsimp only
    rw [hframe.armed, hframe.fault, hworker]
    split <;> rfl
  · rfl

theorem posture_join : e.join.posture = { e.posture with held := false } := by
  have hfinish := e.posture_finishServe
  unfold join
  dsimp only
  split
  · next hworker =>
    rw [← hfinish]
    unfold posture
    rw [hworker]
    rfl
  · rw [posture_log, posture_joined, hfinish]
  · rw [posture_joined, hfinish]
  · rw [posture_joined, hfinish]

end Worker

/-! ## The link -/

theorem posture_answered (call : LinkCall) {r : Reply (Loopback Unit) LinkFailure}
    (h : r.interrupts = []) :
    (e.answered call r).2.posture = { e.posture with clocking := r.device.running } := by
  -- neither the call nor what happened on the wires is a mute command
  have hjournal : Journal.lastMute? (e.journal ++ [.link call] ++ r.wires.map .wire)
      = Journal.lastMute? e.journal := by
    rw [Journal.lastMute?_append_of_none (Journal.muteCommand?_wires _),
      Journal.lastMute?_append_of_none]
    exact fun _ hmem => List.mem_singleton.mp hmem ▸ rfl
  unfold answered
  rw [h]
  show ({ e.posture with
    clocking := r.device.running
    lastMute := Journal.lastMute? (e.journal ++ [.link call] ++ r.wires.map .wire) } : Posture) = _
  rw [hjournal]
  rfl

theorem posture_configureLink : e.configureLink.2.posture = e.posture := by
  unfold configureLink
  rw [posture_answered]
  · have hrunning : (SerialLink.configure e.config e.link).device.running = e.link.running :=
      e.link.running_configure e.config
    rw [hrunning]
    rfl
  · rfl

/-- **A start of the link** leaves it clocking, or as it was. -/
theorem posture_startLink :
    (e.startLink.1 = .ok () ∧ e.startLink.2.posture = { e.posture with clocking := true }) ∨
      (∃ cause, e.startLink.1 = .error cause) ∧ e.startLink.2.posture = e.posture := by
  have hanswered : e.startLink.2.posture =
      { e.posture with clocking := (e.link.start ()).2.running } := e.posture_answered .start rfl
  have hresult : e.startLink.1 = (e.link.start ()).1 := rfl
  rw [hanswered, hresult]
  unfold Loopback.start
  split
  · exact .inr ⟨⟨_, rfl⟩, rfl⟩
  · split
    · next hrunning => exact .inl ⟨rfl, by rw [hrunning]⟩
    · split
      · exact .inr ⟨⟨_, rfl⟩, rfl⟩
      · exact .inl ⟨rfl, rfl⟩

theorem posture_stopLink : e.stopLink.posture = { e.posture with clocking := false } := by
  unfold stopLink
  rw [posture_record]
  · show ({ e.posture with clocking := e.link.stop.running } : Posture) = _
    rw [Loopback.running_stop]
  · rfl

theorem posture_retract (cause : EngineFailure) :
    (e.retract cause).2.posture =
      { e.posture with armed := false, clocking := false, state := .fault } := by
  unfold retract refuse
  rw [posture_fail, posture_stopLink, posture_setArmed]

/-! ## The codec -/

section Codec

variable [Codec σ] [Codec.Quiet σ]

/-- A call on the codec leaves one event, and what happened on the wires. -/
theorem posture_callCodec (call : CodecCall) :
    (e.callCodec call).2.posture =
      { e.posture with lastMute := Journal.lastMute? (e.journal ++ [.codec call e.state]) } := by
  unfold callCodec
  dsimp only
  rw [Codec.Quiet.interrupts_call]
  show ({ e.posture with
    lastMute := Journal.lastMute? (e.journal ++ [.codec call e.state]
      ++ (Codec.call call e.codec).wires.map .wire) } : Posture) = _
  rw [Journal.lastMute?_append_of_none (Journal.muteCommand?_wires _)]

theorem posture_callCodec_of_none (call : CodecCall)
    (h : Journal.muteCommand? (.codec call e.state) = none) :
    (e.callCodec call).2.posture = e.posture := by
  rw [posture_callCodec, Journal.lastMute?_append_of_none]
  · rfl
  · exact fun _ hmem => List.mem_singleton.mp hmem ▸ h

/-- A mute command counts, whether or not the codec carried it out. -/
theorem posture_mute (mute : Bool) :
    (e.mute mute).posture = { e.posture with lastMute := some mute } := by
  have hcall := e.posture_callCodec (.setMute mute)
  rw [Journal.lastMute?_concat_setMute] at hcall
  unfold Engine.mute
  split
  · next h =>
    rw [h] at hcall
    exact hcall
  · next h =>
    rw [h] at hcall
    rw [posture_log]
    exact hcall

/-! ## A halt and a bring-up -/

/-- A halt ends the worker and stops the link together. -/
theorem posture_halt [Processor π] [CartridgeHook η] : e.halt.posture = e.posture.halted := by
  unfold halt halted
  by_cases hlive : e.posture.held = true ∨ e.posture.clocking = true
  · have hbusy : ¬(¬e.worker.isHeld = true ∧ ¬e.linkRunning = true) :=
      fun hidle => hlive.elim hidle.1 hidle.2
    rw [if_neg hbusy, if_pos hlive, posture_join, posture_stopLink, posture_setArmed, posture_mute]
  · have hidle : ¬e.worker.isHeld = true ∧ ¬e.linkRunning = true := not_or.mp hlive
    rw [if_pos hidle, if_neg hlive]

/-- **A bring-up** ends ready, or at fault and otherwise as before. -/
theorem posture_bringUp :
    (e.bringUp.1 = .ok () ∧ e.bringUp.2.posture = e.posture.raised) ∨
      (∃ cause, e.bringUp.1 = .error cause) ∧
        e.bringUp.2.posture = { e.posture with state := .fault } := by
  have hinit := e.posture_callCodec_of_none .init rfl
  unfold bringUp
  split
  · next e' hcall =>
    rw [hcall] at hinit
    exact .inr ⟨⟨_, rfl⟩, by rw [← hinit]; exact posture_fail _ _⟩
  · next e' hcall =>
    rw [hcall] at hinit
    have hconfigure := e'.posture_configureLink
    split
    · next e'' hlink =>
      rw [hlink] at hconfigure
      exact .inr ⟨⟨_, rfl⟩, by rw [← hinit, ← hconfigure]; exact posture_fail _ _⟩
    · next e'' hlink =>
      rw [hlink] at hconfigure
      refine .inl ⟨rfl, ?_⟩
      -- the reset clears the fault before the state is set
      rw [posture_log, ← hinit, ← hconfigure]
      have hrestored := e''.resetStream.posture_restore fun _ => .unity
      rw [posture_resetStream] at hrestored
      rw [posture_settle, hrestored]
      rfl

end Codec

end Engine

end DuplexAudio
