/-
  What an engine asks for, in order.

  A journal also tells what happened on the wires, on the stream and in the log.  What is left when
  that is dropped are the commands (`Journal.commands`): the calls on the codec and on the link, and
  the creation and the joining of the worker.

  `Commanded e e' cs` says that exactly the commands `cs` were given on the way from `e` to `e'`.
  Nothing that is not a call adds a command, and each call adds itself, so there is one lemma for
  each operation and `Commanded.trans` for what is made of several.  A command on the codec carries
  the state in which it was given.
-/
import DuplexAudio.Proofs.Engine.Arrivals

namespace DuplexAudio

/-- Whether an event is a command: a call on a device, or the creation or the joining of the
worker. -/
def EngineEvent.isCommand : EngineEvent → Bool
  | .codec _ _ | .link _ | .spawned | .joined => true
  | .wire _ | .interrupt _ _ | .stream _ | .notice _ => false

/-- The commands among some events, in order. -/
def Journal.commands (j : Journal) : Journal := j.filter EngineEvent.isCommand

theorem Journal.commands_append (j j' : Journal) :
    commands (j ++ j') = j.commands ++ j'.commands := List.filter_append j j'

/-- What only commands show is shown by the commands among some events. -/
theorem Journal.filterMap_commands {α : Type} {f : EngineEvent → Option α}
    (hf : ∀ event, event.isCommand = false → f event = none) (j : Journal) :
    j.commands.filterMap f = j.filterMap f := by
  unfold commands
  rw [List.filterMap_filter]
  congr 1
  funext event
  cases hevent : event.isCommand with
  | true => exact if_pos rfl
  | false => exact (hf event hevent).symm

/-- Every mute command is a command. -/
theorem Journal.filterMap_muteCommand?_commands (j : Journal) :
    j.commands.filterMap muteCommand? = j.filterMap muteCommand? := by
  refine filterMap_commands (fun event hevent => ?_) j
  cases event with
  | codec call during => exact Bool.noConfusion hevent
  | link | spawned | joined | wire | interrupt | stream | notice => rfl

namespace Engine

variable {σ τ π η : Type} {e e' e'' : Engine σ τ π η} {cs cs' : Journal}

/-- Exactly the commands `cs` were given on the way from one engine to another. -/
def Commanded (e e' : Engine σ τ π η) (cs : Journal) : Prop :=
  ∃ events, e'.journal = e.journal ++ events ∧ events.commands = cs

namespace Commanded

theorem of_eq (h : e'.journal = e.journal) : Commanded e e' [] :=
  ⟨[], h.trans (List.append_nil _).symm, rfl⟩

theorem refl (e : Engine σ τ π η) : Commanded e e [] := of_eq rfl

theorem trans (h : Commanded e e' cs) (h' : Commanded e' e'' cs') :
    Commanded e e'' (cs ++ cs') := by
  obtain ⟨events, hjournal, rfl⟩ := h
  obtain ⟨events', hjournal', rfl⟩ := h'
  refine ⟨events ++ events', ?_, Journal.commands_append events events'⟩
  rw [hjournal', hjournal, List.append_assoc]

/-- Nothing is commanded by changing what is not the journal. -/
theorem congr (h : Commanded e e' cs) (hjournal : e''.journal = e'.journal) :
    Commanded e e'' cs := by
  obtain ⟨events, hevents, hcommands⟩ := h
  exact ⟨events, hjournal.trans hevents, hcommands⟩

theorem command (h : Commanded e e' cs) {event : EngineEvent} (hevent : event.isCommand = true) :
    Commanded e (e'.record event) (cs ++ [event]) :=
  h.trans ⟨[event], rfl, List.filter_cons_of_pos hevent⟩

theorem record (h : Commanded e e' cs) {event : EngineEvent} (hevent : event.isCommand = false) :
    Commanded e (e'.record event) cs := by
  have hquiet : Commanded e' (e'.record event) [] :=
    ⟨[event], rfl, List.filter_cons_of_neg (Bool.eq_false_iff.mp hevent)⟩
  have hboth := h.trans hquiet
  rwa [List.append_nil] at hboth

theorem log (h : Commanded e e' cs) (n : Notice) : Commanded e (e'.log n) cs := h.record rfl

theorem fail (h : Commanded e e' cs) (cause : EngineFailure) : Commanded e (e'.fail cause) cs :=
  (h.log (.fault cause)).congr rfl

/-- What happened below the engine's calls is not commanded. -/
theorem below {α : Type} (h : Commanded e e' cs) (event : α → EngineEvent)
    (hevent : ∀ a, (event a).isCommand = false) (events : List α) :
    Commanded e { e' with journal := e'.journal ++ events.map event } cs := by
  have hnone : Journal.commands (events.map event) = [] := by
    refine List.filter_eq_nil_iff.mpr fun listed hmem => ?_
    obtain ⟨a, -, rfl⟩ := List.mem_map.mp hmem
    exact Bool.eq_false_iff.mp (hevent a)
  have hboth := h.trans (⟨_, rfl, hnone⟩ : Commanded e' { e' with
    journal := e'.journal ++ events.map event } [])
  rwa [List.append_nil] at hboth

theorem recordStream (h : Commanded e e' cs) (events : List StreamEvent) :
    Commanded e (e'.recordStream events) cs := h.below .stream (fun _ => rfl) events

theorem mapStream (h : Commanded e e' cs) (f : Stream → Stream) :
    Commanded e (e'.mapStream f) cs := h.congr rfl

theorem resetStream (h : Commanded e e' cs) : Commanded e e'.resetStream cs :=
  (h.mapStream Stream.reset).recordStream Stream.resetEvents

/-- The last mute command is the last among the commands given, if there is one. -/
theorem lastMute? (h : Commanded e e' cs) :
    e'.journal.lastMute? = (cs.filterMap Journal.muteCommand?).getLast?.or e.journal.lastMute? := by
  obtain ⟨events, hjournal, rfl⟩ := h
  unfold Journal.lastMute?
  rw [hjournal, List.filterMap_append, List.getLast?_append,
    Journal.filterMap_muteCommand?_commands]

theorem deliver (h : Commanded e e' cs) (event : Interrupt) :
    Commanded e (e'.deliver event).2 cs := by
  refine h.congr ?_
  unfold Engine.deliver
  obtain ⟨outcome, stream⟩ := e'.stream.onInterrupt event
  cases outcome <;> rfl

/-- Interrupts that arrive during a call command nothing. -/
theorem absorb (h : Commanded e e' cs) (events : List Interrupt) :
    Commanded e (e'.absorb events) cs :=
  absorb_invariant (P := fun e'' => Commanded e e'' cs)
    (fun _ event h => (h.deliver event).record rfl) h events

section Codec

variable [Codec σ]

theorem callCodec (h : Commanded e e' cs) (call : CodecCall) :
    Commanded e (e'.callCodec call).2 (cs ++ [.codec call e'.state]) := by
  have hasked : Commanded e (e'.record (.codec call e'.state)) (cs ++ [.codec call e'.state]) :=
    h.command rfl
  have hwires := hasked.below .wire (fun _ => rfl) (Codec.call call e'.codec).wires
  unfold Engine.callCodec
  refine absorb ?_ _
  exact hwires.congr rfl

theorem mute (h : Commanded e e' cs) (mute : Bool) :
    Commanded e (e'.mute mute) (cs ++ [.codec (.setMute mute) e'.state]) := by
  have hcall := h.callCodec (.setMute mute)
  unfold Engine.mute
  split
  · next hresult =>
    rw [hresult] at hcall
    exact hcall
  · next hresult =>
    rw [hresult] at hcall
    exact hcall.log _

end Codec

theorem answered (h : Commanded e e' cs) (call : LinkCall) (r : Reply τ LinkFailure) :
    Commanded e (e'.answered call r).2 (cs ++ [.link call]) := by
  have hasked : Commanded e (e'.record (.link call)) (cs ++ [.link call]) := h.command rfl
  have hwires := hasked.below .wire (fun _ => rfl) r.wires
  unfold Engine.answered
  refine absorb ?_ _
  exact hwires.congr rfl

theorem configureLink [SerialLink τ] (h : Commanded e e' cs) :
    Commanded e e'.configureLink.2 (cs ++ [.link .configure]) := h.answered _ _

theorem startLink [SerialLink τ] (h : Commanded e e' cs) :
    Commanded e e'.startLink.2 (cs ++ [.link .start]) := h.answered _ _

theorem stopLink [SerialLink τ] (h : Commanded e e' cs) :
    Commanded e e'.stopLink (cs ++ [.link .stop]) := by
  unfold Engine.stopLink
  refine Commanded.command ?_ rfl
  exact h.congr rfl

/-- A start that gives up stops the link. -/
theorem retract [SerialLink τ] (h : Commanded e e' cs) (cause : EngineFailure) :
    Commanded e (e'.retract cause).2 (cs ++ [.link .stop]) :=
  ((h.mapStream _).stopLink).fail cause

section Worker

variable [Processor π] [CartridgeHook η]

omit [Processor π] in
theorem beginServe (h : Commanded e e' cs) : Commanded e e'.beginServe cs := by
  unfold Engine.beginServe
  split
  · split
    · exact h.congr rfl
    · split
      · dsimp only [Stream.beginBlock]
        refine Commanded.recordStream ?_ _
        exact h.congr rfl
      · exact h.congr rfl
  · exact h

theorem finishServe (h : Commanded e e' cs) : Commanded e e'.finishServe cs := by
  unfold Engine.finishServe
  split
  · dsimp only
    refine Commanded.recordStream ?_ _
    exact h.congr rfl
  · exact h

/-- A worker is joined exactly if there is one. -/
theorem join (h : Commanded e e' cs) :
    Commanded e e'.join (if e'.worker.isHeld then cs ++ [.joined] else cs) := by
  have hfinish := h.finishServe
  have hheld := e'.finishServe_held.1
  have hended (wake : Bool) :
      Commanded e ({ e'.finishServe with worker := .absent, wake }.record .joined)
        (cs ++ [.joined]) := by
    refine Commanded.command ?_ rfl
    exact hfinish.congr rfl
  unfold Engine.join
  dsimp only
  rw [← hheld]
  split
  · next habsent =>
    rw [habsent]
    exact hfinish
  · next hdead =>
    rw [hdead]
    exact (hended true).log _
  · next hidle =>
    rw [hidle]
    exact hended false
  · next hinside =>
    rw [hinside]
    exact hended false

end Worker

end Commanded

/-- What is changed without an operation of the life cycle is not commanded. -/
theorem commanded_edit [Codec σ] [SerialLink τ] [LinkProbe τ] [Processor π] [CartridgeHook η]
    (e : Engine σ τ π η) {m : Move σ τ π η} (hedit : m.isEdit = true) :
    Commanded e (e.after m) [] := by
  refine .of_eq ?_
  cases m with
  | registerPull | registerPush | editCartridges | editProcessor =>
    dsimp only [after, registerPull, registerPush, accessCartridges, accessProcessor, whileIdle]
    split <;> rfl
  | mix | capture | codec | link | threads => dsimp only [after, Engine.mapStream]
  | init | start | stop | poll | teardown | interrupt | wakeUp | finishBlock =>
    exact Bool.noConfusion hedit

/-! ## A halt -/

section Halt

variable [SerialLink τ]

/-- Whether a halt would find something to end. -/
def Streaming (e : Engine σ τ π η) : Prop := e.worker.isHeld = true ∨ e.linkRunning = true

instance (e : Engine σ τ π η) : Decidable e.Streaming := inferInstanceAs (Decidable (_ ∨ _))

/-- What a halt commands.  If there is something to end, the output is muted before the link is
stopped, and a worker is joined last. -/
def haltCommands (e : Engine σ τ π η) : Journal :=
  if e.Streaming then
    [.codec (.setMute true) e.state, .link .stop] ++ if e.worker.isHeld then [.joined] else []
  else []

variable [Codec σ] [Processor π] [CartridgeHook η]

theorem halt_of_not_streaming (h : ¬e.Streaming) : e.halt = e :=
  if_pos (not_or.mp h)

theorem halt_of_streaming (h : e.Streaming) :
    e.halt = (((e.mute true).mapStream (·.setArmed false)).stopLink).join :=
  if_neg fun hnone => h.elim hnone.1 hnone.2

theorem Commanded.halt (h : Commanded e e' cs) : Commanded e e'.halt (cs ++ e'.haltCommands) := by
  unfold haltCommands
  by_cases hstreaming : e'.Streaming
  · rw [halt_of_streaming hstreaming, if_pos hstreaming]
    have hmuted : Commanded e ((e'.mute true).mapStream (·.setArmed false))
        (cs ++ [.codec (.setMute true) e'.state]) := (h.mute true).mapStream _
    have hjoined := hmuted.stopLink.join
    have hworker : ((e'.mute true).mapStream (·.setArmed false)).stopLink.worker = e'.worker :=
      (e'.interrupted_mute true).worker
    rw [hworker] at hjoined
    cases hheld : e'.worker.isHeld with
    | true => simpa [hheld] using hjoined
    | false => simpa [hheld] using hjoined
  · rw [halt_of_not_streaming hstreaming, if_neg hstreaming, List.append_nil]
    exact h

end Halt

end Engine

end DuplexAudio
