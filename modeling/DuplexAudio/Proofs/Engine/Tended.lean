/-
  How a start can end, and what a control side can rely on between its operations.

  A start has many ways to fail, each after another part of the work was done.  Whichever it is, the
  engine is put to rest on the way out (`Resting`): the stream is disarmed and there is no worker.

  1. **At rest nothing happens** (`Resting.meanwhile`).  A disarmed stream ignores all interrupts,
     so while the devices are being called the state stays where it is.

  2. **Exits** (`Started`).  A part of a start ends with the engine up, after exactly the commands
     that are listed, or down (`Downed`): at fault, at rest, and with no command to unmute on the
     way.  Each part adds the commands it gives to those of the rest (`Started.after`), so the exits
     are looked at one by one only in the part they belong to.

  3. **Between operations** an engine is `Tended`: the stream listens exactly while the engine is
     running with a worker, no error is latched while it listens, and the devices were brought up if
     the engine is ready or running and not if it is stopped.  One move keeps it so
     (`Tended.after`), and so every run does (`tended_run`).

  Codec and link are arbitrary.
-/
import DuplexAudio.Proofs.Engine.Commands

namespace DuplexAudio

/-- Whether an event is a command to unmute. -/
def EngineEvent.isUnmute : EngineEvent → Bool
  | .codec (.setMute false) _ => true
  | .codec _ _ | .link _ | .spawned | .joined | .wire _ | .interrupt _ _ | .stream _ | .notice _ =>
    false

namespace Journal

/-- No command to unmute. -/
def NeverUnmutes (j : Journal) : Prop :=
  ∀ during, EngineEvent.codec (.setMute false) during ∉ j

/-- A command to mute, and none to unmute. -/
def Mutes (j : Journal) : Prop :=
  (∃ during, EngineEvent.codec (.setMute true) during ∈ j) ∧ j.NeverUnmutes

variable {j j' : Journal}

/-- A list that is known event by event can be looked through. -/
theorem NeverUnmutes.of_all (h : j.all (fun event => !event.isUnmute) = true) :
    j.NeverUnmutes := by
  intro during hmem
  exact absurd (List.all_eq_true.mp h _ hmem) Bool.false_ne_true

theorem NeverUnmutes.append (h : j.NeverUnmutes) (h' : j'.NeverUnmutes) :
    NeverUnmutes (j ++ j') := by
  intro during hmem
  rcases List.mem_append.mp hmem with hmem | hmem
  · exact h during hmem
  · exact h' during hmem

theorem Mutes.append_left (h : j.NeverUnmutes) (h' : j'.Mutes) : Mutes (j ++ j') := by
  obtain ⟨⟨during, hmem⟩, hnever⟩ := h'
  exact ⟨⟨during, List.mem_append_right j hmem⟩, h.append hnever⟩

end Journal

namespace Engine

variable {σ τ π η : Type} {e e' e'' : Engine σ τ π η} {cs cs' : Journal}

/-! ## At rest -/

/-- The stream does not listen and there is no worker. -/
structure Resting (e : Engine σ τ π η) : Prop where
  disarmed : e.stream.armed = false
  vacant : e.worker.isHeld = false

/-- **Nothing arrives at rest**, whatever the devices raise. -/
theorem Resting.meanwhile (h : e.Resting) (hcall : Meanwhile e e') :
    e'.Resting ∧ e'.state = e.state := by
  obtain ⟨hstream, hstate⟩ := hcall.disarmed h.disarmed
  refine ⟨⟨?_, ?_⟩, hstate⟩
  · rw [hstream]
    exact h.disarmed
  · rw [hcall.worker]
    exact h.vacant

/-! ## Between operations -/

/-- The devices were brought up, and the engine is running or at fault. -/
def Live (e : Engine σ τ π η) : Prop :=
  e.initialized = true ∧ (e.state = .running ∨ e.state = .fault)

/-- **What the control side relies on** between its operations. -/
structure Tended (e : Engine σ τ π η) : Prop where
  alert : e.Alert
  armed : e.stream.armed = true → e.state = .running
  listens : e.state = .running → e.stream.armed = true
  held : e.state = .running → e.worker.isHeld = true
  up : e.state = .ready ∨ e.state = .running → e.initialized = true
  down : e.state = .stopped → e.initialized = false
  live : e.worker.isHeld = true → e.Live

theorem Tended.listening (h : e.Tended) (hrunning : e.state = .running) : e.Listening :=
  ⟨h.listens hrunning, h.alert (h.listens hrunning)⟩

/-- Interrupts, and calls on the devices, leave an engine tended. -/
theorem Tended.meanwhile (h : e.Tended) (hcall : Meanwhile e e') : e'.Tended := by
  have halert := hcall.alert h.alert
  rcases hcall.heard h.alert with ⟨harmed, -, hstate⟩ | ⟨harmed, hoff, -, hstate⟩
  · refine ⟨halert, ?_, ?_, ?_, ?_, ?_, ?_⟩
    · rw [harmed, hstate]
      exact h.armed
    · rw [harmed, hstate]
      exact h.listens
    · rw [hstate, hcall.worker]
      exact h.held
    · rw [hstate, hcall.initialized]
      exact h.up
    · rw [hstate, hcall.initialized]
      exact h.down
    · unfold Live
      rw [hstate, hcall.worker, hcall.initialized]
      exact h.live
  · -- an error was heard, so the engine was running and is at fault now
    have hrunning := h.armed harmed
    have hfault : e'.state = .fault := by
      rw [hstate, hrunning]
      rfl
    have hended : e'.state ≠ .running := by
      rw [hfault]
      exact Lifecycle.noConfusion
    refine ⟨halert, fun hon => ?_, fun hstill => absurd hstill hended,
      fun hstill => absurd hstill hended, fun hstill => ?_, fun hstill => ?_, fun _ => ?_⟩
    · rw [hoff] at hon
      exact absurd hon Bool.false_ne_true
    · rcases hstill with hstill | hstill
      · exact absurd (hfault.symm.trans hstill) Lifecycle.noConfusion
      · exact absurd hstill hended
    · exact absurd (hfault.symm.trans hstill) Lifecycle.noConfusion
    · exact ⟨hcall.initialized.trans (h.up (.inr hrunning)), .inr hfault⟩

/-- At rest it only matters whether the devices were brought up. -/
theorem Resting.tended (h : e.Resting) (hrunning : e.state ≠ .running)
    (hup : e.state = .ready → e.initialized = true)
    (hdown : e.state = .stopped → e.initialized = false) : e.Tended where
  alert harmed := absurd (h.disarmed.symm.trans harmed) Bool.false_ne_true
  armed harmed := absurd (h.disarmed.symm.trans harmed) Bool.false_ne_true
  listens hstate := absurd hstate hrunning
  held hstate := absurd hstate hrunning
  up := by
    rintro (hstate | hstate)
    · exact hup hstate
    · exact absurd hstate hrunning
  down := hdown
  live hheld := absurd (h.vacant.symm.trans hheld) Bool.false_ne_true

theorem Resting.tended_of_fault (h : e.Resting) (hfault : e.state = .fault) : e.Tended := by
  refine h.tended ?_ ?_ ?_
  · rw [hfault]
    exact Lifecycle.noConfusion
  · rw [hfault]
    exact fun hready => Lifecycle.noConfusion hready
  · rw [hfault]
    exact fun hstopped => Lifecycle.noConfusion hstopped

/-- A tended engine that is neither running nor at fault is at rest. -/
theorem Tended.resting (h : e.Tended) (hrunning : e.state ≠ .running) (hfault : e.state ≠ .fault) :
    e.Resting := by
  refine ⟨Bool.eq_false_iff.mpr fun harmed => hrunning (h.armed harmed),
    Bool.eq_false_iff.mpr fun hheld => ?_⟩
  rcases (h.live hheld).2 with hstate | hstate
  · exact hrunning hstate
  · exact hfault hstate

/-! ## Halts -/

section Worker

variable [Processor π] [CartridgeHook η]

/-- A block in progress does not touch the listening, nor the latch, nor the link. -/
theorem finishServe_listening (e : Engine σ τ π η) :
    e.finishServe.stream.armed = e.stream.armed ∧ e.finishServe.stream.fault = e.stream.fault ∧
      e.finishServe.link = e.link := by
  unfold finishServe
  split
  · next b _ =>
    have hframe := Stream.finishBlock_frame e.stream b e.processor e.bay
    exact ⟨hframe.armed, hframe.fault, rfl⟩
  · exact ⟨rfl, rfl, rfl⟩

theorem join_listening (e : Engine σ τ π η) :
    e.join.stream.armed = e.stream.armed ∧ e.join.stream.fault = e.stream.fault ∧
      e.join.link = e.link := by
  have hfinish := e.finishServe_listening
  unfold join
  dsimp only
  split <;> exact hfinish

end Worker

section Halt

variable [Codec σ] [SerialLink τ] [Processor π] [CartridgeHook η]

/-- **A halt puts to rest** what it finds streaming. -/
theorem Streaming.halt (h : e.Streaming) : e.halt.Resting := by
  refine ⟨?_, e.isHeld_halt⟩
  rw [halt_of_streaming h, (join_listening _).1]
  rfl

/-- What is latched after a halt was latched while the output was being muted. -/
theorem Streaming.fault_halt (h : e.Streaming) :
    e.halt.stream.fault = (e.mute true).stream.fault := by
  rw [halt_of_streaming h, (join_listening _).2.1]
  rfl

theorem Tended.halt (h : e.Tended) : e.halt.Resting := by
  by_cases hstreaming : e.Streaming
  · exact hstreaming.halt
  · rw [halt_of_not_streaming hstreaming]
    have hidle := not_or.mp hstreaming
    refine ⟨Bool.eq_false_iff.mpr fun harmed => hidle.1 (h.held (h.armed harmed)),
      Bool.eq_false_iff.mpr hidle.1⟩

omit [Codec σ] [Processor π] [CartridgeHook η] in
theorem haltCommands_neverUnmutes (e : Engine σ τ π η) : e.haltCommands.NeverUnmutes := by
  unfold haltCommands
  split
  · split <;> exact .of_all rfl
  · exact .of_all rfl

end Halt

/-! ## Exits -/

/-- The engine with its stream reset and armed, as the link is started on it. -/
def rearmed (e : Engine σ τ π η) : Engine σ τ π η := e.resetStream.mapStream (·.setArmed true)

theorem rearmed_listening (e : Engine σ τ π η) : e.rearmed.Listening := ⟨rfl, rfl⟩

/-- Resetting and arming the stream concerns nothing else. -/
theorem rearmed_frame (e : Engine σ τ π η) :
    e.rearmed.worker = e.worker ∧ e.rearmed.initialized = e.initialized ∧
      e.rearmed.state = e.state ∧ e.rearmed.link = e.link ∧ e.rearmed.codec = e.codec := by
  dsimp only [rearmed, resetStream, recordStream, mapStream]
  exact ⟨rfl, rfl, rfl, rfl, rfl⟩

/-- The engine with its worker just created. -/
def staffed (e : Engine σ τ π η) : Engine σ τ π η :=
  { e with worker := .idle, wake := false }.record .spawned

theorem Commanded.staffed (h : Commanded e e' cs) : Commanded e e'.staffed (cs ++ [.spawned]) := by
  unfold Engine.staffed
  refine Commanded.command ?_ rfl
  exact h.congr rfl

/-- A way out that failed: after the commands `cs` the engine is at fault and at rest. -/
structure Downed (e e' : Engine σ τ π η) (cs : Journal) : Prop where
  state : e'.state = .fault
  resting : e'.Resting
  commands : Commanded e e' cs

/-- How a part of a start ends: with the engine up after the commands `cs`, or down after commands
that are as `P` says. -/
inductive Started (P : Journal → Prop) (e : Engine σ τ π η) (cs : Journal) :
    Except EngineFailure Unit × Engine σ τ π η → Prop where
  | up {e' : Engine σ τ π η} (tended : e'.Tended) (held : e'.worker.isHeld = true)
      (commands : Commanded e e' cs) : Started P e cs (.ok (), e')
  | down {e' : Engine σ τ π η} {cause : EngineFailure} {given : Journal}
      (downed : Downed e e' given) (silent : P given) : Started P e cs (.error cause, e')

/-- The part of a start that comes after other commands. -/
theorem Started.after {P Q : Journal → Prop} {r : Except EngineFailure Unit × Engine σ τ π η}
    (hbefore : Commanded e e' cs) (hP : ∀ given, P given → Q (cs ++ given))
    (h : Started P e' cs' r) : Started Q e (cs ++ cs') r := by
  cases h with
  | up tended held commands => exact .up tended held (hbefore.trans commands)
  | down downed silent =>
    exact .down ⟨downed.state, downed.resting, hbefore.trans downed.commands⟩ (hP _ silent)

section Exits

variable [Codec σ] [SerialLink τ] [Processor π] [CartridgeHook η]

/-- **Giving up with the worker there**: a halt, and the engine is at fault. -/
theorem downed_halt (h : e.Streaming) (cause : EngineFailure) :
    Downed e (e.halt.fail cause) e.haltCommands where
  state := rfl
  resting := ⟨h.halt.disarmed, h.halt.vacant⟩
  commands := ((Commanded.refl e).halt).fail cause

/-- **The last part of a start**, with the worker there. -/
theorem promote_started (hheld : e.worker.isHeld = true) (hup : e.initialized = true)
    (harmed : e.stream.fault = none → e.stream.armed = true) :
    Started Journal.NeverUnmutes e [.codec (.setMute false) .running] e.promote := by
  have hdown (cause : EngineFailure) :
      Started Journal.NeverUnmutes e [.codec (.setMute false) .running]
        (e.halt.refuse cause) :=
    .down (downed_halt (.inl hheld) cause) e.haltCommands_neverUnmutes
  unfold promote
  split
  · exact hdown _
  · split
    · next hready =>
      have hfault : e.stream.fault = none := Option.isNone_iff_eq_none.mp hready.1
      have hrunning : ({ e with state := .running } : Engine σ τ π η).Tended :=
        ⟨fun _ => hfault, fun _ => rfl, fun _ => harmed hfault, fun _ => hheld, fun _ => hup,
          fun hstopped => Lifecycle.noConfusion hstopped, fun _ => ⟨hup, .inl rfl⟩⟩
      have hunmuted := meanwhile_mute ({ e with state := .running } : Engine σ τ π η) false
      have hcommands : Commanded e ({ e with state := .running } : Engine σ τ π η) [] := .of_eq rfl
      refine .up (hrunning.meanwhile (hunmuted.trans (.of_eq rfl rfl rfl rfl))) ?_
        ((hcommands.mute false).log _)
      show (({ e with state := .running } : Engine σ τ π η).mute false).worker.isHeld = true
      rw [hunmuted.worker]
      exact hheld
    · exact hdown _

omit [Codec σ] [Processor π] [CartridgeHook η] in
/-- **Giving up with no worker**: the stream is disarmed and the link stopped. -/
theorem Commanded.retracted (h : Commanded e e' cs) (hvacant : e'.worker.isHeld = false)
    (cause : EngineFailure) : Downed e (e'.retract cause).2 (cs ++ [.link .stop]) where
  state := rfl
  resting := ⟨rfl, hvacant⟩
  commands := h.retract cause

omit [Codec σ] [Processor π] [CartridgeHook η] in
theorem Resting.vacant_linked (h : e.Resting) :
    e.rearmed.startLink.2.worker.isHeld = false := by
  rw [e.rearmed.meanwhile_startLink.worker, e.rearmed_frame.1]
  exact h.vacant

omit [Codec σ] [Processor π] [CartridgeHook η] in
theorem commanded_linked (e : Engine σ τ π η) :
    Commanded e e.rearmed.startLink.2 [.link .start] :=
  ((Commanded.refl e).resetStream.mapStream _).startLink

omit [Codec σ] [Processor π] [CartridgeHook η] in
/-- **No thread for the worker**: the link is stopped again. -/
theorem Resting.downed_refusal (h : e.Resting) (cause : String) :
    Downed e (({ e.rearmed.startLink.2 with wake := false }.log (.notSpawned cause)).retract
      .spawn).2 [.link .start, .link .stop] := by
  have hdrained : Commanded e { e.rearmed.startLink.2 with wake := false } [.link .start] :=
    e.commanded_linked.congr rfl
  exact (hdrained.log (.notSpawned cause)).retracted h.vacant_linked _

/-- **The second part of a start of an engine at rest**: there is no worker from before, so it
depends on the link and on the system. -/
theorem Resting.arm_cases (h : e.Resting) :
    (∃ cause, e.rearmed.startLink.1 = .error cause ∧
        e.arm = e.rearmed.startLink.2.retract (.transport cause)) ∨
      e.rearmed.startLink.1 = .ok () ∧
        ((e.rearmed.startLink.2.threadRefusal = none ∧
            e.arm = e.rearmed.startLink.2.staffed.promote) ∨
          ∃ cause, e.rearmed.startLink.2.threadRefusal = some cause ∧
            e.arm = ({ e.rearmed.startLink.2 with wake := false }.log
              (.notSpawned cause)).retract .spawn) := by
  have hvacant := h.vacant_linked
  obtain ⟨cause, linked, hstart, harm⟩ | ⟨linked, hstart, hspawn⟩ := e.arm_cases
  · rw [show e.rearmed.startLink = (.error cause, linked) from hstart]
    exact .inl ⟨cause, rfl, harm⟩
  · rw [show e.rearmed.startLink = (.ok (), linked) from hstart] at hvacant ⊢
    refine .inr ⟨rfl, ?_⟩
    obtain ⟨hheld, -⟩ | ⟨-, hthread, hgiven⟩ | ⟨cause, -, hthread, hrefused⟩ := linked.spawn_cases
    · exact absurd (hheld.symm.trans hvacant) Bool.noConfusion
    · rw [hgiven] at hspawn
      obtain ⟨_, hsame, -⟩ | ⟨_, hsame, harm⟩ := hspawn
      · exact nomatch hsame
      · cases hsame
        exact .inl ⟨hthread, harm⟩
    · rw [hrefused] at hspawn
      obtain ⟨_, hsame, harm⟩ | ⟨_, hsame, -⟩ := hspawn
      · cases hsame
        exact .inr ⟨cause, hthread, harm⟩
      · exact nomatch hsame

/-- **The second part of a start**, from the arming of the stream on. -/
theorem arm_started (h : e.Resting) (hup : e.initialized = true) :
    Started Journal.NeverUnmutes e [.link .start, .spawned, .codec (.setMute false) .running]
      e.arm := by
  have hcall := e.rearmed.meanwhile_startLink
  obtain ⟨-, hinitialized, -⟩ := e.rearmed_frame
  obtain ⟨cause, -, harm⟩ | ⟨-, ⟨-, harm⟩ | ⟨cause, -, harm⟩⟩ := h.arm_cases
  · rw [harm]
    exact .down (e.commanded_linked.retracted h.vacant_linked _) (.of_all rfl)
  · rw [harm]
    refine Started.after e.commanded_linked.staffed (fun given hgiven => ?_) (promote_started rfl ?_ ?_)
    · exact Journal.NeverUnmutes.append (.of_all rfl) hgiven
    · exact hcall.initialized.trans (hinitialized.trans hup)
    · intro hnone
      rcases hcall.heard fun _ => e.rearmed_listening.fault with ⟨harmed, -, -⟩ | ⟨-, -, hsome, -⟩
      · exact harmed.trans e.rearmed_listening.armed
      · exact absurd hnone hsome
  · rw [harm]
    exact .down (h.downed_refusal cause) (.of_all rfl)

/-- The commands of a start of an engine that was brought up. -/
def startCommands : Journal :=
  [.codec (.setMute true) .ready, .codec .configure .ready, .link .start, .spawned,
    .codec (.setMute false) .running]

omit [SerialLink τ] [Processor π] [CartridgeHook η] in
theorem Resting.configuring (h : e.Resting) (hready : e.state = .ready) :
    e.configuring.2.Resting ∧ e.configuring.2.state = .ready ∧
      Commanded e e.configuring.2 [.codec (.setMute true) .ready, .codec .configure .ready] := by
  obtain ⟨hmuted, hstill⟩ := h.meanwhile (e.meanwhile_mute true)
  obtain ⟨hconfigured, hstill'⟩ := hmuted.meanwhile ((e.mute true).meanwhile_callCodec .configure)
  have hasked := ((Commanded.refl e).mute true).callCodec .configure
  rw [hstill, hready] at hasked
  exact ⟨hconfigured, hstill'.trans (hstill.trans hready), hasked⟩

/-- **A start of an engine that was brought up** mutes first. -/
theorem startReady_started (h : e.Resting) (hready : e.state = .ready)
    (hup : e.initialized = true) : Started Journal.Mutes e startCommands e.startReady := by
  obtain ⟨hconfigured, -, hasked⟩ := h.configuring hready
  have hinitialized : e.configuring.2.initialized = e.initialized :=
    ((e.meanwhile_mute true).trans ((e.mute true).meanwhile_callCodec .configure)).initialized
  have hmutes (given : Journal) (hgiven : given.NeverUnmutes) : Journal.Mutes
      ([.codec (.setMute true) .ready, .codec .configure .ready] ++ given) :=
    ⟨⟨.ready, List.mem_cons_self⟩, Journal.NeverUnmutes.append (.of_all rfl) hgiven⟩
  have hfault : e.state ≠ .fault := by
    rw [hready]
    exact Lifecycle.noConfusion
  unfold startReady
  rw [if_neg hfault]
  split
  · next cause e' hresult =>
    rw [show e.configuring = (.error cause, e') from hresult] at hasked hconfigured
    refine .down ⟨rfl, ⟨hconfigured.disarmed, hconfigured.vacant⟩, hasked.fail _⟩ ?_
    exact hmutes [] (.of_all rfl)
  · next e' hresult =>
    rw [show e.configuring = (.ok (), e') from hresult] at hasked hconfigured hinitialized
    exact Started.after hasked hmutes (arm_started hconfigured (hinitialized.trans hup))

/-! ## Bring-ups and starts -/

/-- The commands that bring the devices up. -/
def bringUpCommands (during : Lifecycle) : Journal := [.codec .init during, .link .configure]

omit [Processor π] [CartridgeHook η] in
/-- **A bring-up** of an engine at rest ends at rest, ready or at fault. -/
theorem Resting.bringUp (h : e.Resting) :
    (e.bringUp.1 = .ok () ∧ e.bringUp.2.Resting ∧ e.bringUp.2.state = .ready ∧
        e.bringUp.2.initialized = true ∧ Commanded e e.bringUp.2 (bringUpCommands e.state)) ∨
      ∃ cause cs, e.bringUp.1 = .error cause ∧ Downed e e.bringUp.2 cs ∧ cs.NeverUnmutes := by
  have hinit := e.meanwhile_callCodec .init
  have hasked := (Commanded.refl e).callCodec .init
  have hworker := e.worker_bringUp
  revert hworker
  unfold Engine.bringUp
  split
  · next cause e' hresult =>
    rw [hresult] at hinit hasked
    obtain ⟨hrest, -⟩ := h.meanwhile hinit
    intro hworker
    exact .inr ⟨_, _, rfl, ⟨rfl, ⟨hrest.disarmed, hrest.vacant⟩, hasked.fail _⟩, .of_all rfl⟩
  · next e' hresult =>
    rw [hresult] at hinit hasked
    obtain ⟨hrest, -⟩ := h.meanwhile hinit
    have hconfigure := e'.meanwhile_configureLink
    have hconfigured := hasked.configureLink
    split
    · next cause e'' hlink =>
      rw [hlink] at hconfigure hconfigured
      obtain ⟨hrest', -⟩ := hrest.meanwhile hconfigure
      intro hworker
      exact .inr ⟨_, _, rfl, ⟨rfl, ⟨hrest'.disarmed, hrest'.vacant⟩, hconfigured.fail _⟩,
        .of_all rfl⟩
    · next e'' hlink =>
      rw [hlink] at hconfigured
      intro hworker
      refine .inl ⟨rfl, ⟨rfl, ?_⟩, rfl, rfl, ?_⟩
      · rw [hworker]
        exact h.vacant
      · refine Commanded.log ?_ _
        have hreset := hconfigured.resetStream.mapStream fun s =>
          (s.mapSettings fun _ => .unity).clearCounters
        exact hreset.congr rfl

/-- A halt leaves the state as it is, unless the engine was running. -/
theorem Tended.state_halt (h : e.Tended) (hrunning : e.state ≠ .running) :
    e.halt.state = e.state := by
  by_cases hstreaming : e.Streaming
  · have hdisarmed : e.stream.armed = false :=
      Bool.eq_false_iff.mpr fun harmed => hrunning (h.armed harmed)
    rw [halt_of_streaming hstreaming, state_join]
    exact ((e.meanwhile_mute true).disarmed hdisarmed).2
  · rw [halt_of_not_streaming hstreaming]

/-- The commands of a start before it gets to an engine that was brought up. -/
def upCommands (e : Engine σ τ π η) : Journal :=
  if e.initialized then [] else e.haltCommands ++ bringUpCommands e.state

omit [Codec σ] [Processor π] [CartridgeHook η] in
theorem upCommands_neverUnmutes (e : Engine σ τ π η) : e.upCommands.NeverUnmutes := by
  unfold upCommands
  split
  · exact .of_all rfl
  · exact e.haltCommands_neverUnmutes.append (.of_all rfl)

/-- Without `initialized`, the devices are brought up afresh. -/
theorem init_of_not_initialized (hdown : e.initialized = false) : e.init = e.halt.bringUp :=
  if_neg fun hup => absurd (hdown.symm.trans hup.1) Bool.false_ne_true

theorem start_of_initialized (hrunning : e.state ≠ .running) (hup : e.initialized = true) :
    e.start = e.startReady := by
  unfold start
  rw [if_neg hrunning, if_pos hup]

/-- A start whose bring-up succeeds goes on as that of an engine that was brought up before. -/
theorem start_of_brought_up (hrunning : e.state ≠ .running) (hdown : e.initialized = false)
    (hok : e.init.1 = .ok ()) : e.start = e.init.2.startReady := by
  unfold start
  rw [if_neg hrunning, if_neg (Bool.eq_false_iff.mp hdown)]
  split
  · next hresult =>
    rw [hresult] at hok
    exact nomatch hok
  · next hresult =>
    rw [hresult]

/-- A start that begins with a bring-up. -/
theorem start_started_of_not_initialized (h : e.Tended) (hrunning : e.state ≠ .running)
    (hdown : e.initialized = false) :
    Started Journal.Mutes e (e.upCommands ++ startCommands) e.start := by
  have hcommands : e.upCommands = e.haltCommands ++ bringUpCommands e.state :=
    if_neg (Bool.eq_false_iff.mp hdown)
  have hhalted : Commanded e e.halt e.haltCommands := (Commanded.refl e).halt
  have hbringUp := h.halt.bringUp
  rw [h.state_halt hrunning, ← init_of_not_initialized hdown] at hbringUp
  rcases hbringUp with ⟨hok, hrest, hready, hup, hasked⟩ | ⟨cause, cs, herror, hdowned, hnever⟩
  · rw [start_of_brought_up hrunning hdown hok, hcommands]
    refine Started.after (hhalted.trans hasked) (fun given hgiven => ?_)
      (startReady_started hrest hready hup)
    exact Journal.Mutes.append_left (e.haltCommands_neverUnmutes.append (.of_all rfl)) hgiven
  · rw [start_of_not_initialized hrunning hdown herror]
    obtain ⟨hrest, hstill⟩ := hdowned.resting.meanwhile (e.init.2.meanwhile_mute true)
    have hgiven := (hhalted.trans hdowned.commands).mute true
    refine .down ⟨hstill.trans hdowned.state, hrest, hgiven⟩ ?_
    exact Journal.Mutes.append_left (e.haltCommands_neverUnmutes.append hnever)
      ⟨⟨e.init.2.state, List.mem_singleton_self _⟩, .of_all rfl⟩

/-- **Every start** of a tended engine: nothing to do, refused for the fault, or gone the whole
way. -/
theorem Tended.start_cases (h : e.Tended) :
    (e.state = .running ∧ e.start = (.ok (), e)) ∨
      (e.state = .fault ∧ e.initialized = true ∧ e.start = (.error .faulted, e.mute true)) ∨
      (e.state ≠ .running ∧ (e.state = .fault → e.initialized = false) ∧
        Started Journal.Mutes e (e.upCommands ++ startCommands) e.start) := by
  by_cases hrunning : e.state = .running
  · exact .inl ⟨hrunning, start_of_running hrunning⟩
  right
  cases hup : e.initialized with
  | false => exact .inr ⟨hrunning, fun _ => rfl, start_started_of_not_initialized h hrunning hup⟩
  | true =>
    by_cases hfault : e.state = .fault
    · exact .inl ⟨hfault, rfl, start_of_fault hfault hup⟩
    · right
      have hready : e.state = .ready := by
        cases hstate : e.state with
        | ready => rfl
        | running => exact absurd hstate hrunning
        | fault => exact absurd hstate hfault
        | stopped => exact absurd ((h.down hstate).symm.trans hup) Bool.false_ne_true
      have hcommands : e.upCommands = [] := if_pos hup
      rw [start_of_initialized hrunning hup, hcommands, List.nil_append]
      exact ⟨hrunning, fun hstate => absurd hstate hfault,
        startReady_started (h.resting hrunning hfault) hready hup⟩

end Exits

theorem Started.tended {P : Journal → Prop} {r : Except EngineFailure Unit × Engine σ τ π η}
    (h : Started P e cs r) : r.2.Tended := by
  cases h with
  | up tended _ _ => exact tended
  | down downed _ => exact downed.resting.tended_of_fault downed.state

/-! ## Every move -/

/-- Nothing that is tended to has changed. -/
structure Aside (e e' : Engine σ τ π η) : Prop where
  state : e'.state = e.state
  initialized : e'.initialized = e.initialized
  worker : e'.worker.isHeld = e.worker.isHeld
  armed : e'.stream.armed = e.stream.armed
  fault : e'.stream.fault = e.stream.fault

theorem Tended.aside (h : e.Tended) (hsame : Aside e e') : e'.Tended := by
  refine ⟨?_, ?_, ?_, ?_, ?_, ?_, ?_⟩
  · unfold Alert
    rw [hsame.armed, hsame.fault]
    exact h.alert
  · rw [hsame.armed, hsame.state]
    exact h.armed
  · rw [hsame.armed, hsame.state]
    exact h.listens
  · rw [hsame.state, hsame.worker]
    exact h.held
  · rw [hsame.state, hsame.initialized]
    exact h.up
  · rw [hsame.state, hsame.initialized]
    exact h.down
  · unfold Live
    rw [hsame.worker, hsame.state, hsame.initialized]
    exact h.live

section Moves

variable [Codec σ] [SerialLink τ] [LinkProbe τ] [Processor π] [CartridgeHook η]

/-- What is done only while there is no worker, to what the worker owns. -/
theorem aside_edit (e : Engine σ τ π η) {m : Move σ τ π η} (hedit : m.isEdit = true) :
    Aside e (e.after m) := by
  have hsame := e.undisturbed_edit hedit
  have hrest : (e.after m).initialized = e.initialized ∧
      (e.after m).stream.armed = e.stream.armed := by
    cases m with
    | registerPull | registerPush | editCartridges | editProcessor =>
      dsimp only [after, registerPull, registerPush, accessCartridges, accessProcessor, whileIdle]
      split <;> exact ⟨rfl, rfl⟩
    | mix | capture | codec | link | threads =>
      dsimp only [after, mapStream, Stream.mapSettings]
      exact ⟨rfl, rfl⟩
    | init | start | stop | poll | teardown | interrupt | wakeUp | finishBlock =>
      exact Bool.noConfusion hedit
  exact ⟨hsame.state, hrest.1, congrArg Worker.isHeld hsame.worker, hrest.2, hsame.fault⟩

omit [Codec σ] [SerialLink τ] [LinkProbe τ] [Processor π] in
theorem aside_beginServe (e : Engine σ τ π η) : Aside e e.beginServe := by
  have hlistening : e.beginServe.stream.armed = e.stream.armed ∧
      e.beginServe.stream.fault = e.stream.fault := by
    unfold beginServe
    split
    · split
      · next stream htake =>
        have hstream : stream = e.stream.takePair.2 := (congrArg Prod.snd htake).symm
        rw [hstream]
        exact ⟨rfl, rfl⟩
      · next half stream htake =>
        have hstream : stream = e.stream.takePair.2 := (congrArg Prod.snd htake).symm
        rw [hstream]
        split <;> exact ⟨rfl, rfl⟩
    · exact ⟨rfl, rfl⟩
  exact ⟨e.beginServe_held.2, e.calm_beginServe.initialized, e.beginServe_held.1, hlistening.1,
    hlistening.2⟩

omit [Codec σ] [SerialLink τ] [LinkProbe τ] in
theorem aside_finishServe (e : Engine σ τ π η) : Aside e e.finishServe :=
  ⟨e.finishServe_held.2, e.calm_finishServe.initialized, e.finishServe_held.1,
    e.finishServe_listening.1, e.finishServe_listening.2.1⟩

omit [LinkProbe τ] in
/-- A poll that has something to complete halts and answers the fault; otherwise it does nothing and
answers the state. -/
theorem poll_halts (e : Engine σ τ π η) :
    (e.poll = (e.state, e) ∧ (e.state = .fault → ¬e.Streaming) ∧
        (e.worker = .dead → e.state = .fault)) ∨
      ∃ e' : Engine σ τ π η, e.poll = (.fault, e'.halt) ∧ e'.Streaming ∧ e'.state = .fault := by
  unfold poll
  dsimp only
  split
  · next hhalts =>
    right
    split
    · exact ⟨_, rfl, hhalts.2, hhalts.1⟩
    · exact ⟨_, rfl, hhalts.2, hhalts.1⟩
  · next hnothing =>
    left
    unfold noticeWorker at hnothing ⊢
    split
    · next hdead =>
      -- a dead worker is still held, so there was something to complete
      rw [if_pos hdead] at hnothing
      refine absurd ⟨rfl, .inl ?_⟩ hnothing
      show e.worker.isHeld = true
      rw [hdead.1]
      rfl
    · next halive =>
      rw [if_neg halive] at hnothing
      exact ⟨rfl, fun hfault hstreaming => hnothing ⟨hfault, hstreaming⟩,
        fun hdead => Classical.not_not.mp fun hstate => halive ⟨hdead, hstate⟩⟩

/-- **One move** keeps an engine tended. -/
theorem Tended.after (h : e.Tended) (m : Move σ τ π η) : (e.after m).Tended := by
  cases m with
  | init =>
    show e.init.2.Tended
    unfold init
    split
    · exact h
    · rcases h.halt.bringUp with ⟨-, hrest, hready, hup, -⟩ | ⟨cause, cs, -, hdowned, -⟩
      · refine hrest.tended ?_ (fun _ => hup) fun hstopped => ?_
        · rw [hready]
          exact Lifecycle.noConfusion
        · rw [hready] at hstopped
          exact Lifecycle.noConfusion hstopped
      · exact hdowned.resting.tended_of_fault hdowned.state
  | start =>
    show e.start.2.Tended
    rcases h.start_cases with ⟨-, hsame⟩ | ⟨-, -, hrefused⟩ | ⟨-, -, hstarted⟩
    · rw [hsame]
      exact h
    · rw [hrefused]
      exact h.meanwhile (e.meanwhile_mute true)
    · exact hstarted.tended
  | stop =>
    have hhalted (hrunning : e.state ≠ .running) : e.halt.Tended := by
      refine h.halt.tended ?_ ?_ ?_
      · rw [h.state_halt hrunning]
        exact hrunning
      · rw [h.state_halt hrunning, e.calm_halt.initialized]
        exact fun hready => h.up (.inl hready)
      · rw [h.state_halt hrunning, e.calm_halt.initialized]
        exact h.down
    show e.stop.Tended
    unfold stop
    split
    · exact h
    · next hrunning =>
      have hrest : ({ e.halt with state := .ready }.log .stopped : Engine σ τ π η).Resting :=
        ⟨h.halt.disarmed, h.halt.vacant⟩
      refine hrest.tended Lifecycle.noConfusion (fun _ => ?_) fun hstopped =>
        Lifecycle.noConfusion hstopped
      exact e.calm_halt.initialized.trans (h.up (.inr hrunning))
    · next hready =>
      refine hhalted ?_
      rw [hready]
      exact Lifecycle.noConfusion
    · next hfault =>
      refine hhalted ?_
      rw [hfault]
      exact Lifecycle.noConfusion
  | poll =>
    show e.poll.2.Tended
    rcases e.poll_halts with ⟨hsame, -⟩ | ⟨e', hhalts, hstreaming, hfault⟩
    · rw [hsame]
      exact h
    · rw [hhalts]
      exact hstreaming.halt.tended_of_fault (e'.calm_halt.state hfault)
  | teardown =>
    have hrest : e.teardown.Resting := ⟨h.halt.disarmed, h.halt.vacant⟩
    exact hrest.tended Lifecycle.noConfusion (fun hready => Lifecycle.noConfusion hready)
      fun _ => rfl
  | interrupt event => exact h.meanwhile (e.meanwhile_deliver event)
  | wakeUp => exact h.aside e.aside_beginServe
  | finishBlock => exact h.aside e.aside_finishServe
  | registerPull | registerPush | editCartridges | editProcessor | mix | capture | codec | link
  | threads =>
    exact h.aside (e.aside_edit rfl)

omit [Codec σ] [SerialLink τ] [LinkProbe τ] [Processor π] [CartridgeHook η] in
theorem new_tended (codec : σ) (link : τ) (processor : π) (config : FrameLayout) :
    (new codec link processor config : Engine σ τ π η).Tended :=
  Resting.tended ⟨rfl, rfl⟩ Lifecycle.noConfusion (fun hready => Lifecycle.noConfusion hready)
    fun _ => rfl

/-- **An engine is tended after every run**, whatever its devices do. -/
theorem tended_run (codec : σ) (link : τ) (processor : π) (config : FrameLayout)
    (moves : List (Move σ τ π η)) : ((new codec link processor config).run moves).Tended :=
  run_invariant (fun _ m h => h.after m) (new_tended codec link processor config) moves

end Moves

end Engine

end DuplexAudio
