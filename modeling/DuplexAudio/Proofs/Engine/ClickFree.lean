/-
  No click on any way through a start.

  A click is what is heard when the output is not muted while the converters are configured or the
  link starts or stops.  The order of the commands rules it out:

  1. a start that succeeds mutes, configures the converters, starts the link, creates the worker and
     unmutes, in this order and with nothing else in between;
  2. a start that fails has muted and not unmuted, and leaves nothing streaming, whichever of its
     exits it took;
  3. a halt that finds something streaming mutes before it stops the link and joins the worker.

  The order of 1 and the muting of 2 hold for every link (`Tended.start_cases`, `Commanded.halt`).

  Whether the clocks stand still after a start that failed depends on the exit.  Every exit from the
  start of the link on stops the link (`linkRunning_arm`).  The exits before it leave the link as it
  is, since it was not started yet: clocking, if the start found it so, or if programming it has
  started its clocks (`SerialLink.Hasty`).  No link that keeps its contract does either, so such a
  link is clocking only while the engine is running, or at fault with the halt still to come
  (`clocked_run`), and stands still after every start that failed.
-/
import Mathlib.Control.Monad.Basic
import DuplexAudio.Proofs.Engine.Tended
import DuplexAudio.Proofs.Engine.WakeUp

namespace DuplexAudio

/-- A link whose clocks some layout starts as soon as it is programmed. -/
def SerialLink.Hasty (τ : Type) [SerialLink τ] : Prop :=
  ∃ (config : FrameLayout) (l : τ), SerialLink.isRunning l = false ∧
    SerialLink.isRunning (SerialLink.configure config l).device = true

/-- A link that keeps its contract: a stop ends its clocks, and programming a layout does not start
them. -/
class SerialLink.Obedient (τ : Type) [SerialLink τ] : Prop where
  isRunning_stop (l : τ) : SerialLink.isRunning (SerialLink.stop l) = false
  isRunning_configure (config : FrameLayout) {l : τ} (h : SerialLink.isRunning l = false) :
    SerialLink.isRunning (SerialLink.configure config l).device = false

theorem SerialLink.Obedient.not_hasty {τ : Type} [SerialLink τ] [SerialLink.Obedient τ] :
    ¬SerialLink.Hasty τ := by
  rintro ⟨config, l, hidle, hclocking⟩
  have hstill := SerialLink.Obedient.isRunning_configure config hidle
  exact absurd (hstill.symm.trans hclocking) Bool.false_ne_true

theorem SerialLink.Obedient.of_not_hasty {τ : Type} [SerialLink τ]
    (hstop : ∀ l : τ, SerialLink.isRunning (SerialLink.stop l) = false)
    (hhasty : ¬SerialLink.Hasty τ) : SerialLink.Obedient τ where
  isRunning_stop := hstop
  isRunning_configure config l hidle :=
    Bool.eq_false_iff.mpr fun hclocking => hhasty ⟨config, l, hidle, hclocking⟩

instance : SerialLink.Obedient (Loopback Unit) where
  isRunning_stop := Loopback.running_stop
  isRunning_configure config l h := (l.running_configure config).trans h

instance : SerialLink.Obedient Bench.BenchLink where
  isRunning_stop l := SerialLink.Obedient.isRunning_stop l.loopback
  isRunning_configure config l h :=
    SerialLink.Obedient.isRunning_configure config (l := l.loopback) h

/-- Whether an event is a command to start the link. -/
def EngineEvent.startsLink : EngineEvent → Bool
  | .link .start => true
  | _ => false

namespace Engine

variable {σ τ π η : Type} {e e' e'' : Engine σ τ π η}

/-! ## The clocks of the link -/

section Clocks

variable [SerialLink τ]

/-- The link is clocking only while the engine is live. -/
def Clocked (e : Engine σ τ π η) : Prop := e.linkRunning = true → e.Live

theorem Clocked.of_idle (h : e.linkRunning = false) : e.Clocked := fun hrunning =>
  absurd (h.symm.trans hrunning) Bool.false_ne_true

theorem Clocked.idle (h : e.Clocked) (hlive : ¬e.Live) : e.linkRunning = false :=
  Bool.eq_false_iff.mpr fun hrunning => hlive (h hrunning)

theorem linkRunning_of_link (h : e'.link = e.link) : e'.linkRunning = e.linkRunning :=
  congrArg SerialLink.isRunning h

omit [SerialLink τ] in
/-- Interrupts, and calls on the codec, leave an engine live. -/
theorem Tended.live_meanwhile (h : e.Tended) (hcall : Meanwhile e e') (hlive : e.Live) :
    e'.Live := by
  refine ⟨hcall.initialized.trans hlive.1, ?_⟩
  rcases hcall.heard h.alert with ⟨-, -, hstate⟩ | ⟨harmed, -, -, hstate⟩
  · rw [hstate]
    exact hlive.2
  · right
    rw [hstate, h.armed harmed]
    rfl

theorem Tended.clocked_meanwhile (h : e.Tended) (hclocked : e.Clocked) (hcall : Meanwhile e e')
    (hlink : e'.link = e.link) : e'.Clocked := by
  intro hrunning
  rw [linkRunning_of_link hlink] at hrunning
  exact h.live_meanwhile hcall (hclocked hrunning)

theorem Clocked.aside (h : e.Clocked) (hsame : Aside e e') (hlink : e'.link = e.link) :
    e'.Clocked := by
  unfold Clocked Live
  rw [linkRunning_of_link hlink, hsame.state, hsame.initialized]
  exact h

variable [Codec σ]

/-- Of a bring-up, only the programming of the link can start the clocks. -/
theorem hasty_of_bringUp (h : e.linkRunning = false) (hclocking : e.bringUp.2.linkRunning = true) :
    SerialLink.Hasty τ := by
  have hinit := linkRunning_of_link (e.link_callCodec .init)
  revert hclocking
  unfold bringUp
  split
  · next cause e' hresult =>
    rw [hresult] at hinit
    exact fun hclocking => absurd ((hinit.trans h).symm.trans hclocking) Bool.false_ne_true
  · next e' hresult =>
    rw [hresult] at hinit
    have hlink := (e'.devices_answered .configure (SerialLink.configure e'.config e'.link)).1
    have hconfigured (hclocking : e'.configureLink.2.linkRunning = true) :
        SerialLink.Hasty τ :=
      ⟨e'.config, e'.link, hinit.trans h, (congrArg _ hlink).symm.trans hclocking⟩
    split
    · next cause e'' hanswer =>
      rw [hanswer] at hconfigured
      exact hconfigured
    · next e'' hanswer =>
      rw [hanswer] at hconfigured
      dsimp only [log, record, resetStream, recordStream, mapStream]
      exact hconfigured

/-- A bring-up does not start the clocks of a link that keeps its contract. -/
theorem linkRunning_bringUp [SerialLink.Obedient τ] (h : e.linkRunning = false) :
    e.bringUp.2.linkRunning = false :=
  Bool.eq_false_iff.mpr fun hclocking =>
    SerialLink.Obedient.not_hasty (hasty_of_bringUp h hclocking)

/-- The link was not told to start on the way from one engine to another. -/
def Unstarted (e e' : Engine σ τ π η) : Prop :=
  ∃ given, Commanded e e' given ∧ EngineEvent.link .start ∉ given

omit [SerialLink τ] [Codec σ] in
/-- A list of commands that is known one by one can be looked through. -/
theorem Commanded.unstarted {cs : Journal} (h : Commanded e e' cs)
    (hcs : cs.all (fun event => !event.startsLink) = true) : Unstarted e e' :=
  ⟨cs, h, fun hmem => absurd (List.all_eq_true.mp hcs _ hmem) Bool.false_ne_true⟩

omit [SerialLink τ] [Codec σ] in
theorem Unstarted.trans (h : Unstarted e e') (h' : Unstarted e' e'') : Unstarted e e'' := by
  obtain ⟨given, hgiven, hnone⟩ := h
  obtain ⟨given', hgiven', hnone'⟩ := h'
  exact ⟨given ++ given', hgiven.trans hgiven', fun hmem =>
    (List.mem_append.mp hmem).elim hnone hnone'⟩

theorem unstarted_bringUp (e : Engine σ τ π η) : Unstarted e e.bringUp.2 := by
  have hinit := (Commanded.refl e).callCodec .init
  unfold bringUp
  split
  · next hresult =>
    rw [hresult] at hinit
    exact (hinit.fail _).unstarted rfl
  · next hresult =>
    rw [hresult] at hinit
    have hconfigured := hinit.configureLink
    split
    · next hanswer =>
      rw [hanswer] at hconfigured
      exact (hconfigured.fail _).unstarted rfl
    · next hanswer =>
      rw [hanswer] at hconfigured
      have hreset := hconfigured.resetStream.mapStream fun s =>
        (s.mapSettings fun _ => .unity).clearCounters
      refine Commanded.unstarted ?_
        (show (bringUpCommands e.state).all (fun event => !event.startsLink) = true from rfl)
      refine Commanded.log ?_ _
      exact hreset.congr rfl

omit [SerialLink τ] [Codec σ] in
/-- Which commands were given is told by the journal. -/
theorem Commanded.unique {cs cs' : Journal} (h : Commanded e e' cs) (h' : Commanded e e' cs') :
    cs = cs' := by
  obtain ⟨events, hjournal, rfl⟩ := h
  obtain ⟨events', hjournal', rfl⟩ := h'
  rw [List.append_cancel_left (hjournal.symm.trans hjournal')]

variable [Processor π] [CartridgeHook η]

theorem unstarted_halt (e : Engine σ τ π η) : Unstarted e e.halt := by
  refine ((Commanded.refl e).halt).unstarted ?_
  unfold haltCommands
  split
  · split <;> rfl
  · rfl

section Stop

variable (hstop : ∀ l : τ, SerialLink.isRunning (SerialLink.stop l) = false)

include hstop

/-- A halt ends the clocks, if a stop of the link does. -/
theorem linkRunning_halt_of_stop (e : Engine σ τ π η) : e.halt.linkRunning = false := by
  by_cases hstreaming : e.Streaming
  · rw [halt_of_streaming hstreaming]
    show SerialLink.isRunning (join _).link = false
    rw [(join_listening _).2.2]
    exact hstop _
  · rw [halt_of_not_streaming hstreaming]
    exact Bool.eq_false_iff.mpr (not_or.mp hstreaming).2

theorem linkRunning_promote {cause : EngineFailure} (hfailed : e.promote.1 = .error cause) :
    e.promote.2.linkRunning = false := by
  revert hfailed
  unfold promote
  split
  · exact fun _ => e.linkRunning_halt_of_stop hstop
  · split
    · exact fun hfailed => nomatch hfailed
    · exact fun _ => e.linkRunning_halt_of_stop hstop

/-- **A failure from the start of the link on** ends the clocks again. -/
theorem linkRunning_arm {cause : EngineFailure} (hfailed : e.arm.1 = .error cause) :
    e.arm.2.linkRunning = false := by
  obtain ⟨_, _, -, harm⟩ | ⟨_, -, ⟨_, -, harm⟩ | ⟨spawned, -, harm⟩⟩ := e.arm_cases
  · rw [harm]
    exact hstop _
  · rw [harm]
    exact hstop _
  · rw [harm] at hfailed ⊢
    exact linkRunning_promote hstop hfailed

/-- A failure before it leaves the link as it was. -/
theorem startReady_failed {cause : EngineFailure} (hfailed : e.startReady.1 = .error cause) :
    e.startReady.2.linkRunning = false ∨
      Unstarted e e.startReady.2 ∧ e.startReady.2.linkRunning = e.linkRunning := by
  have hmuted := (Commanded.refl e).mute true
  have hasked := hmuted.callCodec .configure
  have hlink : ((e.mute true).callCodec .configure).2.link = e.link :=
    ((e.mute true).link_callCodec .configure).trans (e.link_mute true)
  revert hfailed
  unfold startReady
  split
  · exact fun _ => .inr ⟨hmuted.unstarted rfl, linkRunning_of_link (e.link_mute true)⟩
  · split
    · next cause' e' hresult =>
      rw [hresult] at hasked hlink
      exact fun _ => .inr ⟨(hasked.fail _).unstarted rfl, linkRunning_of_link hlink⟩
    · exact fun hfailed => .inl (linkRunning_arm hstop hfailed)

/-- **After a start that failed the link stands still**, unless the start did not come as far as the
link, and found it clocking or made it so by programming it. -/
theorem start_failed_link (hrunning : e.state ≠ .running) {cause : EngineFailure}
    (hfailed : e.start.1 = .error cause) :
    e.start.2.linkRunning = false ∨ Unstarted e e.start.2 ∧
      if e.initialized then e.linkRunning = true else SerialLink.Hasty τ := by
  cases hclocking : e.start.2.linkRunning with
  | false => exact .inl rfl
  | true =>
  right
  cases hup : e.initialized with
  | true =>
    rw [start_of_initialized hrunning hup] at hfailed hclocking ⊢
    -- nothing but the start of the link touches it, and that exit stops it again
    rcases startReady_failed hstop hfailed with hidle | ⟨hunstarted, hsame⟩
    · exact absurd (hidle.symm.trans hclocking) Bool.false_ne_true
    · exact ⟨hunstarted, hsame.symm.trans hclocking⟩
  | false =>
    -- the bring-up begins with a halt, so only programming can have started the clocks
    have hbrought : Unstarted e e.init.2 ∧ (e.init.2.linkRunning = true → SerialLink.Hasty τ) := by
      rw [init_of_not_initialized hup]
      exact ⟨e.unstarted_halt.trans e.halt.unstarted_bringUp,
        hasty_of_bringUp (e.linkRunning_halt_of_stop hstop)⟩
    obtain ⟨hunstarted, hhasty⟩ := hbrought
    cases hresult : e.init.1 with
    | error cause' =>
      have hstart := start_of_not_initialized hrunning hup hresult
      have hlink : e.start.2.link = e.init.2.link := by
        rw [hstart]
        exact e.init.2.link_mute true
      refine ⟨?_, hhasty ((linkRunning_of_link hlink).symm.trans hclocking)⟩
      rw [hstart]
      exact hunstarted.trans (((Commanded.refl e.init.2).mute true).unstarted rfl)
    | ok =>
      rw [start_of_brought_up hrunning hup hresult] at hfailed hclocking ⊢
      rcases startReady_failed hstop hfailed with hidle | ⟨hstill, hsame⟩
      · exact absurd (hidle.symm.trans hclocking) Bool.false_ne_true
      · exact ⟨hunstarted.trans hstill, hhasty (hsame.symm.trans hclocking)⟩

end Stop

section Obedient

variable [SerialLink.Obedient τ]

theorem linkRunning_halt (e : Engine σ τ π η) : e.halt.linkRunning = false :=
  e.linkRunning_halt_of_stop SerialLink.Obedient.isRunning_stop

/-- **No clocks after a start that failed**, unless it was refused for the fault. -/
theorem linkRunning_start (h : e.Clocked) (hrunning : e.state ≠ .running)
    (hfault : e.state = .fault → e.initialized = false) {cause : EngineFailure}
    (hfailed : e.start.1 = .error cause) : e.start.2.linkRunning = false := by
  have hidle : e.linkRunning = false := by
    refine h.idle fun hlive => ?_
    rcases hlive.2 with hstate | hstate
    · exact hrunning hstate
    · exact absurd ((hfault hstate).symm.trans hlive.1) Bool.false_ne_true
  rcases start_failed_link SerialLink.Obedient.isRunning_stop hrunning hfailed with
    hstill | ⟨-, hclocking⟩
  · exact hstill
  · split at hclocking
    · exact absurd (hidle.symm.trans hclocking) Bool.false_ne_true
    · exact absurd hclocking SerialLink.Obedient.not_hasty

end Obedient

end Clocks

section Moves

variable [Codec σ] [SerialLink τ] [LinkProbe τ] [Processor π] [CartridgeHook η]
  [SerialLink.Obedient τ]

omit [LinkProbe τ] in
theorem Clocked.start (h : e.Clocked) (htended : e.Tended) : e.start.2.Clocked := by
  rcases htended.start_cases with ⟨-, hsame⟩ | ⟨-, -, hrefused⟩ | ⟨hrunning, hfault, hstarted⟩
  · rw [hsame]
    exact h
  · rw [hrefused]
    exact htended.clocked_meanwhile h (e.meanwhile_mute true) (e.link_mute true)
  · have hidle (cause : EngineFailure) (hfailed : e.start.1 = .error cause) :=
      linkRunning_start h hrunning hfault hfailed
    generalize e.start = r at hstarted hidle
    cases hstarted with
    | up tended held commands => exact fun _ => tended.live held
    | down downed silent => exact .of_idle (hidle _ rfl)

/-- **One move** keeps the clocks to live engines, if the link does not start them by itself. -/
theorem Clocked.after (h : e.Clocked) (htended : e.Tended)
    (htouch : ∀ (touch : LinkProbe.Touch τ) (l : τ), SerialLink.isRunning l = false →
      SerialLink.isRunning (LinkProbe.touch touch l) = false)
    (m : Move σ τ π η) : (e.after m).Clocked := by
  cases m with
  | init =>
    show e.init.2.Clocked
    unfold init
    split
    · exact h
    · exact .of_idle (linkRunning_bringUp e.linkRunning_halt)
  | start => exact h.start htended
  | stop =>
    show e.stop.Clocked
    unfold stop
    split
    · exact h
    · exact .of_idle e.linkRunning_halt
    · exact .of_idle e.linkRunning_halt
    · exact .of_idle e.linkRunning_halt
  | poll =>
    show e.poll.2.Clocked
    rcases e.poll_halts with ⟨hsame, -⟩ | ⟨e', hhalts, -, -⟩
    · rw [hsame]
      exact h
    · rw [hhalts]
      exact .of_idle e'.linkRunning_halt
  | teardown => exact .of_idle e.linkRunning_halt
  | interrupt event =>
    have hlink : (e.deliver event).2.link = e.link := (e.devices_absorb [event]).1
    exact htended.clocked_meanwhile h (e.meanwhile_deliver event) hlink
  | wakeUp =>
    have hlink : e.beginServe.link = e.link := by
      unfold beginServe
      split
      · split
        · rfl
        · split <;> rfl
      · rfl
    exact h.aside e.aside_beginServe hlink
  | finishBlock => exact h.aside e.aside_finishServe e.finishServe_listening.2.2
  | registerPull | registerPush | editCartridges | editProcessor =>
    refine h.aside (e.aside_edit rfl) ?_
    dsimp only [Engine.after, registerPull, registerPush, accessCartridges, accessProcessor,
      whileIdle]
    split <;> rfl
  | mix | capture | codec | threads =>
    refine h.aside (e.aside_edit rfl) ?_
    dsimp only [Engine.after, mapStream]
  | link touch =>
    intro hrunning
    refine h (Bool.not_eq_false _ ▸ fun hidle => ?_)
    exact absurd ((htouch touch e.link hidle).symm.trans hrunning) Bool.false_ne_true

/-- **The link is clocking only while the engine is live**, after every run. -/
theorem clocked_run (codec : σ) {link : τ} (processor : π) (config : FrameLayout)
    (hlink : SerialLink.isRunning link = false)
    (htouch : ∀ (touch : LinkProbe.Touch τ) (l : τ), SerialLink.isRunning l = false →
      SerialLink.isRunning (LinkProbe.touch touch l) = false)
    (moves : List (Move σ τ π η)) : ((new codec link processor config).run moves).Clocked := by
  have hboth := run_invariant (P := fun e : Engine σ τ π η => e.Tended ∧ e.Clocked)
    (fun _ m h => ⟨h.1.after m, h.2.after h.1 htouch m⟩)
    ⟨new_tended codec link processor config, .of_idle hlink⟩ moves
  exact hboth.2

/-! ## The headline -/

omit [Codec σ] [LinkProbe τ] [Processor π] [CartridgeHook η] [SerialLink.Obedient τ] in
/-- The commands before those of `startReady`: there is no worker in an engine that was not brought
up, so a halt before its bring-up can only find the link. -/
theorem Tended.upCommands_eq (h : e.Tended) : e.upCommands =
    if e.initialized then [] else
      (if e.linkRunning then [.codec (.setMute true) e.state, .link .stop] else []) ++
        [.codec .init e.state, .link .configure] := by
  unfold upCommands
  cases hup : e.initialized with
  | true => rfl
  | false =>
    have hvacant : ¬e.worker.isHeld = true := fun hheld =>
      absurd (hup.symm.trans (h.live hheld).1) Bool.false_ne_true
    have hcommands : e.haltCommands =
        if e.linkRunning then [.codec (.setMute true) e.state, .link .stop] else [] := by
      unfold haltCommands
      by_cases hclocking : e.linkRunning = true
      · rw [if_pos (.inr hclocking), if_neg hvacant, if_pos hclocking, List.append_nil]
      · have hidle : ¬e.Streaming := not_or.mpr ⟨hvacant, hclocking⟩
        rw [if_neg hidle, if_neg hclocking]
    rw [hcommands]
    rfl

end Moves

section Headline

variable [Codec σ] [SerialLink τ] [LinkProbe τ] [Processor π] [CartridgeHook η]

/-- **No click on any way through a start.**  After every run, whatever the codec does, whether or
not the system gives a thread for the worker, and for every link whose stop ends its clocks:
(1) a start that finds the engine not running and succeeds commands exactly this, in this order,
    each with the state the engine was in: the bring-up, if the devices were not brought up, with a
    mute and a stop before it if the link is found clocking; then to mute, to configure the
    converters, to start the link, the creation of the worker, and to unmute once the engine is
    running;
(2) a start that fails has commanded to mute and not to unmute, and leaves the engine at fault with
    the stream disarmed; unless it was refused for a fault, also there is no worker, and the link
    stands still if the start told it to start; if it did not, the link is clocking only if the start
    found an engine that was brought up with its link clocking, or if programming has started the
    clocks;
(3) if the link keeps its contract, stands still when the engine is built and does not start by
    itself, then it stands still wherever a start finds an engine that is not running and not
    refused for a fault, and after every start that failed and was not refused;
(4) every halt that finds a worker or a clocking link commands to mute, to stop the link, and the
    joining of the worker if there is one, in this order. -/
theorem click_free (codec : σ) (link : τ) (processor : π) (config : FrameLayout)
    (moves : List (Move σ τ π η))
    (hstop : ∀ l : τ, SerialLink.isRunning (SerialLink.stop l) = false) :
    let e : Engine σ τ π η := (new codec link processor config).run moves
    (e.state ≠ .running → e.start.1 = .ok () →
      Commanded e e.start.2
        ((if e.initialized then [] else
          (if e.linkRunning then [.codec (.setMute true) e.state, .link .stop] else []) ++
            [.codec .init e.state, .link .configure]) ++
          [.codec (.setMute true) .ready, .codec .configure .ready, .link .start, .spawned,
            .codec (.setMute false) .running])) ∧
    (∀ cause, e.start.1 = .error cause → ∃ given, Commanded e e.start.2 given ∧
      (∃ during, EngineEvent.codec (.setMute true) during ∈ given) ∧
      (∀ during, EngineEvent.codec (.setMute false) during ∉ given) ∧
      e.start.2.state = .fault ∧ e.start.2.stream.armed = false ∧
      (cause ≠ .faulted → e.start.2.worker.isHeld = false ∧
        (.link .start ∈ given → e.start.2.linkRunning = false) ∧
        (e.start.2.linkRunning = true →
          if e.initialized then e.linkRunning = true else SerialLink.Hasty τ))) ∧
    (SerialLink.isRunning link = false → ¬SerialLink.Hasty τ →
      (∀ (touch : LinkProbe.Touch τ) (l : τ), SerialLink.isRunning l = false →
        SerialLink.isRunning (LinkProbe.touch touch l) = false) →
      (e.state ≠ .running → (e.state = .fault → e.initialized = false) → e.linkRunning = false) ∧
      ∀ cause, e.start.1 = .error cause → cause ≠ .faulted → e.start.2.linkRunning = false) ∧
    ∀ found : Engine σ τ π η, found.worker.isHeld = true ∨ found.linkRunning = true →
      Commanded found found.halt ([.codec (.setMute true) found.state, .link .stop] ++
        if found.worker.isHeld then [.joined] else []) := by
  intro e
  have htended : e.Tended := tended_run codec link processor config moves
  refine ⟨fun hrunning hok => ?_, fun cause hfailed => ?_, fun hlink hhasty htouch => ?_,
    fun found hstreaming => ?_⟩
  · rcases htended.start_cases with ⟨hstate, -⟩ | ⟨-, -, hrefused⟩ | ⟨-, -, hstarted⟩
    · exact absurd hstate hrunning
    · rw [hrefused] at hok
      exact nomatch hok
    · rw [htended.upCommands_eq] at hstarted
      generalize e.start = r at hstarted hok ⊢
      cases hstarted with
      | up tended held commands => exact commands
      | down downed silent => exact nomatch hok
  · rcases htended.start_cases with
      ⟨-, hsame⟩ | ⟨hfault, -, hrefused⟩ | ⟨hrunning, -, hstarted⟩
    · rw [hsame] at hfailed
      exact nomatch hfailed
    · -- refused for the fault: a mute, with the stream disarmed since the fault
      have hmute := e.meanwhile_mute true
      have hdisarmed : e.stream.armed = false := Bool.eq_false_iff.mpr fun harmed =>
        absurd (hfault.symm.trans (htended.armed harmed)) Lifecycle.noConfusion
      obtain ⟨hstream, hstate⟩ := hmute.disarmed hdisarmed
      rw [hrefused] at hfailed ⊢
      cases hfailed
      refine ⟨_, (Commanded.refl e).mute true, ⟨e.state, List.mem_singleton_self _⟩,
        Journal.NeverUnmutes.of_all rfl, hstate.trans hfault, ?_, fun hcause => absurd rfl hcause⟩
      rw [hstream]
      exact hdisarmed
    · have hstill := start_failed_link hstop hrunning hfailed
      generalize e.start = r at hstarted hfailed hstill ⊢
      cases hstarted with
      | up tended held commands => exact nomatch hfailed
      | @down _ _ given downed silent =>
        refine ⟨given, downed.commands, silent.1, silent.2, downed.state, downed.resting.disarmed,
          fun _ => ⟨downed.resting.vacant, fun hasked => ?_, fun hclocking => ?_⟩⟩
        · rcases hstill with hidle | ⟨⟨given', hgiven, hnone⟩, -⟩
          · exact hidle
          · rw [hgiven.unique downed.commands] at hnone
            exact absurd hasked hnone
        · rcases hstill with hidle | ⟨-, hclocked⟩
          · exact absurd (hidle.symm.trans hclocking) Bool.false_ne_true
          · exact hclocked
  · have hobedient : SerialLink.Obedient τ := .of_not_hasty hstop hhasty
    have hclocked : e.Clocked := clocked_run codec processor config hlink htouch moves
    refine ⟨fun hrunning hfault => hclocked.idle fun hlive => ?_, fun cause hfailed hcause => ?_⟩
    · rcases hlive.2 with hstate | hstate
      · exact hrunning hstate
      · exact absurd ((hfault hstate).symm.trans hlive.1) Bool.false_ne_true
    · rcases htended.start_cases with ⟨-, hsame⟩ | ⟨-, -, hrefused⟩ | ⟨hrunning, hfault, -⟩
      · rw [hsame] at hfailed
        exact nomatch hfailed
      · rw [hrefused] at hfailed
        exact absurd (Except.error.inj hfailed).symm hcause
      · exact linkRunning_start hclocked hrunning hfault hfailed
  · have hhalt := (Commanded.refl found).halt
    have hcommands : found.haltCommands = [.codec (.setMute true) found.state, .link .stop] ++
        if found.worker.isHeld then [.joined] else [] := if_pos hstreaming
    rw [hcommands] at hhalt
    exact hhalt

end Headline

/-! ## Starts that fail -/

/-- An engine on a link that starts and stands still again before its start returns. -/
def stalling : Engine Bench.ScriptedCodec Bench.BenchLink Bench.Instrument Bench.Hook :=
  new {} { mode := .stalling } .mixer {}

/-- A start that fails, after which the link is made to start as it should and the engine is brought
up again. -/
def repair : List (Move Bench.ScriptedCodec Bench.BenchLink Bench.Instrument Bench.Hook) :=
  [.start, .link .plain, .init]

/-- The start of a link that stalls fails after the worker was created, and leaves nothing behind;
after the repair a start fails for want of a thread with the link clocking, and leaves nothing behind
either; and the start with a thread runs. -/
theorem click_free_stalling :
    (∀ l : Bench.BenchLink, SerialLink.isRunning (SerialLink.stop l) = false) ∧
    stalling.start.1 = .error (.transport .notRunning) ∧
    (stalling.start.2.linkRunning = false ∧ stalling.start.2.worker.isHeld = false) ∧
    ((stalling.run repair).after (.threads (some "no memory"))).start.1 = .error .spawn ∧
    ((stalling.run repair).after (.threads (some "no memory"))).start.2.linkRunning = false ∧
    (stalling.run repair).start.1 = .ok () ∧
    Commanded (stalling.run repair) (stalling.run repair).start.2
      [.codec (.setMute true) .ready, .codec .configure .ready, .link .start, .spawned,
        .codec (.setMute false) .running] := by
  have hstop : ∀ l : Bench.BenchLink, SerialLink.isRunning (SerialLink.stop l) = false :=
    SerialLink.Obedient.isRunning_stop
  have hfailed : stalling.start.1 = .error (.transport .notRunning) := by decide +kernel
  have hrefused :
      ((stalling.run repair).after (.threads (some "no memory"))).start.1 = .error .spawn := by
    decide +kernel
  have hok : (stalling.run repair).start.1 = .ok () := by decide +kernel
  have hready : (stalling.run repair).state ≠ .running := by decide +kernel
  have hup : (stalling.run repair).initialized = true := by decide +kernel
  have hsafe
      (moves : List (Move Bench.ScriptedCodec Bench.BenchLink Bench.Instrument Bench.Hook)) :=
    click_free ({} : Bench.ScriptedCodec) ({ mode := .stalling } : Bench.BenchLink)
      Bench.Instrument.mixer {} moves hstop
  have hstill
      (moves : List (Move Bench.ScriptedCodec Bench.BenchLink Bench.Instrument Bench.Hook)) :=
    (hsafe moves).2.2.1 rfl SerialLink.Obedient.not_hasty fun _ _ hidle => hidle
  obtain ⟨_, -, -, -, -, -, hrest⟩ := (hsafe []).2.1 _ hfailed
  have hcommands : Commanded (stalling.run repair) (stalling.run repair).start.2
      ((if (stalling.run repair).initialized then [] else _) ++ _) := (hsafe repair).1 hready hok
  rw [if_pos hup] at hcommands
  exact ⟨hstop, hfailed,
    ⟨(hstill []).2 _ hfailed EngineFailure.noConfusion, (hrest EngineFailure.noConfusion).1⟩,
    hrefused, (hstill [.start, .link .plain, .init, .threads (some "no memory")]).2 _ hrefused
      EngineFailure.noConfusion, hok, hcommands⟩

/-! ## A link that does not keep its contract -/

/-- A link that starts its clocks as soon as it is programmed. -/
structure HastyLink where
  clocking : Bool := false
  deriving DecidableEq

instance : SerialLink HastyLink where
  configure _ _ := { result := .ok (), device := { clocking := true } }
  start _ := { result := .ok (), device := { clocking := true } }
  stop _ := { clocking := false }
  isRunning := HastyLink.clocking

instance : LinkProbe HastyLink where
  Touch := Empty
  touch touch := nomatch touch

/-- An engine on such a link, with converters whose clocks do not lock. -/
def hasty : Engine Bench.ScriptedCodec HastyLink Bench.Instrument Bench.Hook :=
  new { configure := some .clockLockTimeout } {} .mixer {}

/-- **The clocks run after a start that failed**: a stop would end them, but the start gave up before
it told the link to start, and so did not stop it either. -/
theorem clocking_hasty_start :
    (∀ l : HastyLink, SerialLink.isRunning (SerialLink.stop l) = false) ∧
    hasty.state = .stopped ∧ hasty.start.1 = .error .clockLockTimeout ∧
    hasty.start.2.state = .fault ∧ hasty.start.2.linkRunning = true := by
  refine ⟨fun _ => rfl, ?_, ?_, ?_, ?_⟩
  all_goals decide +kernel

end Engine

end DuplexAudio
