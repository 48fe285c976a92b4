/-
  The halt is completed, whatever the fault came from.

  An engine gets to a fault with every mix of worker and link: an interrupt leaves both going, a
  worker that unwound is still held, a start that failed leaves neither.  `halt` returns early when
  there is neither a worker nor a clocking link, and then it mutes nothing and disarms nothing.
  That is right only if there is nothing left to mute or to disarm:

  1. **The early return** relies on three things that every run keeps: an armed stream belongs to a
     running engine with a worker (`Tended`), the link is clocking only while the engine is live
     (`Clocked`), and an output that was last unmuted has a worker to be muted with (`Attended`,
     `attended_run`).

  2. **Every halt** is then complete (`halted_halt`), and a bring-up after it disturbs nothing
     (`Halted.bringUp`).

  The operations add up to `halt_completed`: a poll that answers a fault, a stop, a teardown, and an
  `init` that had something to do all leave the engine `Halted`.
-/
import DuplexAudio.Proofs.Engine.ClickFree

namespace DuplexAudio

namespace Journal

variable {j : Journal}

/-- Where nothing unmutes, the last mute command does not either. -/
theorem NeverUnmutes.lastMute?_ne (h : j.NeverUnmutes) : j.lastMute? ≠ some false := by
  intro hlast
  obtain ⟨event, hmem, hmute⟩ := List.mem_filterMap.mp (List.mem_of_getLast? hlast)
  cases event with
  | codec call during =>
    cases call with
    | setMute mute =>
      obtain rfl : mute = false := Option.some.inj hmute
      exact h during hmem
    | init | configure => exact nomatch hmute
  | link | spawned | joined | wire | interrupt | stream | notice => exact nomatch hmute

/-- Where something mutes and nothing unmutes, the last mute command mutes. -/
theorem Mutes.lastMute? (h : j.Mutes) : j.lastMute? = some true := by
  obtain ⟨⟨during, hmem⟩, hnever⟩ := h
  have hcommand : true ∈ j.filterMap muteCommand? := List.mem_filterMap.mpr ⟨_, hmem, rfl⟩
  cases hlast : j.lastMute? with
  | none =>
    rw [List.getLast?_eq_none_iff.mp hlast] at hcommand
    exact absurd hcommand List.not_mem_nil
  | some mute =>
    cases mute with
    | true => rfl
    | false => exact absurd hlast hnever.lastMute?_ne

end Journal

namespace Engine

variable {σ τ π η : Type} {e e' : Engine σ τ π η} {cs : Journal}

/-! ## Whether the output was left unmuted -/

/-- The last mute command unmuted the output. -/
def Unmuted (e : Engine σ τ π η) : Prop := e.journal.lastMute? = some false

namespace Commanded

/-- Commands that do not unmute leave an output muted. -/
theorem unmuted (h : Commanded e e' cs) (hnever : cs.NeverUnmutes) (hunmuted : e'.Unmuted) :
    e.Unmuted := by
  unfold Unmuted at hunmuted ⊢
  rw [h.lastMute?] at hunmuted
  rcases Option.or_eq_some_iff.mp hunmuted with hgiven | ⟨-, hbefore⟩
  · exact absurd hgiven hnever.lastMute?_ne
  · exact hbefore

theorem not_unmuted (h : Commanded e e' cs) (hmutes : cs.Mutes) : ¬e'.Unmuted := by
  unfold Unmuted
  rw [h.lastMute?, show (cs.filterMap Journal.muteCommand?).getLast? = some true from
    hmutes.lastMute?]
  exact fun htrue => Bool.noConfusion (Option.some.inj htrue)

end Commanded

/-- **An output that was last unmuted has a worker to be muted with.** -/
def Attended (e : Engine σ τ π η) : Prop := e.Unmuted → e.worker.isHeld = true

/-- Whatever commands nothing to unmute and leaves the worker where it is. -/
theorem Attended.of_commanded (h : e.Attended) (hgiven : Commanded e e' cs)
    (hnever : cs.NeverUnmutes) (hheld : e'.worker.isHeld = e.worker.isHeld) : e'.Attended :=
  fun hunmuted => hheld.trans (h (hgiven.unmuted hnever hunmuted))

theorem Started.attended {r : Except EngineFailure Unit × Engine σ τ π η}
    (h : Started Journal.Mutes e cs r) : r.2.Attended := by
  cases h with
  | up tended held commands => exact fun _ => held
  | down downed mutes => exact fun hunmuted => absurd hunmuted (downed.commands.not_unmuted mutes)

/-! ## A completed halt -/

/-- **Nothing is left to be halted**: the link stands still, no worker is held, the stream does not
listen, and whatever was commanded last to the mute line was to mute. -/
structure Halted [SerialLink τ] (e : Engine σ τ π η) : Prop where
  idle : e.linkRunning = false
  vacant : e.worker.isHeld = false
  disarmed : e.stream.armed = false
  muted : ∀ mute, e.journal.lastMute? = some mute → mute = true

section Halt

variable [SerialLink τ]

theorem Resting.halted (h : e.Resting) (hidle : e.linkRunning = false) (hmuted : ¬e.Unmuted) :
    e.Halted where
  idle := hidle
  vacant := h.vacant
  disarmed := h.disarmed
  muted mute hlast := by
    cases mute with
    | true => rfl
    | false => exact absurd hlast hmuted

theorem Halted.resting (h : e.Halted) : e.Resting := ⟨h.disarmed, h.vacant⟩

theorem Halted.not_unmuted (h : e.Halted) : ¬e.Unmuted :=
  fun hunmuted => Bool.noConfusion (h.muted false hunmuted)

theorem Halted.attended (h : e.Halted) : e.Attended :=
  fun hunmuted => absurd hunmuted h.not_unmuted

/-- Halted stays halted, if link, worker and arming stay and nothing is commanded. -/
theorem Halted.congr (h : e.Halted) (hlink : e'.link = e.link) (hworker : e'.worker = e.worker)
    (harmed : e'.stream.armed = e.stream.armed) (hjournal : Commanded e e' []) : e'.Halted := by
  refine Resting.halted ⟨harmed.trans h.disarmed, ?_⟩ ?_ fun hunmuted => ?_
  · rw [hworker]
    exact h.vacant
  · exact (linkRunning_of_link hlink).trans h.idle
  · exact h.not_unmuted (hjournal.unmuted (.of_all rfl) hunmuted)

/-- An engine that is not streaming has nothing to be halted: this is the early return. -/
theorem Attended.halted_of_not_streaming (h : e.Attended) (htended : e.Tended)
    (hstreaming : ¬e.Streaming) : e.Halted := by
  obtain ⟨hvacant, hidle⟩ := not_or.mp hstreaming
  refine Resting.halted ⟨?_, Bool.eq_false_iff.mpr hvacant⟩ (Bool.eq_false_iff.mpr hidle)
    fun hunmuted => hvacant (h hunmuted)
  exact Bool.eq_false_iff.mpr fun harmed => hvacant (htended.held (htended.armed harmed))

/-- A halt that has something to end mutes. -/
theorem Streaming.mutes (h : e.Streaming) : e.haltCommands.Mutes := by
  refine ⟨⟨e.state, ?_⟩, e.haltCommands_neverUnmutes⟩
  unfold haltCommands
  rw [if_pos h]
  exact List.mem_append_left _ List.mem_cons_self

variable [Codec σ] [SerialLink.Obedient τ]

/-- A bring-up leaves nothing to be halted where nothing was. -/
theorem Halted.bringUp (h : e.Halted) : e.bringUp.2.Halted := by
  have hidle := linkRunning_bringUp h.idle
  rcases h.resting.bringUp with ⟨-, hrest, -, -, hasked⟩ | ⟨cause, cs, -, hdowned, hnever⟩
  · exact hrest.halted hidle fun hunmuted => h.not_unmuted (hasked.unmuted (.of_all rfl) hunmuted)
  · exact hdowned.resting.halted hidle fun hunmuted =>
      h.not_unmuted (hdowned.commands.unmuted hnever hunmuted)

variable [Processor π] [CartridgeHook η]

/-- **A halt that has something to end** is complete, whatever there was. -/
theorem Streaming.halted (h : e.Streaming) : e.halt.Halted :=
  h.halt.halted e.linkRunning_halt ((Commanded.refl e).halt.not_unmuted h.mutes)

/-- **Every halt is complete**, also the one that returns early. -/
theorem halted_halt (htended : e.Tended) (h : e.Attended) : e.halt.Halted := by
  by_cases hstreaming : e.Streaming
  · exact hstreaming.halted
  · rw [halt_of_not_streaming hstreaming]
    exact h.halted_of_not_streaming htended hstreaming

theorem halted_teardown (htended : e.Tended) (h : e.Attended) : e.teardown.Halted := by
  refine (halted_halt htended h).congr rfl rfl rfl ?_
  have hsame : Commanded e.halt { e.halt with initialized := false, state := .stopped } [] :=
    .of_eq rfl
  exact hsame.log .tornDown

theorem halted_stop (htended : e.Tended) (hclocked : e.Clocked) (h : e.Attended) :
    e.stop.Halted := by
  have hhalted := halted_halt htended h
  unfold stop
  split
  · next hstopped =>
    -- an engine that is stopped is not live, so nothing is there to be halted
    have hlive : ¬e.Live := fun hlive =>
      absurd ((htended.down hstopped).symm.trans hlive.1) Bool.false_ne_true
    refine h.halted_of_not_streaming htended ?_
    rintro (hheld | hclocking)
    · exact hlive (htended.live hheld)
    · exact hlive (hclocked hclocking)
  · refine hhalted.congr rfl rfl rfl ?_
    have hsame : Commanded e.halt { e.halt with state := .ready } [] := .of_eq rfl
    exact hsame.log .stopped
  · exact hhalted
  · exact hhalted

/-- A poll that answers a fault has completed the halt, at this poll or before it. -/
theorem halted_poll (htended : e.Tended) (h : e.Attended) (hfault : e.poll.1 = .fault) :
    e.poll.2.Halted := by
  rcases e.poll_halts with ⟨hsame, hdone, -⟩ | ⟨e', hhalts, hstreaming, -⟩
  · rw [hsame] at hfault ⊢
    exact h.halted_of_not_streaming htended (hdone hfault)
  · rw [hhalts]
    exact hstreaming.halted

end Halt

/-! ## Every run -/

section Moves

variable [Codec σ] [SerialLink τ] [LinkProbe τ] [Processor π] [CartridgeHook η]

variable [SerialLink.Obedient τ]

/-- **One move** leaves an unmuted output with its worker. -/
theorem Attended.after (h : e.Attended) (htended : e.Tended) (hclocked : e.Clocked)
    (m : Move σ τ π η) : (e.after m).Attended := by
  cases m with
  | init =>
    show e.init.2.Attended
    unfold init
    split
    · exact h
    · exact (halted_halt htended h).bringUp.attended
  | start =>
    show e.start.2.Attended
    rcases htended.start_cases with ⟨-, hsame⟩ | ⟨-, -, hrefused⟩ | ⟨-, -, hstarted⟩
    · rw [hsame]
      exact h
    · have hmutes : Journal.Mutes [.codec (.setMute true) e.state] :=
        ⟨⟨e.state, List.mem_singleton_self _⟩, .of_all rfl⟩
      rw [hrefused]
      exact fun hunmuted => absurd hunmuted (((Commanded.refl e).mute true).not_unmuted hmutes)
    · exact hstarted.attended
  | stop => exact (halted_stop htended hclocked h).attended
  | poll =>
    show e.poll.2.Attended
    rcases e.poll_halts with ⟨hsame, -⟩ | ⟨e', hhalts, hstreaming, -⟩
    · rw [hsame]
      exact h
    · rw [hhalts]
      exact hstreaming.halted.attended
  | teardown => exact (halted_teardown htended h).attended
  | interrupt event =>
    refine h.of_commanded ((Commanded.refl e).deliver event) (.of_all rfl) ?_
    exact congrArg Worker.isHeld (e.meanwhile_deliver event).worker
  | wakeUp =>
    exact h.of_commanded (Commanded.refl e).beginServe (.of_all rfl) e.aside_beginServe.worker
  | finishBlock =>
    exact h.of_commanded (Commanded.refl e).finishServe (.of_all rfl) e.aside_finishServe.worker
  | registerPull | registerPush | editCartridges | editProcessor | mix | capture | codec | link
  | threads =>
    exact h.of_commanded (e.commanded_edit rfl) (.of_all rfl) (e.aside_edit rfl).worker

/-- **An unmuted output has its worker after every run.** -/
theorem attended_run (codec : σ) {link : τ} (processor : π) (config : FrameLayout)
    (hlink : SerialLink.isRunning link = false)
    (htouch : ∀ (touch : LinkProbe.Touch τ) (l : τ), SerialLink.isRunning l = false →
      SerialLink.isRunning (LinkProbe.touch touch l) = false)
    (moves : List (Move σ τ π η)) : ((new codec link processor config).run moves).Attended := by
  have hall := run_invariant (P := fun e : Engine σ τ π η => e.Tended ∧ e.Clocked ∧ e.Attended)
    (fun _ m ⟨htended, hclocked, h⟩ =>
      ⟨htended.after m, hclocked.after htended htouch m, h.after htended hclocked m⟩)
    ⟨new_tended codec link processor config, .of_idle hlink, fun hunmuted => nomatch hunmuted⟩
    moves
  exact hall.2.2

/-! ## The headline -/

/-- **The halt is completed for every fault.**  After every run, for every codec, and every link
that keeps its contract and does not start by itself:
(1) a poll that answers a fault leaves the engine halted;
(2) a poll that finds the worker ended puts the engine at fault, if it was not, and answers so;
(3) every stop, every teardown, and every `init` that is not the one of an engine that was brought
    up and is not at fault, leaves the engine halted;
(4) a poll with any other answer answers the state and changes nothing at all, so it asks nothing of
    any device. -/
theorem halt_completed (codec : σ) (link : τ) (processor : π) (config : FrameLayout)
    (moves : List (Move σ τ π η)) (hlink : SerialLink.isRunning link = false)
    (htouch : ∀ (touch : LinkProbe.Touch τ) (l : τ), SerialLink.isRunning l = false →
      SerialLink.isRunning (LinkProbe.touch touch l) = false) :
    let e : Engine σ τ π η := (new codec link processor config).run moves
    (e.poll.1 = .fault → e.poll.2.Halted) ∧
    (e.worker = .dead → e.state ≠ .fault → e.poll.1 = .fault ∧ e.poll.2.state = .fault) ∧
    (e.stop.Halted ∧ e.teardown.Halted ∧
      (¬(e.initialized = true ∧ e.state ≠ .fault) → e.init.2.Halted)) ∧
    (e.poll.1 ≠ .fault → e.poll = (e.state, e)) := by
  intro e
  have htended : e.Tended := tended_run codec link processor config moves
  have hclocked : e.Clocked := clocked_run codec processor config hlink htouch moves
  have hattended : e.Attended := attended_run codec processor config hlink htouch moves
  refine ⟨halted_poll htended hattended, fun hdead hstate => ?_,
    ⟨halted_stop htended hclocked hattended, halted_teardown htended hattended, fun hinit => ?_⟩,
    fun hanswer => ?_⟩
  · rcases e.poll_halts with ⟨-, -, hnoticed⟩ | ⟨e', hhalts, -, hfault⟩
    · exact absurd (hnoticed hdead) hstate
    · rw [hhalts]
      exact ⟨rfl, e'.calm_halt.state hfault⟩
  · have hbrought : e.init = e.halt.bringUp := if_neg hinit
    rw [hbrought]
    exact (halted_halt htended hattended).bringUp
  · rcases e.poll_halts with ⟨hsame, -⟩ | ⟨e', hhalts, -⟩
    · exact hsame
    · rw [hhalts] at hanswer
      exact absurd rfl hanswer

end Moves

/-! ## A worker that unwound, and nobody noticed yet -/

/-- A start and a first block. -/
def firstBlock : List (Move Bench.ScriptedCodec (Loopback Unit) Bench.Instrument Bench.Hook) :=
  [.start, .interrupt ⟨.rx, ⟨0x01⟩⟩, .interrupt ⟨.tx, ⟨0x01⟩⟩, .wakeUp, .finishBlock]

/-- An engine whose processor unwound with the first block. -/
def unwound : Scripted := (new {} {} .unwinding {}).run firstBlock

/-- The output is still unmuted and the stream still listens; the next poll ends all of it. -/
theorem halt_completed_unwound :
    (unwound.worker = .dead ∧ unwound.state = .running ∧ unwound.Unmuted) ∧
      unwound.poll.1 = .fault ∧ unwound.poll.2.Halted := by
  have hdead : unwound.worker = .dead := by decide +kernel
  have hrunning : unwound.state = .running := by decide +kernel
  obtain ⟨hpoll, hnotices, -⟩ := halt_completed ({} : Bench.ScriptedCodec) ({} : Loopback Unit)
    Bench.Instrument.unwinding {} firstBlock rfl fun _ _ hidle => hidle
  have hfault : unwound.state ≠ .fault := by
    rw [hrunning]
    exact Lifecycle.noConfusion
  obtain ⟨hanswer, -⟩ := hnotices hdead hfault
  have hunmuted : unwound.Unmuted := by
    show unwound.journal.lastMute? = some false
    decide +kernel
  exact ⟨⟨hdead, hrunning, hunmuted⟩, hanswer, hpoll hanswer⟩

end Engine

end DuplexAudio
