/-
  Which published pairs the worker is woken for.

  The worker sleeps until it is woken, and a published pair wakes it.  If a pair is published while
  the wake-up for it is gone, the worker sleeps on: the pair stays where it is until another one
  replaces it, and nothing reports that (`Stranded`, `Stranded.stuck`).

  1. **Nothing is lost while running** (`stranded_after_iff`).  No move between running engines
     strands a pair.  In particular the worker takes a pair only together with its wake-up, and a
     pair that is published while the worker is inside a block leaves its wake-up pending.

  2. **A start can lose one** (`StrandedByStart`).  The stream is armed before the link is started,
     and the worker is created after that.  A pair that is completed while the link is starting has
     posted its wake-up by then; creating the worker drops it as if it were one from before.

  So a pair is stranded after a run exactly if a start of that run stranded it, and the engine has
  been running since without another pair (`stranded_iff_start`).  All other pairs are taken by the
  worker with no further interrupt.

  That this happens on a link that starts well is `stranded_eager_start`.
-/
import DuplexAudio.Proofs.Engine.Posture
import DuplexAudio.Proofs.Engine.Running

namespace DuplexAudio

/-- From outside, the link of a bench can be given another way to start. -/
instance : LinkProbe Bench.BenchLink where
  Touch := Bench.StartMode
  touch mode l := { l with mode }

namespace Engine

variable {σ τ π η : Type} {e e' : Engine σ τ π η}

/-- **A lost wake-up**: the engine is running and a pair is published, but the worker sleeps with no
wake-up pending. -/
structure Stranded (e : Engine σ τ π η) : Prop where
  running : e.state = .running
  asleep : e.worker = .idle
  silent : e.wake = false
  published : e.stream.published ≠ none

/-- A worker that is stranded stays so: neither of its steps does anything. -/
theorem Stranded.stuck [Processor π] [CartridgeHook η] (h : e.Stranded) :
    e.beginServe = e ∧ e.finishServe = e := by
  constructor
  · refine beginServe_asleep fun hwoken => ?_
    rw [h.silent] at hwoken
    exact Bool.noConfusion hwoken.2
  · refine finishServe_outside fun b hinBlock => ?_
    rw [h.asleep] at hinBlock
    exact Worker.noConfusion hinBlock

theorem Undisturbed.stranded_iff (h : Undisturbed e e') : e'.Stranded ↔ e.Stranded := by
  constructor
  · intro hstranded
    exact ⟨h.state ▸ hstranded.running, h.worker ▸ hstranded.asleep, h.wake ▸ hstranded.silent,
      h.published ▸ hstranded.published⟩
  · intro hstranded
    exact ⟨h.state.trans hstranded.running, h.worker.trans hstranded.asleep,
      h.wake.trans hstranded.silent,
      fun hnone => hstranded.published (h.published.symm.trans hnone)⟩

section Moves

variable [Codec σ] [SerialLink τ] [LinkProbe τ] [Processor π] [CartridgeHook η]

/-! ## One move -/

/-- A move that is an interrupt which completes a pair. -/
def Publishes (e : Engine σ τ π η) (m : Move σ τ π η) : Prop :=
  ∃ event half, m = .interrupt event ∧ (e.deliver event).1 = .pairReady half

theorem Publishes.not_stranded {m : Move σ τ π η} (h : e.Publishes m) : ¬(e.after m).Stranded := by
  obtain ⟨event, half, rfl, hanswer⟩ := h
  intro hstranded
  have hsilent : (e.deliver event).2.wake = false := hstranded.silent
  rw [deliver_wake hanswer] at hsilent
  exact Bool.noConfusion hsilent

omit [Codec σ] [SerialLink τ] [LinkProbe τ] [Processor π] in
/-- A wake-up that is served takes the pair along. -/
theorem Orderly.beginServe_stranded (h : e.Orderly) (hrunning : e.state = .running) :
    e.beginServe.Stranded ↔ e.Stranded := by
  by_cases hwoken : e.worker = .idle ∧ e.wake = true
  · obtain ⟨hidle, hwake⟩ := hwoken
    obtain ⟨-, -, -, hpublished, -⟩ :=
      beginServe_woken hidle hwake (h.fault hrunning) (h.free hrunning hidle)
    constructor
    · exact fun hstranded => absurd hpublished hstranded.published
    · intro hstranded
      rw [hstranded.silent] at hwake
      exact Bool.noConfusion hwake
  · rw [beginServe_asleep hwoken]

omit [Codec σ] [SerialLink τ] [LinkProbe τ] in
/-- A block that ends finds the wake-up of a pair that was published meanwhile. -/
theorem Orderly.finishServe_stranded (h : e.Orderly) (hrunning : e.state = .running) :
    e.finishServe.Stranded ↔ e.Stranded := by
  by_cases hinside : ∃ b, e.worker = .inBlock b
  · obtain ⟨b, hinBlock⟩ := hinside
    obtain ⟨-, -, hwake, hpublished, -⟩ := finishServe_inBlock hinBlock
    constructor
    · intro hstranded
      have hpending := h.noticed hrunning b hinBlock fun hnone =>
        hstranded.published (hpublished.trans hnone)
      have hsilent := hstranded.silent
      rw [hwake, hpending] at hsilent
      exact Bool.noConfusion hsilent
    · intro hstranded
      rw [hstranded.asleep] at hinBlock
      exact Worker.noConfusion hinBlock
  · rw [finishServe_outside fun b hinBlock => hinside ⟨b, hinBlock⟩]

/-- **One move.**  A pair is stranded after it if it was before and the engine goes on to run with
nothing new published, or if the move is a start that strands it. -/
theorem stranded_after_iff (h : e.Orderly) (m : Move σ τ π η) :
    (e.after m).Stranded ↔
      (e.Stranded ∧ (e.after m).state = .running ∧ ¬e.Publishes m) ∨
        (m = .start ∧ e.state ≠ .running ∧ e.start.2.Stranded) := by
  have hcommon (hiff : (e.after m).Stranded ↔ e.Stranded)
      (hnot : m = .start → ¬e.state ≠ .running) :
      (e.after m).Stranded ↔ (e.Stranded ∧ (e.after m).state = .running ∧ ¬e.Publishes m) ∨
        (m = .start ∧ e.state ≠ .running ∧ e.start.2.Stranded) := by
    constructor
    · exact fun hstranded => .inl ⟨hiff.mp hstranded, hstranded.running,
        fun hpublishes => hpublishes.not_stranded hstranded⟩
    · rintro (⟨hstranded, -, -⟩ | ⟨hstart, hstopped, -⟩)
      · exact hiff.mpr hstranded
      · exact absurd hstopped (hnot hstart)
  by_cases hrunning : (e.after m).state = .running
  · cases runs_of_running h.vacant hrunning with
    | launched hstopped _ =>
      constructor
      · exact fun hstranded => .inr ⟨rfl, hstopped, hstranded⟩
      · rintro (⟨hstranded, -, -⟩ | ⟨-, -, hstranded⟩)
        · exact absurd hstranded.running hstopped
        · exact hstranded
    | wakeUp =>
      have hbefore : e.state = .running := e.beginServe_held.2.symm.trans hrunning
      exact hcommon (h.beginServe_stranded hbefore) fun hstart => nomatch hstart
    | finishBlock =>
      have hbefore : e.state = .running := e.finishServe_held.2.symm.trans hrunning
      exact hcommon (h.finishServe_stranded hbefore) fun hstart => nomatch hstart
    | @published event half hanswer =>
      have hpublishes : e.Publishes (.interrupt event) := ⟨event, half, rfl, hanswer⟩
      constructor
      · exact fun hstranded => absurd hstranded hpublishes.not_stranded
      · rintro (⟨-, -, hnot⟩ | ⟨hstart, -, -⟩)
        · exact absurd hpublishes hnot
        · exact nomatch hstart
    | undisturbed hsame =>
      exact hcommon hsame.stranded_iff fun _ hstopped => hstopped (hsame.state.symm.trans hrunning)
  · constructor
    · exact fun hstranded => absurd hstranded.running hrunning
    · rintro (⟨-, hstill, -⟩ | ⟨rfl, -, hstranded⟩)
      · exact absurd hstill hrunning
      · exact absurd hstranded.running hrunning

/-! ## A list of moves -/

/-- The engine runs on through all of these moves, and no interrupt among them completes a pair. -/
def Unprompted (e : Engine σ τ π η) : List (Move σ τ π η) → Prop
  | [] => True
  | m :: rest => (e.after m).state = .running ∧ ¬e.Publishes m ∧ (e.after m).Unprompted rest

/-- **A list of moves.**  Induction on the list: what strands a pair is the first move, or one of
the others. -/
theorem stranded_run_iff (h : e.Orderly) (moves : List (Move σ τ π η)) :
    (e.run moves).Stranded ↔
      (e.Stranded ∧ e.Unprompted moves) ∨
        ∃ before rest, moves = before ++ .start :: rest ∧ (e.run before).state ≠ .running ∧
          (e.run before).start.2.Stranded ∧ (e.run before).start.2.Unprompted rest := by
  induction moves generalizing e with
  | nil =>
    constructor
    · exact fun hstranded => .inl ⟨hstranded, trivial⟩
    · rintro (⟨hstranded, -⟩ | ⟨before, rest, hmoves, -⟩)
      · exact hstranded
      · exact absurd hmoves.symm (List.append_ne_nil_of_right_ne_nil _ (List.cons_ne_nil _ _))
  | cons m moves ih =>
    show ((e.after m).run moves).Stranded ↔ _
    rw [ih (h.after m), stranded_after_iff h m]
    constructor
    · rintro (⟨⟨hstranded, hrunning, hnot⟩ | ⟨rfl, hstopped, hstranded⟩, hrest⟩ |
        ⟨before, rest, rfl, hstart⟩)
      · exact .inl ⟨hstranded, hrunning, hnot, hrest⟩
      · exact .inr ⟨[], moves, rfl, hstopped, hstranded, hrest⟩
      · exact .inr ⟨m :: before, rest, rfl, hstart⟩
    · rintro (⟨hstranded, hrunning, hnot, hrest⟩ | ⟨before, rest, hmoves, hstart⟩)
      · exact .inl ⟨.inl ⟨hstranded, hrunning, hnot⟩, hrest⟩
      · cases before with
        | nil =>
          obtain ⟨rfl, rfl⟩ := List.cons.inj hmoves
          exact .inl ⟨.inr ⟨rfl, hstart.1, hstart.2.1⟩, hstart.2.2⟩
        | cons m' before =>
          obtain ⟨rfl, rfl⟩ := List.cons.inj hmoves
          exact .inr ⟨before, rest, rfl, hstart⟩

/-! ## What a start strands -/

omit [Codec σ] [SerialLink τ] [LinkProbe τ] [Processor π] [CartridgeHook η] in
/-- A pair that is published by the interrupts of a call is journaled among them: induction on their
list. -/
theorem absorb_published (e : Engine σ τ π η) (interrupts : List Interrupt) :
    ∃ events, (e.absorb interrupts).journal = e.journal ++ events ∧
      (∀ event ∈ events, event.bringsUp = false) ∧
      ∀ half, (e.absorb interrupts).stream.published = some half →
        e.stream.published = some half ∨
          ∃ state, EngineEvent.interrupt (.pairReady half) state ∈ events := by
  induction interrupts generalizing e with
  | nil =>
    exact ⟨[], (List.append_nil _).symm, fun _ hmem => absurd hmem List.not_mem_nil,
      fun _ hpublished => .inl hpublished⟩
  | cons event interrupts ih =>
    let answer : EngineEvent := .interrupt (e.deliver event).1 (e.deliver event).2.state
    obtain ⟨events, hjournal, hquiet, hpublished⟩ := ih ((e.deliver event).2.record answer)
    have hkept : (e.deliver event).2.journal = e.journal := by
      unfold deliver
      obtain ⟨outcome, stream⟩ := e.stream.onInterrupt event
      cases outcome <;> rfl
    refine ⟨answer :: events, ?_, ?_, fun half hsome => ?_⟩
    · show ((e.deliver event).2.record answer |>.absorb interrupts).journal = _
      rw [hjournal]
      show (e.deliver event).2.journal ++ [answer] ++ events = _
      rw [hkept, List.append_assoc]
      rfl
    · intro event' hmem
      rcases List.mem_cons.mp hmem with rfl | hmem
      · rfl
      · exact hquiet event' hmem
    · rcases hpublished half hsome with hearlier | ⟨state, hmem⟩
      · -- it was published by the first interrupt, or before it
        rcases e.deliver_published event with ⟨half', hanswer, -, hsome'⟩ | ⟨-, -, hsame⟩
        · have hhalf : some half' = some half := hsome'.symm.trans hearlier
          cases hhalf
          refine .inr ⟨(e.deliver event).2.state, ?_⟩
          rw [← hanswer]
          exact List.mem_cons_self
        · exact .inl (hsame.symm.trans hearlier)
      · exact .inr ⟨state, List.mem_cons_of_mem _ hmem⟩

omit [Codec σ] [SerialLink τ] [LinkProbe τ] [Processor π] [CartridgeHook η] in
/-- The same for the interrupts of a call on the link. -/
theorem answered_published (e : Engine σ τ π η) (call : LinkCall) (r : Reply τ LinkFailure) :
    ∃ events, (e.answered call r).2.journal = e.journal ++ .link call :: events ∧
      (∀ event ∈ events, event.bringsUp = false) ∧
      ∀ half, (e.answered call r).2.stream.published = some half →
        e.stream.published = some half ∨
          ∃ state, EngineEvent.interrupt (.pairReady half) state ∈ events := by
  let asked : Engine σ τ π η := { e.record (.link call) with
    link := r.device, journal := e.journal ++ [.link call] ++ r.wires.map .wire }
  obtain ⟨events, hjournal, hquiet, hpublished⟩ := asked.absorb_published r.interrupts
  have hanswered : (e.answered call r).2 = asked.absorb r.interrupts := rfl
  refine ⟨r.wires.map .wire ++ events, ?_, fun event hmem => ?_, fun half hsome => ?_⟩
  · rw [hanswered, hjournal]
    show e.journal ++ [.link call] ++ r.wires.map .wire ++ events = _
    simp only [List.append_assoc, List.cons_append, List.nil_append]
  · rcases List.mem_append.mp hmem with hwire | hmem
    · obtain ⟨w, -, rfl⟩ := List.mem_map.mp hwire
      rfl
    · exact hquiet event hmem
  · rw [hanswered] at hsome
    exact (hpublished half hsome).imp_right fun ⟨state, hmem⟩ =>
      ⟨state, List.mem_append_right _ hmem⟩

/-- A start that strands a pair: the pair was completed by interrupts that arrived between the start
of the link and the creation of the worker. -/
structure StrandedByStart (e : Engine σ τ π η) : Prop where
  stopped : e.state ≠ .running
  stranded : e.start.2.Stranded
  meanwhile : ∃ (half : Half) (state : Lifecycle) (before during later : Journal),
    e.start.2.stream.published = some half ∧
    e.start.2.journal = before ++ .link .start :: (during ++ .spawned :: later) ∧
    .interrupt (.pairReady half) state ∈ during ∧
    ∀ event ∈ during ++ .spawned :: later, event.bringsUp = false

omit [LinkProbe τ] [Processor π] [CartridgeHook η] in
/-- **Where a stranded pair comes from.**  Nothing is published when the link is started, and
nothing is published without a wake-up once the worker is there. -/
theorem Launched.meanwhile {armed linked : Engine σ τ π η} (h : Launched armed linked e)
    (hstranded : e.Stranded) :
    ∃ (half : Half) (state : Lifecycle) (before during later : Journal),
      e.stream.published = some half ∧
      e.journal = before ++ .link .start :: (during ++ .spawned :: later) ∧
      .interrupt (.pairReady half) state ∈ during ∧
      ∀ event ∈ during ++ .spawned :: later, event.bringsUp = false := by
  obtain ⟨half, hhalf⟩ := Option.ne_none_iff_exists'.mp hstranded.published
  -- published by the time the link had answered
  have hlinked : linked.stream.published = some half := by
    have hsame := h.interrupted.published hstranded.silent
    rw [h.spawn_eq] at hsame
    exact hsame.symm.trans hhalf
  obtain ⟨during, hjournal, hduring, hpublished⟩ :=
    armed.answered_published .start (SerialLink.start armed.link)
  have hanswered : (armed.answered .start (SerialLink.start armed.link)).2 = linked :=
    congrArg Prod.snd h.answered
  rw [hanswered] at hjournal hpublished
  have hmeanwhile : ∃ state, EngineEvent.interrupt (.pairReady half) state ∈ during := by
    rcases hpublished half hlinked with hearlier | hmem
    · rw [h.reset.1] at hearlier
      exact nomatch hearlier
    · exact hmem
  obtain ⟨state, hmem⟩ := hmeanwhile
  -- what is journaled once the worker is there
  obtain ⟨later, hlater, hcalm⟩ :=
    ((calm_mute { linked.spawn.2 with state := .running } false).log .running).journal
  rw [← h.launched, h.spawn_eq] at hlater
  refine ⟨half, state, armed.journal, during, later, hhalf, ?_, hmem, fun event hevent => ?_⟩
  · have hspawned : e.journal = linked.journal ++ [.spawned] ++ later := hlater
    rw [hspawned, hjournal]
    simp only [List.append_assoc, List.cons_append, List.nil_append]
  · rcases List.mem_append.mp hevent with hevent | hevent
    · exact hduring event hevent
    · rcases List.mem_cons.mp hevent with rfl | hevent
      · rfl
      · exact hcalm event hevent

omit [LinkProbe τ] in
theorem strandedByStart_iff (h : e.Orderly) :
    e.StrandedByStart ↔ e.state ≠ .running ∧ e.start.2.Stranded := by
  constructor
  · exact fun hstart => ⟨hstart.stopped, hstart.stranded⟩
  · rintro ⟨hstopped, hstranded⟩
    rcases start_cases h.vacant with
      ⟨hrunning, -⟩ | ⟨-, hfault⟩ | ⟨-, armed, linked, hlaunched⟩
    · exact absurd hrunning hstopped
    · exact absurd (hfault.symm.trans hstranded.running) Lifecycle.noConfusion
    · exact ⟨hstopped, hstranded, hlaunched.meanwhile hstranded⟩

/-! ## The headline -/

omit [Codec σ] [SerialLink τ] [LinkProbe τ] [Processor π] in
/-- A published pair that is not stranded is taken when the worker sleeps. -/
theorem Orderly.beginServe_published (h : e.Orderly) (hrunning : e.state = .running)
    (hnot : ¬e.Stranded) {half : Half} (hsome : e.stream.published = some half)
    (hidle : e.worker = .idle) :
    e.beginServe.worker = .inBlock ⟨half, e.stream.settings⟩ := by
  have hpublished : e.stream.published ≠ none := by
    rw [hsome]
    exact Option.some_ne_none half
  have hwake : e.wake = true := by
    cases hwake : e.wake with
    | true => rfl
    | false => exact absurd ⟨hrunning, hidle, hwake, hpublished⟩ hnot
  obtain ⟨-, -, -, -, hworker⟩ :=
    beginServe_woken hidle hwake (h.fault hrunning) (h.free hrunning hidle)
  rcases hworker with ⟨hnone, -⟩ | ⟨half', hsome', hinBlock⟩
  · exact absurd hnone hpublished
  · rw [hsome] at hsome'
    cases hsome'
    exact hinBlock

omit [Codec σ] [SerialLink τ] [LinkProbe τ] in
/-- A pair that is published while the worker is inside a block is taken after it, unless the block
unwinds. -/
theorem Orderly.finishServe_published (h : e.Orderly) (hrunning : e.state = .running)
    {half : Half} (hsome : e.stream.published = some half) {b : Stream.OpenBlock}
    (hinBlock : e.worker = .inBlock b) :
    e.finishServe.worker = .dead ∨
      e.finishServe.beginServe.worker = .inBlock ⟨half, e.stream.settings⟩ := by
  obtain ⟨hstate, -, hwake, hpublished, hsettings, -, hended⟩ := finishServe_inBlock hinBlock
  have hpending : e.wake = true := h.noticed hrunning b hinBlock fun hnone => by
    rw [hsome] at hnone
    exact absurd hnone (Option.some_ne_none half)
  rcases hended with hidle | hdead
  · right
    have hnot : ¬e.finishServe.Stranded := fun hstranded => by
      have hsilent := hstranded.silent
      rw [hwake, hpending] at hsilent
      exact Bool.noConfusion hsilent
    rw [← hsettings]
    exact (h.finishServe hrunning).beginServe_published (hstate.trans hrunning) hnot
      (hpublished.trans hsome) hidle
  · exact .inl hdead

/-- **A pair is lost to the worker exactly if a start has lost it.**  After every run, whatever the
devices do and whatever interrupts arrive between the operations and during the calls of the
devices:
(1) a pair is stranded if and only if the run has a start that found the engine not running and
    stranded a pair that was completed while the link was starting, and from then on the engine ran
    and no interrupt completed another pair;
(2) a worker that is stranded stays so: neither of its steps does anything;
(3) a published pair that is not stranded is taken by the worker of a running engine with no further
    interrupt, at once if it sleeps, and otherwise after the block it is in, unless that unwinds. -/
theorem stranded_iff_start (codec : σ) (link : τ) (processor : π) (config : FrameLayout)
    (moves : List (Move σ τ π η)) :
    let built : Engine σ τ π η := new codec link processor config
    let e := built.run moves
    (e.Stranded ↔ ∃ before rest, moves = before ++ .start :: rest ∧
      (built.run before).StrandedByStart ∧ (built.run before).start.2.Unprompted rest) ∧
    (e.Stranded → e.beginServe = e ∧ e.finishServe = e) ∧
    (e.state = .running → ¬e.Stranded → ∀ half, e.stream.published = some half →
      (e.worker = .idle → e.beginServe.worker = .inBlock ⟨half, e.stream.settings⟩) ∧
      ∀ b, e.worker = .inBlock b → e.finishServe.worker = .dead ∨
        e.finishServe.beginServe.worker = .inBlock ⟨half, e.stream.settings⟩) := by
  intro built e
  have horderly := orderly_run codec link processor config moves
  refine ⟨?_, Stranded.stuck, fun hrunning hnot half hsome =>
    ⟨horderly.beginServe_published hrunning hnot hsome,
      fun b => horderly.finishServe_published hrunning hsome⟩⟩
  rw [stranded_run_iff (new_orderly codec link processor config) moves]
  constructor
  · rintro (⟨hstranded, -⟩ | ⟨before, rest, hmoves, hstopped, hstranded, hrest⟩)
    · -- an engine that was just built does not run
      exact absurd hstranded.running Lifecycle.noConfusion
    · exact ⟨before, rest, hmoves,
        (strandedByStart_iff (orderly_run codec link processor config before)).mpr
          ⟨hstopped, hstranded⟩, hrest⟩
  · rintro ⟨before, rest, hmoves, hstart, hrest⟩
    exact .inr ⟨before, rest, hmoves, hstart.stopped, hstart.stranded, hrest⟩

end Moves

/-! ## A link that completes a pair while it starts -/

/-- An engine on a link whose start raises a completion of the first half in each direction, as a
link does whose first half is over before its start returns. -/
def eager : Engine Bench.ScriptedCodec Bench.BenchLink Bench.Instrument Bench.Hook :=
  new {} { mode := .raising [⟨.rx, ⟨0x01⟩⟩, ⟨.tx, ⟨0x01⟩⟩] } .mixer {}

/-- **A wake-up is lost**: the start succeeds, the first half is published and was not replaced, and
the worker sleeps on. -/
theorem stranded_eager_start :
    eager.start.1.isOk = true ∧ (eager.run [.start]).Stranded ∧
      (eager.run [.start]).signals = 1 ∧
      (eager.run [.start, .wakeUp, .finishBlock]).stream.published = some .first ∧
      (eager.run [.start, .wakeUp, .finishBlock]).stream.counters = ⟨0, 0, 0⟩ := by
  refine ⟨by decide +kernel, ⟨?_, ?_, ?_, ?_⟩, ?_, ?_, ?_⟩
  all_goals decide +kernel

end Engine

end DuplexAudio
