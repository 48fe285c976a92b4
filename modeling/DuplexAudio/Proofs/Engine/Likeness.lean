/-
  Engines that cannot be told apart.

  Two engines may differ in their past and in what their devices are inside, and still do the same
  from now on.  The devices are compared by how they answer: a `Likeness` relates two codecs, or two
  links, only if they answer every call with the same result and the same interrupts, and are
  related again afterwards.

  **The invariant** is `Alike L o o' e e'`: since the engines `o` and `o'` the same events were
  journaled, the devices of `e` and `e'` are related by `L`, and everything else is equal, but for
  the count of wake-ups and a wake-up that nobody would read.  Every operation keeps it and gives
  the same result on both engines; there is one lemma for each, in the order in which the operations
  are built on each other.  `Alike.run` is the run lemma.
-/
import DuplexAudio.Proofs.Engine.Tended

namespace DuplexAudio

/-- Two replies that say the same and leave related devices. -/
structure Reply.Alike {σ ε : Type} (related : σ → σ → Prop) (r r' : Reply σ ε) : Prop where
  result : r'.result = r.result
  device : related r.device r'.device
  wires : r'.wires = r.wires
  interrupts : r'.interrupts = r.interrupts

/-- A way to relate devices so that related ones answer alike and stay related. -/
structure Likeness (σ τ : Type) [Codec σ] [SerialLink τ] [LinkProbe τ] where
  codec : σ → σ → Prop
  link : τ → τ → Prop
  call {d d' : σ} (h : codec d d') (call : CodecCall) :
    Reply.Alike codec (Codec.call call d) (Codec.call call d')
  configure {l l' : τ} (h : link l l') (config : FrameLayout) :
    Reply.Alike link (SerialLink.configure config l) (SerialLink.configure config l')
  start {l l' : τ} (h : link l l') : Reply.Alike link (SerialLink.start l) (SerialLink.start l')
  stop {l l' : τ} (h : link l l') : link (SerialLink.stop l) (SerialLink.stop l')
  isRunning {l l' : τ} (h : link l l') : SerialLink.isRunning l' = SerialLink.isRunning l
  touch {l l' : τ} (h : link l l') (touch : LinkProbe.Touch τ) :
    link (LinkProbe.touch touch l) (LinkProbe.touch touch l')

/-- What a move answers. -/
inductive Answer where
  | done
  | result (result : Except EngineFailure Unit)
  | state (state : Lifecycle)
  | outcome (outcome : InterruptOutcome)

namespace Engine

variable {σ τ π η : Type} [Codec σ] [SerialLink τ] [LinkProbe τ]

/-! ## The invariant -/

/-- Since the engines `o` and `o'` the same has happened, and the same will happen to `e` and
`e'`. -/
structure Alike (L : Likeness σ τ) (o o' e e' : Engine σ τ π η) : Prop where
  codec : L.codec e.codec e'.codec
  link : L.link e.link e'.link
  processor : e'.processor = e.processor
  bay : e'.bay = e.bay
  config : e'.config = e.config
  threadRefusal : e'.threadRefusal = e.threadRefusal
  stream : e'.stream = e.stream
  state : e'.state = e.state
  initialized : e'.initialized = e.initialized
  worker : e'.worker = e.worker
  /-- A wake-up without a worker is dropped when the next one is created. -/
  wake : e.worker.isHeld = true → e'.wake = e.wake
  journal : ∃ events, e.journal = o.journal ++ events ∧ e'.journal = o'.journal ++ events

/-- The same answer, and engines that are still alike. -/
def Agreed {α : Type} (L : Likeness σ τ) (o o' : Engine σ τ π η) (r r' : α × Engine σ τ π η) :
    Prop :=
  r'.1 = r.1 ∧ Alike L o o' r.2 r'.2

variable {L : Likeness σ τ} {o o' e e' : Engine σ τ π η}

/-- Both fail for the same cause, or both succeed. -/
theorem Agreed.cases {ε : Type} {r r' : Except ε Unit × Engine σ τ π η} (h : Agreed L o o' r r') :
    (∃ cause e e', r = (.error cause, e) ∧ r' = (.error cause, e') ∧ Alike L o o' e e') ∨
      ∃ e e', r = (.ok (), e) ∧ r' = (.ok (), e') ∧ Alike L o o' e e' := by
  obtain ⟨result, e⟩ := r
  obtain ⟨result', e'⟩ := r'
  obtain ⟨hresult, halike⟩ := h
  obtain rfl : result' = result := hresult
  cases result' with
  | error cause => exact .inl ⟨cause, e, e', rfl, rfl, halike⟩
  | ok => exact .inr ⟨e, e', rfl, rfl, halike⟩

namespace Alike

/-! ## Keeping the journal -/

theorem journaled (h : Alike L o o' e e') (events : Journal) :
    Alike L o o' { e with journal := e.journal ++ events }
      { e' with journal := e'.journal ++ events } := by
  obtain ⟨earlier, hjournal, hjournal'⟩ := h.journal
  refine { h with journal := ⟨earlier ++ events, ?_, ?_⟩ }
  · rw [hjournal, List.append_assoc]
  · rw [hjournal', List.append_assoc]

theorem record (h : Alike L o o' e e') (event : EngineEvent) :
    Alike L o o' (e.record event) (e'.record event) := h.journaled [event]

theorem recordStream (h : Alike L o o' e e') (events : List StreamEvent) :
    Alike L o o' (e.recordStream events) (e'.recordStream events) :=
  h.journaled (events.map .stream)

theorem log (h : Alike L o o' e e') (n : Notice) : Alike L o o' (e.log n) (e'.log n) :=
  h.record (.notice n)

theorem fail (h : Alike L o o' e e') (cause : EngineFailure) :
    Alike L o o' (e.fail cause) (e'.fail cause) := { h.log (.fault cause) with state := rfl }

/-- The end of a bring-up. -/
theorem restored (h : Alike L o o' e e') :
    Alike L o o'
      ({ e with bay := e.bay.clear, initialized := true, state := .ready }.log (.ready e.config))
      ({ e' with bay := e'.bay.clear, initialized := true, state := .ready }.log
        (.ready e'.config)) := by
  rw [h.config]
  refine Alike.log ?_ _
  exact { h with
    bay := congrArg CartridgeBay.clear h.bay, config := rfl, initialized := rfl, state := rfl }

theorem refuse (h : Alike L o o' e e') (cause : EngineFailure) :
    Agreed L o o' (e.refuse cause) (e'.refuse cause) := ⟨rfl, h.fail cause⟩

theorem mapStream (h : Alike L o o' e e') (f : Stream → Stream) :
    Alike L o o' (e.mapStream f) (e'.mapStream f) := { h with stream := congrArg f h.stream }

theorem resetStream (h : Alike L o o' e e') : Alike L o o' e.resetStream e'.resetStream :=
  (h.mapStream Stream.reset).recordStream Stream.resetEvents

/-! ## Interrupts and device calls -/

theorem deliver (h : Alike L o o' e e') (event : Interrupt) :
    Agreed L o o' (e.deliver event) (e'.deliver event) := by
  unfold Engine.deliver
  rw [h.stream]
  obtain ⟨outcome, stream⟩ := e.stream.onInterrupt event
  cases outcome with
  | idle => exact ⟨rfl, { h with stream := rfl }⟩
  | pairReady half => exact ⟨rfl, { h with stream := rfl, wake := fun _ => rfl }⟩
  | fault error =>
    exact ⟨rfl, { h with stream := rfl, state := congrArg Lifecycle.afterError h.state }⟩

/-- Induction on the interrupts that arrived. -/
theorem absorb (h : Alike L o o' e e') (events : List Interrupt) :
    Alike L o o' (e.absorb events) (e'.absorb events) := by
  induction events generalizing e e' with
  | nil => exact h
  | cons event events ih =>
    obtain ⟨houtcome, hnext⟩ := h.deliver event
    have hstep : Alike L o o'
        ((e.deliver event).2.record (.interrupt (e.deliver event).1 (e.deliver event).2.state))
        ((e'.deliver event).2.record
          (.interrupt (e'.deliver event).1 (e'.deliver event).2.state)) := by
      rw [houtcome, hnext.state]
      exact hnext.record _
    exact ih hstep

theorem callCodec (h : Alike L o o' e e') (call : CodecCall) :
    Agreed L o o' (e.callCodec call) (e'.callCodec call) := by
  have hreply := L.call h.codec call
  have hasked : Alike L o o' (e.record (.codec call e.state))
      (e'.record (.codec call e'.state)) := by
    rw [h.state]
    exact h.record _
  have hwires := hasked.journaled ((Codec.call call e.codec).wires.map .wire)
  refine ⟨hreply.result, ?_⟩
  dsimp only [Engine.callCodec]
  rw [hreply.interrupts, hreply.wires]
  refine absorb ?_ _
  exact { hwires with codec := hreply.device }

theorem mute (h : Alike L o o' e e') (mute : Bool) : Alike L o o' (e.mute mute) (e'.mute mute) := by
  unfold Engine.mute
  rcases (h.callCodec (.setMute mute)).cases with
    ⟨cause, next, next', hresult, hresult', hnext⟩ | ⟨next, next', hresult, hresult', hnext⟩
  · rw [hresult, hresult']
    exact hnext.log _
  · rw [hresult, hresult']
    exact hnext

theorem answered (h : Alike L o o' e e') (call : LinkCall) {r r' : Reply τ LinkFailure}
    (hreply : r.Alike L.link r') : Agreed L o o' (e.answered call r) (e'.answered call r') := by
  have hasked := (h.record (.link call)).journaled (r.wires.map .wire)
  refine ⟨hreply.result, ?_⟩
  dsimp only [Engine.answered]
  rw [hreply.interrupts, hreply.wires]
  refine absorb ?_ _
  exact { hasked with link := hreply.device }

theorem configureLink (h : Alike L o o' e e') :
    Agreed L o o' e.configureLink e'.configureLink := by
  unfold Engine.configureLink
  rw [h.config]
  exact h.answered .configure (L.configure h.link e.config)

theorem startLink (h : Alike L o o' e e') : Agreed L o o' e.startLink e'.startLink :=
  h.answered .start (L.start h.link)

theorem stopLink (h : Alike L o o' e e') : Alike L o o' e.stopLink e'.stopLink := by
  have hstopped : Alike L o o' { e with link := SerialLink.stop e.link }
      { e' with link := SerialLink.stop e'.link } := { h with link := L.stop h.link }
  exact hstopped.record _

theorem retract (h : Alike L o o' e e') (cause : EngineFailure) :
    Agreed L o o' (e.retract cause) (e'.retract cause) :=
  ((h.mapStream _).stopLink).refuse cause

theorem linkRunning (h : Alike L o o' e e') : e'.linkRunning = e.linkRunning := L.isRunning h.link

/-! ## The worker -/

section Worker

variable [CartridgeHook η]

theorem beginServe (h : Alike L o o' e e') : Alike L o o' e.beginServe e'.beginServe := by
  by_cases hwoken : e.worker = .idle ∧ e.wake = true
  · have hheld : e.worker.isHeld = true := by
      rw [hwoken.1]
      rfl
    have hwoken' : e'.worker = .idle ∧ e'.wake = true :=
      ⟨h.worker.trans hwoken.1, (h.wake hheld).trans hwoken.2⟩
    unfold Engine.beginServe
    rw [if_pos hwoken, if_pos hwoken', h.stream]
    obtain ⟨half, stream⟩ := e.stream.takePair
    cases half with
    | none => exact { h with stream := rfl, wake := fun _ => rfl }
    | some half =>
      dsimp only [Stream.beginBlock]
      rw [h.bay]
      split
      · refine Alike.recordStream ?_ _
        exact { h with stream := rfl, bay := rfl, worker := rfl, wake := fun _ => rfl }
      · exact { h with stream := rfl, bay := rfl, wake := fun _ => rfl }
  · have hwoken' : ¬(e'.worker = .idle ∧ e'.wake = true) := by
      rintro ⟨hidle, hwake⟩
      rw [h.worker] at hidle
      have hheld : e.worker.isHeld = true := by
        rw [hidle]
        rfl
      rw [h.wake hheld] at hwake
      exact hwoken ⟨hidle, hwake⟩
    rw [beginServe_asleep hwoken, beginServe_asleep hwoken']
    exact h

omit [CartridgeHook η] in
theorem spawn (h : Alike L o o' e e') : Agreed L o o' e.spawn e'.spawn := by
  unfold Engine.spawn
  rw [h.worker, h.threadRefusal]
  split
  · exact ⟨rfl, h⟩
  · split
    · refine ⟨rfl, Alike.log ?_ _⟩
      exact { h with worker := rfl, threadRefusal := rfl, wake := fun _ => rfl }
    · refine ⟨rfl, Alike.record ?_ _⟩
      exact { h with worker := rfl, threadRefusal := rfl, wake := fun _ => rfl }

variable [Processor π]

theorem finishServe (h : Alike L o o' e e') : Alike L o o' e.finishServe e'.finishServe := by
  cases hworker : e.worker with
  | inBlock block =>
    have hheld : e.worker.isHeld = true := by
      rw [hworker]
      rfl
    unfold Engine.finishServe
    rw [h.worker, hworker]
    dsimp only
    rw [h.stream, h.processor, h.bay]
    refine Alike.recordStream ?_ _
    exact { h with
      stream := rfl, processor := rfl, bay := rfl, worker := rfl, wake := fun _ => h.wake hheld }
  | absent | idle | dead =>
    have houtside (b : Stream.OpenBlock) : e.worker ≠ .inBlock b := by
      rw [hworker]
      exact Worker.noConfusion
    have houtside' (b : Stream.OpenBlock) : e'.worker ≠ .inBlock b := by
      rw [h.worker]
      exact houtside b
    rw [finishServe_outside houtside, finishServe_outside houtside']
    exact h

theorem join (h : Alike L o o' e e') : Alike L o o' e.join e'.join := by
  have hfinish := h.finishServe
  have hended (wake wake' : Bool) :
      Alike L o o' ({ e.finishServe with worker := .absent, wake }.record .joined)
        ({ e'.finishServe with worker := .absent, wake := wake' }.record .joined) := by
    refine Alike.record ?_ _
    exact { hfinish with worker := rfl, wake := fun hheld => absurd hheld Bool.false_ne_true }
  unfold Engine.join
  dsimp only
  rw [hfinish.worker]
  split
  · exact hfinish
  · exact (hended true true).log _
  · exact hended false false
  · exact hended false false

end Worker

/-! ## The life cycle -/

section Lifecycle

variable [Processor π] [CartridgeHook η]

theorem halt (h : Alike L o o' e e') : Alike L o o' e.halt e'.halt := by
  unfold Engine.halt
  rw [h.worker, h.linkRunning]
  split
  · exact h
  · exact (((h.mute true).mapStream _).stopLink).join

omit [Processor π] [CartridgeHook η] in
theorem bringUp (h : Alike L o o' e e') : Agreed L o o' e.bringUp e'.bringUp := by
  unfold Engine.bringUp
  rcases (h.callCodec .init).cases with
    ⟨cause, asked, asked', hcall, hcall', hasked⟩ | ⟨asked, asked', hcall, hcall', hasked⟩
  · rw [hcall, hcall']
    exact hasked.refuse _
  · rw [hcall, hcall']
    dsimp only
    rcases hasked.configureLink.cases with
      ⟨cause, linked, linked', hlink, hlink', hlinked⟩ | ⟨linked, linked', hlink, hlink', hlinked⟩
    · rw [hlink, hlink']
      exact hlinked.refuse _
    · rw [hlink, hlink']
      have hreset := hlinked.resetStream.mapStream fun s =>
        (s.mapSettings fun _ => .unity).clearCounters
      exact ⟨rfl, hreset.restored⟩

theorem init (h : Alike L o o' e e') : Agreed L o o' e.init e'.init := by
  unfold Engine.init
  rw [h.initialized, h.state]
  split
  · exact ⟨rfl, h⟩
  · exact h.halt.bringUp

theorem promote (h : Alike L o o' e e') : Agreed L o o' e.promote e'.promote := by
  unfold Engine.promote
  rw [h.linkRunning, h.stream, h.state]
  split
  · exact h.halt.refuse _
  · split
    · have hrunning : Alike L o o' { e with state := .running }
          { e' with stream := e.stream, state := .running } :=
        { h with stream := rfl, state := rfl }
      exact ⟨rfl, (hrunning.mute false).log _⟩
    · dsimp only
      rw [h.halt.stream]
      exact h.halt.refuse _

theorem arm (h : Alike L o o' e e') : Agreed L o o' e.arm e'.arm := by
  unfold Engine.arm
  rcases ((h.resetStream).mapStream (·.setArmed true)).startLink.cases with
    ⟨cause, linked, linked', hlink, hlink', hlinked⟩ | ⟨linked, linked', hlink, hlink', hlinked⟩
  · rw [hlink, hlink']
    exact hlinked.retract _
  · rw [hlink, hlink']
    dsimp only
    rcases hlinked.spawn.cases with
      ⟨cause, spawned, spawned', hspawn, hspawn', hspawned⟩ |
      ⟨spawned, spawned', hspawn, hspawn', hspawned⟩
    · rw [hspawn, hspawn']
      exact hspawned.retract _
    · rw [hspawn, hspawn']
      exact hspawned.promote

theorem startReady (h : Alike L o o' e e') : Agreed L o o' e.startReady e'.startReady := by
  unfold Engine.startReady
  rw [h.state]
  split
  · exact ⟨rfl, h.mute true⟩
  · rcases ((h.mute true).callCodec .configure).cases with
      ⟨cause, asked, asked', hcall, hcall', hasked⟩ | ⟨asked, asked', hcall, hcall', hasked⟩
    · rw [hcall, hcall']
      exact hasked.refuse _
    · rw [hcall, hcall']
      exact hasked.arm

theorem start (h : Alike L o o' e e') : Agreed L o o' e.start e'.start := by
  unfold Engine.start
  rw [h.state, h.initialized]
  split
  · exact ⟨rfl, h⟩
  · split
    · exact h.startReady
    · rcases h.init.cases with
        ⟨cause, up, up', hinit, hinit', hup⟩ | ⟨up, up', hinit, hinit', hup⟩
      · rw [hinit, hinit']
        exact ⟨rfl, hup.mute true⟩
      · rw [hinit, hinit']
        exact hup.startReady

theorem stop (h : Alike L o o' e e') : Alike L o o' e.stop e'.stop := by
  unfold Engine.stop
  rw [h.state]
  split
  · exact h
  · refine Alike.log ?_ _
    exact { h.halt with state := rfl }
  · exact h.halt
  · exact h.halt

theorem poll (h : Alike L o o' e e') : Agreed L o o' e.poll e'.poll := by
  have hnotice : Alike L o o' e.noticeWorker e'.noticeWorker := by
    unfold noticeWorker
    rw [h.worker, h.state]
    split
    · exact h.fail _
    · exact h
  unfold Engine.poll
  dsimp only
  rw [hnotice.state, hnotice.worker, hnotice.linkRunning, hnotice.stream]
  split
  · split
    · exact ⟨rfl, (hnotice.log _).halt⟩
    · exact ⟨rfl, hnotice.halt⟩
  · exact ⟨rfl, hnotice⟩

theorem teardown (h : Alike L o o' e e') : Alike L o o' e.teardown e'.teardown := by
  unfold Engine.teardown
  refine Alike.log ?_ _
  exact { h.halt with initialized := rfl, state := rfl }

end Lifecycle

/-- What is done only while there is no worker. -/
theorem whileIdle {α : Type} (h : Alike L o o' e e')
    {f f' : Engine σ τ π η → α × Engine σ τ π η} (hf : Agreed L o o' (f e) (f' e')) :
    Agreed L o o' (e.whileIdle f) (e'.whileIdle f') := by
  unfold Engine.whileIdle
  rw [h.worker]
  split
  · exact ⟨rfl, h⟩
  · exact ⟨congrArg Except.ok hf.1, hf.2⟩

end Alike

/-! ## Every run -/

section Moves

variable [Processor π] [CartridgeHook η]

/-- What a move answers. -/
def answer (e : Engine σ τ π η) : Move σ τ π η → Answer
  | .init => .result e.init.1
  | .start => .result e.start.1
  | .poll => .state e.poll.1
  | .registerPull hook => .result (e.registerPull hook).1
  | .registerPush hook => .result (e.registerPush hook).1
  | .editCartridges f => .result (e.accessCartridges fun input output => ((), f input output)).1
  | .editProcessor f => .result (e.accessProcessor fun p => ((), f p)).1
  | .interrupt event => .outcome (e.deliver event).1
  | .stop | .teardown | .mix _ | .wakeUp | .finishBlock | .capture _ _ | .codec _ | .link _
  | .threads _ => .done

/-- What the moves of a list answer, in order. -/
def answers (e : Engine σ τ π η) : List (Move σ τ π η) → List Answer
  | [] => []
  | m :: rest => e.answer m :: (e.after m).answers rest

end Moves

end Engine

/-- Codecs that change by themselves change alike. -/
def Move.Respects {σ τ π η : Type} [Codec σ] [SerialLink τ] [LinkProbe τ] (L : Likeness σ τ)
    (m : Move σ τ π η) : Prop :=
  ∀ f, m = .codec f → ∀ d d', L.codec d d' → L.codec (f d) (f d')

namespace Engine

section Moves

variable {σ τ π η : Type} [Codec σ] [SerialLink τ] [LinkProbe τ] [Processor π] [CartridgeHook η]
  {L : Likeness σ τ} {o o' e e' : Engine σ τ π η}

/-- **One move** answers the same on both engines, and leaves them alike. -/
theorem Alike.after (h : Alike L o o' e e') {m : Move σ τ π η} (hm : m.Respects L) :
    e'.answer m = e.answer m ∧ Alike L o o' (e.after m) (e'.after m) := by
  cases m with
  | init => exact ⟨congrArg Answer.result h.init.1, h.init.2⟩
  | start => exact ⟨congrArg Answer.result h.start.1, h.start.2⟩
  | stop => exact ⟨rfl, h.stop⟩
  | poll => exact ⟨congrArg Answer.state h.poll.1, h.poll.2⟩
  | teardown => exact ⟨rfl, h.teardown⟩
  | registerPull hook =>
    have hregistered : Agreed L o o' (e.registerPull hook) (e'.registerPull hook) := by
      refine h.whileIdle ⟨rfl, ?_⟩
      exact { h with bay := congrArg (fun bay => { bay with pull := hook }) h.bay }
    exact ⟨congrArg Answer.result hregistered.1, hregistered.2⟩
  | registerPush hook =>
    have hregistered : Agreed L o o' (e.registerPush hook) (e'.registerPush hook) := by
      refine h.whileIdle ⟨rfl, ?_⟩
      exact { h with bay := congrArg (fun bay => { bay with push := hook }) h.bay }
    exact ⟨congrArg Answer.result hregistered.1, hregistered.2⟩
  | editCartridges f =>
    have hedited : Agreed L o o' (e.accessCartridges fun input output => ((), f input output))
        (e'.accessCartridges fun input output => ((), f input output)) := by
      refine h.whileIdle ⟨rfl, ?_⟩
      exact { h with bay := congrArg (fun bay => { bay with
        input := (f bay.input bay.output).1, output := (f bay.input bay.output).2 }) h.bay }
    exact ⟨congrArg Answer.result hedited.1, hedited.2⟩
  | editProcessor f =>
    have hedited : Agreed L o o' (e.accessProcessor fun p => ((), f p))
        (e'.accessProcessor fun p => ((), f p)) := by
      refine h.whileIdle ⟨rfl, ?_⟩
      exact { h with processor := congrArg f h.processor }
    exact ⟨congrArg Answer.result hedited.1, hedited.2⟩
  | mix f => exact ⟨rfl, h.mapStream (·.mapSettings f)⟩
  | interrupt event => exact ⟨congrArg Answer.outcome (h.deliver event).1, (h.deliver event).2⟩
  | wakeUp => exact ⟨rfl, h.beginServe⟩
  | finishBlock => exact ⟨rfl, h.finishServe⟩
  | capture half block =>
    exact ⟨rfl, h.mapStream fun s => { s with buffers := s.buffers.writeCapture half block }⟩
  | codec f => exact ⟨rfl, { h with codec := hm f rfl _ _ h.codec }⟩
  | link touch => exact ⟨rfl, { h with link := L.touch h.link touch }⟩
  | threads refusal => exact ⟨rfl, { h with threadRefusal := rfl }⟩

/-- **Every list of moves**: induction on the list. -/
theorem Alike.run (h : Alike L o o' e e') {moves : List (Move σ τ π η)}
    (hmoves : ∀ m ∈ moves, m.Respects L) :
    e'.answers moves = e.answers moves ∧ Alike L o o' (e.run moves) (e'.run moves) := by
  induction moves generalizing e e' with
  | nil => exact ⟨rfl, h⟩
  | cons m moves ih =>
    obtain ⟨hanswer, hnext⟩ := h.after (hmoves m List.mem_cons_self)
    obtain ⟨hanswers, hlast⟩ := ih hnext fun m' hm' => hmoves m' (List.mem_cons_of_mem m hm')
    refine ⟨?_, hlast⟩
    show e'.answer m :: (e'.after m).answers moves = e.answer m :: (e.after m).answers moves
    rw [hanswer, hanswers]

end Moves

end Engine

end DuplexAudio
