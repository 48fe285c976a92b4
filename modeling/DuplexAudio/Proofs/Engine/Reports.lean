/-
  Who reports a transfer error.

  The interrupt that puts an engine at fault must not log.  The halt that follows is completed by
  whichever operation comes next, and it would be for that one to log the error.

  1. **How many records report an error** is counted (`reports`).  Nothing that happens inside a
     halt adds to it (`reports_halt`): calls on devices, interrupts, the end of a block, the join.

  2. **A fault is pending** while the worker is held and the error is latched (`Pending`).  It
     stays so under all moves but those that complete the halt, and none of them reports
     (`Pending.after`).  Every move that takes an engine to a fault with its worker leaves one
     (`Tended.pending_of_struck`).

  3. **Of the four operations that complete the halt only the poll reports**
     (`Pending.reports_haltedBy`).  A stop, an `init` and a teardown complete it silently.

  So `fault_reported_iff_poll`, and the run `not_reported_stopped_fault`, in which the log does not
  show the fault at all.
-/
import DuplexAudio.Proofs.Engine.Ownership

namespace DuplexAudio

/-- The failure of the link that a record is about. -/
def Notice.cause? : Notice → Option LinkFailure
  | streamFault cause | fault (.transport cause) => some cause
  | fault _ | muteFailed _ _ | notSpawned _ | ready _ | running | stopped | tornDown
  | workerPanicked => none

/-- Whether an event is a log record of an error. -/
def EngineEvent.isError : EngineEvent → Bool
  | .notice n => decide (n.level = .error)
  | .codec _ _ | .wire _ | .link _ | .interrupt _ _ | .stream _ | .spawned | .joined => false

/-- Whether an event is a log record of an error that reports a transfer error of direction `d`. -/
def EngineEvent.reports (d : Direction) : EngineEvent → Bool
  | .notice n => isError (.notice n) && decide (n.cause? = some (.dma d))
  | .codec _ _ | .wire _ | .link _ | .interrupt _ _ | .stream _ | .spawned | .joined => false

namespace Engine

variable {σ τ π η : Type} {e e' : Engine σ τ π η} {d : Direction}

/-- How many records have reported a transfer error of direction `d`. -/
def reports (e : Engine σ τ π η) (d : Direction) : Nat := e.journal.countP (·.reports d)

/-! ## What does not report -/

theorem reports_congr (h : e'.journal = e.journal) : e'.reports d = e.reports d := by
  unfold reports
  rw [h]

theorem reports_append {events : Journal} (hjournal : e'.journal = e.journal ++ events)
    (h : ∀ event ∈ events, event.reports d = false) : e'.reports d = e.reports d := by
  have hnone : events.countP (·.reports d) = 0 :=
    List.countP_eq_zero.mpr fun event hmem => Bool.eq_false_iff.mp (h event hmem)
  unfold reports
  rw [hjournal, List.countP_append, hnone, Nat.add_zero]

theorem reports_record (e : Engine σ τ π η) {event : EngineEvent}
    (h : event.reports d = false) : (e.record event).reports d = e.reports d :=
  reports_append rfl fun _ hmem => List.mem_singleton.mp hmem ▸ h

theorem reports_below {α : Type} (e : Engine σ τ π η) (event : α → EngineEvent)
    (h : ∀ a, (event a).reports d = false) (events : List α) :
    ({ e with journal := e.journal ++ events.map event } : Engine σ τ π η).reports d =
      e.reports d := by
  refine reports_append rfl fun listed hmem => ?_
  obtain ⟨a, -, rfl⟩ := List.mem_map.mp hmem
  exact h a

theorem reports_deliver (e : Engine σ τ π η) (event : Interrupt) :
    (e.deliver event).2.reports d = e.reports d := by
  unfold deliver
  obtain ⟨outcome, stream⟩ := e.stream.onInterrupt event
  cases outcome <;> rfl

/-- **Interrupts report nothing**: induction on those that arrive during a call. -/
theorem reports_absorb (e : Engine σ τ π η) (events : List Interrupt) :
    (e.absorb events).reports d = e.reports d :=
  absorb_invariant (P := fun e' => e'.reports d = e.reports d)
    (fun e' event h => ((reports_record _ rfl).trans (e'.reports_deliver event)).trans h) rfl events

section Codec

variable [Codec σ]

theorem reports_callCodec (e : Engine σ τ π η) (call : CodecCall) :
    (e.callCodec call).2.reports d = e.reports d := by
  have hasked : (e.record (.codec call e.state)).reports d = e.reports d := e.reports_record rfl
  unfold callCodec
  rw [reports_absorb]
  exact (reports_below _ .wire (fun _ => rfl) _).trans hasked

theorem reports_mute (e : Engine σ τ π η) (mute : Bool) :
    (e.mute mute).reports d = e.reports d := by
  have hcall := e.reports_callCodec (d := d) (.setMute mute)
  rcases e.mute_eq mute with hmute | ⟨cause, hmute⟩
  · rw [hmute, hcall]
  · rw [hmute]
    exact (reports_record _ rfl).trans hcall

end Codec

theorem reports_answered (e : Engine σ τ π η) (call : LinkCall) (r : Reply τ LinkFailure) :
    (e.answered call r).2.reports d = e.reports d := by
  have hasked : (e.record (.link call)).reports d = e.reports d := e.reports_record rfl
  unfold answered
  rw [reports_absorb]
  exact (reports_below _ .wire (fun _ => rfl) _).trans hasked

theorem reports_configureLink [SerialLink τ] (e : Engine σ τ π η) :
    e.configureLink.2.reports d = e.reports d := e.reports_answered _ _

theorem reports_startLink [SerialLink τ] (e : Engine σ τ π η) :
    e.startLink.2.reports d = e.reports d := e.reports_answered _ _

theorem reports_mapStream (e : Engine σ τ π η) (f : Stream → Stream) :
    (e.mapStream f).reports d = e.reports d := by
  unfold mapStream reports
  rfl

theorem reports_resetStream (e : Engine σ τ π η) : e.resetStream.reports d = e.reports d := by
  unfold resetStream recordStream
  rw [reports_below _ .stream (fun _ => rfl), reports_mapStream]

section Halt

variable [Codec σ] [SerialLink τ] [Processor π] [CartridgeHook η]

omit [Codec σ] [SerialLink τ] in
theorem reports_finishServe (e : Engine σ τ π η) : e.finishServe.reports d = e.reports d := by
  unfold finishServe
  split
  · exact reports_below _ .stream (fun _ => rfl) _
  · rfl

omit [Codec σ] [SerialLink τ] in
/-- The end of a worker is reported if it unwound, and that is no report of a transfer error. -/
theorem reports_join (e : Engine σ τ π η) : e.join.reports d = e.reports d := by
  have hjoined (wake : Bool) :
      ({ e.finishServe with worker := .absent, wake }.record .joined).reports d = e.reports d :=
    (reports_record _ rfl).trans e.reports_finishServe
  unfold join
  dsimp only
  split
  · exact e.reports_finishServe
  · exact (reports_record _ rfl).trans (hjoined true)
  · exact hjoined false
  · exact hjoined false

/-- **A halt reports nothing.** -/
theorem reports_halt (e : Engine σ τ π η) : e.halt.reports d = e.reports d := by
  by_cases hstreaming : e.Streaming
  · have hstopped : ((e.mute true).mapStream (·.setArmed false)).stopLink.reports d = e.reports d :=
      (reports_record _ rfl).trans (e.reports_mute true)
    rw [halt_of_streaming hstreaming, reports_join, hstopped]
  · rw [halt_of_not_streaming hstreaming]

omit [Codec σ] [SerialLink τ] [Processor π] in
theorem reports_beginServe (e : Engine σ τ π η) : e.beginServe.reports d = e.reports d := by
  unfold beginServe
  split
  · split
    · rfl
    · split
      · exact reports_below _ .stream (fun _ => rfl) _
      · rfl
  · rfl

theorem reports_stop (e : Engine σ τ π η) : e.stop.reports d = e.reports d := by
  unfold stop
  split
  · rfl
  · exact (reports_record _ rfl).trans e.reports_halt
  · exact e.reports_halt
  · exact e.reports_halt

theorem reports_teardown (e : Engine σ τ π η) : e.teardown.reports d = e.reports d :=
  (reports_record _ rfl).trans e.reports_halt

end Halt

/-! ## What a start and an `init` report -/

/-- How many records report the error that an operation answers. -/
def told (d : Direction) : Except EngineFailure Unit → Nat
  | .error cause => if cause = .transport (.dma d) then 1 else 0
  | .ok () => 0

theorem reports_log (e : Engine σ τ π η) (n : Notice) :
    (e.log n).reports d = e.reports d + if EngineEvent.reports d (.notice n) then 1 else 0 := by
  show (e.journal ++ [EngineEvent.notice n]).countP _ = _
  rw [List.countP_append, List.countP_singleton]
  rfl

/-- Whoever refuses reports the failure that is answered. -/
theorem reports_refuse (e : Engine σ τ π η) (cause : EngineFailure) :
    (e.refuse cause).2.reports d = e.reports d + told d (e.refuse cause).1 := by
  have hlog := e.reports_log (d := d) (.fault cause)
  refine hlog.trans ?_
  have hnotice : EngineEvent.reports d (.notice (.fault cause)) =
      decide (cause = .transport (.dma d)) := by
    unfold EngineEvent.reports
    cases cause with
    | transport failure =>
      simp [EngineEvent.isError, Notice.level, Notice.cause?]
    | hardwareInit | clockLockTimeout | faulted | busy | spawn | workerExited =>
      simp [EngineEvent.isError, Notice.level, Notice.cause?]
  rw [hnotice]
  simp [refuse, told]

section Start

variable [Codec σ] [SerialLink τ]

theorem reports_bringUp (e : Engine σ τ π η) :
    e.bringUp.2.reports d = e.reports d + told d e.bringUp.1 := by
  have hinit := e.reports_callCodec (d := d) .init
  unfold bringUp
  split
  · next asked hcall =>
    rw [hcall] at hinit
    rw [reports_refuse]
    exact congrArg (· + _) hinit
  · next asked hcall =>
    rw [hcall] at hinit
    have hlink := asked.reports_configureLink (d := d)
    split
    · next linked hlinked =>
      rw [hlinked] at hlink
      rw [reports_refuse]
      exact congrArg (· + _) (hlink.trans hinit)
    · next linked hlinked =>
      rw [hlinked] at hlink
      have hreset : (linked.resetStream.mapStream fun s =>
          (s.mapSettings fun _ => .unity).clearCounters).reports d = e.reports d := by
        rw [reports_mapStream, reports_resetStream]
        exact hlink.trans hinit
      dsimp only [log, told]
      rw [reports_record _ rfl, Nat.add_zero, ← hreset]
      refine reports_congr ?_
      dsimp only [mapStream]

variable [Processor π] [CartridgeHook η]

theorem reports_init (e : Engine σ τ π η) :
    e.init.2.reports d = e.reports d + told d e.init.1 := by
  unfold init
  split
  · rfl
  · rw [reports_bringUp, reports_halt]

theorem reports_promote (e : Engine σ τ π η) :
    e.promote.2.reports d = e.reports d + told d e.promote.1 := by
  unfold promote
  split
  · rw [reports_refuse, reports_halt]
  · split
    · exact (reports_record _ rfl).trans (reports_mute _ false)
    · rw [reports_refuse, reports_halt]

omit [Codec σ] [Processor π] [CartridgeHook η] in
theorem reports_retract (e : Engine σ τ π η) (cause : EngineFailure) :
    (e.retract cause).2.reports d = e.reports d + told d (e.retract cause).1 := by
  have hstopped : ((e.mapStream (·.setArmed false)).stopLink).reports d = e.reports d :=
    reports_record _ rfl
  unfold retract
  rw [reports_refuse, hstopped]

omit [Codec σ] [SerialLink τ] [Processor π] [CartridgeHook η] in
/-- A thread that is not given is logged, and that is no report of a transfer error. -/
theorem reports_spawn (e : Engine σ τ π η) : e.spawn.2.reports d = e.reports d := by
  obtain ⟨-, hspawn⟩ | ⟨-, -, hspawn⟩ | ⟨cause, -, -, hspawn⟩ := e.spawn_cases
  · rw [hspawn]
  · rw [hspawn]
    exact reports_record _ rfl
  · rw [hspawn]
    exact reports_record _ rfl

theorem reports_arm (e : Engine σ τ π η) :
    e.arm.2.reports d = e.reports d + told d e.arm.1 := by
  have hreset : e.rearmed.reports d = e.reports d :=
    (reports_mapStream _ _).trans e.reports_resetStream
  have hlinked := (e.rearmed.reports_startLink (d := d)).trans hreset
  obtain ⟨cause, linked, hstart, harm⟩ | ⟨linked, hstart, hspawn⟩ := e.arm_cases
  · rw [show e.rearmed.startLink = (.error cause, linked) from hstart] at hlinked
    rw [harm, reports_retract]
    exact congrArg (· + _) hlinked
  · rw [show e.rearmed.startLink = (.ok (), linked) from hstart] at hlinked
    have hspawned := (linked.reports_spawn (d := d)).trans hlinked
    obtain ⟨spawned, hrefused, harm⟩ | ⟨spawned, hgiven, harm⟩ := hspawn
    · rw [hrefused] at hspawned
      rw [harm, reports_retract]
      exact congrArg (· + _) hspawned
    · rw [hgiven] at hspawned
      rw [harm, reports_promote]
      exact congrArg (· + _) hspawned

theorem reports_startReady (e : Engine σ τ π η) :
    e.startReady.2.reports d = e.reports d + told d e.startReady.1 := by
  have hmuted := e.reports_mute (d := d) true
  have hasked := (reports_callCodec (d := d) (e.mute true) .configure).trans hmuted
  unfold startReady
  split
  · exact hmuted
  · split
    · next configured hcall =>
      rw [hcall] at hasked
      rw [reports_refuse]
      exact congrArg (· + _) hasked
    · next configured hcall =>
      rw [hcall] at hasked
      rw [reports_arm]
      exact congrArg (· + _) hasked

/-- **A start reports the error that it answers**, and no other. -/
theorem reports_start (e : Engine σ τ π η) :
    e.start.2.reports d = e.reports d + told d e.start.1 := by
  have hinit := e.reports_init (d := d)
  unfold start
  split
  · rfl
  · split
    · exact e.reports_startReady
    · split
      · next failed hresult =>
        rw [hresult] at hinit
        exact (failed.reports_mute true).trans hinit
      · next ready hresult =>
        rw [hresult] at hinit
        rw [reports_startReady]
        exact congrArg (· + _) hinit

end Start

/-! ## A pending fault -/

/-- The engine is at fault, the halt is still to be completed, and the direction of the transfer
error is known. -/
structure Pending (e : Engine σ τ π η) (d : Direction) : Prop where
  state : e.state = .fault
  held : e.worker.isHeld = true
  latched : e.stream.fault = some d

section Moves

variable [Codec σ] [SerialLink τ] [LinkProbe τ] [Processor π] [CartridgeHook η]

theorem reports_edit (e : Engine σ τ π η) {m : Move σ τ π η} (hedit : m.isEdit = true) :
    (e.after m).reports d = e.reports d := by
  refine reports_congr ?_
  cases m with
  | registerPull | registerPush | editCartridges | editProcessor =>
    dsimp only [after, registerPull, registerPush, accessCartridges, accessProcessor, whileIdle]
    split <;> rfl
  | mix | capture | codec | link | threads => dsimp only [after, mapStream]
  | init | start | stop | poll | teardown | interrupt | wakeUp | finishBlock =>
    exact Bool.noConfusion hedit

/-- A stream with a latched fault keeps it: interrupts answer it, and nothing else reaches it. -/
theorem Pending.latched_after (h : Pending e d) (htended : e.Tended) {m : Move σ τ π η}
    (hm : m.completesHalt = false) : (e.after m).stream.fault = some d := by
  have hdisarmed : e.stream.armed = false := by
    refine Bool.eq_false_iff.mpr fun harmed => ?_
    exact Lifecycle.noConfusion (h.state.symm.trans (htended.armed harmed))
  have hkept (hsame : (e.after m).stream.fault = e.stream.fault) :
      (e.after m).stream.fault = some d := hsame.trans h.latched
  have hheard (hmeanwhile : Meanwhile e (e.after m)) : (e.after m).stream.fault = some d :=
    hkept (congrArg Stream.fault (hmeanwhile.disarmed hdisarmed).1)
  cases m with
  | start =>
    refine hheard ?_
    show Meanwhile e e.start.2
    rw [start_of_fault h.state (htended.live h.held).1]
    exact e.meanwhile_mute true
  | interrupt event => exact hheard (e.meanwhile_deliver event)
  | wakeUp => exact hkept e.aside_beginServe.fault
  | finishBlock => exact hkept e.aside_finishServe.fault
  | registerPull | registerPush | editCartridges | editProcessor | mix | capture | codec | link
  | threads =>
    exact hkept (e.aside_edit rfl).fault
  | init | stop | poll | teardown => exact Bool.noConfusion hm

/-- **A pending fault** is left pending by every move that does not complete the halt, and none of
them reports. -/
theorem Pending.after (h : Pending e d) (htended : e.Tended) {m : Move σ τ π η}
    (hm : m.completesHalt = false) :
    Pending (e.after m) d ∧ ∀ d', (e.after m).reports d' = e.reports d' := by
  obtain ⟨hheld, hstate⟩ := htended.held_after h.held hm
  refine ⟨⟨hstate h.state, hheld, h.latched_after htended hm⟩, fun d' => ?_⟩
  cases m with
  | start =>
    show e.start.2.reports d' = e.reports d'
    rw [start_of_fault h.state (htended.live h.held).1]
    exact e.reports_mute true
  | interrupt event => exact e.reports_deliver event
  | wakeUp => exact e.reports_beginServe
  | finishBlock => exact e.reports_finishServe
  | registerPull | registerPush | editCartridges | editProcessor | mix | capture | codec | link
  | threads =>
    exact e.reports_edit rfl
  | init | stop | poll | teardown => exact Bool.noConfusion hm

/-- **Over every list of such moves**: induction on the list. -/
theorem Pending.run (h : Pending e d) (htended : e.Tended) {moves : List (Move σ τ π η)}
    (hmoves : ∀ m ∈ moves, m.completesHalt = false) :
    Pending (e.run moves) d ∧ (e.run moves).Tended ∧
      ∀ d', (e.run moves).reports d' = e.reports d' := by
  induction moves generalizing e with
  | nil => exact ⟨h, htended, fun _ => rfl⟩
  | cons m moves ih =>
    obtain ⟨hpending, hsame⟩ := h.after htended (hmoves m List.mem_cons_self)
    obtain ⟨hlater, htended', hsame'⟩ := ih hpending (htended.after m) fun m' hmem =>
      hmoves m' (List.mem_cons_of_mem m hmem)
    exact ⟨hlater, htended', fun d' => (hsame' d').trans (hsame d')⟩

/-! ## How a fault gets pending -/

omit [LinkProbe τ] [Processor π] [CartridgeHook η] in
/-- A start that went all the way, and was struck while the output was being unmuted. -/
theorem Launched.pending {armed linked : Engine σ τ π η} (h : Launched armed linked e)
    (hfault : e.state = .fault) : ∃ d, Pending e d := by
  have hmeanwhile : Meanwhile { linked.spawn.2 with state := .running } e := by
    rw [h.launched]
    exact (meanwhile_mute _ false).trans (.of_eq rfl rfl rfl rfl)
  have hnone : linked.spawn.2.stream.fault = none := by
    rw [h.spawn_eq]
    exact h.fault
  have hheld : e.worker.isHeld = true := by
    rw [h.worker]
    rfl
  rcases hmeanwhile.heard fun _ => hnone with ⟨-, -, hstate⟩ | ⟨-, -, hlatched, -⟩
  · exact absurd (hstate.symm.trans hfault) Lifecycle.noConfusion
  · obtain ⟨d, hd⟩ := Option.ne_none_iff_exists'.mp hlatched
    exact ⟨d, hfault, hheld, hd⟩

omit [LinkProbe τ] in
/-- A start that ends at fault with a worker. -/
theorem Tended.pending_of_start (h : e.Tended) (hbefore : e.state ≠ .fault)
    (hfault : e.start.2.state = .fault) (hheld : e.start.2.worker.isHeld = true) :
    (∃ d, Pending e.start.2 d) ∧ ∀ d', e.start.2.reports d' = e.reports d' := by
  have hvacant : e.Vacant := fun hrunning hstate => (h.resting hrunning hstate).vacant
  rcases h.start_cases with ⟨-, hsame⟩ | ⟨hstate, -⟩ | ⟨hrunning, -, hstarted⟩
  · rw [hsame] at hfault
    exact absurd hfault hbefore
  · exact absurd hstate hbefore
  · -- it went all the way, because a start that fails leaves no worker
    have hok : e.start.1 = .ok () := by
      by_contra hfailed
      exact Bool.noConfusion ((hstarted.vacant_of_failed hfailed).symm.trans hheld)
    refine ⟨?_, fun d' => ?_⟩
    · rcases Engine.start_cases hvacant with ⟨hstate, -⟩ | ⟨hfailed, -⟩ | ⟨-, _, _, hlaunched⟩
      · exact absurd hstate hrunning
      · exact absurd hok hfailed
      · exact hlaunched.pending hfault
    · have htold := e.reports_start (d := d')
      rw [hok] at htold
      exact htold

/-- **Every move that takes an engine to a fault with its worker** leaves the fault pending, and
reports nothing: it is an interrupt, or the end of a start. -/
theorem Tended.pending_of_struck (h : e.Tended) (hbefore : e.state ≠ .fault) {m : Move σ τ π η}
    (hfault : (e.after m).state = .fault) (hheld : (e.after m).worker.isHeld = true) :
    (∃ d, Pending (e.after m) d) ∧ ∀ d', (e.after m).reports d' = e.reports d' := by
  -- most moves leave the state as it is, or end the worker
  have hstate {P : Prop} (hsame : (e.after m).state = e.state) : P :=
    absurd (hsame.symm.trans hfault) hbefore
  have hcompletes {P : Prop} (hm : m.completesHalt = true) : P := by
    rcases e.undone_or_vacant hm with hnothing | hvacant
    · exact hstate (congrArg state hnothing)
    · exact absurd (hvacant.symm.trans hheld) Bool.noConfusion
  cases m with
  | start => exact h.pending_of_start hbefore hfault hheld
  | interrupt event =>
    refine ⟨?_, fun d' => e.reports_deliver event⟩
    rcases (e.meanwhile_deliver event).heard h.alert with ⟨-, -, hsame⟩ | ⟨-, -, hlatched, -⟩
    · exact hstate hsame
    · obtain ⟨d, hd⟩ := Option.ne_none_iff_exists'.mp hlatched
      exact ⟨d, hfault, hheld, hd⟩
  | init | stop | poll | teardown => exact hcompletes rfl
  | wakeUp => exact hstate e.beginServe_held.2
  | finishBlock => exact hstate e.finishServe_held.2
  | registerPull | registerPush | editCartridges | editProcessor | mix | capture | codec | link
  | threads =>
    exact hstate (e.undisturbed_edit rfl).state

/-! ## Who completes the halt -/

/-- The engine by the time that an operation has completed the halt.  An `init` brings the devices
up after that. -/
def haltedBy (e : Engine σ τ π η) : Move σ τ π η → Engine σ τ π η
  | .init => e.halt
  | m => e.after m

omit [LinkProbe τ] in
/-- A poll reports the fault, and then completes the halt. -/
theorem Pending.poll_eq (h : Pending e d) :
    e.poll = (.fault, (e.log (.streamFault (.dma d))).halt) := by
  have hnotice : e.noticeWorker = e := if_neg fun hdead => hdead.2 h.state
  have hcause : e.stream.failure? = some (.dma d) := by
    unfold Stream.failure?
    rw [h.latched]
    rfl
  unfold poll
  rw [hnotice]
  dsimp only
  rw [if_pos ⟨h.state, .inl h.held⟩, hcause]

/-- **Of the operations that complete the halt only the poll reports the fault.** -/
theorem Pending.reports_haltedBy (h : Pending e d) {m : Move σ τ π η}
    (hm : m.completesHalt = true) :
    (e.haltedBy m).worker.isHeld = false ∧
      ((m = .poll ∧ (e.haltedBy m).reports d = e.reports d + 1) ∨
        (m ≠ .poll ∧ (e.haltedBy m).reports d = e.reports d)) := by
  cases m with
  | init => exact ⟨e.isHeld_halt, .inr ⟨nofun, e.reports_halt⟩⟩
  | stop =>
    exact ⟨released_at_fault h.state h.held hm, .inr ⟨nofun, e.reports_stop⟩⟩
  | poll =>
    refine ⟨released_at_fault h.state h.held hm, .inl ⟨rfl, ?_⟩⟩
    show e.poll.2.reports d = e.reports d + 1
    rw [h.poll_eq, reports_halt, reports_log]
    simp [EngineEvent.reports, EngineEvent.isError, Notice.level, Notice.cause?]
  | teardown =>
    exact ⟨released_at_fault h.state h.held hm, .inr ⟨nofun, e.reports_teardown⟩⟩
  | start | registerPull | registerPush | editCartridges | editProcessor | mix | interrupt | wakeUp
  | finishBlock | capture | codec | link | threads => exact Bool.noConfusion hm

/-- **A transfer error is reported exactly if a poll completes the halt, or a start gives up for
it.**  After every run, whatever the devices do:
(1) take any move that puts the engine at fault with its worker still there, an interrupt or the end
    of a start, and any moves after it that do not complete the halt: the fault is pending then, and
    it will have been reported by the time that some operation has completed the halt if and only if
    that operation is the poll; an `init` brings the devices up only after that;
(2) a stop and a teardown report no transfer error, not even one that arrives during them;
(3) a start reports the error that it answers, and no other. -/
theorem fault_reported_iff_poll (codec : σ) (link : τ) (processor : π) (config : FrameLayout)
    (before : List (Move σ τ π η)) :
    let found : Engine σ τ π η := (new codec link processor config).run before
    (∀ (strike : Move σ τ π η) (waiting : List (Move σ τ π η)), found.state ≠ .fault →
      (found.after strike).state = .fault → (found.after strike).worker.isHeld = true →
      (∀ m ∈ waiting, m.completesHalt = false) →
      let e := (found.after strike).run waiting
      ∃ d, Pending e d ∧ e.init = e.halt.bringUp ∧
        ∀ m : Move σ τ π η, m.completesHalt = true →
          (e.haltedBy m).worker.isHeld = false ∧
            (found.reports d < (e.haltedBy m).reports d ↔ m = .poll)) ∧
    (∀ d, found.stop.reports d = found.reports d ∧ found.teardown.reports d = found.reports d) ∧
    ∀ d, found.start.2.reports d = found.reports d + told d found.start.1 := by
  intro found
  have htended : found.Tended := tended_run codec link processor config before
  refine ⟨fun strike waiting hbefore hfault hheld hwaiting => ?_,
    fun d => ⟨found.reports_stop, found.reports_teardown⟩, fun d => found.reports_start⟩
  intro e
  obtain ⟨⟨d, hstruck⟩, hsilent⟩ := htended.pending_of_struck hbefore hfault hheld
  obtain ⟨hpending, -, hquiet⟩ := hstruck.run (htended.after strike) hwaiting
  have hreports : e.reports d = found.reports d := (hquiet d).trans (hsilent d)
  refine ⟨d, hpending, init_of_fault hpending.state, fun m hm => ?_⟩
  obtain ⟨hvacant, ⟨hpoll, hmore⟩ | ⟨hother, hsame⟩⟩ := hpending.reports_haltedBy hm
  · rw [hmore, hreports]
    exact ⟨hvacant, fun _ => hpoll, fun _ => Nat.lt_succ_self _⟩
  · rw [hsame, hreports]
    exact ⟨hvacant, fun hlt => absurd hlt (Nat.lt_irrefl _), fun hpoll => absurd hpoll hother⟩

end Moves

/-! ## A fault that the log does not show -/

/-- A scripted engine after some moves. -/
def scripted (moves : List (Move Bench.ScriptedCodec (Loopback Unit) Bench.Instrument Bench.Hook)) :
    Scripted := (new {} {} .mixer {}).run moves

/-- An error of the receive channel, and a start that is refused for it: the poll reports the
error, the stop does not. -/
theorem fault_reported_iff_poll_struck :
    let struck := scripted [.start, .interrupt ⟨.rx, ⟨0x04⟩⟩, .start]
    ∃ d, Pending struck d ∧ (scripted [.start]).reports d < (struck.haltedBy .poll).reports d ∧
      ¬(scripted [.start]).reports d < (struck.haltedBy .stop).reports d := by
  have hbefore : (scripted [.start]).state ≠ .fault := by decide +kernel
  have hfault : ((scripted [.start]).after (.interrupt ⟨.rx, ⟨0x04⟩⟩)).state = .fault := by
    decide +kernel
  have hheld : ((scripted [.start]).after (.interrupt ⟨.rx, ⟨0x04⟩⟩)).worker.isHeld = true := by
    decide +kernel
  obtain ⟨hreported, -⟩ := fault_reported_iff_poll ({} : Bench.ScriptedCodec) ({} : Loopback Unit)
    Bench.Instrument.mixer {} ([.start] : List (Move _ _ _ Bench.Hook))
  obtain ⟨d, hpending, -, hcompletes⟩ := hreported (.interrupt ⟨.rx, ⟨0x04⟩⟩) [.start] hbefore
    hfault hheld fun m hmem => by
      rw [List.mem_singleton.mp hmem]
      rfl
  refine ⟨d, hpending, (hcompletes .poll rfl).2.mpr rfl, fun hlt => ?_⟩
  exact nomatch (hcompletes .stop rfl).2.mp hlt

/-- **The log does not show the fault**: an error of the receive channel puts a running engine at
fault, the stop completes the halt, and nothing was logged as an error. -/
theorem not_reported_stopped_fault :
    let stopped := scripted [.start, .interrupt ⟨.rx, ⟨0x04⟩⟩, .stop]
    (scripted [.start]).state = .running ∧
    (scripted [.start, .interrupt ⟨.rx, ⟨0x04⟩⟩]).state = .fault ∧
    (stopped.state = .fault ∧ stopped.stream.fault = some .rx) ∧
    (stopped.worker = .absent ∧ stopped.linkRunning = false) ∧
    ∀ event ∈ stopped.journal, event.isError = false := by
  decide +kernel

end Engine

end DuplexAudio
