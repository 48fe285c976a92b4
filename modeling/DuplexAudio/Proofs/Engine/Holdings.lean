/-
  What becomes of the cartridge bay and the processor.

  The worker works with both; here they are followed through the operations of the life cycle.

  1. **Devices do not reach them** (`Apart`).  Interrupts and calls on codec and link change neither
     what the worker owns, nor the memory that the block in progress works on.  So a halt, which
     mutes first and joins the worker last, lets it finish its block just as if nothing had come in
     between (`owned_halt`).

  2. That takes the stream to be occupied while the worker is inside a block, because then whatever
     the processor asks for is refused.  Every run keeps it so (`Engaged`, `engaged_run`).

  3. **A bring-up** that succeeds silences the cartridges and leaves hooks and processor alone
     (`owned_bringUp`); a start on its own touches neither (`owned_startReady`).

  `Tended.owned_control` puts it together: after every operation of the life cycle, processor and
  bay are as before, but for the block that the worker was in, if it was ended, and for the silence
  of a bring-up.  Codec and link are arbitrary.
-/
import DuplexAudio.Proofs.Engine.Recovery
import DuplexAudio.Proofs.Stream.Reentry

namespace DuplexAudio

namespace Stream

theorem buffers_onInterrupt (s : Stream) (event : Interrupt) :
    (s.onInterrupt event).2.buffers = s.buffers := by
  rcases s.onInterrupt_cases event with
    ⟨-, hout⟩ | ⟨error, -, -, hout⟩ | ⟨error, -, -, hout⟩ | ⟨ready, pairs, -, -, -, hout⟩ <;>
    rw [hout]
  rfl

variable {π η : Type} [Processor π] [CartridgeHook η]

/-- **What a block in progress comes to** depends on the memory alone, not on anything else in the
stream, because all that its processor asks for is refused. -/
theorem finishBlock_congr {s s' : Stream} (h : s.occupied = true) (h' : s'.occupied = true)
    (hbuffers : s'.buffers = s.buffers) (b : OpenBlock) (p : π) (bay : CartridgeBay η) :
    (s'.finishBlock b p bay).processor = (s.finishBlock b p bay).processor ∧
      (s'.finishBlock b p bay).bay = (s.finishBlock b p bay).bay := by
  have hview : s'.view b bay.input bay.output = s.view b bay.input bay.output := by
    unfold view
    rw [hbuffers]
  unfold finishBlock
  rw [hview]
  dsimp only
  rw [perform_settled _ h, perform_settled _ h']
  dsimp only
  split <;> exact ⟨rfl, rfl⟩

end Stream

namespace Move

variable {σ τ π η : Type} [LinkProbe τ]

/-- The operations of the life cycle. -/
def isControl : Move σ τ π η → Bool
  | .init | .start | .stop | .poll | .teardown => true
  | _ => false

/-- The operations that complete the halt of an engine at fault. -/
def completesHalt : Move σ τ π η → Bool
  | .init | .stop | .poll | .teardown => true
  | _ => false

/-- Whatever is neither an operation on the engine nor a step of its worker, and the mix. -/
def isOutside : Move σ τ π η → Bool
  | .mix _ | .interrupt _ | .capture _ _ | .codec _ | .link _ | .threads _ => true
  | _ => false

end Move

namespace Engine

variable {σ τ π η : Type} {e e' e'' : Engine σ τ π η}

/-! ## What is owned -/

/-- What the worker owns. -/
def owned (e : Engine σ τ π η) : π × CartridgeBay η := (e.processor, e.bay)

theorem Kept.owned (h : Kept e e') : e'.owned = e.owned := by
  unfold Engine.owned
  rw [h.processor, h.bay]

/-- The worker is where it was, with what it owns and the memory it works on. -/
structure Apart (e e' : Engine σ τ π η) : Prop where
  owned : e'.owned = e.owned
  worker : e'.worker = e.worker
  occupied : e'.stream.occupied = e.stream.occupied
  buffers : e'.stream.buffers = e.stream.buffers

theorem Apart.refl (e : Engine σ τ π η) : Apart e e := ⟨rfl, rfl, rfl, rfl⟩

theorem Apart.trans (h : Apart e e') (h' : Apart e' e'') : Apart e e'' :=
  ⟨h'.owned.trans h.owned, h'.worker.trans h.worker, h'.occupied.trans h.occupied,
    h'.buffers.trans h.buffers⟩

theorem apart_deliver (e : Engine σ τ π η) (event : Interrupt) : Apart e (e.deliver event).2 := by
  have hinterrupted := e.interrupted_deliver event
  refine ⟨(e.kept_deliver event).owned, hinterrupted.worker, hinterrupted.occupied, ?_⟩
  have hbuffers := e.stream.buffers_onInterrupt event
  unfold deliver
  generalize e.stream.onInterrupt event = out at hbuffers
  obtain ⟨outcome, stream⟩ := out
  cases outcome <;> exact hbuffers

theorem apart_absorb (e : Engine σ τ π η) (events : List Interrupt) :
    Apart e (e.absorb events) := by
  refine absorb_invariant (P := Apart e) (fun e' event h => ?_) (.refl e) events
  exact (h.trans (e'.apart_deliver event)).trans ⟨rfl, rfl, rfl, rfl⟩

section Codec

variable [Codec σ]

theorem apart_callCodec (e : Engine σ τ π η) (call : CodecCall) :
    Apart e (e.callCodec call).2 := by
  unfold callCodec
  refine Apart.trans ?_ (apart_absorb _ _)
  exact ⟨rfl, rfl, rfl, rfl⟩

theorem apart_mute (e : Engine σ τ π η) (mute : Bool) : Apart e (e.mute mute) := by
  have hcall := e.apart_callCodec (.setMute mute)
  rcases e.mute_eq mute with hmute | ⟨cause, hmute⟩
  · rw [hmute]
    exact hcall
  · rw [hmute]
    exact hcall.trans ⟨rfl, rfl, rfl, rfl⟩

end Codec

theorem apart_answered (e : Engine σ τ π η) (call : LinkCall) (r : Reply τ LinkFailure) :
    Apart e (e.answered call r).2 := by
  unfold answered
  refine Apart.trans ?_ (apart_absorb _ _)
  exact ⟨rfl, rfl, rfl, rfl⟩

/-! ## Halts -/

/-- While the worker is inside a block, the stream is occupied. -/
def Engaged (e : Engine σ τ π η) : Prop := ∀ b, e.worker = .inBlock b → e.stream.occupied = true

theorem Engaged.of_outside (h : ∀ b, e.worker ≠ .inBlock b) : e.Engaged :=
  fun b hworker => absurd hworker (h b)

theorem outside_of_vacant (h : e.worker.isHeld = false) : ∀ b, e.worker ≠ .inBlock b := by
  intro b hworker
  rw [hworker] at h
  exact Bool.noConfusion h

/-- A start that fails leaves no worker. -/
theorem Started.vacant_of_failed {P : Journal → Prop} {cs : Journal}
    {r : Except EngineFailure Unit × Engine σ τ π η} (h : Started P e cs r)
    (hfailed : r.1 ≠ .ok ()) : r.2.worker.isHeld = false := by
  cases h with
  | up => exact absurd rfl hfailed
  | down downed => exact downed.resting.vacant

section Halt

variable [Processor π] [CartridgeHook η]

/-- A block in progress comes to the same, whatever the devices did meanwhile. -/
theorem Apart.finishServe (h : Apart e e') (hengaged : e.Engaged) :
    e'.finishServe.owned = e.finishServe.owned := by
  obtain ⟨howned, hworker, hoccupied, hbuffers⟩ := h
  obtain ⟨hprocessor, hbay⟩ := Prod.mk.inj howned
  unfold Engine.finishServe
  rw [hworker]
  cases hinside : e.worker with
  | inBlock b =>
    have hbusy := hengaged b hinside
    have hends := Stream.finishBlock_congr hbusy (hoccupied.trans hbusy) hbuffers b e.processor
      e.bay
    rw [hprocessor, hbay]
    exact Prod.ext hends.1 hends.2
  | absent | idle | dead => exact howned

theorem owned_join (e : Engine σ τ π η) : e.join.owned = e.finishServe.owned := by
  unfold join
  dsimp only
  split <;> rfl

/-- Without a worker there is nothing to go on with. -/
theorem finishServe_of_vacant (h : e.worker.isHeld = false) : e.finishServe = e :=
  finishServe_outside (outside_of_vacant h)

variable [Codec σ] [SerialLink τ]

/-- **A halt lets the worker finish its block**, and touches nothing else of what it owns. -/
theorem owned_halt (h : e.Engaged) : e.halt.owned = e.finishServe.owned := by
  by_cases hstreaming : e.Streaming
  · have hstopped : Apart e ((e.mute true).mapStream (·.setArmed false)).stopLink :=
      (e.apart_mute true).trans ⟨rfl, rfl, rfl, rfl⟩
    rw [halt_of_streaming hstreaming, owned_join, hstopped.finishServe h]
  · have hvacant : e.worker.isHeld = false := Bool.eq_false_iff.mpr (not_or.mp hstreaming).1
    rw [halt_of_not_streaming hstreaming, finishServe_of_vacant hvacant]

theorem owned_halt_outside (h : ∀ b, e.worker ≠ .inBlock b) : e.halt.owned = e.owned := by
  rw [owned_halt (.of_outside h), finishServe_outside h]

/-- A poll keeps records, may notice the end of the worker, and may halt. -/
theorem poll_apart (e : Engine σ τ π η) :
    ∃ e', Apart e e' ∧ (e.poll.2 = e' ∨ e.poll.2 = e'.halt) := by
  have hnotice : Apart e e.noticeWorker := by
    unfold noticeWorker
    split
    · exact ⟨rfl, rfl, rfl, rfl⟩
    · exact .refl e
  unfold poll
  dsimp only
  split
  · split
    · refine ⟨_, ?_, .inr rfl⟩
      exact hnotice.trans ⟨rfl, rfl, rfl, rfl⟩
    · exact ⟨_, hnotice, .inr rfl⟩
  · exact ⟨_, hnotice, .inl rfl⟩

end Halt

/-! ## Bring-ups and starts -/

section Start

variable [Codec σ] [SerialLink τ]

/-- **A bring-up** silences the cartridges if it succeeds, and touches nothing else of what the
worker owns. -/
theorem owned_bringUp (e : Engine σ τ π η) :
    e.bringUp.2.owned =
      if e.bringUp.1.isOk then (e.processor, e.bay.clear) else e.owned := by
  cases hanswer : e.bringUp.1 with
  | ok =>
    have hrestored := restored_bringUp hanswer
    exact Prod.ext hrestored.processor hrestored.bay
  | error cause =>
    have hinit := e.apart_callCodec .init
    revert hanswer
    unfold bringUp
    split
    · next asked hcall =>
      rw [hcall] at hinit
      exact fun _ => hinit.owned
    · next asked hcall =>
      rw [hcall] at hinit
      have hconfigure : Apart asked asked.configureLink.2 := asked.apart_answered _ _
      split
      · next linked hlink =>
        rw [hlink] at hconfigure
        exact fun _ => hconfigure.owned.trans hinit.owned
      · exact fun hok => nomatch hok

variable [Processor π] [CartridgeHook η]

/-- The last part of a start, with no block in progress. -/
theorem owned_promote (h : ∀ b, e.worker ≠ .inBlock b) : e.promote.2.owned = e.owned := by
  unfold promote
  split
  · exact owned_halt_outside h
  · split
    · exact (apart_mute _ false).owned
    · exact owned_halt_outside h

omit [Processor π] [CartridgeHook η] [Codec σ] [SerialLink τ] in
/-- The creation of the worker leaves it asleep, or none, or as it was. -/
theorem owned_spawn (h : ∀ b, e.worker ≠ .inBlock b) :
    e.spawn.2.owned = e.owned ∧ ∀ b, e.spawn.2.worker ≠ .inBlock b := by
  obtain ⟨-, hspawn⟩ | ⟨-, -, hspawn⟩ | ⟨cause, -, -, hspawn⟩ := e.spawn_cases
  · rw [hspawn]
    exact ⟨rfl, h⟩
  · rw [hspawn]
    exact ⟨rfl, fun _ => Worker.noConfusion⟩
  · rw [hspawn]
    exact ⟨rfl, h⟩

/-- The second part of a start: the link answers, and the worker is created, which is asleep. -/
theorem owned_arm (h : ∀ b, e.worker ≠ .inBlock b) : e.arm.2.owned = e.owned := by
  have hlink : Apart e.rearmed e.rearmed.startLink.2 := apart_answered _ _ _
  have howned : e.rearmed.owned = e.owned := by
    unfold owned
    dsimp only [rearmed, resetStream, recordStream, mapStream]
  have hlinked : e.rearmed.startLink.2.owned = e.owned := hlink.owned.trans howned
  have houtside : ∀ b, e.rearmed.startLink.2.worker ≠ .inBlock b := by
    rw [hlink.worker, e.rearmed_frame.1]
    exact h
  have hspawned := owned_spawn houtside
  obtain ⟨cause, linked, hstart, harm⟩ | ⟨linked, hstart, hspawn⟩ := e.arm_cases
  · rw [show e.rearmed.startLink = (.error cause, linked) from hstart] at hlinked
    rw [harm]
    exact hlinked
  · rw [show e.rearmed.startLink = (.ok (), linked) from hstart] at hlinked hspawned
    obtain ⟨spawned, hrefused, harm⟩ | ⟨spawned, hgiven, harm⟩ := hspawn
    · rw [hrefused] at hspawned
      rw [harm]
      exact hspawned.1.trans hlinked
    · rw [hgiven] at hspawned
      rw [harm, owned_promote hspawned.2]
      exact hspawned.1.trans hlinked

/-- **A start of an engine that was brought up** concerns nothing that the worker owns. -/
theorem owned_startReady (h : ∀ b, e.worker ≠ .inBlock b) : e.startReady.2.owned = e.owned := by
  have hmuted := e.apart_mute true
  unfold startReady
  split
  · exact hmuted.owned
  · have hasked := hmuted.trans ((e.mute true).apart_callCodec .configure)
    split
    · next configured hcall =>
      rw [hcall] at hasked
      exact hasked.owned
    · next configured hcall =>
      rw [hcall] at hasked
      have houtside : ∀ b, configured.worker ≠ .inBlock b := by
        rw [hasked.worker]
        exact h
      rw [owned_arm houtside]
      exact hasked.owned

end Start

/-! ## The worker's own steps -/

section Worker

variable [CartridgeHook η]

/-- A worker that wakes up calls the pull hook if it begins a block, and nothing else. -/
theorem beginServe_owned (e : Engine σ τ π η) :
    (e.beginServe.owned = e.owned ∧ e.beginServe.worker = e.worker ∧
        e.beginServe.stream.occupied = e.stream.occupied) ∨
      (e.worker = .idle ∧ (∃ b, e.beginServe.worker = .inBlock b) ∧
        e.beginServe.stream.occupied = true ∧
        e.beginServe.owned = (e.processor, e.bay.pulled framesPerBlock)) := by
  unfold beginServe
  split
  · next hwaiting =>
    split
    · next htake => exact .inl ⟨rfl, rfl, congrArg (fun t => t.2.occupied) htake.symm⟩
    · next htake =>
      split
      · exact .inr ⟨hwaiting.1, ⟨_, rfl⟩, rfl, rfl⟩
      · exact .inl ⟨rfl, rfl, congrArg (fun t => t.2.occupied) htake.symm⟩
  · exact .inl ⟨rfl, rfl, rfl⟩

variable [Processor π]

/-- After its block the worker is not inside it. -/
theorem finishServe_worker (e : Engine σ τ π η) : ∀ b, e.finishServe.worker ≠ .inBlock b := by
  intro b hinside
  cases hworker : e.worker with
  | inBlock b' =>
    obtain ⟨-, -, -, -, -, -, hidle | hdead⟩ := finishServe_inBlock hworker
    · exact Worker.noConfusion (hidle.symm.trans hinside)
    · exact Worker.noConfusion (hdead.symm.trans hinside)
  | absent | idle | dead =>
    have houtside : ∀ b, e.worker ≠ .inBlock b := by
      rw [hworker]
      exact fun b => Worker.noConfusion
    rw [finishServe_outside houtside] at hinside
    exact houtside b hinside

/-- The end of a block leaves the pull hook, and a push hook where there was one. -/
theorem finishServe_hooks (e : Engine σ τ π η) :
    e.finishServe.bay.pull = e.bay.pull ∧
      e.finishServe.bay.push.isSome = e.bay.push.isSome := by
  unfold finishServe
  split
  · unfold Stream.finishBlock
    dsimp only [recordStream]
    split
    · exact ⟨rfl, Option.isSome_map⟩
    · exact ⟨rfl, rfl⟩
  · exact ⟨rfl, rfl⟩

end Worker

section Moves

variable [Codec σ] [SerialLink τ] [LinkProbe τ] [Processor π] [CartridgeHook η]

omit [LinkProbe τ] in
/-- A start leaves the worker where it is, or asleep, or ends it. -/
theorem Tended.start_worker (h : e.Tended) :
    (e.start.2.worker = e.worker ∧ e.start.2.stream.occupied = e.stream.occupied) ∨
      ∀ b, e.start.2.worker ≠ .inBlock b := by
  have hvacant : e.Vacant := fun hrunning hfault => (h.resting hrunning hfault).vacant
  rcases h.start_cases with ⟨-, hsame⟩ | ⟨-, -, hrefused⟩ | ⟨hrunning, -, hstarted⟩
  · rw [hsame]
    exact .inl ⟨rfl, rfl⟩
  · rw [hrefused]
    exact .inl ⟨(e.apart_mute true).worker, (e.apart_mute true).occupied⟩
  · right
    rcases Engine.start_cases hvacant with
      ⟨hstate, -⟩ | ⟨hfailed, -⟩ | ⟨-, armed, linked, hlaunched⟩
    · exact absurd hstate hrunning
    · exact outside_of_vacant (hstarted.vacant_of_failed hfailed)
    · rw [hlaunched.worker]
      exact fun b => Worker.noConfusion

/-- The operations that complete a halt do nothing, or leave no worker. -/
theorem undone_or_vacant (e : Engine σ τ π η) {m : Move σ τ π η} (hm : m.completesHalt = true) :
    e.after m = e ∨ (e.after m).worker.isHeld = false := by
  cases m with
  | init =>
    by_cases hup : e.initialized = true ∧ e.state ≠ .fault
    · have hnothing := init_of_up hup
      exact .inl (congrArg Prod.snd hnothing)
    · have hbringUp : e.init = e.halt.bringUp := if_neg hup
      right
      show e.init.2.worker.isHeld = false
      rw [hbringUp, worker_bringUp, isHeld_halt]
  | stop => exact e.stop_cases.2
  | poll =>
    rcases e.poll_halts with ⟨hnothing, -⟩ | ⟨e', hhalts, -⟩
    · exact .inl (congrArg Prod.snd hnothing)
    · right
      show e.poll.2.worker.isHeld = false
      rw [hhalts]
      exact e'.isHeld_halt
  | teardown => exact .inr e.isHeld_halt
  | start | registerPull | registerPush | editCartridges | editProcessor | mix | interrupt | wakeUp
  | finishBlock | capture | codec | link | threads => exact Bool.noConfusion hm

/-- While the worker is inside a block the stream is occupied, **after every move**. -/
theorem Engaged.after (h : e.Engaged) (htended : e.Tended) (m : Move σ τ π η) :
    (e.after m).Engaged := by
  have hcompletes (hm : m.completesHalt = true) : (e.after m).Engaged := by
    rcases e.undone_or_vacant hm with hnothing | hvacant
    · rw [hnothing]
      exact h
    · exact .of_outside (outside_of_vacant hvacant)
  have hsame (hworker : (e.after m).worker = e.worker)
      (hoccupied : (e.after m).stream.occupied = e.stream.occupied) : (e.after m).Engaged := by
    intro b hinside
    rw [hworker] at hinside
    exact hoccupied.trans (h b hinside)
  have hedit (hundisturbed : Undisturbed e (e.after m)) : (e.after m).Engaged :=
    hsame hundisturbed.worker hundisturbed.occupied
  cases m with
  | init | stop | poll | teardown => exact hcompletes rfl
  | start =>
    rcases htended.start_worker with ⟨hworker, hoccupied⟩ | houtside
    · exact hsame hworker hoccupied
    · exact .of_outside houtside
  | interrupt event =>
    have hapart := e.apart_deliver event
    exact hsame hapart.worker hapart.occupied
  | wakeUp =>
    rcases e.beginServe_owned with ⟨-, hworker, hoccupied⟩ | ⟨-, -, hoccupied, -⟩
    · exact hsame hworker hoccupied
    · exact fun _ _ => hoccupied
  | finishBlock => exact .of_outside e.finishServe_worker
  | registerPull | registerPush | editCartridges | editProcessor | mix | capture | codec | link
  | threads =>
    exact hedit (e.undisturbed_edit rfl)

/-- **Every run** keeps the stream occupied while the worker is inside a block. -/
theorem engaged_run (codec : σ) (link : τ) (processor : π) (config : FrameLayout)
    (moves : List (Move σ τ π η)) : ((new codec link processor config).run moves).Engaged := by
  have hall := run_invariant (P := fun e : Engine σ τ π η => e.Tended ∧ e.Engaged)
    (fun _ m ⟨htended, hengaged⟩ => ⟨htended.after m, hengaged.after htended m⟩)
    ⟨new_tended codec link processor config, fun b => Worker.noConfusion⟩ moves
  exact hall.2

/-! ## Operations of the life cycle -/

/-- The engine whose holdings a move finds: if the move ends the worker, it lets it finish the block
that it is in. -/
def settledBy (e : Engine σ τ π η) (m : Move σ τ π η) : Engine σ τ π η :=
  if (e.after m).worker.isHeld then e else e.finishServe

theorem settledBy_of_worker {m : Move σ τ π η} (h : (e.after m).worker = e.worker) :
    e.settledBy m = e := by
  unfold settledBy
  rw [h]
  split
  · rfl
  · next hvacant => exact finishServe_of_vacant (Bool.eq_false_iff.mpr hvacant)

theorem settledBy_of_ended {m : Move σ τ π η} (h : (e.after m).worker.isHeld = false) :
    e.settledBy m = e.finishServe := if_neg (Bool.eq_false_iff.mp h)

theorem settledBy_of_vacant {m : Move σ τ π η} (h : e.worker.isHeld = false) :
    e.settledBy m = e := by
  unfold settledBy
  rw [finishServe_of_vacant h, ite_self]

/-- A move that brings the devices up afresh, and succeeds. -/
def restores (e : Engine σ τ π η) : Move σ τ π η → Bool
  | .init => decide ¬(e.initialized = true ∧ e.state ≠ .fault) && e.init.1.isOk
  | .start => !e.initialized && e.init.1.isOk
  | _ => false

/-- What the worker owns after an operation of the life cycle. -/
def ownedAfter (e : Engine σ τ π η) (m : Move σ τ π η) : π × CartridgeBay η :=
  if e.restores m then ((e.settledBy m).processor, (e.settledBy m).bay.clear)
  else (e.settledBy m).owned

theorem owned_init (h : e.Engaged) : (e.after .init).owned = e.ownedAfter .init := by
  show e.init.2.owned = _
  by_cases hup : e.initialized = true ∧ e.state ≠ .fault
  · have hnothing := init_of_up hup
    have hsettled : e.settledBy .init = e :=
      settledBy_of_worker (congrArg (fun r => r.2.worker) hnothing)
    have hrestores : e.restores .init = false := by
      unfold restores
      rw [decide_eq_false (not_not_intro hup), Bool.false_and]
    unfold ownedAfter
    rw [hnothing, hsettled, hrestores, if_neg Bool.false_ne_true]
  · have hbringUp : e.init = e.halt.bringUp := if_neg hup
    have hsettled : e.settledBy .init = e.finishServe := by
      refine settledBy_of_ended ?_
      show e.init.2.worker.isHeld = false
      rw [hbringUp, worker_bringUp, isHeld_halt]
    have hrestores : e.restores .init = e.halt.bringUp.1.isOk := by
      unfold restores
      rw [decide_eq_true hup, Bool.true_and, hbringUp]
    have hhalt := owned_halt h
    obtain ⟨hprocessor, hbay⟩ := Prod.mk.inj hhalt
    unfold ownedAfter
    rw [hbringUp, hsettled, hrestores, owned_bringUp, hhalt, hprocessor, hbay]

omit [LinkProbe τ] in
/-- A start that brings the devices up first changes what the bring-up changes. -/
theorem owned_start_of_not_initialized (hrunning : e.state ≠ .running)
    (hdown : e.initialized = false) : e.start.2.owned = e.init.2.owned := by
  cases hanswer : e.init.1 with
  | error cause =>
    rw [start_of_not_initialized hrunning hdown hanswer]
    exact (apart_mute _ true).owned
  | ok =>
    have hvacant : e.init.2.worker.isHeld = false := by
      rw [init_of_not_initialized hdown, worker_bringUp, isHeld_halt]
    rw [start_of_brought_up hrunning hdown hanswer]
    exact owned_startReady (outside_of_vacant hvacant)

theorem Tended.owned_start (h : e.Tended) (hengaged : e.Engaged) :
    (e.after .start).owned = e.ownedAfter .start := by
  show e.start.2.owned = _
  unfold ownedAfter
  have hrestores (hup : e.initialized = true) : e.restores .start = false := by
    unfold restores
    rw [hup]
    rfl
  rcases h.start_cases with ⟨hrunning, hsame⟩ | ⟨-, hup, hrefused⟩ | ⟨hrunning, hfault, -⟩
  · have hworker : (e.after .start).worker = e.worker := congrArg (fun r => r.2.worker) hsame
    rw [hrestores (h.up (.inr hrunning)), settledBy_of_worker hworker, hsame]
    rfl
  · have hmuted := e.apart_mute true
    have hworker : (e.after .start).worker = e.worker :=
      (congrArg (fun r => r.2.worker) hrefused).trans hmuted.worker
    rw [hrestores hup, settledBy_of_worker hworker, hrefused]
    exact hmuted.owned
  · have hvacant : e.worker.isHeld = false := by
      refine Bool.eq_false_iff.mpr fun hheld => ?_
      obtain ⟨hup, hstate | hstate⟩ := h.live hheld
      · exact hrunning hstate
      · exact Bool.noConfusion (hup.symm.trans (hfault hstate))
    rw [settledBy_of_vacant hvacant]
    cases hup : e.initialized with
    | true =>
      rw [hrestores hup, start_of_initialized hrunning hup]
      exact owned_startReady (outside_of_vacant hvacant)
    | false =>
      have hinit : e.init.2.owned = e.ownedAfter .init := owned_init hengaged
      have hsame : e.restores .start = e.restores .init := by
        unfold restores
        rw [hup]
        rfl
      rw [owned_start_of_not_initialized hrunning hup, hinit, hsame]
      unfold ownedAfter
      rw [settledBy_of_vacant hvacant]

theorem owned_stop (h : e.Engaged) : (e.after .stop).owned = e.ownedAfter .stop := by
  show e.stop.owned = (e.settledBy .stop).owned
  have hhalted (howned : e.stop.owned = e.halt.owned)
      (hworker : e.stop.worker = e.halt.worker) : e.stop.owned = (e.settledBy .stop).owned := by
    have hended : (e.after .stop).worker.isHeld = false := by
      show e.stop.worker.isHeld = false
      rw [hworker, isHeld_halt]
    rw [settledBy_of_ended hended, howned, owned_halt h]
  cases hstate : e.state with
  | stopped =>
    have hnothing : e.stop = e := by
      unfold stop
      rw [hstate]
    have hworker : (e.after .stop).worker = e.worker := congrArg worker hnothing
    rw [settledBy_of_worker hworker, hnothing]
  | ready | running | fault =>
    refine hhalted ?_ ?_ <;> unfold stop <;> rw [hstate] <;> rfl

theorem owned_poll (h : e.Engaged) : (e.after .poll).owned = e.ownedAfter .poll := by
  show e.poll.2.owned = (e.settledBy .poll).owned
  obtain ⟨e', hapart, hpoll | hpoll⟩ := e.poll_apart
  · have hworker : (e.after .poll).worker = e.worker := (congrArg worker hpoll).trans hapart.worker
    rw [settledBy_of_worker hworker, hpoll, hapart.owned]
  · have hended : (e.after .poll).worker.isHeld = false := by
      show e.poll.2.worker.isHeld = false
      rw [hpoll, isHeld_halt]
    have hengaged : e'.Engaged := by
      intro b hinside
      rw [hapart.worker] at hinside
      exact hapart.occupied.trans (h b hinside)
    rw [settledBy_of_ended hended, hpoll, owned_halt hengaged, hapart.finishServe h]

theorem owned_teardown (h : e.Engaged) : (e.after .teardown).owned = e.ownedAfter .teardown := by
  show e.teardown.owned = (e.settledBy .teardown).owned
  have hended : (e.after .teardown).worker.isHeld = false := e.isHeld_halt
  rw [settledBy_of_ended hended, ← owned_halt h]
  rfl

/-- **After every operation of the life cycle**: the worker's holdings, with the block finished that
it was in if it was ended, and the cartridges silenced if the devices were brought up. -/
theorem Tended.owned_control (h : e.Tended) (hengaged : e.Engaged) {m : Move σ τ π η}
    (hm : m.isControl = true) : (e.after m).owned = e.ownedAfter m := by
  cases m with
  | init => exact owned_init hengaged
  | start => exact h.owned_start hengaged
  | stop => exact owned_stop hengaged
  | poll => exact owned_poll hengaged
  | teardown => exact owned_teardown hengaged
  | registerPull | registerPush | editCartridges | editProcessor | mix | interrupt | wakeUp
  | finishBlock | capture | codec | link | threads => exact Bool.noConfusion hm

/-- Interrupts, the mix, captured blocks and what devices do by themselves do not reach what the
worker owns. -/
theorem owned_outside (e : Engine σ τ π η) {m : Move σ τ π η} (hm : m.isOutside = true) :
    (e.after m).owned = e.owned := by
  cases m with
  | interrupt event => exact (e.apart_deliver event).owned
  | mix | capture | codec | link | threads => dsimp only [after, mapStream, owned]
  | init | start | stop | poll | teardown | registerPull | registerPush | editCartridges
  | editProcessor | wakeUp | finishBlock => exact Bool.noConfusion hm

end Moves

end Engine

end DuplexAudio
