/-
  What arrives while a device is being called.

  A call on a device comes with a list of interrupts, which the engine takes in one after the other.
  What the list does depends on the stream alone:

  1. a stream that does not listen ignores all of it (`absorb_of_disarmed`);
  2. a stream that listens goes on listening if no interrupt of the list reports an error
     (`Listening.absorb_of_no_error`);
  3. otherwise the first one that does is latched, the engine falls into a fault, and everything
     after it is ignored (`Listening.absorb_of_error`).

  `Meanwhile` says what follows for a call whose interrupts are not known: state, arming and latch
  stay together or change together, and everything else that a life cycle is about stays.  What no
  device reaches is as it was (`Kept`).
-/
import DuplexAudio.Proofs.Engine.Quiescence

namespace DuplexAudio

namespace Interrupt

/-- The direction of the error that an interrupt reports, if it reports one. -/
def error? (event : Interrupt) : Option Direction :=
  match event.flags.completed event.direction with
  | .error _ => some event.direction
  | .ok _ => none

/-- The direction of the first error among some interrupts, if one of them reports an error. -/
def firstError? (events : List Interrupt) : Option Direction := events.findSome? error?

theorem error?_eq_none_iff {event : Interrupt} :
    event.error? = none ↔ ∃ half, event.flags.completed event.direction = .ok half := by
  unfold error?
  cases event.flags.completed event.direction with
  | error failure =>
    constructor
    · intro h
      exact nomatch h
    · rintro ⟨_, h⟩
      exact nomatch h
  | ok half => exact ⟨fun _ => ⟨half, rfl⟩, fun _ => rfl⟩

theorem error?_eq_some_iff {event : Interrupt} {d : Direction} :
    event.error? = some d ↔
      (∃ failure, event.flags.completed event.direction = .error failure) ∧
        d = event.direction := by
  unfold error?
  cases event.flags.completed event.direction with
  | error failure =>
    constructor
    · intro h
      exact ⟨⟨failure, rfl⟩, (Option.some.inj h).symm⟩
    · rintro ⟨-, rfl⟩
      rfl
  | ok half =>
    constructor
    · intro h
      exact nomatch h
    · rintro ⟨⟨_, h⟩, -⟩
      exact nomatch h

end Interrupt

namespace Stream

/-- A completion, or an interrupt that reports nothing, leaves the stream listening. -/
theorem onInterrupt_of_no_error {s : Stream} {event : Interrupt} (harmed : s.armed = true)
    (hfault : s.fault = none) (h : event.error? = none) :
    (∀ error, (s.onInterrupt event).1 ≠ .fault error) ∧
      (s.onInterrupt event).2.armed = true ∧ (s.onInterrupt event).2.fault = none := by
  obtain ⟨half, hcompleted⟩ := Interrupt.error?_eq_none_iff.mp h
  have hfailure : s.failure? = none := by rw [failure?, hfault]; rfl
  unfold onInterrupt
  rw [if_neg (not_not_intro harmed), hfailure, hcompleted]
  cases half with
  | none => exact ⟨fun _ => InterruptOutcome.noConfusion, harmed, hfault⟩
  | some half =>
    refine ⟨fun error hout => ?_, harmed, hfault⟩
    dsimp only at hout
    generalize (s.pairs.complete event.direction half).1 = ready at hout
    cases ready with
    | none => exact InterruptOutcome.noConfusion hout
    | some half => exact InterruptOutcome.noConfusion hout

end Stream

namespace Engine

variable {σ τ π η : Type} {e e' e'' : Engine σ τ π η}

/-- **What one interrupt keeps, a list of them keeps.** -/
theorem absorb_invariant {P : Engine σ τ π η → Prop}
    (step : ∀ (e : Engine σ τ π η) (event : Interrupt), P e → P ((e.deliver event).2.record
      (.interrupt (e.deliver event).1 (e.deliver event).2.state)))
    (h : P e) (events : List Interrupt) : P (e.absorb events) := by
  induction events generalizing e with
  | nil => exact h
  | cons event events ih => exact ih (step e event h)

/-! ## A stream that does not listen -/

/-- A stream that does not listen ignores whatever arrives; only the journal shows it. -/
theorem absorb_of_disarmed (h : e.stream.armed = false) (events : List Interrupt) :
    e.absorb events =
      { e with journal := e.journal ++ events.map fun _ => .interrupt .idle e.state } := by
  induction events generalizing e with
  | nil =>
    show e = { e with journal := e.journal ++ [] }
    rw [List.append_nil]
  | cons event events ih =>
    have hstep : e.absorb (event :: events) =
        (e.record (.interrupt .idle e.state)).absorb events := by
      show ((e.deliver event).2.record
        (.interrupt (e.deliver event).1 (e.deliver event).2.state)).absorb events = _
      rw [deliver_of_disarmed h]
    have hrest := ih (e := e.record (.interrupt .idle e.state)) h
    rw [hstep, hrest]
    simp only [record, List.append_assoc, List.singleton_append, List.map_cons]

/-! ## A stream that listens -/

/-- The engine takes notice of interrupts, and no error is latched. -/
structure Listening (e : Engine σ τ π η) : Prop where
  armed : e.stream.armed = true
  fault : e.stream.fault = none

namespace Listening

theorem deliver_of_no_error (h : e.Listening) {event : Interrupt} (hevent : event.error? = none) :
    (e.deliver event).2.Listening ∧ (e.deliver event).2.state = e.state := by
  obtain ⟨hanswer, harmed, hfault⟩ := Stream.onInterrupt_of_no_error h.armed h.fault hevent
  unfold deliver
  generalize e.stream.onInterrupt event = out at hanswer harmed hfault
  obtain ⟨outcome, stream⟩ := out
  cases outcome with
  | idle => exact ⟨⟨harmed, hfault⟩, rfl⟩
  | pairReady half => exact ⟨⟨harmed, hfault⟩, rfl⟩
  | fault error => exact absurd rfl (hanswer error)

/-- An error is latched with its direction, and the engine is at fault unless it was stopped. -/
theorem deliver_of_error (h : e.Listening) {event : Interrupt} {d : Direction}
    (hevent : event.error? = some d) :
    e.deliver event =
      (.fault (.dma d), { e with stream := e.stream.latch d, state := e.state.afterError }) := by
  obtain ⟨⟨failure, hcompleted⟩, rfl⟩ := Interrupt.error?_eq_some_iff.mp hevent
  unfold deliver
  rw [Stream.onInterrupt_of_error h.armed h.fault hcompleted]

theorem absorb_of_no_error (h : e.Listening) {events : List Interrupt}
    (hevents : Interrupt.firstError? events = none) :
    (e.absorb events).Listening ∧ (e.absorb events).state = e.state := by
  induction events generalizing e with
  | nil => exact ⟨h, rfl⟩
  | cons event events ih =>
    have hnone := List.findSome?_eq_none_iff.mp hevents
    obtain ⟨hlistening, hstate⟩ := h.deliver_of_no_error (hnone event List.mem_cons_self)
    have hrest : Interrupt.firstError? events = none :=
      List.findSome?_eq_none_iff.mpr fun event' hmem => hnone event' (List.mem_cons_of_mem _ hmem)
    obtain ⟨hlast, hsame⟩ := ih (e := (e.deliver event).2.record
      (.interrupt (e.deliver event).1 (e.deliver event).2.state))
      ⟨hlistening.armed, hlistening.fault⟩ hrest
    exact ⟨hlast, hsame.trans hstate⟩

/-- **The first error counts.**  Induction on the list: what comes before the error leaves the
stream listening, and what comes after it is ignored. -/
theorem absorb_of_error (h : e.Listening) {events : List Interrupt} {d : Direction}
    (hevents : Interrupt.firstError? events = some d) :
    (e.absorb events).stream.armed = false ∧ (e.absorb events).stream.fault = some d ∧
      (e.absorb events).state = e.state.afterError := by
  induction events generalizing e with
  | nil => exact nomatch hevents
  | cons event events ih =>
    cases hevent : event.error? with
    | some d' =>
      have hfirst : Interrupt.firstError? (event :: events) = some d' := by
        unfold Interrupt.firstError?
        rw [List.findSome?_cons, hevent]
      obtain rfl : d' = d := Option.some.inj (hfirst.symm.trans hevents)
      have hstep : e.absorb (event :: events) = ((e.deliver event).2.record
          (.interrupt (e.deliver event).1 (e.deliver event).2.state)).absorb events := rfl
      rw [hstep, h.deliver_of_error hevent, absorb_of_disarmed (e := record _ _) rfl]
      refine ⟨rfl, ?_, rfl⟩
      show e.stream.fault.or (some d') = some d'
      rw [h.fault]
      rfl
    | none =>
      have hrest : Interrupt.firstError? events = some d := by
        unfold Interrupt.firstError? at hevents
        rwa [List.findSome?_cons, hevent] at hevents
      obtain ⟨hlistening, hstate⟩ := h.deliver_of_no_error hevent
      have hlast := ih (e := (e.deliver event).2.record
        (.interrupt (e.deliver event).1 (e.deliver event).2.state))
        ⟨hlistening.armed, hlistening.fault⟩ hrest
      have hafter : (e.deliver event).2.state.afterError = e.state.afterError :=
        congrArg Lifecycle.afterError hstate
      exact ⟨hlast.1, hlast.2.1, hlast.2.2.trans hafter⟩

/-- A call on the link during which no error is reported. -/
theorem answered_of_no_error (h : e.Listening) (call : LinkCall) {r : Reply τ LinkFailure}
    (hnone : Interrupt.firstError? r.interrupts = none) :
    (e.answered call r).2.Listening ∧ (e.answered call r).2.state = e.state := by
  unfold answered
  refine absorb_of_no_error ?_ hnone
  exact ⟨h.armed, h.fault⟩

/-- A call on the link during which errors are reported. -/
theorem answered_of_error (h : e.Listening) (call : LinkCall) {r : Reply τ LinkFailure}
    {d : Direction} (hfirst : Interrupt.firstError? r.interrupts = some d) :
    (e.answered call r).2.stream.armed = false ∧ (e.answered call r).2.stream.fault = some d ∧
      (e.answered call r).2.state = e.state.afterError := by
  unfold answered
  refine absorb_of_error ?_ hfirst
  exact ⟨h.armed, h.fault⟩

variable [Codec σ]

/-- A call on the codec during which no error is reported. -/
theorem callCodec_of_no_error (h : e.Listening) {call : CodecCall}
    (hnone : Interrupt.firstError? (Codec.call call e.codec).interrupts = none) :
    (e.callCodec call).2.Listening ∧ (e.callCodec call).2.state = e.state := by
  unfold callCodec
  refine absorb_of_no_error ?_ hnone
  exact ⟨h.armed, h.fault⟩

/-- A call on the codec during which errors are reported. -/
theorem callCodec_of_error (h : e.Listening) {call : CodecCall} {d : Direction}
    (hfirst : Interrupt.firstError? (Codec.call call e.codec).interrupts = some d) :
    (e.callCodec call).2.stream.armed = false ∧ (e.callCodec call).2.stream.fault = some d ∧
      (e.callCodec call).2.state = e.state.afterError := by
  unfold callCodec
  refine absorb_of_error ?_ hfirst
  exact ⟨h.armed, h.fault⟩

end Listening

/-! ## A call whose interrupts are not known -/

/-- No error is latched while the stream listens. -/
def Alert (e : Engine σ τ π η) : Prop := e.stream.armed = true → e.stream.fault = none

/-- What may have happened between two engines while a device was being called. -/
structure Meanwhile (e e' : Engine σ τ π η) : Prop where
  worker : e'.worker = e.worker
  initialized : e'.initialized = e.initialized
  /-- Nothing was reported, or an error ended the listening. -/
  heard : e.Alert →
    (e'.stream.armed = e.stream.armed ∧ e'.stream.fault = e.stream.fault ∧ e'.state = e.state) ∨
      (e.stream.armed = true ∧ e'.stream.armed = false ∧ e'.stream.fault ≠ none ∧
        e'.state = e.state.afterError)
  /-- A stream that does not listen hears nothing. -/
  disarmed : e.stream.armed = false → e'.stream = e.stream ∧ e'.state = e.state

namespace Meanwhile

theorem of_eq (hworker : e'.worker = e.worker) (hinitialized : e'.initialized = e.initialized)
    (hstream : e'.stream = e.stream) (hstate : e'.state = e.state) : Meanwhile e e' where
  worker := hworker
  initialized := hinitialized
  heard _ := .inl ⟨congrArg Stream.armed hstream, congrArg Stream.fault hstream, hstate⟩
  disarmed _ := ⟨hstream, hstate⟩

theorem refl (e : Engine σ τ π η) : Meanwhile e e := of_eq rfl rfl rfl rfl

theorem alert (h : Meanwhile e e') (halert : e.Alert) : e'.Alert := by
  intro harmed
  rcases h.heard halert with ⟨harmed', hfault, -⟩ | ⟨-, hoff, -⟩
  · exact hfault.trans (halert (harmed'.symm.trans harmed))
  · rw [hoff] at harmed
    exact absurd harmed Bool.false_ne_true

theorem trans (h : Meanwhile e e') (h' : Meanwhile e' e'') : Meanwhile e e'' where
  worker := h'.worker.trans h.worker
  initialized := h'.initialized.trans h.initialized
  heard halert := by
    rcases h.heard halert with ⟨harmed, hfault, hstate⟩ | ⟨harmed, hoff, hfault, hstate⟩
    · rw [← harmed, ← hfault, ← hstate]
      exact h'.heard (h.alert halert)
    · -- the error ended the listening, and nothing was heard after it
      obtain ⟨hstream, hsame⟩ := h'.disarmed hoff
      rw [← hstream] at hoff hfault
      exact .inr ⟨harmed, hoff, hfault, hsame.trans hstate⟩
  disarmed hoff := by
    obtain ⟨hstream, hstate⟩ := h.disarmed hoff
    have hoff' : e'.stream.armed = false := by rw [hstream]; exact hoff
    obtain ⟨hstream', hstate'⟩ := h'.disarmed hoff'
    exact ⟨hstream'.trans hstream, hstate'.trans hstate⟩

end Meanwhile

theorem meanwhile_deliver (e : Engine σ τ π η) (event : Interrupt) :
    Meanwhile e (e.deliver event).2 := by
  refine ⟨(e.interrupted_deliver event).worker, (e.calm_deliver event).initialized,
    fun halert => ?_, fun hoff => ?_⟩
  · by_cases harmed : e.stream.armed = true
    · have hlistening : e.Listening := ⟨harmed, halert harmed⟩
      cases hevent : event.error? with
      | none =>
        obtain ⟨hstill, hstate⟩ := hlistening.deliver_of_no_error hevent
        exact .inl ⟨hstill.armed.trans harmed.symm, hstill.fault.trans hlistening.fault.symm,
          hstate⟩
      | some d =>
        rw [hlistening.deliver_of_error hevent]
        refine .inr ⟨harmed, rfl, ?_, rfl⟩
        show e.stream.fault.or (some d) ≠ none
        rw [hlistening.fault]
        exact Option.some_ne_none d
    · rw [deliver_of_disarmed (Bool.eq_false_iff.mpr harmed)]
      exact .inl ⟨rfl, rfl, rfl⟩
  · rw [deliver_of_disarmed hoff]
    exact ⟨rfl, rfl⟩

theorem meanwhile_absorb (e : Engine σ τ π η) (events : List Interrupt) :
    Meanwhile e (e.absorb events) := by
  refine absorb_invariant (P := Meanwhile e) (fun e' event h => ?_) (.refl e) events
  exact (h.trans (e'.meanwhile_deliver event)).trans (.of_eq rfl rfl rfl rfl)

/-- What no device reaches, as it was: what the worker owns, the layout, and what the system
gives. -/
structure Kept (e e' : Engine σ τ π η) : Prop where
  processor : e'.processor = e.processor
  bay : e'.bay = e.bay
  config : e'.config = e.config
  threadRefusal : e'.threadRefusal = e.threadRefusal

theorem Kept.refl (e : Engine σ τ π η) : Kept e e := ⟨rfl, rfl, rfl, rfl⟩

theorem Kept.trans (h : Kept e e') (h' : Kept e' e'') : Kept e e'' where
  processor := h'.processor.trans h.processor
  bay := h'.bay.trans h.bay
  config := h'.config.trans h.config
  threadRefusal := h'.threadRefusal.trans h.threadRefusal

theorem kept_deliver (e : Engine σ τ π η) (event : Interrupt) : Kept e (e.deliver event).2 := by
  unfold deliver
  obtain ⟨outcome, stream⟩ := e.stream.onInterrupt event
  cases outcome <;> exact ⟨rfl, rfl, rfl, rfl⟩

theorem kept_absorb (e : Engine σ τ π η) (events : List Interrupt) : Kept e (e.absorb events) := by
  refine absorb_invariant (P := Kept e) (fun e' event h => ?_) (.refl e) events
  exact (h.trans (e'.kept_deliver event)).trans ⟨rfl, rfl, rfl, rfl⟩

/-- Whatever arrives, the devices are as they were. -/
theorem devices_absorb (e : Engine σ τ π η) (events : List Interrupt) :
    (e.absorb events).link = e.link ∧ (e.absorb events).codec = e.codec := by
  refine absorb_invariant (P := fun e' => e'.link = e.link ∧ e'.codec = e.codec)
    (fun e' event h => ?_) ⟨rfl, rfl⟩ events
  have hstep : (e'.deliver event).2.link = e'.link ∧ (e'.deliver event).2.codec = e'.codec := by
    unfold deliver
    obtain ⟨outcome, stream⟩ := e'.stream.onInterrupt event
    cases outcome <;> exact ⟨rfl, rfl⟩
  exact ⟨hstep.1.trans h.1, hstep.2.trans h.2⟩

section Codec

variable [Codec σ]

theorem meanwhile_callCodec (e : Engine σ τ π η) (call : CodecCall) :
    Meanwhile e (e.callCodec call).2 := by
  unfold callCodec
  refine Meanwhile.trans ?_ (meanwhile_absorb _ _)
  exact .of_eq rfl rfl rfl rfl

theorem kept_callCodec (e : Engine σ τ π η) (call : CodecCall) : Kept e (e.callCodec call).2 := by
  unfold callCodec
  refine Kept.trans ?_ (kept_absorb _ _)
  exact ⟨rfl, rfl, rfl, rfl⟩

theorem link_callCodec (e : Engine σ τ π η) (call : CodecCall) :
    (e.callCodec call).2.link = e.link := (devices_absorb _ _).1

/-- Whether the codec mutes or not, all that is left of it is a call on the codec, and perhaps a
record in the journal. -/
theorem mute_eq (e : Engine σ τ π η) (mute : Bool) :
    e.mute mute = (e.callCodec (.setMute mute)).2 ∨
      ∃ cause, e.mute mute = (e.callCodec (.setMute mute)).2.log (.muteFailed mute cause) := by
  unfold Engine.mute
  split
  · next hresult =>
    rw [hresult]
    exact .inl rfl
  · next cause _ hresult =>
    rw [hresult]
    exact .inr ⟨cause, rfl⟩

/-- What became of stream and state is the codec's doing, whether or not it muted. -/
theorem mute_listening (e : Engine σ τ π η) (mute : Bool) :
    (e.mute mute).stream = (e.callCodec (.setMute mute)).2.stream ∧
      (e.mute mute).state = (e.callCodec (.setMute mute)).2.state := by
  rcases e.mute_eq mute with hmute | ⟨cause, hmute⟩
  · rw [hmute]
    exact ⟨rfl, rfl⟩
  · rw [hmute]
    exact ⟨rfl, rfl⟩

theorem meanwhile_mute (e : Engine σ τ π η) (mute : Bool) : Meanwhile e (e.mute mute) := by
  have hcall := e.meanwhile_callCodec (.setMute mute)
  rcases e.mute_eq mute with hmute | ⟨cause, hmute⟩
  · rw [hmute]
    exact hcall
  · rw [hmute]
    exact hcall.trans (.of_eq rfl rfl rfl rfl)

theorem kept_mute (e : Engine σ τ π η) (mute : Bool) : Kept e (e.mute mute) := by
  have hcall := e.kept_callCodec (.setMute mute)
  rcases e.mute_eq mute with hmute | ⟨cause, hmute⟩
  · rw [hmute]
    exact hcall
  · rw [hmute]
    exact hcall.trans ⟨rfl, rfl, rfl, rfl⟩

theorem link_mute (e : Engine σ τ π η) (mute : Bool) : (e.mute mute).link = e.link := by
  have hcall := e.link_callCodec (.setMute mute)
  rcases e.mute_eq mute with hmute | ⟨cause, hmute⟩
  · rw [hmute]
    exact hcall
  · rw [hmute]
    exact hcall

end Codec

theorem meanwhile_answered (e : Engine σ τ π η) (call : LinkCall) (r : Reply τ LinkFailure) :
    Meanwhile e (e.answered call r).2 := by
  unfold answered
  refine Meanwhile.trans ?_ (meanwhile_absorb _ _)
  exact .of_eq rfl rfl rfl rfl

theorem kept_answered (e : Engine σ τ π η) (call : LinkCall) (r : Reply τ LinkFailure) :
    Kept e (e.answered call r).2 := by
  unfold answered
  refine Kept.trans ?_ (kept_absorb _ _)
  exact ⟨rfl, rfl, rfl, rfl⟩

theorem kept_configureLink [SerialLink τ] (e : Engine σ τ π η) : Kept e e.configureLink.2 :=
  e.kept_answered _ _

theorem meanwhile_configureLink [SerialLink τ] (e : Engine σ τ π η) :
    Meanwhile e e.configureLink.2 := e.meanwhile_answered _ _

theorem meanwhile_startLink [SerialLink τ] (e : Engine σ τ π η) :
    Meanwhile e e.startLink.2 := e.meanwhile_answered _ _

theorem devices_answered (e : Engine σ τ π η) (call : LinkCall) (r : Reply τ LinkFailure) :
    (e.answered call r).2.link = r.device ∧ (e.answered call r).2.codec = e.codec :=
  devices_absorb _ _

end Engine

end DuplexAudio
