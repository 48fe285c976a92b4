/-
  What a program on the control bus leaves in its record.

  `Leaves p R` says, of every bus and every record so far, that `p` only adds to the record, and that
  `R` relates what it answers to what it adds.  Each request has one such fact, `Leaves.bind` composes
  them along a program, and no proof about a whole program opens a request again.

  Nothing is assumed about the bus: it may fail any transaction with any fault, and answer a read
  with any value.  What a fault does is the same everywhere, and is said by `Breaks`: nothing is done
  after it, and the program answers what the fault is classified as.
-/
import DuplexAudio.Codec.ControlBus

namespace DuplexAudio

/-- The record of a write that was acknowledged. -/
def BusEvent.ofWrite : UInt8 × UInt8 × UInt8 → BusEvent
  | (address, register, value) => .write address register value

namespace BusProgram

variable {β α γ : Type}

/-- On every bus, a program adds to the record, and what it answers is related to what it adds. -/
def Leaves (p : BusProgram β α) (R : Except CodecFailure α → List BusEvent → Prop) : Prop :=
  ∀ wire : Wire β, ∃ events, (p wire).2.events = wire.events ++ events ∧ R (p wire).1 events

/-- A transaction failed after `done`: it was the last, and its fault is what is answered. -/
def Breaks (P : List BusEvent → Prop) (result : Except CodecFailure α) (events : List BusEvent) :
    Prop :=
  ∃ done address fault, P done ∧ events = done ++ [.fault address fault] ∧
    result = .error (.ofBusFault fault)

namespace Breaks

variable {P Q : List BusEvent → Prop} {result : Except CodecFailure α} {events : List BusEvent}

theorem mono (h : Breaks P result events) (hPQ : ∀ done, P done → Q done) :
    Breaks Q result events := by
  obtain ⟨done, address, fault, hdone, hevents, hresult⟩ := h
  exact ⟨done, address, fault, hPQ done hdone, hevents, hresult⟩

/-- What was done before is part of what was done before the fault. -/
theorem after {first second : List BusEvent} (h : Breaks P result second)
    (hPQ : ∀ done, P done → Q (first ++ done)) : Breaks Q result (first ++ second) := by
  obtain ⟨done, address, fault, hdone, rfl, hresult⟩ := h
  exact ⟨first ++ done, address, fault, hPQ done hdone, (List.append_assoc _ _ _).symm, hresult⟩

/-- The answer is a failure, and so it does not depend on what a success would give. -/
theorem of_error {e : CodecFailure} (h : Breaks P (.error e : Except CodecFailure α) events) :
    Breaks P (.error e : Except CodecFailure γ) events := by
  obtain ⟨done, address, fault, hdone, hevents, hresult⟩ := h
  cases hresult
  exact ⟨done, address, fault, hdone, hevents, rfl⟩

theorem not_ok {a : α} (h : Breaks P (.ok a) events) : False := by
  obtain ⟨_, _, _, _, _, hresult⟩ := h
  cases hresult

end Breaks

/-! ## Composition -/

section Composition

variable {R S : Except CodecFailure α → List BusEvent → Prop} {p : BusProgram β α}

theorem Leaves.mono (h : Leaves p R) (hRS : ∀ result events, R result events → S result events) :
    Leaves p S := by
  intro wire
  obtain ⟨events, hevents, hR⟩ := h wire
  exact ⟨events, hevents, hRS _ _ hR⟩

theorem bind_apply (p : BusProgram β α) (f : α → BusProgram β γ) (wire : Wire β) :
    (p >>= f) wire = match (p wire).1 with
      | .ok a => f a (p wire).2
      | .error e => (.error e, (p wire).2) := by
  show ExceptT.bindCont f (p wire).1 (p wire).2 = _
  cases (p wire).1 <;> rfl

/-- **One program after another**: a failure of the first is the answer, and otherwise the record of
the second follows that of the first. -/
theorem Leaves.bind {f : α → BusProgram β γ} {T : Except CodecFailure γ → List BusEvent → Prop}
    (hp : Leaves p R) (herror : ∀ e events, R (.error e) events → T (.error e) events)
    (hok : ∀ a first, R (.ok a) first →
      Leaves (f a) fun result second => T result (first ++ second)) : Leaves (p >>= f) T := by
  intro wire
  obtain ⟨first, hfirst, hR⟩ := hp wire
  rw [bind_apply]
  cases hresult : (p wire).1 with
  | error e =>
    rw [hresult] at hR
    exact ⟨first, hfirst, herror e first hR⟩
  | ok a =>
    rw [hresult] at hR
    obtain ⟨second, hsecond, hT⟩ := hok a first hR (p wire).2
    refine ⟨first ++ second, ?_, hT⟩
    rw [hsecond, hfirst, List.append_assoc]

/-- What a whole run did is what the program leaves. -/
theorem Leaves.exec (h : Leaves p R) (bus : β) : R (p.exec bus).1 (p.exec bus).2.events := by
  obtain ⟨events, hevents, hR⟩ := h { bus }
  have hall : (p.exec bus).2.events = events := hevents
  rw [hall]
  exact hR

end Composition

/-! ## Requests -/

theorem leaves_pure (a : α) :
    Leaves (pure a : BusProgram β α) fun result events => result = .ok a ∧ events = [] :=
  fun _ => ⟨[], (List.append_nil _).symm, rfl, rfl⟩

theorem leaves_fail (e : CodecFailure) :
    Leaves (fail e : BusProgram β α) fun result events => result = .error e ∧ events = [] :=
  fun _ => ⟨[], (List.append_nil _).symm, rfl, rfl⟩

theorem leaves_transact (address : UInt8) (request : β → Except BusFault α × β)
    (done : α → BusEvent) :
    Leaves (transact address request done) fun result events =>
      (∃ a, result = .ok a ∧ events = [done a]) ∨ Breaks (· = []) result events := by
  intro wire
  unfold transact
  dsimp only
  cases hanswer : (request wire.bus).1 with
  | ok a => exact ⟨[done a], rfl, .inl ⟨a, rfl, rfl⟩⟩
  | error fault =>
    exact ⟨[.fault address fault], rfl, .inr ⟨[], address, fault, rfl, rfl, rfl⟩⟩

variable [ControlBus β]

theorem leaves_write (address register value : UInt8) :
    Leaves (write address register value : BusProgram β Unit) fun result events =>
      result = .ok () ∧ events = [.write address register value] ∨ Breaks (· = []) result events := by
  refine (leaves_transact _ _ _).mono fun result events h => ?_
  rcases h with ⟨_, hresult, hevents⟩ | hbreaks
  · exact .inl ⟨hresult, hevents⟩
  · exact .inr hbreaks

theorem leaves_read (address register : UInt8) :
    Leaves (read address register : BusProgram β UInt8) fun result events =>
      (∃ value, result = .ok value ∧ events = [.read address register value]) ∨
        Breaks (· = []) result events :=
  leaves_transact _ _ _

theorem leaves_pause (milliseconds : Nat) :
    Leaves (pause milliseconds : BusProgram β Unit) fun result events =>
      result = .ok () ∧ events = [.pause milliseconds] :=
  fun _ => ⟨_, rfl, rfl, rfl⟩

/-- **A list of writes** is made to its end, or up to a fault: induction on the list. -/
theorem leaves_writeAll (writes : List (UInt8 × UInt8 × UInt8)) :
    Leaves (writeAll writes : BusProgram β Unit) fun result events =>
      result = .ok () ∧ events = writes.map .ofWrite ∨
        Breaks (· <+: writes.map .ofWrite) result events := by
  induction writes with
  | nil => exact (leaves_pure ()).mono fun _ _ h => .inl h
  | cons w rest ih =>
    obtain ⟨address, register, value⟩ := w
    refine (leaves_write address register value).bind ?_ ?_
    · rintro e events (⟨hresult, -⟩ | hbreaks)
      · cases hresult
      · refine .inr (hbreaks.mono ?_)
        rintro _ rfl
        exact List.nil_prefix
    · rintro _ first (⟨-, rfl⟩ | hbreaks)
      · refine ih.mono ?_
        rintro result second (⟨hresult, rfl⟩ | hbreaks)
        · exact .inl ⟨hresult, rfl⟩
        · exact .inr (hbreaks.after fun done hdone => (List.prefix_cons_inj _).mpr hdone)
      · exact hbreaks.not_ok.elim

end BusProgram

end DuplexAudio
