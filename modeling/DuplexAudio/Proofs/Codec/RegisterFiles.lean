/-
  The registers behind the control bus.

  A bus has register files if a write that is acknowledged changes the one register that it names,
  and nothing else changes any.  What a read shows is left open.  So a clock may lock when it likes,
  and lose its lock again.

  1. **Faithful programs** — a program that only makes requests leaves the registers as its record
     says (`Faithful.exec`): replaying the record on the registers as they were gives the registers
     as they are.

  2. **The last write wins** (`replay_ofWrite`), and reads and pauses are as good as not done
     (`replay_watching`).

  3. The test board is such a bus (`RegisterFiles Board`).
-/
import DuplexAudio.Bench.Board
import DuplexAudio.Proofs.Codec.Record

namespace DuplexAudio

/-! ## Registers and records -/

namespace BusEvent

/-- The registers after an event: a write changes one of them. -/
def applyTo (files : Chip → UInt8 → UInt8) : BusEvent → Chip → UInt8 → UInt8
  | write address register value => fun chip k =>
    if address = chip.address ∧ k = register then value else files chip k
  | read _ _ _ | fault _ _ | pause _ => files

/-- Nothing is sent to a register, and nothing fails. -/
def Watches : BusEvent → Prop
  | read _ _ _ | pause _ => True
  | write _ _ _ | fault _ _ => False

end BusEvent

/-- Only reads that are answered, and pauses. -/
def Watching (events : List BusEvent) : Prop := ∀ e ∈ events, e.Watches

theorem Watching.append {first second : List BusEvent} (h : Watching first) (h' : Watching second) :
    Watching (first ++ second) := List.forall_mem_append.mpr ⟨h, h'⟩

/-- The registers after a list of events. -/
def replay (events : List BusEvent) (files : Chip → UInt8 → UInt8) : Chip → UInt8 → UInt8 :=
  events.foldl BusEvent.applyTo files

theorem replay_append (first second : List BusEvent) (files : Chip → UInt8 → UInt8) :
    replay (first ++ second) files = replay second (replay first files) := List.foldl_append

theorem replay_watching {events : List BusEvent} (h : Watching events)
    (files : Chip → UInt8 → UInt8) : replay events files = files := by
  induction events with
  | nil => rfl
  | cons e events ih =>
    obtain ⟨he, hevents⟩ := List.forall_mem_cons.mp h
    cases e with
    | read | pause => exact ih hevents
    | write | fault => exact he.elim

/-- What was written last to a register of a converter. -/
def lastValue? : List (UInt8 × UInt8 × UInt8) → Chip → UInt8 → Option UInt8
  | [], _, _ => none
  | (address, k, value) :: rest, chip, register =>
    (lastValue? rest chip register).or
      (if address = chip.address ∧ register = k then some value else none)

/-- **The last write wins**: induction on the writes. -/
theorem replay_ofWrite (writes : List (UInt8 × UInt8 × UInt8)) (files : Chip → UInt8 → UInt8)
    (chip : Chip) (register : UInt8) :
    replay (writes.map .ofWrite) files chip register =
      (lastValue? writes chip register).getD (files chip register) := by
  induction writes generalizing files with
  | nil => rfl
  | cons w rest ih =>
    obtain ⟨address, k, value⟩ := w
    have hfirst : (BusEvent.write address k value).applyTo files chip register =
        if address = chip.address ∧ register = k then value else files chip register := rfl
    show replay (rest.map .ofWrite) ((BusEvent.write address k value).applyTo files) chip register =
      ((lastValue? rest chip register).or
        (if address = chip.address ∧ register = k then some value else none)).getD
          (files chip register)
    rw [ih, hfirst]
    cases lastValue? rest chip register with
    | some later => rfl
    | none => split <;> rfl

/-! ## Buses with registers -/

/-- A bus behind which the two converters have register files. -/
class RegisterFiles (β : Type) [ControlBus β] where
  /-- What a register of a converter holds. -/
  registers : β → Chip → UInt8 → UInt8
  /-- A write changes its register if it is acknowledged, and nothing otherwise. -/
  registers_write : ∀ address register value b,
    registers (ControlBus.write address register value b).2 =
      match (ControlBus.write address register value b).1 with
      | .ok () => (BusEvent.write address register value).applyTo (registers b)
      | .error _ => registers b
  /-- A read changes no register, whatever it shows. -/
  registers_read : ∀ address register b,
    registers (ControlBus.read address register b).2 = registers b
  registers_pause : ∀ milliseconds b, registers (ControlBus.pause milliseconds b) = registers b

export RegisterFiles (registers)

namespace BusProgram

variable {β α γ : Type} [ControlBus β] [RegisterFiles β]

/-- From one point of a record to a later one, the registers have become what was recorded since. -/
def Followed (before after : Wire β) : Prop :=
  ∃ events, after.events = before.events ++ events ∧
    registers after.bus = replay events (registers before.bus)

/-- The registers follow what a program leaves in its record. -/
def Faithful (p : BusProgram β α) : Prop := ∀ wire, Followed wire (p wire).2

theorem Followed.refl (wire : Wire β) : Followed wire wire := ⟨[], (List.append_nil _).symm, rfl⟩

theorem Followed.trans {a b c : Wire β} (hab : Followed a b) (hbc : Followed b c) :
    Followed a c := by
  obtain ⟨first, hfirst, hregisters⟩ := hab
  obtain ⟨second, hsecond, hregisters'⟩ := hbc
  refine ⟨first ++ second, ?_, ?_⟩
  · rw [hsecond, hfirst, List.append_assoc]
  · rw [hregisters', hregisters, replay_append]

theorem Faithful.bind {p : BusProgram β α} {f : α → BusProgram β γ} (hp : Faithful p)
    (hf : ∀ a, Faithful (f a)) : Faithful (p >>= f) := by
  intro wire
  have hfirst := hp wire
  rw [bind_apply]
  cases (p wire).1 with
  | error e => exact hfirst
  | ok a => exact hfirst.trans (hf a (p wire).2)

theorem faithful_pure (a : α) : Faithful (pure a : BusProgram β α) := fun wire => .refl wire

theorem faithful_fail (e : CodecFailure) : Faithful (fail e : BusProgram β α) :=
  fun wire => .refl wire

theorem faithful_write (address register value : UInt8) :
    Faithful (write address register value : BusProgram β Unit) := by
  intro wire
  have hregisters := RegisterFiles.registers_write address register value wire.bus
  unfold write transact
  dsimp only
  cases hanswer : (ControlBus.write address register value wire.bus).1 with
  | ok a =>
    rw [hanswer] at hregisters
    exact ⟨[.write address register value], rfl, hregisters⟩
  | error fault =>
    rw [hanswer] at hregisters
    exact ⟨[.fault address fault], rfl, hregisters⟩

theorem faithful_read (address register : UInt8) :
    Faithful (read address register : BusProgram β UInt8) := by
  intro wire
  have hregisters := RegisterFiles.registers_read address register wire.bus
  unfold read transact
  dsimp only
  cases (ControlBus.read address register wire.bus).1 with
  | ok value => exact ⟨[.read address register value], rfl, hregisters⟩
  | error fault => exact ⟨[.fault address fault], rfl, hregisters⟩

theorem faithful_pause (milliseconds : Nat) : Faithful (pause milliseconds : BusProgram β Unit) :=
  fun wire => ⟨[.pause milliseconds], rfl, RegisterFiles.registers_pause milliseconds wire.bus⟩

theorem faithful_writeAll (writes : List (UInt8 × UInt8 × UInt8)) :
    Faithful (writeAll writes : BusProgram β Unit) := by
  induction writes with
  | nil => exact faithful_pure ()
  | cons w rest ih => exact (faithful_write _ _ _).bind fun _ => ih

/-- **The registers after a whole run** are what its record makes of the registers before. -/
theorem Faithful.exec {p : BusProgram β α} (h : Faithful p) (bus : β) :
    registers (p.exec bus).2.bus = replay (p.exec bus).2.events (registers bus) := by
  obtain ⟨events, hevents, hregisters⟩ := h { bus }
  have hall : (p.exec bus).2.events = events := hevents
  rw [hall]
  exact hregisters

end BusProgram

/-! ## The test board -/

theorem Chip.address_inj {chip chip' : Chip} : chip.address = chip'.address ↔ chip = chip' := by
  cases chip <;> cases chip' <;> decide

theorem Chip.ofAddress?_eq_some {address : UInt8} {chip : Chip}
    (h : Chip.ofAddress? address = some chip) : address = chip.address := by
  unfold ofAddress? at h
  split at h
  · next h0 =>
    cases h
    exact h0
  · split at h
    · next h1 =>
      cases h
      exact h1
    · cases h

namespace Bench.Board

/-- A transaction is answered by the converter at its address, or changes no register. -/
theorem transact_cases {α : Type} (b : Board) (address : UInt8) (f : Board → Chip → α × Board) :
    (∃ chip : Chip, address = chip.address ∧ b.transact address f =
        (.ok (f { b with transactions := b.transactions + 1 } chip).1,
          (f { b with transactions := b.transactions + 1 } chip).2)) ∨
      ∃ fault, b.transact address f =
        (.error fault, { b with transactions := b.transactions + 1 }) := by
  unfold transact
  dsimp only
  split
  · next fault _ => exact .inr ⟨fault, rfl⟩
  · split
    · next fault _ => exact .inr ⟨fault, rfl⟩
    · next chip hchip =>
      refine .inl ⟨chip, ?_, rfl⟩
      unfold answering at hchip
      split at hchip
      · cases hchip
      · split at hchip
        · next hchip' hsome =>
          cases hchip
          exact Chip.ofAddress?_eq_some hsome
        · cases hchip

theorem setRegister_registers (b : Board) (chip : Chip) (register value : UInt8) :
    (b.setRegister chip register value).registers =
      (BusEvent.write chip.address register value).applyTo b.registers := by
  funext k r
  show (if k = chip then (b.registers k).set register value else b.registers k) r =
    if chip.address = k.address ∧ r = register then value else b.registers k r
  by_cases hk : k = chip
  · rw [if_pos hk]
    simp only [hk, true_and]
    rfl
  · rw [if_neg hk, if_neg fun h => hk (Chip.address_inj.mp h.1).symm]

theorem show?_registers (b : Board) (chip : Chip) (register : UInt8) :
    (b.show? chip register).2.registers = b.registers := by
  unfold show?
  dsimp only
  split <;> rfl

instance : RegisterFiles Board where
  registers b := b.registers
  registers_write address register value b := by
    show (b.transact address _).2.registers = match (b.transact address _).1 with
      | .ok () => (BusEvent.write address register value).applyTo b.registers
      | .error _ => b.registers
    rcases b.transact_cases address fun b chip => ((), b.setRegister chip register value) with
      ⟨chip, haddress, h⟩ | ⟨fault, h⟩
    · rw [h, haddress]
      exact setRegister_registers _ chip register value
    · rw [h]
  registers_read address register b := by
    show (b.transact address _).2.registers = b.registers
    rcases b.transact_cases address fun b chip => b.show? chip register with
      ⟨chip, -, h⟩ | ⟨fault, h⟩
    · rw [h]
      exact show?_registers _ chip register
    · rw [h]
  registers_pause _ _ := rfl

end Bench.Board

end DuplexAudio
