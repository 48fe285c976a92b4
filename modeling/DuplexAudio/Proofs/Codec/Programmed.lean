/-
  What a configuration leaves in the registers, and who drives which slot.

  1. **All registers at once** — after a configuration that succeeded, a register holds what the list
     of writes says last about it, and what it held before if the list does not mention it
     (`registers_configure`).  Polls write nothing, so it does not matter how long the clocks took.

  2. **Settings and slots** are read off that list (`programmed`): the seven settings of both
     converters, and eight slot registers that send eight channels to eight slots.

  3. **Again** — since the list says the same the second time, a second configuration that succeeds
     changes no register (`registers_again`).  On a bus that fails no transaction it does succeed,
     unless a clock loses its lock.  `programmed_for_good` has all of this.

  4. The slots are dealt out in turn: channel `c` of converter `k` has slot `2 * c + k`.  A converter
     does not drive four slots in a row (`slots_dealt_in_turn`).
-/
import Mathlib.Data.Set.Function
import DuplexAudio.Proofs.Codec.Unfailing

namespace DuplexAudio

/-! ## Slots -/

/-- The slot that the value of a slot register names, in bits 7 to 4. -/
def slotOf (value : UInt8) : Nat := (value >>> 4).toNat

/-- The channel that the value of a slot register names, in bits 3 to 0. -/
def channelOf (value : UInt8) : Nat := (value &&& 0x0f).toNat

/-- The slot register of a channel. -/
def slotRegister (c : Fin 4) : UInt8 := Register.slots.get (c.cast rfl)

/-- Converters are counted from zero. -/
def Chip.number : Chip → Nat
  | chip0 => 0
  | chip1 => 1

theorem Chip.number_lt (chip : Chip) : chip.number < 2 := by cases chip <;> decide

theorem Chip.number_inj {chip chip' : Chip} (h : chip.number = chip'.number) : chip = chip' := by
  cases chip <;> cases chip'
  · rfl
  · cases h
  · cases h
  · rfl

theorem Chip.exists_number {k : Nat} (hk : k < 2) : ∃ chip : Chip, chip.number = k := by
  rcases Nat.le_one_iff_eq_zero_or_eq_one.mp (Nat.le_of_lt_succ hk) with rfl | rfl
  · exact ⟨chip0, rfl⟩
  · exact ⟨chip1, rfl⟩

/-- Slots that are dealt out in turn are all eight slots, each once. -/
theorem bijOn_dealt {f : Chip × Fin 4 → Nat} (hf : ∀ chip c, f (chip, c) = 2 * c + chip.number) :
    Set.BijOn f Set.univ {slot | slot < 8} := by
  refine ⟨?_, ?_, ?_⟩
  · rintro ⟨chip, c⟩ -
    have hchip := chip.number_lt
    show f (chip, c) < 8
    rw [hf]
    omega
  · rintro ⟨chip, c⟩ - ⟨chip', c'⟩ - h
    have hchip := chip.number_lt
    have hchip' := chip'.number_lt
    rw [hf, hf] at h
    have hc : c = c' := Fin.ext (by omega)
    have hnumber : chip = chip' := Chip.number_inj (by omega)
    rw [hc, hnumber]
  · intro slot hslot
    have hslot : slot < 8 := hslot
    obtain ⟨chip, hchip⟩ := Chip.exists_number (Nat.mod_lt slot (by decide : 0 < 2))
    refine ⟨(chip, ⟨slot / 2, by omega⟩), Set.mem_univ _, ?_⟩
    rw [hf, hchip]
    exact Nat.div_add_mod slot 2

/-! ## What is written -/

theorem lastValue?_eq_none {writes : List (UInt8 × UInt8 × UInt8)} {register : UInt8}
    (h : register ∉ writes.map (·.2.1)) (chip : Chip) : lastValue? writes chip register = none := by
  induction writes with
  | nil => rfl
  | cons w rest ih =>
    obtain ⟨address, k, value⟩ := w
    obtain ⟨hfirst, hrest⟩ : register ≠ k ∧ register ∉ rest.map (·.2.1) :=
      not_or.mp fun hor => h (List.mem_cons.mpr hor)
    unfold lastValue?
    rw [ih hrest, if_neg fun hsame => hfirst hsame.2]
    rfl

namespace CapturePair

open BusProgram

/-- What a configuration sets a register of a converter to, if it sets it. -/
def setting? (chip : Chip) (register : UInt8) : Option UInt8 :=
  lastValue? (clockWrites ++ streamWrites) chip register

/-- The registers that are set, but for the slots. -/
def settingRegisters : List UInt8 :=
  [Register.power, Register.clock, Register.clock2, Register.clock3, Register.blockPower,
    Register.serial, Register.misc]

theorem setting?_eq_none {chip : Chip} {register : UInt8} (hsettings : register ∉ settingRegisters)
    (hslots : register ∉ Register.slots) : setting? chip register = none := by
  have hall : (clockWrites ++ streamWrites).map (·.2.1) ⊆ settingRegisters ++ Register.slots := by
    decide
  exact lastValue?_eq_none
    (fun hregister => (List.mem_append.mp (hall hregister)).elim hsettings hslots) chip

/-- The value of each slot register, as the slot and the channel that it names. -/
theorem setting?_slot (chip : Chip) (c : Fin 4) : ∃ value,
    setting? chip (slotRegister c) = some value ∧ slotOf value = 2 * c + chip.number ∧
      channelOf value = c := by
  have hvalue : ∀ c : Fin 4, ∃ value ∈ chip.slotMap, setting? chip (slotRegister c) = some value ∧
      slotOf value = 2 * c + chip.number ∧ channelOf value = c := by
    cases chip <;> decide
  obtain ⟨value, -, h⟩ := hvalue c
  exact ⟨value, h⟩

/-- The registers of both converters after a configuration: their settings and slots, and all others
as they were before. -/
structure Programmed (before after : Chip → UInt8 → UInt8) : Prop where
  power : ∀ chip, after chip Register.power = 0x01
  clock : ∀ chip, after chip Register.clock = 0x41
  clock2 : ∀ chip, after chip Register.clock2 = 0x00
  clock3 : ∀ chip, after chip Register.clock3 = 0x00
  serial : ∀ chip, after chip Register.serial = 0x48
  blockPower : ∀ chip, after chip Register.blockPower = 0x0f
  misc : ∀ chip, after chip Register.misc = 0x04
  others : ∀ chip register, register ∉ settingRegisters → register ∉ Register.slots →
    after chip register = before chip register
  channels : ∀ chip c, channelOf (after chip (slotRegister c)) = c
  /-- Eight channels to eight slots, each to one of its own. -/
  slots : Set.BijOn (fun x : Chip × Fin 4 => slotOf (after x.1 (slotRegister x.2))) Set.univ
    {slot | slot < 8}

theorem programmed (before : Chip → UInt8 → UInt8) :
    Programmed before fun chip register => (setting? chip register).getD (before chip register) where
  power chip := by cases chip <;> rfl
  clock chip := by cases chip <;> rfl
  clock2 chip := by cases chip <;> rfl
  clock3 chip := by cases chip <;> rfl
  serial chip := by cases chip <;> rfl
  blockPower chip := by cases chip <;> rfl
  misc chip := by cases chip <;> rfl
  others chip register hsettings hslots := by
    rw [setting?_eq_none hsettings hslots]
    rfl
  channels chip c := by
    obtain ⟨value, hvalue, -, hchannel⟩ := setting?_slot chip c
    rw [hvalue]
    exact hchannel
  slots := by
    refine bijOn_dealt fun chip c => ?_
    obtain ⟨value, hvalue, hslot, -⟩ := setting?_slot chip c
    rw [hvalue]
    exact hslot

variable {β : Type} [ControlBus β]

/-! ## Registers after a configuration -/

theorem replay_scripted {events : List BusEvent} (h : Scripted events)
    (files : Chip → UInt8 → UInt8) (chip : Chip) (register : UInt8) :
    replay events files chip register = (setting? chip register).getD (files chip register) := by
  obtain @⟨polls, v0, v1, hpolls, -, -⟩ := h
  rw [replay_append, replay_append,
    replay_watching (hpolls.append (watching_clockReads v0 v1)), ← replay_append]
  unfold clockSetup streamSetup
  rw [← List.map_append]
  exact replay_ofWrite (clockWrites ++ streamWrites) files chip register

section Registers

variable [RegisterFiles β]

/-- **The registers after a configuration that succeeded.** -/
theorem registers_configure {p : CapturePair β} (h : (Codec.configure p).result = .ok ())
    (chip : Chip) (register : UInt8) :
    registers (Codec.configure p).device.bus chip register =
      (setting? chip register).getD (registers p.bus chip register) := by
  have hconfigured := leaves_configure.exec p.bus
  have hresult : (configureProgram.exec p.bus).1 = .ok () := h
  rw [hresult] at hconfigured
  show registers (configureProgram.exec p.bus).2.bus chip register = _
  rw [faithful_configure.exec p.bus, replay_scripted hconfigured.scripted_of_ok]

/-- A configuration of what has been configured, when it succeeds, changes no register. -/
theorem registers_again {p p' : CapturePair β} (h : (Codec.configure p).result = .ok ())
    (hsame : registers p'.bus = registers (Codec.configure p).device.bus)
    (h' : (Codec.configure p').result = .ok ()) :
    registers (Codec.configure p').device.bus = registers (Codec.configure p).device.bus := by
  funext chip register
  rw [registers_configure h', hsame, registers_configure h]
  cases setting? chip register <;> rfl

/-- **What a configuration leaves, it leaves for good.**  For every bus with register files, whatever
they hold and however the clocks behave, after a configuration that succeeded
(1) both converters have their settings, their eight channels are sent to the eight slots, each to one
    of its own and channel `c` by slot register `c`, and all other registers are as they were;
(2) a configuration that starts from these registers and succeeds leaves the same registers;
(3) if the bus fails no transaction, running it again at once succeeds and leaves the same registers,
    or else the clocks did not lock in time, which takes a clock that shows no lock. -/
theorem programmed_for_good {p : CapturePair β} (h : (Codec.configure p).result = .ok ()) :
    let q := (Codec.configure p).device
    Programmed (registers p.bus) (registers q.bus) ∧
      (∀ p' : CapturePair β, registers p'.bus = registers q.bus →
        (Codec.configure p').result = .ok () →
          registers (Codec.configure p').device.bus = registers q.bus) ∧
      ∀ (P : β → Prop) (L : UInt8 → Prop), Unfailing P L → P q.bus →
        (Codec.configure q).result = .ok () ∧
            registers (Codec.configure q).device.bus = registers q.bus ∨
          (Codec.configure q).result = .error .clockLockTimeout ∧ ∃ value, L value ∧ ¬Locked value := by
  intro q
  refine ⟨?_, fun p' hsame h' => registers_again h hsame h', fun P L hunfailing hq => ?_⟩
  · have hafter : registers q.bus =
        fun chip register => (setting? chip register).getD (registers p.bus chip register) := by
      funext chip register
      exact registers_configure h chip register
    rw [hafter]
    exact programmed _
  · rcases hunfailing.ends_configure.exec hq with hok | hlate
    · exact .inl ⟨hok, registers_again h rfl hok⟩
    · exact .inr hlate

/-- Every register of this board holds its own number, and its clocks lock late. -/
def lateBoard : Bench.Board where
  registers _ register := register
  lockAfter chip := match chip with
    | .chip0 => some 3
    | .chip1 => some 1

theorem settled_lateBoard : (Codec.configure (CapturePair.mk lateBoard)).device.bus.Settled where
  faults := by decide +kernel
  present := by decide +kernel
  locked
    | .chip0 => ⟨3, by decide +kernel, by decide +kernel⟩
    | .chip1 => ⟨1, by decide +kernel, by decide +kernel⟩

/-- The late board is configured twice. -/
theorem programmed_for_good_late : ∃ q, (Codec.configure (CapturePair.mk lateBoard)).device = q ∧
    (Codec.configure (CapturePair.mk lateBoard)).result = .ok () ∧
    registers q.bus .chip1 Register.misc = 0x04 ∧ registers q.bus .chip1 0x20 = 0x20 ∧
    (Codec.configure q).result = .ok () ∧
    registers (Codec.configure q).device.bus = registers q.bus := by
  have hok : (Codec.configure (CapturePair.mk lateBoard)).result = .ok () := by decide +kernel
  obtain ⟨hprogrammed, -, hagain⟩ := programmed_for_good hok
  have hother := hprogrammed.others .chip1 0x20 (by decide) (by decide)
  have hnumber : registers lateBoard .chip1 0x20 = 0x20 := rfl
  rcases hagain _ _ Bench.Board.unfailing_settled settled_lateBoard with
    ⟨hok', hsame⟩ | ⟨-, value, h, hnot⟩
  · exact ⟨_, rfl, hok, hprogrammed.misc .chip1, hother.trans hnumber, hok', hsame⟩
  · exact absurd h hnot

/-- **The slots are dealt out in turn.**  After a configuration that succeeded, slot register `c` of
converter `k` sends channel `c` to slot `2 * c + k`.  This is the slot `4 * k + c`, as it would be if
each converter drove four slots in a row, for the first channel of the first converter and the last
of the second only. -/
theorem slots_dealt_in_turn {p : CapturePair β} (h : (Codec.configure p).result = .ok ())
    (chip : Chip) (c : Fin 4) :
    let value := registers (Codec.configure p).device.bus chip (slotRegister c)
    channelOf value = c ∧ slotOf value = 2 * c + chip.number ∧
      (slotOf value = 4 * chip.number + c ↔ (c : Nat) = 3 * chip.number) := by
  intro value
  obtain ⟨written, hwritten, hslot, hchannel⟩ := setting?_slot chip c
  have hvalue : value = written := by
    show registers (Codec.configure p).device.bus chip (slotRegister c) = written
    rw [registers_configure h, hwritten]
    rfl
  have hc := c.isLt
  have hchip := chip.number_lt
  rw [hvalue]
  refine ⟨hchannel, hslot, ?_⟩
  rw [hslot]
  omega

/-- On a board as it comes, the second channel of the first converter has the third slot. -/
theorem slots_dealt_in_turn_fresh :
    (Codec.configure (CapturePair.mk ({} : Bench.Board))).result = .ok () ∧
      slotOf (registers (Codec.configure (CapturePair.mk ({} : Bench.Board))).device.bus .chip0
        (slotRegister 1)) = 2 := by
  have hok : (Codec.configure (CapturePair.mk ({} : Bench.Board))).result = .ok () := by
    decide +kernel
  obtain ⟨-, hslot, -⟩ := slots_dealt_in_turn hok .chip0 1
  exact ⟨hok, hslot⟩

/-- It is not so that, whenever a configuration succeeded, each converter drives four slots in a
row. -/
theorem not_slots_in_a_row :
    ¬∀ p : CapturePair Bench.Board, (Codec.configure p).result = .ok () → ∀ (chip : Chip) (c : Fin 4),
      slotOf (registers (Codec.configure p).device.bus chip (slotRegister c)) =
        4 * chip.number + c := by
  intro hrow
  have hok : (Codec.configure (CapturePair.mk ({} : Bench.Board))).result = .ok () := by
    decide +kernel
  have hslot := hrow _ hok .chip0 1
  rw [registers_configure hok] at hslot
  revert hslot
  decide

end Registers

end CapturePair

end DuplexAudio
