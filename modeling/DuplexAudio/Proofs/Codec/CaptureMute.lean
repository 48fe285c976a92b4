/-
  Muting the capture reaches both converters.

  A converter is muted by reading a register, changing one bit of it and writing it back.  Either
  transaction may fail, on either converter, and the second converter is to be muted also if the
  first was not.

  1. **One bit** — what is written back differs from what was read in bit 2 only
     (`testBit_withMute`).

  2. **The first failure** — `verdict` reads off a record what should be answered: success if
     nothing failed, and otherwise what the first fault is classified as.  A record that is
     continued keeps its verdict if that was a failure (`verdict_append_of_error`).

  3. **One converter** — an attempt is broken at its read or at its write, and has then changed
     nothing, or it is carried out (`Attempted`).  Registers of the other converter do not change
     (`muteChip_attempted`).

  `capture_mute_reaches_both` puts the two attempts together, for every bus with registers, whatever
  it fails.  What is assumed is that a read shows what the register holds (`PlainReads`).
-/
import DuplexAudio.Proofs.Codec.Configuration

namespace DuplexAudio

/-! ## What is answered -/

/-- The fault of a transaction that failed. -/
def BusEvent.fault? : BusEvent → Option BusFault
  | fault _ kind => some kind
  | write _ _ _ | read _ _ _ | pause _ => none

/-- What a record says should be answered: its first fault, if it has one. -/
def verdict (events : List BusEvent) : Except CodecFailure Unit :=
  match events.findSome? BusEvent.fault? with
  | none => .ok ()
  | some fault => .error (.ofBusFault fault)

theorem verdict_append_of_ok {first : List BusEvent} (h : verdict first = .ok ())
    (second : List BusEvent) : verdict (first ++ second) = verdict second := by
  have hnone : first.findSome? BusEvent.fault? = none := by
    unfold verdict at h
    split at h
    · assumption
    · cases h
  unfold verdict
  rw [List.findSome?_append, hnone, Option.none_or]

theorem verdict_append_of_error {first : List BusEvent} {e : CodecFailure}
    (h : verdict first = .error e) (second : List BusEvent) :
    verdict (first ++ second) = .error e := by
  unfold verdict at h ⊢
  rw [List.findSome?_append]
  cases hfirst : first.findSome? BusEvent.fault? with
  | none =>
    rw [hfirst] at h
    cases h
  | some fault =>
    rw [hfirst] at h
    exact h

namespace CapturePair

open BusProgram

/-! ## One bit -/

/-- **Only bit 2 changes**: it is cleared to mute, and set to unmute. -/
theorem testBit_withMute (mute : Bool) (misc : UInt8) (i : Nat) :
    (withMute mute misc).toNat.testBit i = if i = 2 then !mute else misc.toNat.testBit i := by
  have hflag : unmuteFlag.toNat = 2 ^ 2 := rfl
  cases mute with
  | false =>
    show (misc ||| unmuteFlag).toNat.testBit i = if i = 2 then true else misc.toNat.testBit i
    rw [UInt8.toNat_or, hflag, Nat.testBit_or, Nat.testBit_two_pow]
    by_cases hi : i = 2
    · simp [hi]
    · simp [hi, Ne.symm hi]
  | true =>
    show (misc &&& ~~~unmuteFlag).toNat.testBit i = if i = 2 then false else misc.toNat.testBit i
    rw [UInt8.toNat_and, Nat.testBit_and]
    by_cases hi : i < 8
    · have hbit : ∀ i < 8, (~~~unmuteFlag).toNat.testBit i = !decide (i = 2) := by decide
      rw [hbit i hi]
      by_cases h2 : i = 2
      · simp [h2]
      · simp [h2]
    · have hbig : misc.toNat.testBit i = false := by
        refine Nat.testBit_lt_two_pow (Nat.lt_of_lt_of_le misc.toNat_lt ?_)
        exact Nat.pow_le_pow_right (by decide) (Nat.not_lt.mp hi)
      have h2 : i ≠ 2 := by omega
      simp [hbig, h2]

/-! ## One converter -/

/-- A bus on which a read shows what the register holds.  The clock register is left out, since its
lock flag is not stored there. -/
class PlainReads (β : Type) [ControlBus β] [RegisterFiles β] : Prop where
  read_eq : ∀ (chip : Chip) (register value : UInt8) (b : β), register ≠ Register.clock →
    (ControlBus.read chip.address register b).1 = .ok value → value = registers b chip register

/-- How an attempt to mute a converter ends: what was done, and the converter's registers. -/
inductive Attempted (mute : Bool) (chip : Chip) (before : UInt8 → UInt8) :
    List BusEvent → (UInt8 → UInt8) → Prop
  /-- The read failed. -/
  | unread (fault : BusFault) : Attempted mute chip before [.fault chip.address fault] before
  /-- The write failed. -/
  | unwritten (fault : BusFault) : Attempted mute chip before
      [.read chip.address Register.misc (before Register.misc), .fault chip.address fault] before
  /-- Both succeeded, and one bit of one register has changed. -/
  | carriedOut {after : UInt8 → UInt8} :
      (∀ register, register ≠ Register.misc → after register = before register) →
      (∀ i, (after Register.misc).toNat.testBit i =
        if i = 2 then !mute else (before Register.misc).toNat.testBit i) →
      Attempted mute chip before
        [.read chip.address Register.misc (before Register.misc),
          .write chip.address Register.misc (after Register.misc)] after

/-- The test board shows what it holds. -/
instance : PlainReads Bench.Board where
  read_eq chip register value b hregister h := by
    have h : (b.transact chip.address fun b chip => b.show? chip register).1 = .ok value := h
    rcases b.transact_cases chip.address fun b chip => b.show? chip register with
      ⟨chip', haddress, hanswer⟩ | ⟨fault, hanswer⟩
    · cases Chip.address_inj.mp haddress
      rw [hanswer] at h
      unfold Bench.Board.show? at h
      simp only [if_neg hregister] at h
      cases h
      rfl
    · rw [hanswer] at h
      cases h

variable {β : Type} [ControlBus β]

/-- Nothing is written but the one register. -/
theorem Attempted.written {mute : Bool} {chip : Chip} {before after : UInt8 → UInt8}
    {events : List BusEvent} (h : Attempted mute chip before events after)
    {address register value : UInt8} (hmem : .write address register value ∈ events) :
    address = chip.address ∧ register = Register.misc := by
  cases h <;> simp_all

section Registers

variable [RegisterFiles β]

/-- A read fails, or it answers what the register holds. -/
theorem read_cases [PlainReads β] (chip : Chip) {register : UInt8} (h : register ≠ Register.clock)
    (wire : Wire β) :
    let r := BusProgram.read chip.address register wire
    registers r.2.bus = registers wire.bus ∧
      ((∃ fault, r.1 = .error (.ofBusFault fault) ∧
          r.2.events = wire.events ++ [.fault chip.address fault]) ∨
        r.1 = .ok (registers wire.bus chip register) ∧ r.2.events =
          wire.events ++ [.read chip.address register (registers wire.bus chip register)]) := by
  have hsame := RegisterFiles.registers_read chip.address register wire.bus
  unfold BusProgram.read transact
  dsimp only
  cases hshown : (ControlBus.read chip.address register wire.bus).1 with
  | error fault => exact ⟨hsame, .inl ⟨fault, rfl, rfl⟩⟩
  | ok value =>
    obtain rfl : value = registers wire.bus chip register :=
      PlainReads.read_eq chip register value wire.bus h hshown
    exact ⟨hsame, .inr ⟨rfl, rfl⟩⟩

/-- A write fails and changes nothing, or it sets its register. -/
theorem write_cases (address register value : UInt8) (wire : Wire β) :
    let r := BusProgram.write address register value wire
    (∃ fault, r.1 = .error (.ofBusFault fault) ∧
        r.2.events = wire.events ++ [.fault address fault] ∧
        registers r.2.bus = registers wire.bus) ∨
      r.1 = .ok () ∧ r.2.events = wire.events ++ [.write address register value] ∧
        registers r.2.bus =
          (BusEvent.write address register value).applyTo (registers wire.bus) := by
  have hset := RegisterFiles.registers_write address register value wire.bus
  unfold BusProgram.write transact
  dsimp only
  cases hanswer : (ControlBus.write address register value wire.bus).1 with
  | error fault =>
    rw [hanswer] at hset
    exact .inl ⟨fault, rfl, rfl, hset⟩
  | ok _ =>
    rw [hanswer] at hset
    exact .inr ⟨rfl, rfl, hset⟩

/-- An attempt that is carried out changes one bit of one converter. -/
theorem attempted_applyTo (mute : Bool) (chip : Chip) (files : Chip → UInt8 → UInt8) :
    let value := withMute mute (files chip Register.misc)
    let after := (BusEvent.write chip.address Register.misc value).applyTo files
    Attempted mute chip (files chip)
        [.read chip.address Register.misc (files chip Register.misc),
          .write chip.address Register.misc value] (after chip) ∧
      ∀ k, k ≠ chip → after k = files k := by
  intro value after
  have hafter (k : Chip) (register : UInt8) : after k register =
      if chip.address = k.address ∧ register = Register.misc then value else files k register := rfl
  have hmisc : after chip Register.misc = value := (hafter ..).trans (if_pos ⟨rfl, rfl⟩)
  constructor
  · rw [← hmisc]
    refine .carriedOut ?_ ?_
    · intro register hne
      rw [hafter, if_neg fun h => hne h.2]
    · intro i
      rw [hmisc]
      exact testBit_withMute mute _ i
  · intro k hk
    funext register
    rw [hafter, if_neg fun h => hk (Chip.address_inj.mp h.1).symm]

/-- **One converter.**  The attempt is as `Attempted` says, its record tells the answer, and the
registers of the other converter stay as they are. -/
theorem muteChip_attempted [PlainReads β] (mute : Bool) (chip : Chip) (wire : Wire β) :
    let r := muteChip mute chip wire
    ∃ events, r.2.events = wire.events ++ events ∧ r.1 = verdict events ∧
      Attempted mute chip (registers wire.bus chip) events (registers r.2.bus chip) ∧
      ∀ k, k ≠ chip → registers r.2.bus k = registers wire.bus k := by
  have hregister : Register.misc ≠ Register.clock := by decide
  unfold muteChip
  rw [bind_apply]
  obtain ⟨hsame, ⟨fault, hfailed, hfault⟩ | ⟨hread, hevent⟩⟩ := read_cases chip hregister wire
  · rw [hfailed]
    refine ⟨[.fault chip.address fault], hfault, rfl, ?_, fun k _ => congrFun hsame k⟩
    rw [hsame]
    exact .unread fault
  · rw [hread]
    -- the wire after the read is the same but for the event
    generalize (BusProgram.read chip.address Register.misc wire).2 = wire' at hsame hevent
    obtain ⟨fault, hfailed, hfault, hkept⟩ | ⟨hok, hwritten, hset⟩ :=
      write_cases chip.address Register.misc
        (withMute mute (registers wire.bus chip Register.misc)) wire'
    · refine ⟨[.read chip.address Register.misc (registers wire.bus chip Register.misc),
        .fault chip.address fault], ?_, hfailed, ?_, fun k _ => ?_⟩
      · rw [hfault, hevent, List.append_assoc]
        rfl
      · rw [hkept, hsame]
        exact .unwritten fault
      · rw [hkept, hsame]
    · rw [hsame] at hset
      obtain ⟨hattempted, hother⟩ := attempted_applyTo mute chip (registers wire.bus)
      rw [← hset] at hattempted hother
      refine ⟨[.read chip.address Register.misc (registers wire.bus chip Register.misc),
        .write chip.address Register.misc
          (withMute mute (registers wire.bus chip Register.misc))], ?_, hok, hattempted, hother⟩
      rw [hwritten, hevent, List.append_assoc]
      rfl

/-! ## Both converters -/

omit [ControlBus β] [RegisterFiles β] in
/-- The second of two programs runs whatever the first one answers. -/
theorem bothAttempted_apply (first second : BusProgram β Unit) (wire : Wire β) :
    bothAttempted first second wire = (match (first wire).1 with
      | .ok () => (second (first wire).2).1
      | .error e => .error e, (second (first wire).2).2) := by
  unfold bothAttempted
  rcases first wire with ⟨_ | _, wire'⟩ <;> rfl

/-- **Muting the capture reaches both converters.**  For every bus with registers, whatever it fails
and whatever its registers hold,
(1) one converter is attempted and then the other, whatever became of the first;
(2) an attempt that is carried out changes bit 2 of one register of its converter, to clear it for
    mute and to set it for unmute, and an attempt that is broken changes no register of it;
(3) nothing else is written;
(4) it succeeds if no transaction failed, and otherwise answers what the first fault is classified
    as. -/
theorem capture_mute_reaches_both [PlainReads β] (p : CapturePair β) (mute : Bool) :
    let r := p.run (muteCaptureProgram mute)
    ∃ attempt : Chip → List BusEvent,
      r.2.2 = (attempt .chip0 ++ attempt .chip1).map .bus ∧
      (∀ chip, Attempted mute chip (registers p.bus chip) (attempt chip)
        (registers r.2.1.bus chip)) ∧
      (∀ address register value, .write address register value ∈ attempt .chip0 ++ attempt .chip1 →
        register = Register.misc) ∧
      r.1 = verdict (attempt .chip0 ++ attempt .chip1) := by
  obtain ⟨first, hfirst, hanswer, hattempt, hother⟩ :=
    muteChip_attempted mute .chip0 ({ bus := p.bus } : Wire β)
  obtain ⟨second, hsecond, hanswer', hattempt', hother'⟩ :=
    muteChip_attempted mute .chip1 (muteChip mute .chip0 ({ bus := p.bus } : Wire β)).2
  -- neither attempt touches the registers of the other converter
  rw [hother .chip1 (by decide)] at hattempt'
  rw [← hother' .chip0 (by decide)] at hattempt
  intro r
  have hrun : muteCaptureProgram mute ({ bus := p.bus } : Wire β) = _ :=
    bothAttempted_apply (muteChip mute .chip0) (muteChip mute .chip1) _
  have hresult : r.1 = (muteCaptureProgram mute ({ bus := p.bus } : Wire β)).1 := rfl
  have hwires : r.2.2 = (muteCaptureProgram mute ({ bus := p.bus } : Wire β)).2.events.map .bus :=
    rfl
  have hbus : r.2.1.bus = (muteCaptureProgram mute ({ bus := p.bus } : Wire β)).2.bus := rfl
  rw [hresult, hwires, hbus, hrun]
  refine ⟨fun chip => if chip = .chip0 then first else second, ?_, ?_, ?_, ?_⟩
  · show _ = (first ++ second).map WireEvent.bus
    rw [hsecond, hfirst]
    rfl
  · intro chip
    cases chip with
    | chip0 => exact hattempt
    | chip1 => exact hattempt'
  · intro address register value hmem
    rcases List.mem_append.mp hmem with h | h
    · exact (hattempt.written h).2
    · exact (hattempt'.written h).2
  · show _ = verdict (first ++ second)
    rw [hanswer, hanswer']
    cases hverdict : verdict first with
    | ok _ => exact (verdict_append_of_ok hverdict second).symm
    | error e => exact (verdict_append_of_error hverdict second).symm

/-- Every register of this board holds its own number, and its second transaction fails. -/
def faultyBoard : Bench.Board where
  registers _ register := register
  faults := [(1, .nackData)]

/-- On the faulty board the write to the first converter fails, and the second one is muted. -/
theorem capture_mute_reaches_both_faulty :
    let r := (CapturePair.mk faultyBoard).run (muteCaptureProgram true)
    r.1 = .error .notResponding ∧ registers r.2.1.bus .chip0 Register.misc = 0x0f ∧
      registers r.2.1.bus .chip1 Register.misc = 0x0b ∧
      ∃ attempt : Chip → List BusEvent,
        verdict (attempt .chip0 ++ attempt .chip1) = .error .notResponding ∧
        ∀ chip, Attempted true chip (registers faultyBoard chip) (attempt chip)
          (registers r.2.1.bus chip) := by
  intro r
  have hresult : r.1 = .error .notResponding := by decide +kernel
  obtain ⟨attempt, -, hattempted, -, hverdict⟩ :=
    capture_mute_reaches_both (CapturePair.mk faultyBoard) true
  refine ⟨hresult, by decide +kernel, by decide +kernel, attempt, ?_, hattempted⟩
  rw [← hverdict]
  exact hresult

end Registers

end CapturePair

end DuplexAudio
