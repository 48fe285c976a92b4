/-
  A bus that fails no transaction.

  `Unfailing P L` is about the states of a bus that satisfy `P`: they answer what a configuration asks,
  they lead to nothing but such states, and the clocks show values that satisfy `L`.  The same facts
  then serve for clocks that do as they please (`L` is true of all values) and for clocks that have
  locked for good (`L` is `Locked`).

  1. **Ends** — `Ends P p Q`: started in a state that satisfies `P`, the program `p` ends in one, with
     an answer that satisfies `Q`.  It composes along a program (`Ends.bind`).

  2. **The wait is all that can fail** — a configuration succeeds, or the clocks did not lock in time,
     and then `L` is true of a value that shows no lock (`Unfailing.ends_configure`).

  3. A test board with no faults scheduled, on which both clocks have locked, is such a bus
     (`unfailing_settled`).
-/
import DuplexAudio.Proofs.Codec.Configuration

namespace DuplexAudio

/-- In the states that satisfy `P`, the converters answer writes and reads of their clocks, and the
clocks show values that satisfy `L`. -/
structure Unfailing {β : Type} [ControlBus β] (P : β → Prop) (L : UInt8 → Prop) : Prop where
  write : ∀ (chip : Chip) register value b, P b →
    (ControlBus.write chip.address register value b).1 = .ok () ∧
      P (ControlBus.write chip.address register value b).2
  clock : ∀ (chip : Chip) b, P b →
    ∃ value, (ControlBus.read chip.address Register.clock b).1 = .ok value ∧ L value ∧
      P (ControlBus.read chip.address Register.clock b).2
  pause : ∀ milliseconds b, P b → P (ControlBus.pause milliseconds b)

namespace BusProgram

/-! ## Composition -/

section Composition

variable {β α γ : Type} {P : β → Prop} {Q : Except CodecFailure α → Prop}

/-- From a state that satisfies `P`, a program ends in one, and its answer satisfies `Q`. -/
def Ends (P : β → Prop) (p : BusProgram β α) (Q : Except CodecFailure α → Prop) : Prop :=
  ∀ wire : Wire β, P wire.bus → Q (p wire).1 ∧ P (p wire).2.bus

theorem Ends.bind {p : BusProgram β α} {f : α → BusProgram β γ} {R : Except CodecFailure γ → Prop}
    (hp : Ends P p Q) (herror : ∀ e, Q (.error e) → R (.error e))
    (hok : ∀ a, Q (.ok a) → Ends P (f a) R) : Ends P (p >>= f) R := by
  intro wire hwire
  obtain ⟨hanswer, hnext⟩ := hp wire hwire
  rw [bind_apply]
  cases hresult : (p wire).1 with
  | error e =>
    rw [hresult] at hanswer
    exact ⟨herror e hanswer, hnext⟩
  | ok a =>
    rw [hresult] at hanswer
    exact hok a hanswer (p wire).2 hnext

theorem ends_pure {a : α} (h : Q (.ok a)) : Ends P (pure a : BusProgram β α) Q :=
  fun _ hwire => ⟨h, hwire⟩

theorem ends_fail {e : CodecFailure} (h : Q (.error e)) : Ends P (fail e : BusProgram β α) Q :=
  fun _ hwire => ⟨h, hwire⟩

theorem Ends.exec {p : BusProgram β α} (h : Ends P p Q) {bus : β} (hbus : P bus) :
    Q (p.exec bus).1 :=
  (h { bus } hbus).1

end Composition

end BusProgram

/-! ## A configuration -/

namespace Unfailing

open BusProgram CapturePair

variable {β : Type} [ControlBus β] {P : β → Prop} {L : UInt8 → Prop}

theorem ends_write (h : Unfailing P L) (chip : Chip) (register value : UInt8) :
    Ends P (BusProgram.write chip.address register value) (· = .ok ()) := by
  intro wire hwire
  obtain ⟨hanswer, hnext⟩ := h.write chip register value wire.bus hwire
  unfold BusProgram.write transact
  dsimp only
  rw [hanswer]
  exact ⟨rfl, hnext⟩

theorem ends_writeAll (h : Unfailing P L) {writes : List (UInt8 × UInt8 × UInt8)}
    (hwrites : writes.all fun w => (Chip.ofAddress? w.1).isSome) :
    Ends P (writeAll writes) (· = .ok ()) := by
  induction writes with
  | nil => exact ends_pure rfl
  | cons w rest ih =>
    obtain ⟨address, register, value⟩ := w
    obtain ⟨hfirst, hrest⟩ := Bool.and_eq_true_iff.mp hwrites
    obtain ⟨chip, hchip⟩ := Option.isSome_iff_exists.mp hfirst
    cases Chip.ofAddress?_eq_some hchip
    exact (h.ends_write chip register value).bind (fun _ he => nomatch he) fun _ _ => ih hrest

/-- A value that the clocks may show, and that shows no lock. -/
def Astray (L : UInt8 → Prop) : Prop := ∃ value, L value ∧ ¬Locked value

theorem ends_isLocked (h : Unfailing P L) (chip : Chip) :
    Ends P (isLocked chip) fun r => r = .ok true ∨ r = .ok false ∧ Astray L := by
  have hread : Ends P (BusProgram.read chip.address Register.clock) fun r =>
      ∃ value, r = .ok value ∧ L value := by
    intro wire hwire
    obtain ⟨value, hanswer, hvalue, hnext⟩ := h.clock chip wire.bus hwire
    unfold BusProgram.read transact
    dsimp only
    rw [hanswer]
    exact ⟨⟨value, rfl, hvalue⟩, hnext⟩
  refine hread.bind ?_ ?_
  · rintro e ⟨value, he, -⟩
    cases he
  · rintro value ⟨_, heq, hvalue⟩
    cases heq
    by_cases hlocked : value &&& lockFlag ≠ 0
    · exact ends_pure (.inl (by rw [decide_eq_true hlocked]))
    · exact ends_pure (.inr ⟨by rw [decide_eq_false hlocked], value, hvalue, hlocked⟩)

theorem ends_bothLocked (h : Unfailing P L) :
    Ends P bothLocked fun r => r = .ok true ∨ r = .ok false ∧ Astray L := by
  refine (h.ends_isLocked .chip0).bind ?_ ?_
  · rintro e (he | ⟨he, -⟩) <;> cases he
  · rintro locked (hlocked | ⟨hlocked, hastray⟩)
    · cases hlocked
      exact h.ends_isLocked .chip1
    · cases hlocked
      exact ends_pure (.inr ⟨rfl, hastray⟩)

/-- **Induction on the milliseconds left**: a poll that shows no lock is worth no more than what it
says about `L`. -/
theorem ends_waitLocked (h : Unfailing P L) (budget : Nat) :
    Ends P (waitLocked budget) fun r =>
      r = .ok () ∨ r = .error .clockLockTimeout ∧ Astray L := by
  induction budget with
  | zero =>
    refine h.ends_bothLocked.bind ?_ ?_
    · rintro e (he | ⟨he, -⟩) <;> cases he
    · rintro locked (hlocked | ⟨hlocked, hastray⟩)
      · cases hlocked
        exact ends_pure (.inl rfl)
      · cases hlocked
        exact ends_fail (.inr ⟨rfl, hastray⟩)
  | succ budget ih =>
    refine h.ends_bothLocked.bind ?_ ?_
    · rintro e (he | ⟨he, -⟩) <;> cases he
    · rintro locked (hlocked | ⟨hlocked, -⟩)
      · cases hlocked
        exact ends_pure (.inl rfl)
      · cases hlocked
        intro wire hwire
        exact ih _ (h.pause 1 wire.bus hwire)

/-- **Nothing but the wait for the clocks can fail.** -/
theorem ends_configure (h : Unfailing P L) :
    Ends P configureProgram fun r =>
      r = .ok () ∨ r = .error .clockLockTimeout ∧ Astray L := by
  have hclocks : clockWrites.all fun w => (Chip.ofAddress? w.1).isSome := by decide
  have hstream : streamWrites.all fun w => (Chip.ofAddress? w.1).isSome := by decide
  refine (h.ends_writeAll hclocks).bind (fun _ he => nomatch he) fun _ _ => ?_
  refine (h.ends_waitLocked lockTimeoutMs).bind ?_ ?_
  · rintro e (he | ⟨he, hastray⟩)
    · cases he
    · cases he
      exact .inr ⟨rfl, hastray⟩
  · intro _ _ wire hwire
    obtain ⟨hanswer, hnext⟩ := h.ends_writeAll hstream wire hwire
    exact ⟨.inl hanswer, hnext⟩

end Unfailing

/-! ## The test board -/

theorem CapturePair.locked_or_lockFlag (stored : UInt8) : Locked (stored ||| lockFlag) := by
  have hbit : ∀ a b : Bool, ((a || b) && b) = b := by decide
  have hflag : (stored ||| lockFlag) &&& lockFlag = lockFlag := by
    apply UInt8.eq_of_toBitVec_eq
    rw [UInt8.toBitVec_and, UInt8.toBitVec_or]
    ext i hi
    rw [BitVec.getElem_and, BitVec.getElem_or, hbit]
  unfold Locked
  rw [hflag]
  decide

theorem CapturePair.not_locked_and_lockFlag (stored : UInt8) : ¬Locked (stored &&& ~~~lockFlag) := by
  have hbit : ∀ a b : Bool, ((a && !b) && b) = false := by decide
  have hnone : stored &&& ~~~lockFlag &&& lockFlag = 0 := by
    apply UInt8.eq_of_toBitVec_eq
    rw [UInt8.toBitVec_and, UInt8.toBitVec_and, UInt8.toBitVec_not]
    ext i hi
    rw [BitVec.getElem_and, BitVec.getElem_and, BitVec.getElem_not, hbit]
    exact (BitVec.getElem_zero hi).symm
  exact not_not.mpr hnone

namespace Bench.Board

/-- With no fault scheduled and both converters present, a transaction is answered. -/
theorem transact_of_no_fault {b : Board} (hfaults : b.faults = []) (hpresent : b.absent = none)
    {α : Type} (chip : Chip) (f : Board → Chip → α × Board) : b.transact chip.address f =
      (.ok (f { b with transactions := b.transactions + 1 } chip).1,
        (f { b with transactions := b.transactions + 1 } chip).2) := by
  have hchip : Chip.ofAddress? chip.address = some chip := by cases chip <;> rfl
  unfold Board.transact answering
  rw [hfaults]
  simp only [List.lookup_nil, hpresent, hchip]
  rfl

/-- A read of a clock is counted. -/
theorem show?_clock (b : Board) (chip : Chip) : (b.show? chip Register.clock).2 =
    { b with clockReads := fun k => if k = chip then b.clockReads chip + 1 else b.clockReads k } :=
  rfl

/-- A clock shows lock once it has been read as often as it takes. -/
theorem locked_show?_clock (b : Board) (chip : Chip) :
    CapturePair.Locked (b.show? chip Register.clock).1 ↔
      ∃ n, b.lockAfter chip = some n ∧ n ≤ b.clockReads chip := by
  unfold show?
  simp only [if_true]
  split
  · next h =>
    obtain ⟨n, hn, hlt⟩ := (Option.any_eq_true _ _).mp h
    exact iff_of_true (CapturePair.locked_or_lockFlag _)
      ⟨n, hn, Nat.le_of_lt_succ (of_decide_eq_true hlt)⟩
  · next h =>
    refine iff_of_false (CapturePair.not_locked_and_lockFlag _) ?_
    rintro ⟨n, hn, hle⟩
    exact h ((Option.any_eq_true _ _).mpr ⟨n, hn, decide_eq_true (Nat.lt_succ_of_le hle)⟩)

/-- No fault is scheduled, both converters answer, and both clocks have locked. -/
structure Settled (b : Board) : Prop where
  faults : b.faults = []
  present : b.absent = none
  locked : ∀ chip, ∃ n, b.lockAfter chip = some n ∧ n ≤ b.clockReads chip

theorem unfailing_settled : Unfailing Settled CapturePair.Locked where
  write chip register value b h := by
    show (b.transact chip.address _).1 = _ ∧ Settled (b.transact chip.address _).2
    rw [transact_of_no_fault h.faults h.present]
    exact ⟨rfl, h.faults, h.present, h.locked⟩
  clock chip b h := by
    show ∃ value, (b.transact chip.address _).1 = _ ∧ _ ∧ Settled (b.transact chip.address _).2
    rw [transact_of_no_fault h.faults h.present, show?_clock]
    refine ⟨_, rfl, ?_, h.faults, h.present, fun k => ?_⟩
    · exact (locked_show?_clock _ chip).mpr (h.locked chip)
    · obtain ⟨n, hn, hreads⟩ := h.locked k
      refine ⟨n, hn, Nat.le_trans hreads ?_⟩
      show b.clockReads k ≤ if k = chip then b.clockReads chip + 1 else b.clockReads k
      split
      · next hk =>
        rw [hk]
        exact Nat.le_succ _
      · exact Nat.le_refl _
  pause _ _ h := h

end Bench.Board

end DuplexAudio
