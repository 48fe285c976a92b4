/-
  How long a configuration waits for the clocks.

  A poll asks the second converter only if the first shows lock.  While the first clock is unlocked
  the second is not read at all, so its delay begins where that of the first ends, and the two add
  up.  There is one poll more than there are pauses, so a wait of `budget` milliseconds has room for
  delays of `budget` together, and not for one more.

  1. **Clocks that count their reads** — `LocksAfter P n` is about a bus that answers every
     transaction, and whose clocks show lock from read number `n + 1` on.  `P reads` holds of the
     states in which the clocks have been read `reads` times.

  2. **Counted runs** — `Counts P reads p Q`: from such a state, a program ends in one with its own
     reads added, and `Q` holds of what it answers and does.  It composes along a program
     (`Counts.bind`).

  3. **A poll and a wait** — a poll has three outcomes (`counts_bothLocked`).  One that shows no lock
     takes one from the delays that are left (`Poll.closer`), and the pause after it takes one from
     the milliseconds; so what a wait does follows by induction on these (`counts_waitLocked`).

  `lock_delays_add_up` is the headline.  The test board is such a bus, for all delays
  (`Bench.Board.locksAfter`).
-/
import DuplexAudio.Proofs.Codec.Unfailing

namespace DuplexAudio

/-! ## What is counted -/

/-- Whether an event is a read of a converter's clock. -/
def BusEvent.readsClock (chip : Chip) : BusEvent → Bool
  | read address register _ => address = chip.address ∧ register = Register.clock
  | write _ _ _ | fault _ _ | pause _ => false

/-- How often a converter's clock was read. -/
def clockReadCount (chip : Chip) (events : List BusEvent) : Nat :=
  events.countP (·.readsClock chip)

/-- The milliseconds that were waited. -/
def waitedMs (events : List BusEvent) : Nat := Bench.pausedMs (events.map .bus)

theorem clockReadCount_append (chip : Chip) (first second : List BusEvent) :
    clockReadCount chip (first ++ second) =
      clockReadCount chip first + clockReadCount chip second := List.countP_append

theorem waitedMs_append (first second : List BusEvent) :
    waitedMs (first ++ second) = waitedMs first + waitedMs second := by
  simp only [waitedMs, Bench.pausedMs, ← List.sum_eq_foldl, List.map_append, List.sum_append]

/-- The reads of both clocks, with those in a record added. -/
def readsAfter (reads : Chip → Nat) (events : List BusEvent) : Chip → Nat :=
  fun chip => reads chip + clockReadCount chip events

theorem readsAfter_append (reads : Chip → Nat) (first second : List BusEvent) :
    readsAfter reads (first ++ second) = readsAfter (readsAfter reads first) second := by
  funext chip
  simp only [readsAfter, clockReadCount_append]
  omega

theorem readsAfter_of_none {events : List BusEvent}
    (h : ∀ e ∈ events, ∀ chip, e.readsClock chip = false) (reads : Chip → Nat) :
    readsAfter reads events = reads := by
  funext chip
  have hnone : clockReadCount chip events = 0 := by
    rw [clockReadCount, List.countP_eq_zero]
    intro e he
    simp [h e he chip]
  simp only [readsAfter, hnone, Nat.add_zero]

theorem readsAfter_read (reads : Chip → Nat) (chip : Chip) (value : UInt8) :
    readsAfter reads [.read chip.address Register.clock value] =
      fun k => if k = chip then reads k + 1 else reads k := by
  funext k
  cases k <;> cases chip <;> rfl

namespace CapturePair

open BusProgram

/-! ## Clocks that count their reads -/

/-- Every transaction of these states is answered, and the clock of a converter shows lock after `n`
reads of it, if `n` is a number.  `P reads` are the states with so many reads. -/
structure LocksAfter {β : Type} [ControlBus β] (P : (Chip → Nat) → β → Prop)
    (n : Chip → Option Nat) : Prop where
  write : ∀ (chip : Chip) register value reads b, P reads b →
    (ControlBus.write chip.address register value b).1 = .ok () ∧
      P reads (ControlBus.write chip.address register value b).2
  clock : ∀ (chip : Chip) reads b, P reads b →
    ∃ value, (ControlBus.read chip.address Register.clock b).1 = .ok value ∧
      (Locked value ↔ ∃ k, n chip = some k ∧ k ≤ reads chip) ∧
      P (fun k => if k = chip then reads k + 1 else reads k)
        (ControlBus.read chip.address Register.clock b).2
  pause : ∀ milliseconds reads b, P reads b → P reads (ControlBus.pause milliseconds b)

end CapturePair

namespace Bench.Board

/-- A test board with no fault scheduled and both converters present, for clocks that lock when they
are set to. -/
structure Counting (n : Chip → Option Nat) (reads : Chip → Nat) (b : Board) : Prop where
  faults : b.faults = []
  present : b.absent = none
  lockAfter : b.lockAfter = n
  clockReads : b.clockReads = reads

theorem locksAfter (n : Chip → Option Nat) : CapturePair.LocksAfter (Counting n) n where
  write chip register value reads b h := by
    show (b.transact chip.address _).1 = _ ∧ Counting n reads (b.transact chip.address _).2
    rw [transact_of_no_fault h.faults h.present]
    exact ⟨rfl, h.faults, h.present, h.lockAfter, h.clockReads⟩
  clock chip reads b h := by
    show ∃ value, (b.transact chip.address _).1 = _ ∧ _ ∧
      Counting n _ (b.transact chip.address _).2
    rw [transact_of_no_fault h.faults h.present, show?_clock]
    refine ⟨_, rfl, ?_, h.faults, h.present, h.lockAfter, ?_⟩
    · rw [← h.lockAfter, ← h.clockReads]
      exact locked_show?_clock _ chip
    · rw [← h.clockReads]
      funext k
      show (if k = chip then b.clockReads chip + 1 else b.clockReads k) =
        if k = chip then b.clockReads k + 1 else b.clockReads k
      split
      · next hk => rw [hk]
      · rfl
  pause _ _ _ h := h

end Bench.Board

namespace CapturePair

open BusProgram

/-! ## Counted runs -/

section Counts

variable {β α γ : Type} {P : (Chip → Nat) → β → Prop} {reads : Chip → Nat}
  {Q : Except CodecFailure α → List BusEvent → Prop}

/-- From a state in which the clocks have been read `reads` times, a program ends in one with its
own reads added, and `Q` holds of what it answers and does. -/
def Counts (P : (Chip → Nat) → β → Prop) (reads : Chip → Nat) (p : BusProgram β α)
    (Q : Except CodecFailure α → List BusEvent → Prop) : Prop :=
  ∀ wire : Wire β, P reads wire.bus → ∃ events, (p wire).2.events = wire.events ++ events ∧
    P (readsAfter reads events) (p wire).2.bus ∧ Q (p wire).1 events

theorem Counts.mono {R : Except CodecFailure α → List BusEvent → Prop} {p : BusProgram β α}
    (h : Counts P reads p Q) (hQR : ∀ result events, Q result events → R result events) :
    Counts P reads p R := by
  intro wire hwire
  obtain ⟨events, hevents, hafter, hQ⟩ := h wire hwire
  exact ⟨events, hevents, hafter, hQR _ _ hQ⟩

/-- **One program after another**: the second starts with the reads of the first. -/
theorem Counts.bind {R : Except CodecFailure γ → List BusEvent → Prop} {p : BusProgram β α}
    {f : α → BusProgram β γ} (hp : Counts P reads p Q)
    (herror : ∀ e events, Q (.error e) events → R (.error e) events)
    (hok : ∀ a first, Q (.ok a) first →
      Counts P (readsAfter reads first) (f a) fun result second => R result (first ++ second)) :
    Counts P reads (p >>= f) R := by
  intro wire hwire
  obtain ⟨first, hfirst, hafter, hQ⟩ := hp wire hwire
  rw [bind_apply]
  cases hresult : (p wire).1 with
  | error e =>
    rw [hresult] at hQ
    exact ⟨first, hfirst, hafter, herror e first hQ⟩
  | ok a =>
    rw [hresult] at hQ
    obtain ⟨second, hsecond, hlast, hR⟩ := hok a first hQ (p wire).2 hafter
    refine ⟨first ++ second, ?_, ?_, hR⟩
    · rw [hsecond, hfirst, List.append_assoc]
    · rw [readsAfter_append]
      exact hlast

theorem counts_pure (a : α) :
    Counts P reads (pure a : BusProgram β α) fun result events => result = .ok a ∧ events = [] :=
  fun _ hwire => ⟨[], (List.append_nil _).symm, hwire, rfl, rfl⟩

theorem counts_fail (e : CodecFailure) :
    Counts P reads (fail e : BusProgram β α) fun result events =>
      result = .error e ∧ events = [] :=
  fun _ hwire => ⟨[], (List.append_nil _).symm, hwire, rfl, rfl⟩

theorem Counts.exec {p : BusProgram β α} (h : Counts P reads p Q) {bus : β} (hbus : P reads bus) :
    Q (p.exec bus).1 (p.exec bus).2.events := by
  obtain ⟨events, hevents, -, hQ⟩ := h { bus } hbus
  have hall : (p.exec bus).2.events = events := hevents
  rw [hall]
  exact hQ

end Counts

namespace LocksAfter

variable {β : Type} [ControlBus β] {P : (Chip → Nat) → β → Prop} {n : Chip → Option Nat}
  {reads : Chip → Nat}

theorem counts_write (h : LocksAfter P n) (chip : Chip) (register value : UInt8) :
    Counts P reads (BusProgram.write chip.address register value) fun result events =>
      result = .ok () ∧ events = [.write chip.address register value] := by
  intro wire hwire
  obtain ⟨hanswer, hnext⟩ := h.write chip register value reads wire.bus hwire
  unfold BusProgram.write transact
  dsimp only
  rw [hanswer]
  exact ⟨_, rfl, hnext, rfl, rfl⟩

theorem counts_writeAll (h : LocksAfter P n) {writes : List (UInt8 × UInt8 × UInt8)}
    (hwrites : writes.all fun w => (Chip.ofAddress? w.1).isSome) :
    Counts P reads (writeAll writes) fun result events =>
      result = .ok () ∧ events = writes.map .ofWrite := by
  induction writes with
  | nil => exact counts_pure ()
  | cons w rest ih =>
    obtain ⟨address, register, value⟩ := w
    obtain ⟨hfirst, hrest⟩ := Bool.and_eq_true_iff.mp hwrites
    obtain ⟨chip, hchip⟩ := Option.isSome_iff_exists.mp hfirst
    cases Chip.ofAddress?_eq_some hchip
    refine (h.counts_write chip register value).bind ?_ ?_
    · rintro e events ⟨hresult, -⟩
      cases hresult
    · rintro _ _ ⟨-, rfl⟩
      refine (ih hrest).mono ?_
      rintro result events ⟨hresult, rfl⟩
      exact ⟨hresult, rfl⟩

theorem counts_pause (h : LocksAfter P n) (milliseconds : Nat) :
    Counts P reads (BusProgram.pause milliseconds) fun result events =>
      result = .ok () ∧ events = [.pause milliseconds] :=
  fun wire hwire => ⟨_, rfl, h.pause milliseconds reads wire.bus hwire, rfl, rfl⟩

/-- The next read of a converter's clock shows lock. -/
def Due (n : Chip → Option Nat) (reads : Chip → Nat) (chip : Chip) : Prop :=
  ∃ k, n chip = some k ∧ k ≤ reads chip

theorem counts_isLocked (h : LocksAfter P n) (chip : Chip) :
    Counts P reads (isLocked chip) fun result events =>
      ∃ value locked, result = .ok locked ∧ (locked = true ↔ Due n reads chip) ∧
        events = [.read chip.address Register.clock value] := by
  intro wire hwire
  obtain ⟨value, hanswer, hlocked, hnext⟩ := h.clock chip reads wire.bus hwire
  unfold isLocked
  rw [bind_apply]
  unfold BusProgram.read transact
  dsimp only
  rw [hanswer]
  refine ⟨[.read chip.address Register.clock value], rfl, ?_, value, decide (Locked value), rfl, ?_,
    rfl⟩
  · rw [readsAfter_read]
    exact hnext
  · rw [decide_eq_true_iff]
    exact hlocked

/-! ## A poll and a wait -/

/-- What a poll answers and does: the second converter is asked only if the first shows lock. -/
inductive Poll (n : Chip → Option Nat) (reads : Chip → Nat) :
    Except CodecFailure Bool → List BusEvent → Prop
  | locked {v0 v1 : UInt8} : Due n reads .chip0 → Due n reads .chip1 →
      Poll n reads (.ok true) (clockReads v0 v1)
  | firstUnlocked {v0 : UInt8} : ¬Due n reads .chip0 →
      Poll n reads (.ok false) [.read Chip.chip0.address Register.clock v0]
  | secondUnlocked {v0 v1 : UInt8} : Due n reads .chip0 → ¬Due n reads .chip1 →
      Poll n reads (.ok false) (clockReads v0 v1)

theorem counts_bothLocked (h : LocksAfter P n) :
    Counts P reads bothLocked (Poll n reads) := by
  refine (h.counts_isLocked .chip0).bind ?_ ?_
  · rintro e events ⟨value, locked, hresult, -⟩
    cases hresult
  · rintro locked _ ⟨v0, _, heq, hdue, rfl⟩
    cases heq
    cases locked with
    | false =>
      refine (counts_pure false).mono ?_
      rintro result events ⟨rfl, rfl⟩
      exact .firstUnlocked fun h0 => Bool.noConfusion (hdue.mpr h0)
    | true =>
      have h0 : Due n reads .chip0 := hdue.mp rfl
      -- the read of the first clock has not brought the second one closer
      have hsame : Due n (readsAfter reads [.read Chip.chip0.address Register.clock v0]) .chip1 ↔
          Due n reads .chip1 := Iff.rfl
      refine (h.counts_isLocked .chip1).mono ?_
      rintro result events ⟨v1, locked, rfl, hdue', rfl⟩
      rw [hsame] at hdue'
      cases locked with
      | false => exact .secondUnlocked h0 fun h1 => Bool.noConfusion (hdue'.mpr h1)
      | true => exact .locked h0 (hdue'.mp rfl)

/-- What a wait of at most `budget` milliseconds answers and does, if the clocks have been read
`reads` times before.  A clock has `n - reads` reads to go, or none if it is locked. -/
inductive Awaited (n : Chip → Option Nat) (reads : Chip → Nat) (budget : Nat) :
    Except CodecFailure Unit → List BusEvent → Prop
  | locked {n0 n1 : Nat} {events : List BusEvent} :
      n .chip0 = some n0 → n .chip1 = some n1 →
      (n0 - reads .chip0) + (n1 - reads .chip1) ≤ budget →
      waitedMs events = (n0 - reads .chip0) + (n1 - reads .chip1) →
      clockReadCount .chip0 events = (n0 - reads .chip0) + (n1 - reads .chip1) + 1 →
      clockReadCount .chip1 events = (n1 - reads .chip1) + 1 →
      Awaited n reads budget (.ok ()) events
  | timedOut {events : List BusEvent} :
      (∀ n0 n1, n .chip0 = some n0 → n .chip1 = some n1 →
        budget < (n0 - reads .chip0) + (n1 - reads .chip1)) →
      waitedMs events = budget → clockReadCount .chip0 events = budget + 1 →
      Awaited n reads budget (.error .clockLockTimeout) events

/-- A poll that shows lock leaves nothing to wait for. -/
theorem Poll.awaited {events : List BusEvent} (h : Poll n reads (.ok true) events) (budget : Nat) :
    Awaited n reads budget (.ok ()) events := by
  obtain @⟨v0, v1, ⟨n0, h0, hle0⟩, ⟨n1, h1, hle1⟩⟩ := h
  have hms : waitedMs (clockReads v0 v1) = 0 := rfl
  have hfirst : clockReadCount .chip0 (clockReads v0 v1) = 1 := rfl
  have hsecond : clockReadCount .chip1 (clockReads v0 v1) = 1 := rfl
  refine .locked h0 h1 ?_ ?_ ?_ ?_ <;> omega

/-- A poll that shows no lock, and the pause after it, take one from the reads that the clocks have
to go together, and read the second clock if it is the one that has one to go. -/
theorem Poll.closer {poll : List BusEvent} (h : Poll n reads (.ok false) poll) {n0 n1 : Nat}
    (h0 : n .chip0 = some n0) (h1 : n .chip1 = some n1) :
    (n0 - reads .chip0) + (n1 - reads .chip1) =
        (n0 - readsAfter reads (poll ++ [.pause 1]) .chip0) +
          (n1 - readsAfter reads (poll ++ [.pause 1]) .chip1) + 1 ∧
      n1 - reads .chip1 = (n1 - readsAfter reads (poll ++ [.pause 1]) .chip1) +
        clockReadCount .chip1 (poll ++ [.pause 1]) := by
  cases h with
  | @firstUnlocked v0 hnot =>
    have hlt : ¬n0 ≤ reads .chip0 := fun hle => hnot ⟨n0, h0, hle⟩
    have hfirst : readsAfter reads ([.read Chip.chip0.address Register.clock v0] ++ [.pause 1])
        .chip0 = reads .chip0 + 1 := rfl
    have hsecond : readsAfter reads ([.read Chip.chip0.address Register.clock v0] ++ [.pause 1])
        .chip1 = reads .chip1 := rfl
    have hcount : clockReadCount .chip1
        ([.read Chip.chip0.address Register.clock v0] ++ [.pause 1]) = 0 := rfl
    omega
  | @secondUnlocked v0 v1 hdue hnot =>
    obtain ⟨k, hk, hle⟩ := hdue
    cases h0.symm.trans hk
    have hlt : ¬n1 ≤ reads .chip1 := fun hle => hnot ⟨n1, h1, hle⟩
    have hafter (chip : Chip) : readsAfter reads (clockReads v0 v1 ++ [.pause 1]) chip =
        reads chip + 1 := by cases chip <;> rfl
    rw [hafter, hafter]
    have hcount : clockReadCount .chip1 (clockReads v0 v1 ++ [.pause 1]) = 1 := rfl
    omega

/-- A poll that shows no lock, with the pause after it: one read of the first clock, and one
millisecond. -/
theorem Poll.once {poll : List BusEvent} (h : Poll n reads (.ok false) poll) :
    waitedMs (poll ++ [.pause 1]) = 1 ∧ clockReadCount .chip0 (poll ++ [.pause 1]) = 1 := by
  cases h <;> exact ⟨rfl, rfl⟩

/-- **After a poll that shows no lock**, a shorter wait from there makes the whole one. -/
theorem Poll.later {poll rest : List BusEvent} {budget : Nat} {result : Except CodecFailure Unit}
    (hpoll : Poll n reads (.ok false) poll)
    (hrest : Awaited n (readsAfter reads (poll ++ [.pause 1])) budget result rest) :
    Awaited n reads (budget + 1) result (poll ++ [.pause 1] ++ rest) := by
  obtain ⟨hms, hfirst⟩ := hpoll.once
  cases hrest with
  | locked h0 h1 htime hwaited hreads0 hreads1 =>
    obtain ⟨htogether, hsecond⟩ := hpoll.closer h0 h1
    refine .locked h0 h1 ?_ ?_ ?_ ?_
    · omega
    · rw [waitedMs_append]
      omega
    · rw [clockReadCount_append]
      omega
    · rw [clockReadCount_append]
      omega
  | timedOut hlate hwaited hreads0 =>
    refine .timedOut ?_ ?_ ?_
    · intro n0 n1 h0 h1
      obtain ⟨htogether, -⟩ := hpoll.closer h0 h1
      have hrest := hlate n0 n1 h0 h1
      omega
    · rw [waitedMs_append]
      omega
    · rw [clockReadCount_append]
      omega

/-- When the last poll shows no lock, there was not enough time. -/
theorem Poll.timedOut {events : List BusEvent} (h : Poll n reads (.ok false) events) :
    Awaited n reads 0 (.error .clockLockTimeout) events := by
  cases h with
  | firstUnlocked hnot =>
    refine .timedOut (fun n0 n1 h0 h1 => ?_) rfl rfl
    have hlt : ¬n0 ≤ reads .chip0 := fun hle => hnot ⟨n0, h0, hle⟩
    omega
  | secondUnlocked _ hnot =>
    refine .timedOut (fun n0 n1 h0 h1 => ?_) rfl rfl
    have hlt : ¬n1 ≤ reads .chip1 := fun hle => hnot ⟨n1, h1, hle⟩
    omega

/-- A poll ends the wait if it shows lock, and is followed by `next` if it does not. -/
theorem counts_polled (h : LocksAfter P n) {budget : Nat} {next : BusProgram β Unit}
    (hnext : ∀ poll, Poll n reads (.ok false) poll → Counts P (readsAfter reads poll) next
      fun result rest => Awaited n reads budget result (poll ++ rest)) :
    Counts P reads (bothLocked >>= fun locked => if locked = true then pure () else next)
      (Awaited n reads budget) := by
  refine h.counts_bothLocked.bind ?_ ?_
  · intro e events hpoll
    cases hpoll
  · intro locked poll hpoll
    cases locked with
    | true =>
      refine (counts_pure ()).mono ?_
      rintro result rest ⟨rfl, rfl⟩
      rw [List.append_nil]
      exact hpoll.awaited budget
    | false => exact hnext poll hpoll

/-- **Induction on the milliseconds left.** -/
theorem counts_waitLocked (h : LocksAfter P n) (budget : Nat) (reads : Chip → Nat) :
    Counts P reads (waitLocked budget) (Awaited n reads budget) := by
  induction budget generalizing reads with
  | zero =>
    refine h.counts_polled fun poll hpoll => ?_
    refine (counts_fail _).mono ?_
    rintro result rest ⟨rfl, rfl⟩
    rw [List.append_nil]
    exact hpoll.timedOut
  | succ budget ih =>
    refine h.counts_polled fun poll hpoll => ?_
    refine (h.counts_pause 1).bind ?_ ?_
    · rintro e events ⟨hresult, -⟩
      cases hresult
    · rintro _ _ ⟨-, rfl⟩
      rw [← readsAfter_append]
      refine (ih _).mono fun result rest hrest => ?_
      rw [← List.append_assoc]
      exact hpoll.later hrest

/-! ## A configuration -/

/-- What a configuration answers and does: nothing else than the wait can fail or takes time. -/
theorem counts_configure (h : LocksAfter P n) :
    Counts P reads configureProgram fun result events =>
      ∃ answer waited, Awaited n reads lockTimeoutMs answer waited ∧
        (answer = .ok () ∧ result = .ok () ∧ events = clockSetup ++ waited ++ streamSetup ∨
          answer = .error .clockLockTimeout ∧ result = .error .clockLockTimeout ∧
            events = clockSetup ++ waited) := by
  have hclocks : clockWrites.all fun w => (Chip.ofAddress? w.1).isSome := by decide
  have hstream : streamWrites.all fun w => (Chip.ofAddress? w.1).isSome := by decide
  have hunread : ∀ e ∈ clockSetup, ∀ chip, e.readsClock chip = false := by
    intro e he chip
    obtain ⟨w, -, rfl⟩ := List.mem_map.mp he
    rfl
  refine (h.counts_writeAll hclocks).bind ?_ ?_
  · rintro e events ⟨hresult, -⟩
    cases hresult
  · rintro _ _ ⟨-, rfl⟩
    have hreads : readsAfter reads (clockWrites.map .ofWrite) = reads :=
      readsAfter_of_none hunread reads
    rw [hreads]
    refine (h.counts_waitLocked lockTimeoutMs reads).bind ?_ ?_
    · intro e waited hwaited
      obtain rfl : e = .clockLockTimeout := by cases hwaited; rfl
      exact ⟨_, waited, hwaited, .inr ⟨rfl, rfl, rfl⟩⟩
    · intro _ waited hwaited
      refine (h.counts_writeAll hstream).mono ?_
      rintro result events ⟨rfl, rfl⟩
      exact ⟨_, waited, hwaited, .inl ⟨rfl, rfl, (List.append_assoc _ _ _).symm⟩⟩

end LocksAfter

/-- **The delays of the two clocks add up.**  Let every transaction be answered, let the clock of a
converter show lock after `n` of its reads, or never, and let none have been read.  Then
(1) a configuration succeeds if and only if both clocks lock, after twenty reads together at most;
(2) it has then waited one millisecond for each of these reads, and read the first clock once more
    and the second one once more than it was unlocked;
(3) otherwise the clocks did not lock in time: it has waited twenty milliseconds, and read the first
    clock twenty-one times.
All that is done before and after the wait is to write registers. -/
theorem lock_delays_add_up {β : Type} [ControlBus β] {P : (Chip → Nat) → β → Prop}
    {n : Chip → Option Nat} (h : LocksAfter P n) {p : CapturePair β}
    (hp : P (fun _ => 0) p.bus) :
    let r := Codec.configure p
    (r.result = .ok () ↔
      ∃ n0 n1, n .chip0 = some n0 ∧ n .chip1 = some n1 ∧ n0 + n1 ≤ 20) ∧
    (∀ n0 n1, n .chip0 = some n0 → n .chip1 = some n1 → n0 + n1 ≤ 20 →
      ∃ waited, r.wires = (clockSetup ++ waited ++ streamSetup).map .bus ∧
        waitedMs waited = n0 + n1 ∧ clockReadCount .chip0 waited = n0 + n1 + 1 ∧
        clockReadCount .chip1 waited = n1 + 1) ∧
    ((¬∃ n0 n1, n .chip0 = some n0 ∧ n .chip1 = some n1 ∧ n0 + n1 ≤ 20) →
      r.result = .error .clockLockTimeout ∧
      ∃ waited, r.wires = (clockSetup ++ waited).map .bus ∧
        waitedMs waited = 20 ∧ clockReadCount .chip0 waited = 21) := by
  intro r
  obtain ⟨answer, waited, hwaited, hanswer⟩ := h.counts_configure.exec hp
  have hresult : r.result = (configureProgram.exec p.bus).1 := rfl
  have hwires : r.wires = (configureProgram.exec p.bus).2.events.map .bus := rfl
  rw [hresult, hwires]
  cases hwaited with
  | locked h0 h1 htime hms hfirst hsecond =>
    obtain ⟨-, hok, hevents⟩ | ⟨hne, -⟩ := hanswer
    · rw [hok, hevents]
      refine ⟨iff_of_true rfl ⟨_, _, h0, h1, htime⟩, fun n0 n1 h0' h1' _ => ?_, fun hnot => ?_⟩
      · rw [h0] at h0'
        rw [h1] at h1'
        cases h0'
        cases h1'
        exact ⟨waited, rfl, hms, hfirst, hsecond⟩
      · exact absurd ⟨_, _, h0, h1, htime⟩ hnot
    · cases hne
  | timedOut hlate hms hfirst =>
    obtain ⟨hne, -⟩ | ⟨-, herror, hevents⟩ := hanswer
    · cases hne
    · have hnot : ¬∃ n0 n1, n .chip0 = some n0 ∧ n .chip1 = some n1 ∧ n0 + n1 ≤ 20 := by
        rintro ⟨n0, n1, h0, h1, htime⟩
        exact absurd (hlate n0 n1 h0 h1) (Nat.not_lt.mpr htime)
      rw [herror, hevents]
      refine ⟨iff_of_false (fun hok => nomatch hok) hnot, fun n0 n1 h0 h1 htime => ?_, fun _ => ?_⟩
      · exact absurd ⟨n0, n1, h0, h1, htime⟩ hnot
      · exact ⟨rfl, waited, rfl, hms, hfirst⟩

/-- The first clock is unlocked for eight reads, the second for `n1`. -/
def delayed (n1 : Nat) : Chip → Option Nat
  | .chip0 => some 8
  | .chip1 => some n1

/-- With delays of 8 and 12 there is just enough time, and with 8 and 13 there is not. -/
theorem lock_delays_add_up_just :
    Bench.Board.Counting (delayed 12) (fun _ => 0) { lockAfter := delayed 12 } ∧
      Bench.Board.Counting (delayed 13) (fun _ => 0) { lockAfter := delayed 13 } ∧
      (Codec.configure (CapturePair.mk { lockAfter := delayed 12 : Bench.Board })).result = .ok () ∧
      (∃ waited, (Codec.configure (CapturePair.mk
          { lockAfter := delayed 12 : Bench.Board })).wires =
            (clockSetup ++ waited ++ streamSetup).map .bus ∧
        waitedMs waited = 20 ∧ clockReadCount .chip0 waited = 21 ∧
        clockReadCount .chip1 waited = 13) ∧
      (Codec.configure (CapturePair.mk { lockAfter := delayed 13 : Bench.Board })).result =
        .error .clockLockTimeout := by
  have hboard (n1 : Nat) :
      Bench.Board.Counting (delayed n1) (fun _ => 0) { lockAfter := delayed n1 } :=
    ⟨rfl, rfl, rfl, rfl⟩
  obtain ⟨hok, hin, -⟩ := lock_delays_add_up (Bench.Board.locksAfter (delayed 12))
    (p := ⟨{ lockAfter := delayed 12 }⟩) (hboard 12)
  obtain ⟨-, -, hout⟩ := lock_delays_add_up (Bench.Board.locksAfter (delayed 13))
    (p := ⟨{ lockAfter := delayed 13 }⟩) (hboard 13)
  refine ⟨hboard 12, hboard 13, hok.mpr ⟨8, 12, rfl, rfl, by decide⟩, hin 8 12 rfl rfl (by decide),
    (hout ?_).1⟩
  rintro ⟨n0, n1, h0, h1, htime⟩
  cases h0
  cases h1
  omega

end CapturePair

end DuplexAudio
