/-
  Converter blocks are switched on behind locked clocks only.

  1. **A poll and a wait** — a poll reads the clock of one converter and, if that is locked, of the
     other.  A wait ends with a poll that shows both locked, or when its time is over, or at a
     fault (`leaves_bothLocked`, `leaves_waitLocked`).

  2. **One script** — a configuration that nothing interrupts sets the clocks, watches them until
     both are locked, and then sets the stream (`Scripted`).  Every other one is this script cut
     short: by a fault after any part of it, or by the end of the wait (`leaves_configure`).

  3. So what may be said about the script up to some event may be said about every configuration.
     Blocks are switched on in the last four writes of the script (`prepared_of_scripted`).

  4. What is left in the registers when the wait is over is what the clocks were set with, since
     watching writes nothing.

  `blocks_behind_lock` is the headline, for every bus, whatever it fails and whatever it reads.
-/
import Mathlib.Control.Monad.Basic
import DuplexAudio.Codec.CapturePair
import DuplexAudio.Proofs.Codec.RegisterFiles

namespace DuplexAudio

section Split

variable {α : Type} {P : α → Prop} {first second before rest : List α} {e : α}

/-- An element that the first part has none of is in the second. -/
theorem prefix_of_append_eq (hfirst : ∀ x ∈ first, ¬P x) (he : P e)
    (h : first ++ second = before ++ e :: rest) : first <+: before := by
  rcases List.append_eq_append_iff.mp h with ⟨more, hbefore, -⟩ | ⟨more, hmore, hsecond⟩
  · exact ⟨more, hbefore.symm⟩
  · cases more with
    | nil => exact ⟨[], by rw [hmore, List.append_nil, List.append_nil]⟩
    | cons x more =>
      obtain ⟨rfl, -⟩ := List.cons.inj hsecond
      refine absurd he (hfirst e ?_)
      rw [hmore]
      exact List.mem_append_right _ List.mem_cons_self

/-- An element that the second part has none of is in the first. -/
theorem exists_of_append_eq (hsecond : ∀ x ∈ second, ¬P x) (he : P e)
    (h : first ++ second = before ++ e :: rest) : ∃ more, first = before ++ e :: more := by
  have hnot (more : List α) : more ++ e :: rest ≠ second := by
    rintro rfl
    exact hsecond e (List.mem_append_right _ List.mem_cons_self) he
  rcases List.append_eq_append_iff.mp h with ⟨more, -, hmore⟩ | ⟨more, hfirst, hmore⟩
  · exact absurd hmore.symm (hnot more)
  · cases more with
    | nil => exact absurd hmore (hnot [])
    | cons x more =>
      obtain ⟨rfl, -⟩ := List.cons.inj hmore
      exact ⟨more, hfirst⟩

end Split

theorem CodecFailure.ofBusFault_ne_clockLockTimeout (fault : BusFault) :
    ofBusFault fault ≠ clockLockTimeout := by
  cases fault <;> decide

namespace BusEvent

/-- A transaction that failed. -/
def Fails : BusEvent → Prop
  | fault _ _ => True
  | write _ _ _ | read _ _ _ | pause _ => False

/-- The blocks of a converter are switched on. -/
def PowersOn : BusEvent → Prop
  | write _ register value => register = Register.blockPower ∧ value = allBlocks
  | read _ _ _ | fault _ _ | pause _ => False

instance (e : BusEvent) : Decidable e.Fails := by
  cases e <;> unfold Fails <;> infer_instance

instance (e : BusEvent) : Decidable e.PowersOn := by
  cases e <;> unfold PowersOn <;> infer_instance

theorem Watches.not_fails {e : BusEvent} (h : e.Watches) : ¬e.Fails := by
  cases e with
  | read | pause => exact id
  | write | fault => exact h.elim

theorem Watches.not_powersOn {e : BusEvent} (h : e.Watches) : ¬e.PowersOn := by
  cases e with
  | read | pause => exact id
  | write | fault => exact h.elim

end BusEvent

namespace CapturePair

open BusProgram

variable {β : Type} [ControlBus β]

/-! ## Polls -/

/-- A value of the clock register that shows lock. -/
def Locked (value : UInt8) : Prop := value &&& lockFlag ≠ 0

instance (value : UInt8) : Decidable (Locked value) := by unfold Locked; infer_instance

/-- A poll of both converters. -/
def clockReads (v0 v1 : UInt8) : List BusEvent :=
  [.read Chip.chip0.address Register.clock v0, .read Chip.chip1.address Register.clock v1]

theorem watching_clockReads (v0 v1 : UInt8) : Watching (clockReads v0 v1) :=
  List.forall_mem_cons.mpr ⟨trivial, List.forall_mem_singleton.mpr trivial⟩

/-- What a poll answers and does. -/
inductive Polled : Except CodecFailure Bool → List BusEvent → Prop
  | locked {v0 v1 : UInt8} : Locked v0 → Locked v1 → Polled (.ok true) (clockReads v0 v1)
  | unlocked {events : List BusEvent} : Watching events → Polled (.ok false) events
  | broken {result events} : Breaks Watching result events → Polled result events

/-- What a wait for the clocks answers and does. -/
inductive Waited : Except CodecFailure Unit → List BusEvent → Prop
  | locked {polls : List BusEvent} {v0 v1 : UInt8} : Watching polls → Locked v0 → Locked v1 →
      Waited (.ok ()) (polls ++ clockReads v0 v1)
  | timedOut {polls : List BusEvent} : Watching polls → Waited (.error .clockLockTimeout) polls
  | broken {result events} : Breaks Watching result events → Waited result events

/-- What was watched before a wait is part of it. -/
theorem Waited.after {before events : List BusEvent} {result : Except CodecFailure Unit}
    (h : Waited result events) (hbefore : Watching before) : Waited result (before ++ events) := by
  cases h with
  | locked hpolls h0 h1 =>
    rw [← List.append_assoc]
    exact .locked (hbefore.append hpolls) h0 h1
  | timedOut hpolls => exact .timedOut (hbefore.append hpolls)
  | broken hbreaks => exact .broken (hbreaks.after fun done hdone => hbefore.append hdone)

theorem leaves_isLocked (chip : Chip) :
    Leaves (isLocked chip : BusProgram β Bool) fun result events =>
      (∃ value, result = .ok (decide (Locked value)) ∧
        events = [.read chip.address Register.clock value]) ∨ Breaks (· = []) result events := by
  refine (leaves_read chip.address Register.clock).bind ?_ ?_
  · rintro e events (⟨value, hresult, -⟩ | hbreaks)
    · cases hresult
    · exact .inr hbreaks.of_error
  · rintro value first (⟨_, hvalue, rfl⟩ | hbreaks)
    · cases hvalue
      refine (leaves_pure _).mono ?_
      rintro result second ⟨rfl, rfl⟩
      exact .inl ⟨value, rfl, rfl⟩
    · exact hbreaks.not_ok.elim

theorem watching_nil : ∀ done : List BusEvent, done = [] → Watching done := by
  rintro _ rfl
  exact List.forall_mem_nil _

theorem leaves_bothLocked : Leaves (bothLocked : BusProgram β Bool) Polled := by
  have hread (chip : Chip) (value : UInt8) :
      Watching [.read chip.address Register.clock value] := by
    intro e he
    rw [List.mem_singleton.mp he]
    exact trivial
  refine (leaves_isLocked .chip0).bind ?_ ?_
  · rintro e events (⟨value, hresult, -⟩ | hbreaks)
    · cases hresult
    · exact .broken (hbreaks.mono watching_nil)
  · rintro locked first (⟨v0, hlocked, rfl⟩ | hbreaks)
    · cases hlocked
      by_cases h0 : Locked v0
      · rw [decide_eq_true h0]
        refine (leaves_isLocked .chip1).mono ?_
        rintro result second (⟨v1, rfl, rfl⟩ | hbreaks)
        · by_cases h1 : Locked v1
          · rw [decide_eq_true h1]
            exact .locked h0 h1
          · rw [decide_eq_false h1]
            exact .unlocked ((hread .chip0 v0).append (hread .chip1 v1))
        · exact .broken (hbreaks.after fun done hdone =>
            (hread .chip0 v0).append (watching_nil done hdone))
      · rw [decide_eq_false h0]
        refine (leaves_pure false).mono ?_
        rintro result second ⟨rfl, rfl⟩
        exact .unlocked (hread .chip0 v0)
    · exact hbreaks.not_ok.elim

omit [ControlBus β] in
/-- A poll that shows both locked ends the wait. -/
theorem leaves_locked {v0 v1 : UInt8} (h0 : Locked v0) (h1 : Locked v1) :
    Leaves (pure () : BusProgram β Unit) fun result second =>
      Waited result (clockReads v0 v1 ++ second) := by
  have hnone : Watching ([] : List BusEvent) := List.forall_mem_nil _
  refine (leaves_pure ()).mono ?_
  rintro result second ⟨rfl, rfl⟩
  exact .locked hnone h0 h1

/-- **Induction on the milliseconds left**: what is done before the last poll is watching. -/
theorem leaves_waitLocked (budget : Nat) :
    Leaves (waitLocked budget : BusProgram β Unit) Waited := by
  induction budget with
  | zero =>
    refine leaves_bothLocked.bind ?_ ?_
    · rintro e events (_ | _ | hbreaks)
      exact .broken hbreaks.of_error
    · rintro locked first hpolled
      cases hpolled with
      | locked h0 h1 => exact leaves_locked h0 h1
      | unlocked hwatching =>
        refine (leaves_fail _).mono ?_
        rintro result second ⟨rfl, rfl⟩
        rw [List.append_nil]
        exact .timedOut hwatching
      | broken hbreaks => exact hbreaks.not_ok.elim
  | succ budget ih =>
    refine leaves_bothLocked.bind ?_ ?_
    · rintro e events (_ | _ | hbreaks)
      exact .broken hbreaks.of_error
    · rintro locked first hpolled
      cases hpolled with
      | locked h0 h1 => exact leaves_locked h0 h1
      | unlocked hwatching =>
        refine (leaves_pause 1).bind ?_ ?_
        · rintro e events ⟨hresult, -⟩
          cases hresult
        · rintro _ _ ⟨-, rfl⟩
          refine ih.mono fun result rest hwaited => ?_
          rw [← List.append_assoc]
          exact hwaited.after (hwatching.append (List.forall_mem_singleton.mpr trivial))
      | broken hbreaks => exact hbreaks.not_ok.elim

/-! ## The script -/

/-- The clocks are set. -/
def clockSetup : List BusEvent := clockWrites.map .ofWrite

/-- The stream is set. -/
def streamSetup : List BusEvent := streamWrites.map .ofWrite

/-- All that a configuration does when nothing interrupts it. -/
inductive Scripted : List BusEvent → Prop
  | intro {polls : List BusEvent} {v0 v1 : UInt8} : Watching polls → Locked v0 → Locked v1 →
      Scripted (clockSetup ++ (polls ++ clockReads v0 v1) ++ streamSetup)

/-- What a configuration answers and does. -/
inductive Configured : Except CodecFailure Unit → List BusEvent → Prop
  | completed {events : List BusEvent} : Scripted events → Configured (.ok ()) events
  | timedOut {polls : List BusEvent} : Watching polls →
      Configured (.error .clockLockTimeout) (clockSetup ++ polls)
  | broken {result events} : Breaks (fun done => ∃ all, Scripted all ∧ done <+: all) result events →
      Configured result events

/-- As long as the clocks are watched, they may lock in the end. -/
theorem exists_scripted {polls done : List BusEvent} (hpolls : Watching polls)
    (h : done <+: clockSetup ++ polls) : ∃ all, Scripted all ∧ done <+: all := by
  have hlocked : Locked lockFlag := by unfold Locked; decide
  refine ⟨_, .intro hpolls hlocked hlocked, h.trans ?_⟩
  rw [← List.append_assoc, List.append_assoc _ (clockReads _ _)]
  exact List.prefix_append _ _

/-- **Every configuration is the script, whole or cut short.** -/
theorem leaves_configure : Leaves (configureProgram : BusProgram β Unit) Configured := by
  have hnone : Watching ([] : List BusEvent) := List.forall_mem_nil _
  refine (leaves_writeAll clockWrites).bind ?_ ?_
  · rintro e events (⟨hresult, -⟩ | hbreaks)
    · cases hresult
    · refine .broken (hbreaks.mono fun done hdone => exists_scripted hnone ?_)
      rwa [List.append_nil]
  · rintro _ first (⟨-, rfl⟩ | hbreaks)
    · refine (leaves_waitLocked lockTimeoutMs).bind ?_ ?_
      · rintro e events (_ | hpolls | hbreaks)
        · exact .timedOut hpolls
        · exact .broken (hbreaks.after fun done hdone => exists_scripted hdone List.prefix_rfl)
      · rintro _ waited (⟨hpolls, h0, h1⟩ | _ | hbreaks)
        · refine (leaves_writeAll streamWrites).mono ?_
          rintro result rest (⟨rfl, rfl⟩ | hbreaks)
          · rw [← List.append_assoc]
            exact .completed (.intro hpolls h0 h1)
          · rw [← List.append_assoc]
            exact .broken (hbreaks.after fun done hdone =>
              ⟨_, .intro hpolls h0 h1, (List.prefix_append_right_inj _).mpr hdone⟩)
        · exact hbreaks.not_ok.elim
    · exact hbreaks.not_ok.elim

/-- What has been done before blocks may be switched on: first the blocks of both converters were
switched off and their power and clocks set, then one poll showed both clocks locked, and then the
serial interface and all slots of both were set. -/
def Prepared (before : List BusEvent) : Prop :=
  ∃ started v0 v1 set, before = started ++ clockReads v0 v1 ++ set ∧ Locked v0 ∧ Locked v1 ∧
    ∀ chip : Chip,
      (.write chip.address Register.blockPower 0x00 ∈ started ∧
        .write chip.address Register.power 0x01 ∈ started ∧
        .write chip.address Register.clock 0x41 ∈ started ∧
        .write chip.address Register.clock2 0x00 ∈ started ∧
        .write chip.address Register.clock3 0x00 ∈ started) ∧
      .write chip.address Register.serial 0x48 ∈ set ∧
      ∀ register ∈ Register.slots, ∃ value ∈ chip.slotMap,
        .write chip.address register value ∈ set

/-- The part of the stream that is set before the blocks are switched on. -/
def slotSetup : List BusEvent :=
  (broadcast Register.serial serialSetting ++ slotWrites .chip0 ++ slotWrites .chip1).map .ofWrite

theorem streamSetup_eq : streamSetup = slotSetup ++
    (broadcast Register.blockPower allBlocks ++ broadcast Register.misc unmuteFlag).map .ofWrite :=
  rfl

/-- Setting the clocks touches neither the serial interface nor a slot. -/
theorem register_of_mem_clockSetup {address register value : UInt8}
    (h : .write address register value ∈ clockSetup) :
    register ≠ Register.serial ∧ register ∉ Register.slots := by
  have hall : clockWrites.all fun w =>
      w.2.1 ≠ Register.serial ∧ w.2.1 ∉ Register.slots := by decide
  obtain ⟨w, hw, heq⟩ := List.mem_map.mp h
  cases heq
  exact of_decide_eq_true (List.all_eq_true.mp hall w hw)

/-- Setting the clocks leaves the blocks of both converters switched off. -/
theorem replay_clockSetup_blockPower (files : Chip → UInt8 → UInt8) (chip : Chip) :
    replay clockSetup files chip Register.blockPower = 0x00 := by
  rw [clockSetup, replay_ofWrite]
  cases chip <;> rfl

theorem clockSetup_not_powersOn : ∀ e ∈ clockSetup, ¬e.PowersOn := by decide

theorem slotSetup_not_powersOn : ∀ e ∈ slotSetup, ¬e.PowersOn := by decide

/-- **In the script, blocks are switched on when all is prepared.** -/
theorem prepared_of_scripted {all before rest : List BusEvent} {e : BusEvent} (h : Scripted all)
    (he : e.PowersOn) (hall : all = before ++ e :: rest) : Prepared before := by
  obtain @⟨polls, v0, v1, hpolls, h0, h1⟩ := h
  rw [streamSetup_eq, ← List.append_assoc] at hall
  have hoff : ∀ x ∈ clockSetup ++ (polls ++ clockReads v0 v1) ++ slotSetup,
      ¬x.PowersOn :=
    List.forall_mem_append.mpr ⟨List.forall_mem_append.mpr ⟨clockSetup_not_powersOn,
      fun x hx => (hpolls.append (watching_clockReads v0 v1) x hx).not_powersOn⟩,
      slotSetup_not_powersOn⟩
  obtain ⟨more, rfl⟩ := prefix_of_append_eq hoff he hall
  refine ⟨clockSetup ++ polls, v0, v1, slotSetup ++ more, ?_, h0, h1, fun chip => ?_⟩
  · simp only [List.append_assoc]
  · have hclocks : BusEvent.write chip.address Register.blockPower 0x00 ∈ clockSetup ∧
        BusEvent.write chip.address Register.power 0x01 ∈ clockSetup ∧
        BusEvent.write chip.address Register.clock 0x41 ∈ clockSetup ∧
        BusEvent.write chip.address Register.clock2 0x00 ∈ clockSetup ∧
        BusEvent.write chip.address Register.clock3 0x00 ∈ clockSetup := by
      cases chip <;> decide
    have hserial : BusEvent.write chip.address Register.serial 0x48 ∈ slotSetup := by
      cases chip <;> decide
    have hslots : ∀ register ∈ Register.slots, ∃ value ∈ chip.slotMap,
        BusEvent.write chip.address register value ∈ slotSetup := by
      cases chip <;> decide +kernel
    obtain ⟨hoff, hpower, hclock, hclock2, hclock3⟩ := hclocks
    refine ⟨⟨List.mem_append_left _ hoff, List.mem_append_left _ hpower,
      List.mem_append_left _ hclock, List.mem_append_left _ hclock2,
      List.mem_append_left _ hclock3⟩, List.mem_append_left _ hserial, fun register hregister => ?_⟩
    obtain ⟨value, hvalue, hmem⟩ := hslots register hregister
    exact ⟨value, hvalue, List.mem_append_left _ hmem⟩

/-- Nothing fails in the script. -/
theorem not_fails_of_scripted {all : List BusEvent} (h : Scripted all) : ∀ e ∈ all, ¬e.Fails := by
  obtain ⟨hpolls, -, -⟩ := h
  have hclocks : ∀ e ∈ clockSetup, ¬e.Fails := by decide
  have hstream : ∀ e ∈ streamSetup, ¬e.Fails := by decide
  exact List.forall_mem_append.mpr ⟨List.forall_mem_append.mpr ⟨hclocks,
    fun e he => (hpolls.append (watching_clockReads _ _) e he).not_fails⟩, hstream⟩

/-! ## What may be said about every configuration -/

section Configured

variable {result : Except CodecFailure Unit} {events : List BusEvent}

/-- What a configuration did is part of a script, and perhaps a fault after it. -/
theorem Configured.scripted (h : Configured result events) :
    ∃ done all last, Scripted all ∧ done <+: all ∧ events = done ++ last ∧
      (last = [] ∨ ∃ address fault, last = [.fault address fault] ∧
        result = .error (.ofBusFault fault)) := by
  cases h with
  | completed h => exact ⟨events, events, [], h, List.prefix_rfl, by simp, .inl rfl⟩
  | timedOut hpolls =>
    obtain ⟨all, hall, hpart⟩ := exists_scripted hpolls List.prefix_rfl
    exact ⟨_, all, [], hall, hpart, by simp, .inl rfl⟩
  | broken h =>
    obtain ⟨done, address, fault, ⟨all, hall, hpart⟩, hevents, hresult⟩ := h
    exact ⟨done, all, _, hall, hpart, hevents, .inr ⟨address, fault, rfl, hresult⟩⟩

/-- A fault is the last thing that is done, and what is answered. -/
theorem Configured.fault_last (h : Configured result events) {before rest : List BusEvent}
    {address : UInt8} {fault : BusFault} (hevents : events = before ++ .fault address fault :: rest) :
    rest = [] ∧ result = .error (.ofBusFault fault) := by
  obtain ⟨done, all, last, hall, hpart, hdone, hlast⟩ := h.scripted
  have hnone : ∀ e ∈ done, ¬e.Fails := fun e he => not_fails_of_scripted hall e (hpart.mem he)
  have hfails : (BusEvent.fault address fault).Fails := trivial
  rw [hdone] at hevents
  obtain ⟨more, rfl⟩ := prefix_of_append_eq hnone hfails hevents
  rw [List.append_assoc, List.append_cancel_left_eq] at hevents
  rcases hlast with rfl | ⟨address', fault', rfl, hresult⟩
  · simp at hevents
  · cases more with
    | nil =>
      cases hevents
      exact ⟨rfl, hresult⟩
    | cons x more => simp at hevents

/-- Blocks are switched on when all is prepared. -/
theorem Configured.prepared (h : Configured result events) {before rest : List BusEvent}
    {e : BusEvent} (he : e.PowersOn) (hevents : events = before ++ e :: rest) : Prepared before := by
  obtain ⟨done, all, last, hall, ⟨later, rfl⟩, hdone, hlast⟩ := h.scripted
  have hnone : ∀ x ∈ last, ¬x.PowersOn := by
    rcases hlast with rfl | ⟨address, fault, rfl, -⟩
    · exact List.forall_mem_nil _
    · exact List.forall_mem_singleton.mpr id
  rw [hdone] at hevents
  obtain ⟨more, rfl⟩ := exists_of_append_eq hnone he hevents
  rw [List.append_assoc, List.cons_append] at hall
  exact prepared_of_scripted hall he rfl

/-- A failure is that of a transaction, or the clocks did not lock in time. -/
theorem Configured.failure {e : CodecFailure} (h : Configured (.error e) events) :
    e = .clockLockTimeout ∨ ∃ before address fault,
      events = before ++ [.fault address fault] ∧ e = .ofBusFault fault := by
  cases h with
  | timedOut => exact .inl rfl
  | broken h =>
    obtain ⟨before, address, fault, -, hevents, hfault⟩ := h
    exact .inr ⟨before, address, fault, hevents, Except.error.inj hfault⟩

/-- What succeeds is the whole script. -/
theorem Configured.scripted_of_ok (h : Configured (.ok ()) events) : Scripted events := by
  cases h with
  | completed h => exact h
  | broken h => exact h.not_ok.elim

/-- What succeeds has switched the blocks of both converters on. -/
theorem Configured.powersOn_of_ok (h : Configured (.ok ()) events) (chip : Chip) :
    .write chip.address Register.blockPower allBlocks ∈ events := by
  obtain ⟨-, -, -⟩ := h.scripted_of_ok
  refine List.mem_append_right _ ?_
  cases chip <;> decide

/-- When the wait is over, the clocks were set and watched. -/
theorem Configured.timeout (h : Configured result events)
    (hresult : result = .error .clockLockTimeout) :
    ∃ polls, Watching polls ∧ events = clockSetup ++ polls := by
  cases h with
  | completed => cases hresult
  | timedOut hpolls => exact ⟨_, hpolls, rfl⟩
  | broken h =>
    obtain ⟨_, _, fault, _, _, hfault⟩ := h
    rw [hresult] at hfault
    exact absurd (Except.error.inj hfault).symm (CodecFailure.ofBusFault_ne_clockLockTimeout fault)

end Configured

/-! ## Registers -/

section Registers

variable [RegisterFiles β]

theorem faithful_isLocked (chip : Chip) : Faithful (isLocked chip : BusProgram β Bool) :=
  (faithful_read _ _).bind fun _ => faithful_pure _

theorem faithful_bothLocked : Faithful (bothLocked : BusProgram β Bool) := by
  refine (faithful_isLocked .chip0).bind ?_
  rintro (_ | _)
  · exact faithful_pure false
  · exact faithful_isLocked .chip1

theorem faithful_waitLocked (budget : Nat) : Faithful (waitLocked budget : BusProgram β Unit) := by
  induction budget with
  | zero =>
    refine faithful_bothLocked.bind ?_
    rintro (_ | _)
    · exact faithful_fail _
    · exact faithful_pure ()
  | succ budget ih =>
    refine faithful_bothLocked.bind ?_
    rintro (_ | _)
    · exact (faithful_pause 1).bind fun _ => ih
    · exact faithful_pure ()

theorem faithful_configure : Faithful (configureProgram : BusProgram β Unit) :=
  (faithful_writeAll clockWrites).bind fun _ => (faithful_waitLocked lockTimeoutMs).bind fun _ =>
    faithful_writeAll streamWrites

/-- **Converter blocks are switched on behind locked clocks only.**  For every bus with register
files, whatever it fails, whatever its registers hold and whatever its reads show, all that a
configuration does is done on the bus, the registers are what this makes of them, and
(1) the first transaction that fails is the last that is made, and its classification is what is
    answered;
(2) no other failure is answered, but that the clocks did not lock in time;
(3) before the blocks of either converter are switched on, those of both were switched off, the
    power and clock registers of both were set, then one poll showed the lock flag of both, and then
    the serial interface and all four slots of both were set;
(4) when the clocks did not lock in time, the blocks of both are left switched off, and neither the
    serial interface nor a slot was set;
(5) when it succeeds, the blocks of both were switched on. -/
theorem blocks_behind_lock (p : CapturePair β) :
    let r := Codec.configure p
    ∃ events : List BusEvent, r.wires = events.map .bus ∧
      registers r.device.bus = replay events (registers p.bus) ∧
      (∀ before address fault rest, events = before ++ .fault address fault :: rest →
        rest = [] ∧ r.result = .error (.ofBusFault fault)) ∧
      (∀ e, r.result = .error e → e = .clockLockTimeout ∨
        ∃ before address fault, events = before ++ [.fault address fault] ∧
          e = .ofBusFault fault) ∧
      (∀ before address rest,
        events = before ++ .write address Register.blockPower 0x0f :: rest → Prepared before) ∧
      (r.result = .error .clockLockTimeout →
        (∀ chip, registers r.device.bus chip Register.blockPower = 0x00) ∧
        ∀ address register value, .write address register value ∈ events →
          register ≠ Register.serial ∧ register ∉ Register.slots) ∧
      (r.result = .ok () →
        ∀ chip : Chip, .write chip.address Register.blockPower 0x0f ∈ events) := by
  intro r
  have hconfigured := leaves_configure.exec p.bus
  have hregisters := faithful_configure.exec p.bus
  refine ⟨(configureProgram.exec p.bus).2.events, rfl, hregisters,
    fun before address fault rest hevents => hconfigured.fault_last hevents, fun e he => ?_,
    fun before address rest hevents =>
      hconfigured.prepared (e := .write address Register.blockPower 0x0f) ⟨rfl, rfl⟩ hevents,
    fun htimeout => ?_, fun hok chip => ?_⟩
  · have hfailed : (configureProgram.exec p.bus).1 = .error e := he
    rw [hfailed] at hconfigured
    exact hconfigured.failure
  · obtain ⟨polls, hpolls, hevents⟩ := hconfigured.timeout htimeout
    constructor
    · intro chip
      show registers (configureProgram.exec p.bus).2.bus chip Register.blockPower = 0x00
      rw [hregisters, hevents, replay_append, replay_watching hpolls, replay_clockSetup_blockPower]
    · rw [hevents]
      intro address register value hmem
      rcases List.mem_append.mp hmem with hwrite | hpoll
      · exact register_of_mem_clockSetup hwrite
      · exact (hpolls _ hpoll).elim
  · have hsucceeded : (configureProgram.exec p.bus).1 = .ok () := hok
    rw [hsucceeded] at hconfigured
    exact hconfigured.powersOn_of_ok chip

/-- A board that was left switched on.  Its first converter locks late, its second never. -/
def strayBoard : Bench.Board where
  registers _ _ := allBlocks
  lockAfter chip := if chip = .chip0 then some 3 else none

/-- The blocks of the stray board are left switched off. -/
theorem blocks_behind_lock_stray :
    (Codec.configure (CapturePair.mk strayBoard)).result = .error .clockLockTimeout ∧
      registers strayBoard .chip1 Register.blockPower = 0x0f ∧
      registers (Codec.configure (CapturePair.mk strayBoard)).device.bus .chip1
        Register.blockPower = 0x00 := by
  have htimeout : (Codec.configure (CapturePair.mk strayBoard)).result =
      .error .clockLockTimeout := by decide +kernel
  obtain ⟨events, -, -, -, -, -, hleft, -⟩ := blocks_behind_lock (CapturePair.mk strayBoard)
  have hoff := (hleft htimeout).1 .chip1
  refine ⟨htimeout, ?_, hoff⟩
  rfl

end Registers

end CapturePair

end DuplexAudio
