/-
  The books of a loopback link.

  A loopback link stands in for a real one, and whoever tests an engine believes its counts: a
  second arming of the channels would show as a start too many.  This module says what can be
  believed, after every sequence of calls, and over any memory.

  1. **One call** — `Entered` lists what a call can do to a link, with the guard under which it does
     it.  Everything below is read off that list, and no proof below opens a call again
     (`Rig.entered`).

  2. **Every call** — the counts balance, what was accepted is valid, and a running link has a
     layout and regions (`Balanced.entered`, and along a run `Rig.balanced_run`).  The layout is the
     last one that was accepted (`Rig.config_run`).

  3. **One failure** — an attempt is a start that finds the link configured and at rest.  The first
     attempt after an injection meets the failure, and none after that (`Rig.attempts_eq`).

  4. **One half** — a block is stored in the half that was named, of the region that the link was
     armed with, and nowhere else (`captured_capture`).

  `books_kept` says it all of a link that starts out as new.
-/
import DuplexAudio.Link.Loopback

namespace DuplexAudio

namespace Loopback

variable {ρ : Type}

/-! ## Calls -/

/-- A call on a link or on its probe, or somebody else's write to memory. -/
inductive Use (ρ : Type) where
  | configure (config : FrameLayout)
  | start (rx tx : ρ)
  | stop
  | failNextStart (cause : LinkFailure)
  | capture (half : Half) (block : CaptureBlock)
  | playback (half : Half)
  /-- Memory is overwritten behind the back of the link. -/
  | store (memory : ρ → Buffers)

/-- What a call answers. -/
inductive Answer where
  | done
  | result (result : Except LinkFailure Unit)
  | stored (stored : Bool)
  | block (block : Option PlaybackBlock)

/-- A link and the memory around it. -/
structure Rig (ρ : Type) where
  link : Loopback ρ := {}
  memory : ρ → Buffers

namespace Rig

variable [DecidableEq ρ] (rig : Rig ρ)

/-- One call, with its answer. -/
def perform : Use ρ → Answer × Rig ρ
  | .configure config =>
    let (result, link) := rig.link.configure config
    (.result result, { rig with link })
  | .start rx tx =>
    let (result, link) := rig.link.start rx tx
    (.result result, { rig with link })
  | .stop => (.done, { rig with link := rig.link.stop })
  | .failNextStart e => (.done, { rig with link := rig.link.failNextStart e })
  | .capture half block =>
    let (stored, memory) := rig.link.capture rig.memory half block
    (.stored stored, { rig with memory })
  | .playback half => (.block (rig.link.playback rig.memory half), rig)
  | .store memory => (.done, { rig with memory })

/-- One call after the other. -/
def run (calls : List (Use ρ)) : Rig ρ := calls.foldl (fun rig call => (rig.perform call).2) rig

@[simp] theorem run_cons (call : Use ρ) (calls : List (Use ρ)) :
    rig.run (call :: calls) = (rig.perform call).2.run calls := rfl

end Rig

/-- The layout that a call gets accepted. -/
def Use.accepted? : Use ρ → Option FrameLayout
  | configure config =>
    match config.validate with
    | .ok () => some config
    | .error _ => none
  | _ => none

/-- Some call got a layout accepted. -/
def EverConfigured (calls : List (Use ρ)) : Prop :=
  ∃ config, Use.configure config ∈ calls ∧ config.validate = .ok ()

/-! ## What one call enters in the books -/

/-- What a call can do to a link. -/
inductive Entered (l : Loopback ρ) : Use ρ → Loopback ρ → Prop where
  | refused {config : FrameLayout} {e : LinkFailure} (h : config.validate = .error e) :
    Entered l (.configure config) l
  | accepted {config : FrameLayout} (h : config.validate = .ok ()) :
    Entered l (.configure config)
      { l with config := some config, configureCalls := l.configureCalls + 1 }
  | unconfigured {rx tx : ρ} (h : l.config = none) : Entered l (.start rx tx) l
  | already {rx tx : ρ} (h : l.running = true) : Entered l (.start rx tx) l
  | failed {rx tx : ρ} (hready : Ready l) {e : LinkFailure} (h : l.failStart = some e) :
    Entered l (.start rx tx) { l with failStart := none }
  | armed {rx tx : ρ} (hready : Ready l) (h : l.failStart = none) :
    Entered l (.start rx tx)
      { l with regions := some (rx, tx), running := true, startCalls := l.startCalls + 1 }
  | disarmed (h : l.running = true) :
    Entered l .stop { l with running := false, stopCalls := l.stopCalls + 1 }
  | idle (h : l.running = false) : Entered l .stop l
  | injected (e : LinkFailure) : Entered l (.failNextStart e) { l with failStart := some e }
  | captured (half : Half) (block : CaptureBlock) : Entered l (.capture half block) l
  | played (half : Half) : Entered l (.playback half) l
  | stored (memory : ρ → Buffers) : Entered l (.store memory) l

/-- The guards of a start, in the order in which it looks at them. -/
theorem entered_start (l : Loopback ρ) (rx tx : ρ) :
    Entered l (.start rx tx) (l.start rx tx).2 := by
  cases hconfig : l.config with
  | none =>
    rw [start_of_unconfigured rx tx hconfig]
    exact .unconfigured hconfig
  | some config =>
    have hconfigured : l.config.isSome = true := by rw [hconfig, Option.isSome_some]
    cases hrunning : l.running with
    | true =>
      rw [start_of_running rx tx hconfigured hrunning]
      exact .already hrunning
    | false =>
      have hready : Ready l := ⟨hconfigured, hrunning⟩
      cases hfail : l.failStart with
      | some e =>
        rw [start_of_failure rx tx hready hfail]
        exact .failed hready hfail
      | none =>
        rw [start_of_ready rx tx hready hfail]
        exact .armed hready hfail

namespace Rig

variable [DecidableEq ρ] (rig : Rig ρ)

/-- **One call**: all that it can do to the link. -/
theorem entered (call : Use ρ) : Entered rig.link call (rig.perform call).2.link := by
  cases call with
  | configure config =>
    show Entered _ _ (rig.link.configure config).2
    cases h : config.validate with
    | error e =>
      rw [configure_of_error _ h]
      exact .refused h
    | ok =>
      rw [configure_of_ok _ h]
      exact .accepted h
  | start rx tx => exact entered_start rig.link rx tx
  | stop =>
    show Entered _ _ rig.link.stop
    cases h : rig.link.running with
    | true =>
      rw [stop_of_running h]
      exact .disarmed h
    | false =>
      rw [stop_of_idle h]
      exact .idle h
  | failNextStart e => exact .injected e
  | capture half block => exact .captured half block
  | playback half => exact .played half
  | store memory => exact .stored memory

end Rig

/-! ## What every call keeps -/

/-- The books of a link balance. -/
structure Balanced (l : Loopback ρ) : Prop where
  /-- Every start but the one that is in force was stopped. -/
  calls : l.startCalls = l.stopCalls + if l.running then 1 else 0
  valid : ∀ config, l.config = some config → config.validate = .ok ()
  configured : l.running = true → l.config.isSome = true
  placed : l.running = true → l.regions.isSome = true

theorem balanced_new : Balanced ({} : Loopback ρ) where
  calls := rfl
  valid _ h := nomatch h
  configured h := nomatch h
  placed h := nomatch h

theorem Balanced.entered {l l' : Loopback ρ} {call : Use ρ} (hl : Balanced l)
    (h : Entered l call l') : Balanced l' := by
  have hcalls := hl.calls
  cases h with
  | accepted hvalid =>
    refine ⟨hcalls, ?_, fun _ => rfl, hl.placed⟩
    intro config hconfig
    cases hconfig
    exact hvalid
  | failed => exact ⟨hcalls, hl.valid, hl.configured, hl.placed⟩
  | armed hready =>
    -- it was at rest, so the counts were equal, and the one more is for the start in force
    refine ⟨?_, hl.valid, fun _ => hready.configured, fun _ => rfl⟩
    simp only [hready.atRest, Bool.false_eq_true, if_false, if_true] at hcalls ⊢
    omega
  | disarmed hrunning =>
    refine ⟨?_, hl.valid, nofun, nofun⟩
    simp only [hrunning, Bool.false_eq_true, if_false, if_true] at hcalls ⊢
    omega
  | injected e => exact ⟨hcalls, hl.valid, hl.configured, hl.placed⟩
  | refused | unconfigured | already | idle | captured | played | stored => exact hl

/-- An accepted layout replaces the one before, and nothing else touches it. -/
theorem Entered.config {l l' : Loopback ρ} {call : Use ρ} (h : Entered l call l') :
    l'.config = call.accepted?.or l.config := by
  cases h with
  | refused hvalid => simp only [Use.accepted?, hvalid, Option.none_or]
  | accepted hvalid => simp only [Use.accepted?, hvalid, Option.some_or]
  | _ => rfl

/-- Only a stop ends the running of a link, and while it runs its regions stay. -/
theorem Entered.regions {l l' : Loopback ρ} {call : Use ρ} (h : Entered l call l')
    (hrunning : l.running = true) (hcall : call ≠ .stop) :
    l'.running = true ∧ l'.regions = l.regions := by
  cases h with
  | disarmed | idle => exact absurd rfl hcall
  | failed hready | armed hready =>
    -- a link that runs is not ready
    have hrest := hready.atRest
    rw [hrunning] at hrest
    cases hrest
  | _ => exact ⟨hrunning, rfl⟩

namespace Rig

variable [DecidableEq ρ]

theorem balanced_run (calls : List (Use ρ)) {rig : Rig ρ} (h : Balanced rig.link) :
    Balanced (rig.run calls).link := by
  induction calls generalizing rig with
  | nil => exact h
  | cons call calls ih => exact ih (h.entered (rig.entered call))

/-- **The layout** is the last one that was accepted. -/
theorem config_run (calls : List (Use ρ)) (rig : Rig ρ) :
    (rig.run calls).link.config = (calls.reverse.findSome? Use.accepted?).or rig.link.config := by
  induction calls generalizing rig with
  | nil => rfl
  | cons call calls ih =>
    rw [run_cons, ih, (rig.entered call).config, List.reverse_cons, List.findSome?_append,
      Option.or_assoc, List.findSome?_singleton]

theorem regions_run (calls : List (Use ρ)) {rig : Rig ρ} (hrunning : rig.link.running = true)
    (hcalls : .stop ∉ calls) :
    (rig.run calls).link.running = true ∧ (rig.run calls).link.regions = rig.link.regions := by
  induction calls generalizing rig with
  | nil => exact ⟨hrunning, rfl⟩
  | cons call calls ih =>
    have hcall : call ≠ .stop := fun h => hcalls (h ▸ List.mem_cons_self)
    obtain ⟨hrunning', hregions⟩ := (rig.entered call).regions hrunning hcall
    obtain ⟨hlast, hsame⟩ := ih hrunning' (fun h => hcalls (List.mem_cons_of_mem call h))
    exact ⟨hlast, hsame.trans hregions⟩

end Rig

theorem Use.isSome_accepted? {call : Use ρ} : call.accepted?.isSome = true ↔
    ∃ config, call = .configure config ∧ config.validate = .ok () := by
  cases call with
  | configure config =>
    cases h : config.validate <;> simp [Use.accepted?, h]
  | _ => simp [Use.accepted?]

/-- A new link has a layout exactly if some call got one accepted. -/
theorem Rig.isSome_config_run [DecidableEq ρ] (memory : ρ → Buffers) (calls : List (Use ρ)) :
    (Rig.run { memory } calls).link.config.isSome = true ↔ EverConfigured calls := by
  rw [Rig.config_run, Option.or_none, List.findSome?_isSome_iff]
  constructor
  · rintro ⟨call, hcall, haccepted⟩
    obtain ⟨config, rfl, hvalid⟩ := Use.isSome_accepted?.mp haccepted
    exact ⟨config, List.mem_reverse.mp hcall, hvalid⟩
  · rintro ⟨config, hcall, hvalid⟩
    exact ⟨_, List.mem_reverse.mpr hcall, Use.isSome_accepted?.mpr ⟨config, rfl, hvalid⟩⟩

/-! ## One failure -/

/-- An attempt: what a start answers that finds the link configured and at rest. -/
def attempt? (l : Loopback ρ) : Use ρ → Option (Except LinkFailure Unit)
  | .start rx tx => if l.config.isSome && !l.running then some (l.start rx tx).1 else none
  | _ => none

theorem attempt?_start_of_ready {l : Loopback ρ} (h : Ready l) (rx tx : ρ) :
    l.attempt? (.start rx tx) = some (l.start rx tx).1 := by
  simp only [attempt?, h.configured, h.atRest, Bool.not_false, Bool.and_self, if_true]

/-- The attempts among a sequence of calls, in order. -/
def Rig.attempts [DecidableEq ρ] : Rig ρ → List (Use ρ) → List (Except LinkFailure Unit)
  | _, [] => []
  | rig, call :: calls => (rig.link.attempt? call).toList ++ (rig.perform call).2.attempts calls

/-- One call and a failure that is pending: it stays pending, or the call is an attempt that meets
it.  An attempt that meets none succeeds. -/
theorem Entered.attempt {l l' : Loopback ρ} {call : Use ρ} (h : Entered l call l')
    (hcall : ∀ e, call ≠ .failNextStart e) :
    (l.attempt? call = none ∧ l'.failStart = l.failStart) ∨
      (∃ e, l.failStart = some e ∧ l.attempt? call = some (.error e) ∧ l'.failStart = none) ∨
      (l.failStart = none ∧ l.attempt? call = some (.ok ()) ∧ l'.failStart = none) := by
  cases h with
  | unconfigured hconfig =>
    refine .inl ⟨?_, rfl⟩
    simp only [attempt?, hconfig, Option.isSome_none, Bool.false_and, Bool.false_eq_true, if_false]
  | already hrunning =>
    refine .inl ⟨?_, rfl⟩
    simp only [attempt?, hrunning, Bool.not_true, Bool.and_false, Bool.false_eq_true, if_false]
  | @failed rx tx hready e hfail =>
    refine .inr (.inl ⟨e, hfail, ?_, rfl⟩)
    rw [attempt?_start_of_ready hready, start_of_failure rx tx hready hfail]
  | @armed rx tx hready hfail =>
    refine .inr (.inr ⟨hfail, ?_, hfail⟩)
    rw [attempt?_start_of_ready hready, start_of_ready rx tx hready hfail]
  | injected e => exact absurd rfl (hcall e)
  | _ => exact .inl ⟨rfl, rfl⟩

/-- **A pending failure is met once**: the first attempt meets it, and all others succeed, until
another failure is injected. -/
theorem Rig.attempts_eq [DecidableEq ρ] (calls : List (Use ρ)) (rig : Rig ρ)
    (hcalls : ∀ e, .failNextStart e ∉ calls) :
    rig.attempts calls = [] ∨ ∃ n, rig.attempts calls =
      (rig.link.failStart.map Except.error).toList ++ List.replicate n (.ok ()) := by
  induction calls generalizing rig with
  | nil => exact .inl rfl
  | cons call calls ih =>
    have hcall (e : LinkFailure) : call ≠ .failNextStart e :=
      fun h => hcalls e (h ▸ List.mem_cons_self)
    have hlater := ih (rig.perform call).2 fun e h => hcalls e (List.mem_cons_of_mem call h)
    simp only [attempts]
    obtain ⟨hnone, hsame⟩ | ⟨e, hfail, hmet, hspent⟩ | ⟨hfail, hmet, hspent⟩ :=
      (rig.entered call).attempt hcall
    · rw [hnone]
      rw [hsame] at hlater
      exact hlater
    · -- with nothing pending any more, all that follows succeeds
      rw [hfail, hmet]
      rw [hspent] at hlater
      obtain hlater | ⟨n, hlater⟩ := hlater
      · exact .inr ⟨0, by rw [hlater]; rfl⟩
      · exact .inr ⟨n, by rw [hlater]; rfl⟩
    · rw [hfail, hmet]
      rw [hspent] at hlater
      obtain hlater | ⟨n, hlater⟩ := hlater
      · exact .inr ⟨1, by rw [hlater]; rfl⟩
      · exact .inr ⟨n + 1, by rw [hlater]; rfl⟩

/-! ## One half -/

/-- A block was stored in one half of one capture region, and nothing else was written. -/
structure Captured (rx : ρ) (half : Half) (block : CaptureBlock) (before after : ρ → Buffers) :
    Prop where
  stored : (after rx).capture.readHalf half = block
  otherHalf : (after rx).capture.readHalf half.other = (before rx).capture.readHalf half.other
  playback : ∀ r, (after r).playback = (before r).playback
  elsewhere : ∀ r, r ≠ rx → after r = before r

theorem capture_of_idle [DecidableEq ρ] {l : Loopback ρ} (h : l.running = false)
    (memory : ρ → Buffers) (half : Half) (block : CaptureBlock) :
    l.capture memory half block = (false, memory) := by
  simp only [capture, h]

theorem captured_capture [DecidableEq ρ] {l : Loopback ρ} (h : l.running = true) {rx tx : ρ}
    (hregions : l.regions = some (rx, tx)) (memory : ρ → Buffers) (half : Half)
    (block : CaptureBlock) :
    (l.capture memory half block).1 = true ∧
      Captured rx half block memory (l.capture memory half block).2 := by
  simp only [capture, h, hregions, true_and]
  refine ⟨?_, ?_, ?_, ?_⟩
  · simp only [if_true, Buffers.capture_writeCapture, DoubleBuffer.readHalf_writeHalf_self]
  · simp only [if_true, Buffers.capture_writeCapture]
    exact DoubleBuffer.readHalf_writeHalf_ne _ half.other_ne block
  · intro r
    split
    · exact Buffers.playback_writeCapture ..
    · rfl
  · intro r hr
    simp only [hr, if_false]

/-! ## The headline -/

/-- What can be relied on of a link and its books. -/
structure Rig.Kept [DecidableEq ρ] (calls : List (Use ρ)) (rig : Rig ρ) : Prop where
  /-- Every start but the one that is in force was stopped. -/
  balanced : rig.link.startCalls = rig.link.stopCalls + if rig.link.running then 1 else 0
  /-- A running link has a layout that was accepted, and regions. -/
  equipped : rig.link.running = true → ∃ config regions, rig.link.config = some config ∧
    config.validate = .ok () ∧ rig.link.regions = some regions
  /-- A layout that is refused changes nothing. -/
  refused : ∀ config e, config.validate = .error e →
    rig.perform (.configure config) = (.result (.error e), rig)
  /-- A start before any layout was accepted fails and changes nothing; a failure that is pending
  stays pending. -/
  unconfigured : ¬EverConfigured calls → ∀ rx tx,
    rig.perform (.start rx tx) = (.result (.error .notConfigured), rig)
  /-- A start that finds the link running succeeds and changes nothing either. -/
  already : rig.link.running = true → ∀ rx tx,
    rig.perform (.start rx tx) = (.result (.ok ()), rig)
  /-- Any other start meets a pending failure, which is spent then, and the link stays at rest. -/
  failing : EverConfigured calls → rig.link.running = false → ∀ e, rig.link.failStart = some e →
    ∀ rx tx, rig.perform (.start rx tx) =
      (.result (.error e), { rig with link := { rig.link with failStart := none } })
  /-- With none pending it arms the link. -/
  arming : EverConfigured calls → rig.link.running = false → rig.link.failStart = none →
    ∀ rx tx, rig.perform (.start rx tx) = (.result (.ok ()),
      { rig with link := { rig.link with
        regions := some (rx, tx), running := true, startCalls := rig.link.startCalls + 1 } })
  /-- An injected failure is met by the first attempt that follows, and by that one only. -/
  once : ∀ e later, (∀ e', .failNextStart e' ∉ later) →
    let attempts := (rig.perform (.failNextStart e)).2.attempts later
    attempts = [] ∨ ∃ n, attempts = .error e :: List.replicate n (.ok ())
  /-- The link runs over the same regions until it is stopped, whatever it is started over. -/
  placed : rig.link.running = true → ∀ later, .stop ∉ later →
    (rig.run later).link.running = true ∧ (rig.run later).link.regions = rig.link.regions
  /-- A running link stores a block in the half that was named, of the region that it receives
  into, and writes nothing else. -/
  captured : rig.link.running = true → ∃ rx tx, rig.link.regions = some (rx, tx) ∧
    ∀ half block, ∃ memory, Captured rx half block rig.memory memory ∧
      rig.perform (.capture half block) = (.stored true, { rig with memory })
  /-- A link at rest stores nothing. -/
  uncaptured : rig.link.running = false → ∀ half block,
    rig.perform (.capture half block) = (.stored false, rig)

/-- What is left once the books balance: the guards of each call, looked at in order. -/
theorem Balanced.kept [DecidableEq ρ] {rig : Rig ρ} {calls : List (Use ρ)}
    (hbalanced : Balanced rig.link)
    (hconfig : rig.link.config.isSome = true ↔ EverConfigured calls) : rig.Kept calls where
  balanced := hbalanced.calls
  equipped hrunning := by
    obtain ⟨config, hsome⟩ := Option.isSome_iff_exists.mp (hbalanced.configured hrunning)
    obtain ⟨regions, hregions⟩ := Option.isSome_iff_exists.mp (hbalanced.placed hrunning)
    exact ⟨config, regions, hsome, hbalanced.valid config hsome, hregions⟩
  refused config e h := by simp only [Rig.perform, configure_of_error rig.link h]
  unconfigured hnever rx tx := by
    have hnone : rig.link.config = none := by
      rw [← Option.not_isSome_iff_eq_none, hconfig]
      exact hnever
    simp only [Rig.perform, start_of_unconfigured rx tx hnone]
  already hrunning rx tx := by
    -- A start asks for a layout first, so here it matters that a running link has one.
    have hconfigured := hbalanced.configured hrunning
    simp only [Rig.perform, start_of_running rx tx hconfigured hrunning]
  failing hever hrest e hfail rx tx := by
    have hready : Ready rig.link := ⟨hconfig.mpr hever, hrest⟩
    simp only [Rig.perform, start_of_failure rx tx hready hfail]
  arming hever hrest hfail rx tx := by
    have hready : Ready rig.link := ⟨hconfig.mpr hever, hrest⟩
    simp only [Rig.perform, start_of_ready rx tx hready hfail]
  once e later hlater := Rig.attempts_eq later _ hlater
  placed hrunning later hlater := Rig.regions_run later hrunning hlater
  captured hrunning := by
    obtain ⟨⟨rx, tx⟩, hregions⟩ := Option.isSome_iff_exists.mp (hbalanced.placed hrunning)
    refine ⟨rx, tx, hregions, fun half block => ?_⟩
    obtain ⟨hstored, hcaptured⟩ := captured_capture hrunning hregions rig.memory half block
    exact ⟨_, hcaptured, by simp only [Rig.perform, hstored]⟩
  uncaptured hrest half block := by simp only [Rig.perform, capture_of_idle hrest]

/-- **The books of a loopback link can be believed**, after every sequence of calls on a link that
was new, and over any memory. -/
theorem books_kept [DecidableEq ρ] (memory : ρ → Buffers) (calls : List (Use ρ)) :
    (Rig.run { memory } calls).Kept calls :=
  (Rig.balanced_run calls balanced_new).kept (Rig.isSome_config_run memory calls)

/-- A layout that is refused, then one that is accepted; a failure; a start that meets it, one that
arms the link, and one over other regions that finds it running. -/
def rehearsal : List (Use Bool) :=
  [.configure { rxSlots := 0 }, .configure {}, .failNextStart (.dma .rx), .start false true,
    .start false true, .start true true]

/-- The link after the rehearsal. -/
def rehearsed : Rig Bool := Rig.run { memory := fun _ => Buffers.silence } rehearsal

theorem books_kept_rehearsed :
    rehearsed.link.running = true ∧ rehearsed.link.startCalls = 1 ∧
    rehearsed.link.regions = some (false, true) ∧
    rehearsed.perform (.start true true) = (.result (.ok ()), rehearsed) ∧
    Rig.attempts { memory := fun _ => Buffers.silence } rehearsal =
      [.error (.dma .rx), .ok ()] := by
  have hkept : rehearsed.Kept rehearsal := books_kept (fun _ => Buffers.silence) rehearsal
  have hrunning : rehearsed.link.running = true := rfl
  exact ⟨hrunning, rfl, rfl, hkept.already hrunning true true, rfl⟩

end Loopback

end DuplexAudio
