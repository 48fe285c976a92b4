/-
  Which failures of the converters are fatal to a start.

  A start asks the codec up to five times, on several paths: to mute, perhaps to identify the
  converters, to configure them, and to unmute.  A failure is meant to be fatal to the start that
  met it.

  1. **What was asked** is read off the journal (`codecCalls`).  As a codec changes only in its
     calls, what it answered is known from where it was before: `Consulted e e' calls` says that
     `calls` were made on the way from `e` to `e'` and that the codec is what they leave of it.

  2. **A failure other than of the mute line** ends the part of the start that met it, and is what
     the start answers.  `Strict` says so of a part, and `Strict.after` puts parts together, so each
     exit is looked at once.

  3. **A failure of the mute line** is logged by `mute` and lost.  So there is exactly one way for
     a start to survive a failure: it succeeds, with a call to mute or to unmute that failed
     (`codec_failure_fatal_iff`).  `runs_on_dead_mute_line` is such a start: the engine runs, and
     none of its commands to mute had an effect.
-/
import DuplexAudio.Proofs.Codec.Calls
import DuplexAudio.Proofs.Engine.ClickFree

namespace DuplexAudio

/-! ## Answers of a codec -/

namespace Codec

variable {σ : Type} [Codec σ]

/-- No call failed but calls to mute or unmute. -/
def OnlyMutesFail (calls : List CodecCall) (d : σ) : Prop :=
  ∀ call cause, (call, .error cause) ∈ answers calls d → call.isMute = true

theorem OnlyMutesFail.nil (d : σ) : OnlyMutesFail [] d :=
  fun _ _ hmem => absurd hmem List.not_mem_nil

theorem OnlyMutesFail.mute (mute : Bool) (d : σ) : OnlyMutesFail [.setMute mute] d := by
  intro call cause hmem
  rw [(Prod.mk.inj (List.mem_singleton.mp hmem)).1]
  rfl

end Codec

/-- The call on the codec in an event, if it is one. -/
def EngineEvent.codecCall? : EngineEvent → Option CodecCall
  | .codec call _ => some call
  | .link _ | .spawned | .joined | .wire _ | .interrupt _ _ | .stream _ | .notice _ => none

namespace Engine

variable {σ τ π η : Type} {e e' e'' : Engine σ τ π η} {calls calls' : List CodecCall}

/-! ## What was asked -/

/-- The calls on the codec that were made since an engine was as `e`. -/
def codecCalls (e e' : Engine σ τ π η) : List CodecCall :=
  (e'.journal.drop e.journal.length).filterMap EngineEvent.codecCall?

section Codec

variable [Codec σ]

/-- Exactly these calls were made on the codec, and nothing else changed it. -/
structure Consulted (e e' : Engine σ τ π η) (calls : List CodecCall) : Prop where
  asked : ∃ cs, Commanded e e' cs ∧ cs.filterMap EngineEvent.codecCall? = calls
  codec : e'.codec = Codec.afterCalls calls e.codec

namespace Consulted

theorem refl (e : Engine σ τ π η) : Consulted e e [] := ⟨⟨[], .refl e, rfl⟩, rfl⟩

theorem trans (h : Consulted e e' calls) (h' : Consulted e' e'' calls') :
    Consulted e e'' (calls ++ calls') := by
  obtain ⟨⟨cs, hcs, rfl⟩, hcodec⟩ := h
  obtain ⟨⟨cs', hcs', rfl⟩, hcodec'⟩ := h'
  refine ⟨⟨cs ++ cs', hcs.trans hcs', List.filterMap_append⟩, ?_⟩
  rw [Codec.afterCalls_append, ← hcodec]
  exact hcodec'

/-- What does not ask the codec anything. -/
theorem aside {cs : Journal} (h : Consulted e e' calls) (hgiven : Commanded e' e'' cs)
    (hnone : cs.filterMap EngineEvent.codecCall? = []) (hcodec : e''.codec = e'.codec) :
    Consulted e e'' calls := by
  have hboth := h.trans (⟨⟨cs, hgiven, hnone⟩, hcodec⟩ : Consulted e' e'' [])
  rwa [List.append_nil] at hboth

theorem log (h : Consulted e e' calls) (n : Notice) : Consulted e (e'.log n) calls :=
  h.aside ((Commanded.refl e').log n) rfl rfl

theorem fail (h : Consulted e e' calls) (cause : EngineFailure) :
    Consulted e (e'.fail cause) calls := h.aside ((Commanded.refl e').fail cause) rfl rfl

/-- The calls can be read off the journal. -/
theorem codecCalls_eq (h : Consulted e e' calls) : codecCalls e e' = calls := by
  obtain ⟨⟨cs, ⟨events, hjournal, rfl⟩, rfl⟩, -⟩ := h
  unfold codecCalls
  rw [hjournal, List.drop_left, Journal.filterMap_commands]
  intro event hevent
  cases event with
  | codec call during => exact Bool.noConfusion hevent
  | link | spawned | joined | wire | interrupt | stream | notice => rfl

theorem callCodec (h : Consulted e e' calls) (call : CodecCall) :
    Consulted e (e'.callCodec call).2 (calls ++ [call]) :=
  h.trans ⟨⟨_, (Commanded.refl e').callCodec call, rfl⟩, (devices_absorb _ _).2⟩

theorem mute (h : Consulted e e' calls) (mute : Bool) :
    Consulted e (e'.mute mute) (calls ++ [.setMute mute]) := by
  have hcall := h.callCodec (.setMute mute)
  rcases e'.mute_eq mute with hmute | ⟨cause, hmute⟩
  · rw [hmute]
    exact hcall
  · rw [hmute]
    exact hcall.log _

theorem mapStream (h : Consulted e e' calls) (f : Stream → Stream) :
    Consulted e (e'.mapStream f) calls := h.aside ((Commanded.refl e').mapStream f) rfl rfl

theorem resetStream (h : Consulted e e' calls) : Consulted e e'.resetStream calls := by
  refine h.aside (Commanded.refl e').resetStream rfl ?_
  dsimp only [Engine.resetStream, recordStream, Engine.mapStream]

theorem spawn (h : Consulted e e' calls) : Consulted e e'.spawn.2 calls := by
  obtain ⟨-, hspawn⟩ | ⟨-, -, hspawn⟩ | ⟨cause, -, -, hspawn⟩ := e'.spawn_cases
  · rw [hspawn]
    exact h
  · rw [hspawn]
    exact h.aside (Commanded.refl e').staffed rfl rfl
  · rw [hspawn]
    refine Consulted.log ?_ _
    exact h.aside (.of_eq rfl) rfl rfl

theorem join [Processor π] [CartridgeHook η] (h : Consulted e e' calls) :
    Consulted e e'.join calls := by
  refine h.aside (Commanded.refl e').join ?_ ?_
  · split <;> rfl
  · have hfinish : e'.finishServe.codec = e'.codec := by
      unfold finishServe
      split <;> rfl
    unfold Engine.join
    dsimp only
    split <;> exact hfinish

variable [SerialLink τ]

theorem configureLink (h : Consulted e e' calls) : Consulted e e'.configureLink.2 calls :=
  h.aside (Commanded.refl e').configureLink rfl (devices_answered _ _ _).2

theorem startLink (h : Consulted e e' calls) : Consulted e e'.startLink.2 calls :=
  h.aside (Commanded.refl e').startLink rfl (devices_answered _ _ _).2

theorem stopLink (h : Consulted e e' calls) : Consulted e e'.stopLink calls :=
  h.aside (Commanded.refl e').stopLink rfl rfl

variable [Processor π] [CartridgeHook η]

/-- A halt asks the codec to mute, if it asks it anything. -/
theorem halt (h : Consulted e e' calls) :
    ∃ mutes, Consulted e e'.halt (calls ++ mutes) ∧ ∀ d : σ, Codec.OnlyMutesFail mutes d := by
  by_cases hstreaming : e'.Streaming
  · refine ⟨[.setMute true], ?_, .mute true⟩
    rw [halt_of_streaming hstreaming]
    exact (((h.mute true).mapStream _).stopLink).join
  · refine ⟨[], ?_, .nil⟩
    rw [halt_of_not_streaming hstreaming, List.append_nil]
    exact h

end Consulted

/-! ## Parts of a start -/

/-- **A part of a start that fails for whatever its calls fail**, but for calls to mute or unmute:
what it answers is that failure. -/
def Strict (e : Engine σ τ π η) (r : Except EngineFailure Unit × Engine σ τ π η) : Prop :=
  ∃ calls, Consulted e r.2 calls ∧ ∀ call cause,
    (call, .error cause) ∈ Codec.answers calls e.codec →
      call.isMute = true ∨ r.1 = .error (.ofCodec cause)

namespace Strict

variable {r : Except EngineFailure Unit × Engine σ τ π η}

theorem of_onlyMutesFail (h : Consulted e r.2 calls) (hfine : Codec.OnlyMutesFail calls e.codec) :
    Strict e r := ⟨calls, h, fun call cause hmem => .inl (hfine call cause hmem)⟩

/-- The part of a start that comes after calls of which none failed but to mute. -/
theorem after (hbefore : Consulted e e' calls) (hfine : Codec.OnlyMutesFail calls e.codec)
    (h : Strict e' r) : Strict e r := by
  obtain ⟨calls', hasked, hstrict⟩ := h
  refine ⟨calls ++ calls', hbefore.trans hasked, fun call cause hmem => ?_⟩
  rw [Codec.answers_append, ← hbefore.codec] at hmem
  rcases List.mem_append.mp hmem with hmem | hmem
  · exact .inl (hfine call cause hmem)
  · exact hstrict call cause hmem

/-- After a part that succeeded nothing has failed but calls to mute. -/
theorem onlyMutesFail (h : Strict e r) (hok : r.1 = .ok ()) :
    ∃ calls, Consulted e r.2 calls ∧ Codec.OnlyMutesFail calls e.codec := by
  obtain ⟨calls, hasked, hstrict⟩ := h
  refine ⟨calls, hasked, fun call cause hmem => ?_⟩
  rcases hstrict call cause hmem with hmute | hfailed
  · exact hmute
  · rw [hok] at hfailed
    exact nomatch hfailed

/-- Muting afterwards does not hide a failure. -/
theorem mute (h : Strict e r) (mute : Bool) : Strict e (r.1, r.2.mute mute) := by
  obtain ⟨calls, hasked, hstrict⟩ := h
  refine ⟨calls ++ [.setMute mute], hasked.mute mute, fun call cause hmem => ?_⟩
  rw [Codec.answers_append] at hmem
  rcases List.mem_append.mp hmem with hmem | hmem
  · exact hstrict call cause hmem
  · exact .inl (Codec.OnlyMutesFail.mute mute _ call cause hmem)

end Strict

/-- **A call that decides**: it follows calls of which none failed but to mute.  Either it failed,
and giving up with its failure is strict; or it did not, and nothing has failed so far. -/
theorem Consulted.decisive (h : Consulted e e' calls)
    (hfine : Codec.OnlyMutesFail calls e.codec) (call : CodecCall) :
    (∀ cause, (e'.callCodec call).1 = .error cause →
      Strict e ((e'.callCodec call).2.refuse (.ofCodec cause))) ∧
    ((e'.callCodec call).1 = .ok () → Codec.OnlyMutesFail (calls ++ [call]) e.codec) := by
  have hasked := h.callCodec call
  have hlast : Codec.answers (calls ++ [call]) e.codec =
      Codec.answers calls e.codec ++ [(call, (e'.callCodec call).1)] := by
    rw [Codec.answers_append, ← h.codec]
    rfl
  refine ⟨fun cause hfailed => ⟨_, hasked.fail _, fun call' cause' hmem => ?_⟩,
    fun hok call' cause' hmem => ?_⟩
  · rw [hlast, hfailed] at hmem
    rcases List.mem_append.mp hmem with hmem | hmem
    · exact .inl (hfine call' cause' hmem)
    · obtain ⟨-, hcause⟩ := Prod.mk.inj (List.mem_singleton.mp hmem)
      rw [Except.error.inj hcause]
      exact .inr rfl
  · rw [hlast, hok] at hmem
    rcases List.mem_append.mp hmem with hmem | hmem
    · exact hfine call' cause' hmem
    · exact nomatch (Prod.mk.inj (List.mem_singleton.mp hmem)).2

variable [SerialLink τ] [Processor π] [CartridgeHook η]

theorem promote_strict (e : Engine σ τ π η) : Strict e e.promote := by
  have hdown (cause : EngineFailure) : Strict e (e.halt.refuse cause) := by
    obtain ⟨mutes, hhalted, hmutes⟩ := (Consulted.refl e).halt
    exact .of_onlyMutesFail (hhalted.fail cause) (hmutes _)
  unfold promote
  split
  · exact hdown _
  · split
    · have hpromoted : Consulted e ({ e with state := .running } : Engine σ τ π η) [] :=
        (Consulted.refl e).aside (.of_eq rfl) rfl rfl
      exact .of_onlyMutesFail ((hpromoted.mute false).log _) (.mute false _)
    · exact hdown _

theorem arm_strict (e : Engine σ τ π η) : Strict e e.arm := by
  have hasked := ((Consulted.refl e).resetStream.mapStream (·.setArmed true)).startLink
  have hretracted {e' : Engine σ τ π η} (h : Consulted e e' []) (cause : EngineFailure) :
      Strict e (e'.retract cause) :=
    .of_onlyMutesFail (((h.mapStream _).stopLink).fail _) (.nil _)
  obtain ⟨cause, linked, hstart, harm⟩ | ⟨linked, hstart, hspawn⟩ := e.arm_cases
  · rw [hstart] at hasked
    rw [harm]
    exact hretracted hasked _
  · rw [hstart] at hasked
    have hcreated := hasked.spawn
    obtain ⟨spawned, hrefused, harm⟩ | ⟨spawned, hgiven, harm⟩ := hspawn
    · rw [hrefused] at hcreated
      rw [harm]
      exact hretracted hcreated _
    · rw [hgiven] at hcreated
      rw [harm]
      exact .after hcreated (.nil _) spawned.promote_strict

theorem startReady_strict (e : Engine σ τ π η) : Strict e e.startReady := by
  have hmuted := (Consulted.refl e).mute true
  have hmutes : Codec.OnlyMutesFail [.setMute true] e.codec := .mute true _
  obtain ⟨hfails, hgoesOn⟩ := hmuted.decisive hmutes .configure
  have hasked := hmuted.callCodec .configure
  unfold startReady
  split
  · exact .of_onlyMutesFail hmuted hmutes
  · split
    · next cause e' hresult =>
      rw [hresult] at hfails
      exact hfails cause rfl
    · next e' hresult =>
      rw [hresult] at hgoesOn hasked
      exact .after hasked (hgoesOn rfl) e'.arm_strict

omit [Processor π] [CartridgeHook η] in
theorem bringUp_strict (e : Engine σ τ π η) : Strict e e.bringUp := by
  obtain ⟨hfails, hgoesOn⟩ := (Consulted.refl e).decisive (.nil _) .init
  have hasked := (Consulted.refl e).callCodec .init
  unfold bringUp
  split
  · next cause e' hresult =>
    rw [hresult] at hfails
    exact hfails cause rfl
  · next e' hresult =>
    rw [hresult] at hgoesOn hasked
    have hconfigured := hasked.configureLink
    split
    · next cause e'' hlink =>
      rw [hlink] at hconfigured
      exact .of_onlyMutesFail (hconfigured.fail _) (hgoesOn rfl)
    · next e'' hlink =>
      rw [hlink] at hconfigured
      have hreset := hconfigured.resetStream.mapStream fun s =>
        (s.mapSettings fun _ => .unity).clearCounters
      generalize e''.resetStream.mapStream _ = restored at hreset
      refine .of_onlyMutesFail (Consulted.log ?_ _) (hgoesOn rfl)
      exact hreset.aside (.of_eq rfl) rfl rfl

theorem init_strict (hdown : e.initialized = false) : Strict e e.init := by
  obtain ⟨mutes, hhalted, hmutes⟩ := (Consulted.refl e).halt
  rw [init_of_not_initialized hdown]
  exact .after hhalted (hmutes _) e.halt.bringUp_strict

/-- **A start fails for whatever the converters fail**, but for the mute line. -/
theorem start_strict (hrunning : e.state ≠ .running) : Strict e e.start := by
  cases hup : e.initialized with
  | true =>
    rw [start_of_initialized hrunning hup]
    exact e.startReady_strict
  | false =>
    have hinit := init_strict hup
    cases hresult : e.init.1 with
    | error cause =>
      rw [start_of_not_initialized hrunning hup hresult, ← hresult]
      exact hinit.mute true
    | ok =>
      obtain ⟨calls, hasked, hfine⟩ := hinit.onlyMutesFail hresult
      rw [start_of_brought_up hrunning hup hresult]
      exact .after hasked hfine e.init.2.startReady_strict

end Codec

/-! ## The headline -/

section Moves

variable [Codec σ] [SerialLink τ] [LinkProbe τ] [Processor π] [CartridgeHook η]
  [SerialLink.Obedient τ]

omit [LinkProbe τ] in
/-- **A start that fails** ends at fault and does not leave the link clocking: it stands still, or
the start was refused and did not touch it. -/
theorem start_failed (htended : e.Tended) (hclocked : e.Clocked) {cause : EngineFailure}
    (hfailed : e.start.1 = .error cause) :
    e.start.2.state = .fault ∧ (e.start.2.linkRunning = true → e.start.2.link = e.link) := by
  rcases htended.start_cases with
    ⟨-, hsame⟩ | ⟨hfault, -, hrefused⟩ | ⟨hrunning, hfault, hstarted⟩
  · rw [hsame] at hfailed
    exact nomatch hfailed
  · rw [hrefused]
    exact ⟨(e.interrupted_mute true).fault_of_fault hfault, fun _ => e.link_mute true⟩
  · have hidle := linkRunning_start hclocked hrunning hfault hfailed
    refine ⟨?_, fun hclocking => absurd (hidle.symm.trans hclocking) Bool.false_ne_true⟩
    generalize e.start = r at hstarted hfailed
    cases hstarted with
    | up tended held commands => exact nomatch hfailed
    | down downed silent => exact downed.state

/-- A failure of the codec was fatal to a start: the start failed, the engine is at fault, and the
link was not left clocking. -/
def FatalStart (e : Engine σ τ π η) : Prop :=
  (∃ cause, e.start.1 = .error cause) ∧ e.start.2.state = .fault ∧
    (e.start.2.linkRunning = true → e.start.2.link = e.link)

/-- **Which failures of the codec are fatal to a start.**  After every run that leaves an engine not
running, for every codec, and every link that keeps its contract and does not start by itself, look
at the calls on the codec that a start makes and at what they are answered:
(1) a call to identify or to configure the converters that fails is fatal, and the start answers why
    it failed;
(2) every failure is fatal, if and only if the start does not succeed with a call to mute or to
    unmute that failed. -/
theorem codec_failure_fatal_iff (codec : σ) (link : τ) (processor : π) (config : FrameLayout)
    (moves : List (Move σ τ π η)) (hlink : SerialLink.isRunning link = false)
    (htouch : ∀ (touch : LinkProbe.Touch τ) (l : τ), SerialLink.isRunning l = false →
      SerialLink.isRunning (LinkProbe.touch touch l) = false) :
    let e : Engine σ τ π η := (new codec link processor config).run moves
    let answers := Codec.answers (codecCalls e e.start.2) e.codec
    e.state ≠ .running →
    e.start.2.codec = Codec.afterCalls (codecCalls e e.start.2) e.codec ∧
    (∀ call cause, (call, .error cause) ∈ answers → call = .init ∨ call = .configure →
      e.start.1 = .error (.ofCodec cause) ∧ e.FatalStart) ∧
    (((∃ call cause, (call, .error cause) ∈ answers) → e.FatalStart) ↔
      ¬(e.start.1 = .ok () ∧ ∃ mute cause, (.setMute mute, .error cause) ∈ answers)) := by
  intro e answers hrunning
  have htended : e.Tended := tended_run codec link processor config moves
  have hclocked : e.Clocked := clocked_run codec processor config hlink htouch moves
  have hfatal (cause : EngineFailure) (hfailed : e.start.1 = .error cause) : e.FatalStart :=
    ⟨⟨cause, hfailed⟩, start_failed htended hclocked hfailed⟩
  obtain ⟨calls, hasked, hstrict⟩ := start_strict hrunning
  obtain rfl : codecCalls e e.start.2 = calls := hasked.codecCalls_eq
  have hdecisive (call : CodecCall) (cause : CodecFailure)
      (hmem : (call, .error cause) ∈ answers) (hcall : call = .init ∨ call = .configure) :
      e.start.1 = .error (.ofCodec cause) := by
    rcases hstrict call cause hmem with hmute | hfailed
    · rcases hcall with rfl | rfl
      · exact Bool.noConfusion hmute
      · exact Bool.noConfusion hmute
    · exact hfailed
  refine ⟨hasked.codec, fun call cause hmem hcall => ?_, ?_, ?_⟩
  · have hfailed := hdecisive call cause hmem hcall
    exact ⟨hfailed, hfatal _ hfailed⟩
  · rintro hall ⟨hok, mute, cause, hmem⟩
    obtain ⟨⟨cause', hfailed⟩, -⟩ := hall ⟨_, cause, hmem⟩
    rw [hok] at hfailed
    exact nomatch hfailed
  · rintro hnot ⟨call, cause, hmem⟩
    cases hresult : e.start.1 with
    | error cause' => exact hfatal cause' hresult
    | ok =>
      cases call with
      | setMute mute => exact absurd ⟨hresult, mute, cause, hmem⟩ hnot
      | init =>
        rw [hdecisive _ cause hmem (.inl rfl)] at hresult
        exact nomatch hresult
      | configure =>
        rw [hdecisive _ cause hmem (.inr rfl)] at hresult
        exact nomatch hresult

end Moves

/-! ## A clock that does not lock, and a mute line that cannot be driven -/

/-- An engine whose converters do not lock to the clock. -/
def unlocked : Scripted := new { configure := some .clockLockTimeout } {} .mixer {}

/-- An engine whose mute line cannot be driven. -/
def muteless : Scripted := new { setMute := some .gpio } {} .mixer {}

/-- A clock that does not lock is fatal to the start. -/
theorem codec_failure_fatal_unlocked :
    unlocked.start.1 = .error .clockLockTimeout ∧ unlocked.FatalStart := by
  obtain ⟨-, hfatal, -⟩ := codec_failure_fatal_iff
    ({ configure := some .clockLockTimeout } : Bench.ScriptedCodec) ({} : Loopback Unit)
    Bench.Instrument.mixer {} ([] : List (Move _ _ _ Bench.Hook)) rfl (fun _ _ hidle => hidle)
    Lifecycle.noConfusion
  exact hfatal .configure .clockLockTimeout (by decide +kernel) (.inr rfl)

/-- **A mute line that cannot be driven is not fatal**: the start meets a failure when it mutes and
one when it unmutes, and succeeds.  The engine runs on a clocking link. -/
theorem runs_on_dead_mute_line :
    muteless.state ≠ .running ∧
    Codec.answers (codecCalls muteless muteless.start.2) muteless.codec =
      [(.init, .ok ()), (.setMute true, .error .gpio), (.configure, .ok ()),
        (.setMute false, .error .gpio)] ∧
    ¬((∃ call cause, (call, .error cause) ∈
        Codec.answers (codecCalls muteless muteless.start.2) muteless.codec) →
      muteless.FatalStart) ∧
    muteless.start.1 = .ok () ∧ muteless.start.2.state = .running ∧
    muteless.start.2.linkRunning = true := by
  have hanswers : Codec.answers (codecCalls muteless muteless.start.2) muteless.codec =
      [(.init, .ok ()), (.setMute true, .error .gpio), (.configure, .ok ()),
        (.setMute false, .error .gpio)] := by decide +kernel
  have hok : muteless.start.1 = .ok () := by decide +kernel
  have hmet : ∃ call cause, (call, .error cause) ∈
      Codec.answers (codecCalls muteless muteless.start.2) muteless.codec := by
    refine ⟨.setMute true, .gpio, ?_⟩
    rw [hanswers]
    exact List.mem_cons_of_mem _ List.mem_cons_self
  refine ⟨Lifecycle.noConfusion, hanswers, fun hall => ?_, hok, by decide +kernel,
    by decide +kernel⟩
  obtain ⟨⟨cause, hfailed⟩, -⟩ := hall hmet
  rw [hok] at hfailed
  exact nomatch hfailed

end Engine

end DuplexAudio
