/-
  Streaming round by round.

  In one round the settings of the mix may be changed, the receive channel stores a captured block,
  both directions complete that half in either order, and the mixer is run over the published pair.
  The next round is about the other half.

  1. **One round** (`playRound_eq`): on a stream that is armed, without a fault, with no block in
     progress and nothing paired, a round answers its own half, and all that is different after it
     is the settings, the captured and the played block of that half, and the count of blocks.  In
     particular the pairing is back where it was, so the next round finds the stream at rest again.

  2. **All rounds** (`Streamed`, kept by each round): what the stream holds after a list of rounds
     is what one would write down from the list.  The other half still holds what the round before
     left there, because a round writes one half and the halves alternate.

  `round_plays_mix` is the headline: every round of every list, from a stream that was just reset
  and armed.
-/
import DuplexAudio.Processor.Mixer
import DuplexAudio.Proofs.Pairing.View
import DuplexAudio.Proofs.Stream.Run

namespace DuplexAudio

/-! ## Both completions of a half, and a block of the mixer -/

/-- Both completions of one half, in either order, publish it; apart from that the tracker is as it
was. -/
theorem PairTracker.Shows.complete_both {t : PairTracker} (h : t.Shows none none) (d : Direction)
    (k : Half) :
    (t.complete d.other k).1 = none ∧
      (t.complete d.other k).2.complete d k = (some k, { t with ready := k.code }) := by
  have hfirst : t.complete d.other k =
      (none, { t with state := stateOf (some (k, d.other)) }) := by
    rw [h.complete_eq, if_neg (fun hsome => nomatch hsome)]
    rfl
  have hpending : PairTracker.Shows { t with state := stateOf (some (k, d.other)) }
      (some (k, d.other)) none := ⟨rfl, h.ready⟩
  refine ⟨by rw [hfirst], ?_⟩
  rw [hfirst, hpending.complete_eq, if_pos rfl]
  -- the state is idle again, and nothing was published that could be overrun
  have hstate : t.state = 0 := h.state
  simp only [Option.isSome_none, Bool.false_eq_true, if_false]
  rw [← hstate]

theorem Block.overwrite_whole {c : Nat} (new old : Block c) :
    Block.overwrite framesPerBlock new old = new := by
  apply Block.ext_get
  intro n ch
  rw [Block.get_overwrite, if_pos n.isLt]

namespace Stream

variable {η : Type} [CartridgeHook η]

/-- Listening, without a fault, with no block in progress, and with nothing paired. -/
structure AtRest (s : Stream) : Prop where
  armed : s.armed = true
  fault : s.fault = none
  free : s.occupied = false
  pairs : s.pairs.Shows none none

/-- A completion on an armed stream without a fault reaches the pairing. -/
theorem onInterrupt_of_completed {s : Stream} {event : Interrupt} {half : Half}
    (harmed : s.armed = true) (hfault : s.fault = none)
    (hflags : event.flags.completed event.direction = .ok (some half)) :
    (s.onInterrupt event).2 = { s with pairs := (s.pairs.complete event.direction half).2 } := by
  have hfailure : s.failure? = none := by rw [failure?, hfault]; rfl
  unfold onInterrupt
  rw [if_neg (not_not_intro harmed), hfailure, hflags]

/-- **A block of the mixer** mixes the captured half into the played half, and counts. -/
theorem runBlock_mixer {s : Stream} (hfault : s.fault = none) (hfree : s.occupied = false)
    (half : Half) (bay : CartridgeBay η) :
    (s.runBlock half Mixer.mk bay).ending = .completed ∧
      (s.runBlock half Mixer.mk bay).stream = { s with
        buffers := s.buffers.writePlayback half
          (Mixer.mix s.settings (s.buffers.capture.readHalf half))
        processed := s.processed + 1 } := by
  have haccepts : s.accepts = true := by rw [accepts, hfault, hfree]; rfl
  unfold runBlock
  rw [if_pos haccepts]
  refine ⟨rfl, ?_⟩
  show ((s.occupy.written half (Block.overwrite framesPerBlock
    (Mixer.mix s.settings (s.buffers.capture.readHalf half))
    (s.buffers.playback.readHalf half))).counted) = _
  rw [Block.overwrite_whole]
  unfold written occupy counted
  rw [hfree]

/-! ## One round -/

/-- What happens in one round. -/
structure Round (η : Type) where
  /-- How the settings of the mix are changed before the block, one setter after the other. -/
  setters : List (MixSettings → MixSettings)
  captured : CaptureBlock
  /-- The direction whose completion arrives last. -/
  last : Direction
  /-- The cartridge hooks and blocks that the round is run with. -/
  bay : CartridgeBay η

namespace Round

/-- The settings after the setters of a round. -/
def adjust (r : Round η) (settings : MixSettings) : MixSettings :=
  r.setters.foldl (fun settings f => f settings) settings

/-- What reaches the stream in a round before the block is run. -/
def arrivals (r : Round η) (half : Half) : List (Call Mixer η) :=
  r.setters.map .mix ++
    [.capture half r.captured,
      .interrupt ⟨r.last.other, .completing half⟩, .interrupt ⟨r.last, .completing half⟩]

end Round

/-- One round about a half: its arrivals, and then the mixer over the published pair.  Answers the
half that was run. -/
def playRound (s : Stream) (half : Half) (r : Round η) : Option Half × Stream :=
  let (answer, run) := (s.run (r.arrivals half)).runPair Mixer.mk r.bay
  (answer, run.stream)

/-- The stream after a list of rounds, the first of them about `half`. -/
def playRounds (s : Stream) (half : Half) : List (Round η) → Stream
  | [] => s
  | r :: rest => (s.playRound half r).2.playRounds half.other rest

theorem run_setters (s : Stream) (setters : List (MixSettings → MixSettings)) :
    s.run (setters.map (Call.mix : _ → Call Mixer η)) =
      { s with settings := setters.foldl (fun settings f => f settings) s.settings } := by
  induction setters generalizing s with
  | nil => rfl
  | cons f setters ih => exact ih (s.mapSettings f)

/-- The arrivals of a round leave the half published. -/
theorem run_arrivals {s : Stream} (h : s.AtRest) (half : Half) (r : Round η) :
    s.run (r.arrivals half) = { s with
      settings := r.adjust s.settings
      buffers := s.buffers.writeCapture half r.captured
      pairs := { s.pairs with ready := half.code } } := by
  obtain ⟨-, hboth⟩ := h.pairs.complete_both r.last half
  let captured : Stream := { s with
    settings := r.adjust s.settings
    buffers := s.buffers.writeCapture half r.captured }
  have hsplit : s.run (r.arrivals half) =
      (s.run (r.setters.map (Call.mix : _ → Call Mixer η))).run
        [.capture half r.captured, .interrupt ⟨r.last.other, .completing half⟩,
          .interrupt ⟨r.last, .completing half⟩] := List.foldl_append
  -- the two completions, one after the other
  have hfirst : (captured.onInterrupt ⟨r.last.other, .completing half⟩).2 =
      { captured with pairs := (s.pairs.complete r.last.other half).2 } :=
    onInterrupt_of_completed h.armed h.fault (TransferFlags.completed_completing half _)
  have hlast : (onInterrupt { captured with pairs := (s.pairs.complete r.last.other half).2 }
      ⟨r.last, .completing half⟩).2 =
      { captured with pairs := ((s.pairs.complete r.last.other half).2.complete r.last half).2 } :=
    onInterrupt_of_completed h.armed h.fault (TransferFlags.completed_completing half _)
  rw [hsplit, run_setters]
  show ((captured.onInterrupt ⟨r.last.other, .completing half⟩).2.onInterrupt
    ⟨r.last, .completing half⟩).2 = _
  rw [hfirst, hlast, hboth]

/-- **One round.**  On a stream at rest it answers its own half, and changes the settings, the two
blocks of that half and the count of blocks. -/
theorem playRound_eq {s : Stream} (h : s.AtRest) (half : Half) (r : Round η) :
    s.playRound half r = (some half, { s with
      settings := r.adjust s.settings
      buffers := (s.buffers.writeCapture half r.captured).writePlayback half
        (Mixer.mix (r.adjust s.settings) r.captured)
      processed := s.processed + 1 }) := by
  -- taking the pair puts the tracker back to where it was before the round
  have htake : (s.run (r.arrivals half)).takePair = (some half, { s with
      settings := r.adjust s.settings
      buffers := s.buffers.writeCapture half r.captured }) := by
    have hready : s.pairs.ready = PairTracker.noReady := h.pairs.ready
    rw [run_arrivals h]
    show (Half.ofCode? half.code, { s with
      settings := r.adjust s.settings
      buffers := s.buffers.writeCapture half r.captured
      pairs := { s.pairs with ready := PairTracker.noReady } }) = _
    rw [Half.ofCode?_code, ← hready]
  obtain ⟨hending, hstream⟩ := runBlock_mixer (s := { s with
      settings := r.adjust s.settings
      buffers := s.buffers.writeCapture half r.captured }) h.fault h.free half r.bay
  unfold playRound runPair
  rw [htake]
  dsimp only
  rw [hending, if_pos rfl, hstream]
  rw [Buffers.capture_writeCapture, DoubleBuffer.readHalf_writeHalf_self]

section Halves

variable {s : Stream} (h : s.AtRest) (half : Half) (r : Round η)
include h

theorem playback_playRound_self :
    (s.playRound half r).2.buffers.playback.readHalf half =
      Mixer.mix (r.adjust s.settings) r.captured := by
  rw [playRound_eq h]
  dsimp only
  rw [Buffers.playback_writePlayback, DoubleBuffer.readHalf_writeHalf_self]

theorem playback_playRound_other :
    (s.playRound half r).2.buffers.playback.readHalf half.other =
      s.buffers.playback.readHalf half.other := by
  rw [playRound_eq h]
  dsimp only
  rw [Buffers.playback_writePlayback, DoubleBuffer.readHalf_writeHalf_ne _ half.other_ne,
    Buffers.playback_writeCapture]

theorem capture_playRound_self :
    (s.playRound half r).2.buffers.capture.readHalf half = r.captured := by
  rw [playRound_eq h]
  dsimp only
  rw [Buffers.capture_writePlayback, Buffers.capture_writeCapture,
    DoubleBuffer.readHalf_writeHalf_self]

theorem capture_playRound_other :
    (s.playRound half r).2.buffers.capture.readHalf half.other =
      s.buffers.capture.readHalf half.other := by
  rw [playRound_eq h]
  dsimp only
  rw [Buffers.capture_writePlayback, Buffers.capture_writeCapture,
    DoubleBuffer.readHalf_writeHalf_ne _ half.other_ne]

end Halves

theorem AtRest.playRound {s : Stream} (h : s.AtRest) (half : Half) (r : Round η) :
    (s.playRound half r).2.AtRest := by
  rw [playRound_eq h]
  exact ⟨h.armed, h.fault, h.free, h.pairs⟩

/-! ## A list of rounds, as one would write it down -/

/-- The settings after a list of rounds. -/
def settingsAfter (settings : MixSettings) (rounds : List (Round η)) : MixSettings :=
  rounds.foldl (fun settings r => r.adjust settings) settings

/-- What the last of a list of rounds played: silence if there was none. -/
def lastPlayed (settings : MixSettings) (rounds : List (Round η)) : PlaybackBlock :=
  match rounds.getLast? with
  | none => Block.silence
  | some r => Mixer.mix (settingsAfter settings rounds) r.captured

/-- What was captured in the last of a list of rounds: silence if there was none. -/
def lastCaptured (rounds : List (Round η)) : CaptureBlock :=
  match rounds.getLast? with
  | none => Block.silence
  | some r => r.captured

omit [CartridgeHook η] in
theorem settingsAfter_concat (settings : MixSettings) (rounds : List (Round η)) (r : Round η) :
    settingsAfter settings (rounds ++ [r]) = r.adjust (settingsAfter settings rounds) :=
  List.foldl_append

theorem playRounds_concat (s : Stream) (half : Half) (rounds : List (Round η)) (r : Round η) :
    s.playRounds half (rounds ++ [r]) =
      ((s.playRounds half rounds).playRound (half.later rounds.length) r).2 := by
  induction rounds generalizing s half with
  | nil => rfl
  | cons first rounds ih =>
    have hlater : half.other.later rounds.length = half.later (rounds.length + 1) := by
      induction rounds.length with
      | zero => rfl
      | succ n ih => exact congrArg Half.other ih
    show (s.playRound half first).2.playRounds half.other (rounds ++ [r]) = _
    rw [ih, hlater]
    rfl

/-! ## All rounds -/

/-- What a stream holds after a list of rounds that started at rest from the stream `s`, with
silence in both buffers. -/
structure Streamed (s : Stream) (start : Half) (rounds : List (Round η)) (s' : Stream) : Prop where
  atRest : s'.AtRest
  settings : s'.settings = settingsAfter s.settings rounds
  /-- The half of the last round holds what that round played. -/
  played : s'.buffers.playback.readHalf (start.later rounds.length).other =
    lastPlayed s.settings rounds
  captured : s'.buffers.capture.readHalf (start.later rounds.length).other = lastCaptured rounds
  pairs : s'.pairs = s.pairs
  processed : s'.processed = s.processed + UInt32.ofNat rounds.length

omit [CartridgeHook η] in
theorem Streamed.counters {s s' : Stream} {start : Half} {rounds : List (Round η)}
    (h : Streamed s start rounds s') :
    s'.counters = { s.counters with
      processed := s.counters.processed + UInt32.ofNat rounds.length } := by
  unfold Stream.counters
  rw [h.pairs, h.processed]

/-- **One more round.** -/
theorem Streamed.playRound {s s' : Stream} {start : Half} {rounds : List (Round η)}
    (h : Streamed s start rounds s') (r : Round η) :
    Streamed s start (rounds ++ [r]) (s'.playRound (start.later rounds.length) r).2 := by
  have hround := playRound_eq h.atRest (start.later rounds.length) r
  have hsettings : r.adjust s'.settings = settingsAfter s.settings (rounds ++ [r]) := by
    rw [settingsAfter_concat, h.settings]
  -- the half of this round is the other half of the next one
  have hhalf : (start.later (rounds ++ [r]).length).other = start.later rounds.length := by
    rw [List.length_append]
    exact Half.other_other _
  refine ⟨h.atRest.playRound _ r, ?_, ?_, ?_, ?_, ?_⟩
  · rw [hround]
    exact hsettings
  · rw [hhalf, lastPlayed, List.getLast?_concat, ← hsettings]
    exact playback_playRound_self h.atRest _ r
  · rw [hhalf, lastCaptured, List.getLast?_concat]
    exact capture_playRound_self h.atRest _ r
  · rw [hround]
    exact h.pairs
  · rw [hround, List.length_append]
    show s'.processed + 1 = s.processed + UInt32.ofNat (rounds.length + 1)
    rw [h.processed, UInt32.ofNat_add, UInt32.add_assoc]
    rfl

/-- **After every list of rounds.**  Induction on the rounds, the last one first to be looked at. -/
theorem streamed_playRounds {s : Stream} (hs : s.AtRest) (hsilent : s.buffers = Buffers.silence)
    (start : Half) (rounds : List (Round η)) :
    Streamed s start rounds (s.playRounds start rounds) := by
  induction rounds using List.reverseRecOn with
  | nil =>
    refine ⟨hs, rfl, ?_, ?_, rfl, (UInt32.add_zero _).symm⟩
    · show s.buffers.playback.readHalf start.other = Block.silence
      rw [hsilent]
      exact DoubleBuffer.readHalf_silence _
    · show s.buffers.capture.readHalf start.other = Block.silence
      rw [hsilent]
      exact DoubleBuffer.readHalf_silence _
  | append_singleton rounds r ih =>
    rw [playRounds_concat]
    exact ih.playRound r

omit [CartridgeHook η] in
/-- A stream that was just reset and armed is at rest. -/
theorem atRest_reset (s : Stream) : (s.reset.setArmed true).AtRest := ⟨rfl, rfl, rfl, rfl, rfl⟩

omit [CartridgeHook η] in
theorem settings_reset (s : Stream) : (s.reset.setArmed true).settings = s.settings := by
  unfold setArmed reset
  rfl

omit [CartridgeHook η] in
theorem counters_reset (s : Stream) : (s.reset.setArmed true).counters = s.counters := by
  unfold counters setArmed reset PairTracker.reset
  rfl

/-- **Streaming, end to end.**  From a stream that was just reset and armed, after any list of
earlier rounds with halves alternating from any half on, and with any settings and any setters in
between, the next round
(1) answers exactly its own half;
(2) leaves in that half of the played buffer the mix of the block captured in this round under the
    settings of this round, and in the other half what the round before left there;
(3) leaves both halves of the capture buffer as they were captured.
After any list of rounds the pairing has dropped and overrun nothing, and the blocks are counted
modulo the range of a word; from cleared counters that is no drop, no overrun and the number of
rounds. -/
theorem round_plays_mix (s : Stream) (start : Half) (rounds : List (Round η)) (r : Round η) :
    let armed := s.reset.setArmed true
    let half := start.later rounds.length
    let done := (armed.playRounds start rounds).playRound half r
    (done.1 = some half ∧
      done.2.buffers.playback.readHalf half =
        Mixer.mix (settingsAfter s.settings (rounds ++ [r])) r.captured ∧
      done.2.buffers.playback.readHalf half.other = lastPlayed s.settings rounds ∧
      done.2.buffers.capture.readHalf half = r.captured ∧
      done.2.buffers.capture.readHalf half.other = lastCaptured rounds) ∧
    ((armed.playRounds start rounds).counters.dropped = s.counters.dropped ∧
      (armed.playRounds start rounds).counters.overruns = s.counters.overruns ∧
      (armed.playRounds start rounds).counters.processed.toNat =
        (s.counters.processed.toNat + rounds.length) % UInt32.size) ∧
    ((s.clearCounters.reset.setArmed true).playRounds start rounds).counters =
      ⟨0, 0, UInt32.ofNat rounds.length⟩ := by
  intro armed half done
  have hsame : armed.settings = s.settings := s.settings_reset
  have hcounters : armed.counters = s.counters := s.counters_reset
  have hbefore : Streamed armed start rounds (armed.playRounds start rounds) :=
    streamed_playRounds s.atRest_reset rfl start rounds
  have hsettings := hbefore.settings
  have hplayed := hbefore.played
  rw [hsame] at hsettings hplayed
  refine ⟨⟨?_, ?_, ?_, ?_, ?_⟩, ⟨?_, ?_, ?_⟩, ?_⟩
  · exact congrArg Prod.fst (playRound_eq hbefore.atRest half r)
  · rw [settingsAfter_concat, ← hsettings]
    exact playback_playRound_self hbefore.atRest half r
  · exact (playback_playRound_other hbefore.atRest half r).trans hplayed
  · exact capture_playRound_self hbefore.atRest half r
  · exact (capture_playRound_other hbefore.atRest half r).trans hbefore.captured
  · rw [hbefore.counters, hcounters]
  · rw [hbefore.counters, hcounters]
  · rw [hbefore.counters, hcounters]
    dsimp only
    rw [UInt32.toNat_add, UInt32.toNat_ofNat', Nat.add_mod_mod]
  · have hcleared := streamed_playRounds s.clearCounters.atRest_reset rfl start rounds
    rw [hcleared.counters, counters_reset]
    show (⟨0, 0, 0 + UInt32.ofNat rounds.length⟩ : StreamCounters) = _
    rw [UInt32.zero_add]

end Stream

end DuplexAudio
