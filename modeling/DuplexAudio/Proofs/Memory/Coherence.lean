/-
  Coherence of the memory that software shares with the transfer channels.

  Before software looks at what a channel transferred it discards stale copies (`acquire`), and
  after it stored something it makes that visible (`publish`).  To discard a copy that holds a store
  of software's own would lose the store, so there is a discipline: no byte may be acquired that
  software has stored since it was last published.  `Unpublished` says which bytes those are, after
  a list of events, and `Disciplined` says that none of them is ever acquired.

  The two regions fare differently.

  1. The playback region is never acquired, whatever is stored there.

  2. The capture region is acquired by every block and published by nothing
     (`publish_capture_not_mem_trace`).  Software stores into it in one place only: a reset silences
     it (`store_capture_mem_trace_iff`).

  Hence what an acquisition meets depends on nothing but whether there was a reset before it
  (`unpublished_at_acquire_iff`), and a run keeps the discipline exactly if it begins no block after
  a reset (`disciplined_iff_no_block_after_reset`).  Since every start of an engine resets its
  stream, that is the case of no block that an engine runs.
-/
import DuplexAudio.Bench.Instruments
import DuplexAudio.Proofs.Stream.Run

namespace DuplexAudio

/-! ## Bytes -/

/-- A byte of the shared memory: the region it lies in, and where. -/
structure MemoryByte where
  /-- The region, named by the direction that streams it. -/
  region : Direction
  /-- Offset from the start of the region, in bytes. -/
  offset : Nat

/-- The byte lies in a half of a region. -/
def MemoryByte.InHalf (a : MemoryByte) (d : Direction) (h : Half) : Prop :=
  a.region = d ∧ DoubleBuffer.halfOffset d.bufferChannels h ≤ a.offset ∧
    a.offset < DoubleBuffer.halfOffset d.bufferChannels h
      + DoubleBuffer.halfBytes d.bufferChannels

/-- The first byte of a half. -/
def MemoryByte.firstOf (d : Direction) (h : Half) : MemoryByte :=
  ⟨d, DoubleBuffer.halfOffset d.bufferChannels h⟩

theorem MemoryByte.firstOf_inHalf (d : Direction) (h : Half) : (firstOf d h).InHalf d h := by
  refine ⟨rfl, Nat.le_refl _, Nat.lt_add_of_pos_right ?_⟩
  cases d <;> decide

/-! ## The discipline -/

/-- Software has stored the byte and not published it since. -/
def Unpublished (events : List StreamEvent) (a : MemoryByte) : Prop :=
  ∃ before d h rest, events = before ++ .store d h :: rest ∧ a.InHalf d h ∧
    ∀ d' h', .publish d' h' ∈ rest → ¬a.InHalf d' h'

/-- No byte is acquired that software has stored and not published since. -/
def Disciplined (events : List StreamEvent) : Prop :=
  ∀ before d h rest, events = before ++ .acquire d h :: rest →
    ∀ a : MemoryByte, a.InHalf d h → ¬Unpublished before a

/-- Where nothing is ever published, every byte that was stored stays unpublished. -/
theorem unpublished_iff_of_not_published {events : List StreamEvent} {a : MemoryByte}
    (hnone : ∀ d h, .publish d h ∈ events → ¬a.InHalf d h) :
    Unpublished events a ↔ ∃ d h, .store d h ∈ events ∧ a.InHalf d h := by
  constructor
  · rintro ⟨before, d, h, rest, rfl, ha, -⟩
    exact ⟨d, h, List.mem_append_right _ List.mem_cons_self, ha⟩
  · rintro ⟨d, h, hmem, ha⟩
    obtain ⟨before, rest, rfl⟩ := List.append_of_mem hmem
    refine ⟨before, d, h, rest, rfl, ha, fun d' h' hp => hnone d' h' ?_⟩
    exact List.mem_append_right _ (List.mem_cons_of_mem _ hp)

namespace Stream

variable {π η : Type} [Processor π] [CartridgeHook η]

/-! ## The capture region -/

/-- Nothing publishes the capture region. -/
theorem publish_capture_not_mem_eventsOf (s : Stream) (c : Call π η) (h : Half) :
    .publish .rx h ∉ s.eventsOf c := by
  intro hmem
  by_cases hc : c = .reset
  · subst hc
    have hreset : .publish .rx h ∈ resetEvents := hmem
    simp [resetEvents] at hreset
  · exact absurd (eventsOf_ofBlock s hc _ hmem) (by simp [StreamEvent.OfBlock])

theorem publish_capture_not_mem_trace (s : Stream) (calls : List (Call π η)) (h : Half) :
    .publish .rx h ∉ s.trace calls := by
  intro hmem
  obtain ⟨before, rest, hsplit⟩ := List.append_of_mem hmem
  obtain ⟨earlier, c, later, head, tail, -, -, hevents⟩ := trace_split hsplit
  apply publish_capture_not_mem_eventsOf (s.run earlier) c h
  rw [hevents]
  exact List.mem_append_right _ List.mem_cons_self

/-- Only a reset stores into the capture region. -/
theorem store_capture_mem_eventsOf_iff (s : Stream) (c : Call π η) (h : Half) :
    .store .rx h ∈ s.eventsOf c ↔ c = .reset := by
  constructor
  · intro hmem
    by_cases hc : c = .reset
    · exact hc
    · exact absurd (eventsOf_ofBlock s hc _ hmem) (by simp [StreamEvent.OfBlock])
  · rintro rfl
    show .store .rx h ∈ resetEvents
    cases h <;> simp [resetEvents]

theorem store_capture_mem_trace_iff (s : Stream) (calls : List (Call π η)) (h : Half) :
    .store .rx h ∈ s.trace calls ↔ .reset ∈ calls := by
  constructor
  · intro hmem
    obtain ⟨before, rest, hsplit⟩ := List.append_of_mem hmem
    obtain ⟨earlier, c, later, head, tail, rfl, -, hevents⟩ := trace_split hsplit
    have hc : c = .reset := by
      rw [← store_capture_mem_eventsOf_iff (s.run earlier) c h, hevents]
      exact List.mem_append_right _ List.mem_cons_self
    exact hc ▸ List.mem_append_right _ List.mem_cons_self
  · intro hmem
    obtain ⟨earlier, later, rfl⟩ := List.append_of_mem hmem
    exact mem_trace_of_mem_eventsOf ((store_capture_mem_eventsOf_iff _ _ h).mpr rfl)

/-! ## What an acquisition meets -/

/-- An acquisition happens in a call other than a reset, and is of the capture region. -/
theorem acquire_of_mem_eventsOf {s : Stream} {c : Call π η} {d : Direction} {h : Half}
    (hmem : .acquire d h ∈ s.eventsOf c) : c ≠ .reset ∧ d = .rx := by
  have hc : c ≠ .reset := by
    rintro rfl
    have hreset : .acquire d h ∈ resetEvents := hmem
    simp [resetEvents] at hreset
  exact ⟨hc, eventsOf_ofBlock s hc _ hmem⟩

/-- **What an acquisition meets.**  Each of its bytes was stored by software and not published since
    exactly if there was a reset before. -/
theorem unpublished_at_acquire_iff {s : Stream} {earlier : List (Call π η)} {c : Call π η}
    {head tail : List StreamEvent} {d : Direction} {h : Half}
    (hevents : (s.run earlier).eventsOf c = head ++ .acquire d h :: tail) {a : MemoryByte}
    (ha : a.InHalf d h) : Unpublished (s.trace earlier ++ head) a ↔ .reset ∈ earlier := by
  have hacquire : .acquire d h ∈ (s.run earlier).eventsOf c := by
    rw [hevents]
    exact List.mem_append_right _ List.mem_cons_self
  obtain ⟨hc, rfl⟩ := acquire_of_mem_eventsOf hacquire
  have hhead : ∀ e ∈ head, e ∈ (s.run earlier).eventsOf c := by
    intro e he
    rw [hevents]
    exact List.mem_append_left _ he
  -- the byte is in the capture region, so nothing on the way here has published it
  have hnone : ∀ d' h', .publish d' h' ∈ s.trace earlier ++ head → ¬a.InHalf d' h' := by
    intro d' h' hmem ha'
    obtain rfl : Direction.rx = d' := ha.1.symm.trans ha'.1
    rcases List.mem_append.mp hmem with hmem | hmem
    · exact publish_capture_not_mem_trace s earlier h' hmem
    · exact publish_capture_not_mem_eventsOf _ c h' (hhead _ hmem)
  rw [unpublished_iff_of_not_published hnone]
  constructor
  · rintro ⟨d', h', hmem, ha'⟩
    obtain rfl : Direction.rx = d' := ha.1.symm.trans ha'.1
    rcases List.mem_append.mp hmem with hmem | hmem
    · exact (store_capture_mem_trace_iff s earlier h').mp hmem
    · exact absurd ((store_capture_mem_eventsOf_iff _ c h').mp (hhead _ hmem)) hc
  · intro hreset
    refine ⟨.rx, h, List.mem_append_left _ ?_, ha⟩
    exact (store_capture_mem_trace_iff s earlier h).mpr hreset

/-! ## The discipline over a run -/

/-- **The discipline, exactly.**  On a new stream,
    (1) a run keeps the discipline exactly if no call after a reset acquires anything, that is, if
        no block is begun after a reset;
    (2) an acquisition before every reset meets no byte that software stored and did not publish,
        and one after a reset meets nothing but such bytes. -/
theorem disciplined_iff_no_block_after_reset (calls : List (Call π η)) :
    (Disciplined (trace {} calls) ↔
      ∀ earlier c later, calls = earlier ++ c :: later → .reset ∈ earlier →
        ∀ d h, .acquire d h ∉ (run {} earlier).eventsOf c) ∧
    ∀ earlier c later head d h tail, calls = earlier ++ c :: later →
      (run {} earlier).eventsOf c = head ++ .acquire d h :: tail →
        ∀ a : MemoryByte, a.InHalf d h →
          (Unpublished (trace {} earlier ++ head) a ↔ .reset ∈ earlier) := by
  refine ⟨⟨?_, ?_⟩, ?_⟩
  · intro hdisciplined earlier c later hcalls hreset d h hmem
    obtain ⟨head, tail, hevents⟩ := List.append_of_mem hmem
    have htrace : trace {} calls = (trace {} earlier ++ head) ++
        .acquire d h :: (tail ++ ((run {} earlier).after c).trace later) := by
      rw [hcalls, trace_append]
      show trace {} earlier ++
        ((run {} earlier).eventsOf c ++ ((run {} earlier).after c).trace later) = _
      rw [hevents]
      simp only [List.append_assoc, List.cons_append]
    have hfirst := MemoryByte.firstOf_inHalf d h
    have hunpublished := (unpublished_at_acquire_iff hevents hfirst).mpr hreset
    exact hdisciplined _ d h _ htrace _ hfirst hunpublished
  · intro hnone before d h rest htrace a ha hunpublished
    obtain ⟨earlier, c, later, head, tail, hcalls, rfl, hevents⟩ := trace_split htrace
    have hreset := (unpublished_at_acquire_iff hevents ha).mp hunpublished
    apply hnone earlier c later hcalls hreset d h
    rw [hevents]
    exact List.mem_append_right _ List.mem_cons_self
  · intro earlier c later head d h tail _ hevents a ha
    exact unpublished_at_acquire_iff hevents ha

/-- A reset and a block are enough to break the discipline: the block acquires the silence that the
    reset stored and did not publish. -/
theorem not_disciplined_reset_run :
    ¬Disciplined (trace {}
      [Call.reset, Call.run Half.first Mixer.mk ({} : CartridgeBay Bench.Hook)]) := by
  intro hdisciplined
  have hfirst := MemoryByte.firstOf_inHalf .rx .first
  refine hdisciplined resetEvents .rx .first _ rfl _ hfirst ?_
  refine ⟨[], .rx, .first, resetEvents.tail, rfl, hfirst, ?_⟩
  intro d h hmem ha
  obtain rfl : Direction.rx = d := ha.1
  simp [resetEvents] at hmem

end Stream

end DuplexAudio
