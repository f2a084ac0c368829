import RadioStream.Proofs.Queue.Bursts
import RadioStream.Proofs.Queue.LeadingRun
import RadioStream.Proofs.Queue.Readiness

/-!
The test for a batch against the batch that is taken. The test compares neighbouring blocks, while
taking grows a run and compares it with the next block. Seen by samples both are about one thing,
the row at the front of the queue that has no gap and passes no end of a burst.
-/
namespace RadioStream

namespace Block
variable {size before : Nat} {blocks : List Block}

/-- Blocks go on in each other one by one exactly where all their samples do. -/
theorem chain_iff (stored : ∀ b ∈ blocks, b.Stored size) :
    blocks.IsChain (fun b next => b.continuedBy next = true) ↔
      (blocks.flatMap content).IsChain Stamped.Next := by
  induction blocks with
  | nil => exact iff_of_true .nil .nil
  | cons b rest ih =>
    obtain ⟨first, others⟩ := List.forall_mem_cons.mp stored
    rw [List.isChain_cons, List.flatMap_cons, List.isChain_append, ← ih others, and_comm]
    have own : b.content.IsChain Stamped.Next := stamp_chain _ _
    have seam : (∀ next ∈ rest.head?, b.continuedBy next = true) ↔
        ∀ x ∈ b.content.getLast?, ∀ y ∈ (rest.flatMap content).head?, x.Next y := by
      cases rest with
      | nil => simp
      | cons next behind =>
        have filled := (others next List.mem_cons_self).content_ne_nil
        have last := List.getLast?_eq_some_getLast first.content_ne_nil
        have head := List.head?_eq_some_head filled
        rw [List.flatMap_cons, List.head?_append_of_ne_nil _ filled]
        simp [last, head, first.next_iff last head]
    rw [seam]
    tauto

theorem burstEnds_eq_nil : burstEnds before blocks = [] ↔ ∀ b ∈ blocks, b.flush = false := by
  induction blocks generalizing before with
  | nil => simp [burstEnds]
  | cons b rest ih =>
    rw [burstEnds, List.append_eq_nil_iff, ih, List.forall_mem_cons]
    cases b.flush <;> simp

end Block

namespace ChannelQueue
variable {size batch limit : Nat} {q rest : ChannelQueue} {run : Block} {row : List Stamped}
open Block (burstEnds)

/-- Rows at the front of a queue that may leave it together: no gap in them, no more samples than
the limit, and no end of a burst but at their own. -/
structure MayLeave (limit : Nat) (q : ChannelQueue) (row : List Stamped) : Prop where
  leads : row <+: q.content
  contiguous : row.IsChain Stamped.Next
  length_le : row.length ≤ limit
  unpassed : ∀ burst ∈ burstEnds 0 q.blocks, row.length ≤ burst

/-- The run that is taken may leave, and ends a burst if the queue has one ending there. -/
theorem Sound.takeRun?_leaves (sound : q.Sound size) (taken : q.takeRun? limit = some (run, rest)) :
    q.MayLeave limit run.content ∧
      (run.flush = true ↔ run.length ∈ burstEnds 0 q.blocks) := by
  have cut := sound.takeRun? taken
  have length := cut.whole.length_content
  have ends := sound.burstEnds_takeRun? taken 0
  rw [burstEnds, Nat.zero_add, length] at ends
  have behind {burst : Nat} (later : burst ∈ burstEnds run.length rest.blocks) :
      run.length < burst := (Block.mem_burstEnds_bounds cut.sound.stored later).1
  refine ⟨⟨⟨_, cut.content_eq⟩, stamp_chain _ _, length ▸ sound.takeRun?_length taken, ?_⟩, ?_⟩
  · intro burst member
    rw [← ends] at member
    rw [length]
    rcases List.mem_append.mp member with own | later
    · split at own
      · exact Nat.le_of_eq (List.mem_singleton.mp own).symm
      · contradiction
    · exact Nat.le_of_lt (behind later)
  · rw [← ends, List.mem_append]
    constructor
    · intro flush
      rw [if_pos flush]
      exact .inl (List.mem_singleton_self _)
    · rintro (own | later)
      · split at own
        · assumption
        · contradiction
      · exact absurd (behind later) (Nat.lt_irrefl _)

/-- No longer row may leave than the run that is taken. -/
theorem Sound.takeRun?_longest (sound : q.Sound size)
    (taken : q.takeRun? limit = some (run, rest)) (leaves : q.MayLeave limit row) :
    row <+: run.content := by
  have cut := sound.takeRun? taken
  have length := cut.whole.length_content
  obtain ⟨own, marked⟩ := sound.takeRun?_leaves taken
  refine List.prefix_of_prefix_length_le leaves.leads own.leads ?_
  -- Only a mark stops the run where the row of all samples could go on.
  have unflushed (stop : rest.content = [] ∨ limit ≤ run.content.length ∨
      ∃ x ∈ run.content.getLast?, ∃ y ∈ rest.content.head?, ¬x.Next y) :
      row.length ≤ run.content.length :=
    (LeadingRun.of_stop own.contiguous own.length_le stop).longest row
      (cut.content_eq.symm ▸ leaves.leads) leaves.contiguous leaves.length_le
  rcases sound.takeRun?_stop taken with none | full | flush | gap
  · exact unflushed (.inl (cut.sound.blocks_eq_nil.mp none))
  · exact unflushed (.inr (.inl (length ▸ full)))
  · rw [length]
    exact leaves.unpassed _ (marked.mp flush)
  · exact unflushed (.inr (.inr gap))

/-- A queue still grows exactly when taking a run would empty it without a whole batch and without
an end of a burst. -/
theorem Sound.growing_iff (sound : q.Sound size) (taken : q.takeRun? batch = some (run, rest)) :
    q.Growing batch ↔ run.length ≠ batch ∧ run.flush = false ∧ rest.blocks = [] := by
  have cut := sound.takeRun? taken
  have counted := (sound.takeRun?_counted taken).1
  have short := sound.takeRun?_length taken
  have ends := sound.burstEnds_takeRun? taken 0
  have chain := Block.chain_iff sound.stored
  have queued := cut.sound.queued_eq
  constructor
  · rintro ⟨contiguous, unmarked, few⟩
    have contiguous := chain.mp contiguous
    rw [Block.burstEnds_eq_nil.mpr unmarked] at ends
    have bare : run.flush = false := Block.burstEnds_eq_nil.mp ends run List.mem_cons_self
    refine ⟨by omega, bare, ?_⟩
    rcases sound.takeRun?_stop taken with none | full | flush | ⟨x, last, y, first, gap⟩
    · exact none
    · omega
    · rw [bare] at flush
      contradiction
    · rw [← content, ← cut.content_eq, List.isChain_append] at contiguous
      exact absurd (contiguous.2.2 x last y first) gap
  · rintro ⟨partial_, bare, none⟩
    rw [content, none, List.flatMap_nil, List.length_nil] at queued
    have all : run.content = q.content := by
      rw [← cut.content_eq, content, none, List.flatMap_nil, List.append_nil]
    rw [none, Block.burstEnds_eq_nil.mpr (by simpa using bare)] at ends
    refine ⟨chain.mpr ?_, Block.burstEnds_eq_nil.mp ends.symm, by omega⟩
    rw [← content, ← all]
    exact stamp_chain _ _

/-- A batch is reported ready exactly when the run that would be taken is a whole batch, ends a
burst or leaves something behind. What is taken is the longest row that may leave. -/
theorem readiness_matches_extraction (sound : q.Sound size) (room : 0 < batch) :
    (q.runReady batch = true ↔ ∃ run rest, q.takeRun? batch = some (run, rest) ∧
      (run.length = batch ∨ run.flush = true ∨ rest.blocks ≠ [])) ∧
    (q.takeRun? batch = none ↔ q.blocks = []) ∧
    ∀ run rest, q.takeRun? batch = some (run, rest) →
      q.content = run.content ++ rest.content ∧ 0 < run.length ∧
      (run.flush = true ↔ run.length ∈ burstEnds 0 q.blocks) ∧
      q.MayLeave batch run.content ∧ ∀ row, q.MayLeave batch row → row <+: run.content := by
  refine ⟨?_, takeRun?_eq_none, fun run rest taken => ?_⟩
  · rw [← Bool.not_eq_false, sound.runReady_eq_false room]
    cases taken : q.takeRun? batch with
    | none =>
      have none := takeRun?_eq_none.mp taken
      have growing : q.Growing batch := by
        refine ⟨none ▸ .nil, none ▸ List.forall_mem_nil _, ?_⟩
        rw [sound.queued_eq, content, none]
        exact room
      simp [growing]
    | some pair =>
      obtain ⟨run, rest⟩ := pair
      rw [sound.growing_iff taken]
      simp only [Option.some.injEq, Prod.mk.injEq]
      constructor
      · intro grows
        refine ⟨run, rest, ⟨rfl, rfl⟩, ?_⟩
        rw [← Bool.not_eq_false]
        tauto
      · rintro ⟨run, rest, ⟨rfl, rfl⟩, reason⟩
        rw [← Bool.not_eq_false] at reason
        tauto
  · obtain ⟨leaves, marked⟩ := sound.takeRun?_leaves taken
    exact ⟨(sound.takeRun? taken).content_eq.symm, (sound.takeRun?_counted taken).2 room, marked,
      leaves, fun row => sound.takeRun?_longest taken⟩

/-- Timed samples up to the last tick and past it, a burst that ends there, and an untimed one. -/
def saturatedQueue : ChannelQueue where
  capacity := 8
  blocks := [⟨Tick.clamp 0x7ffffffffffffffe, true, false, [1, 2, 3], 1⟩,
    ⟨Tick.clamp 0x7fffffffffffffff, true, true, [4], 1⟩, ⟨.zero, false, false, [5], 1⟩]
  queued := 5
  stopped := false

theorem saturatedQueue_sound : saturatedQueue.Sound 1 := by
  refine ⟨?_, by decide +kernel, by decide⟩
  simp only [saturatedQueue, List.forall_mem_cons]
  exact ⟨⟨⟨by decide, rfl, by decide⟩, rfl⟩, ⟨⟨by decide, rfl, by decide⟩, rfl⟩,
    ⟨⟨by decide, rfl, by decide⟩, rfl⟩, List.forall_mem_nil _⟩

/-- Of eight samples that would be a batch four are ready, since a burst ends with them. -/
theorem readiness_matches_extraction_saturated :
    saturatedQueue.Sound 1 ∧ saturatedQueue.runReady 8 = true ∧
    ∃ run rest, saturatedQueue.takeRun? 8 = some (run, rest) ∧ run.length = 4 ∧
      run.flush = true ∧ rest.blocks ≠ [] ∧ saturatedQueue.MayLeave 8 run.content ∧
      ∀ row, saturatedQueue.MayLeave 8 row → row <+: run.content := by
  obtain ⟨ready, _, longest⟩ :=
    readiness_matches_extraction saturatedQueue_sound (by decide : 0 < 8)
  have flushed : ∃ run rest, saturatedQueue.takeRun? 8 = some (run, rest) ∧ run.length = 4 ∧
      run.flush = true ∧ rest.blocks ≠ [] := ⟨_, _, rfl, by decide, by decide, by decide⟩
  obtain ⟨run, rest, taken, four, flush, more⟩ := flushed
  obtain ⟨_, _, _, leaves, others⟩ := longest run rest taken
  exact ⟨saturatedQueue_sound, ready.mpr ⟨run, rest, taken, .inr (.inl flush)⟩, run, rest, taken,
    four, flush, more, leaves, others⟩

end ChannelQueue
end RadioStream
