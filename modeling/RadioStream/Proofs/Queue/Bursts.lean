import RadioStream.Proofs.Queue.Content

/-!
Where bursts end in a queue, as the numbers of samples up to the marked ones. Blocks are cut and
gathered on their way through the queue, and these numbers stay as they are: an offer adds one
when it places the last sample of a flushed block, a mark adds the end of the queue, and taking a
run moves none.
-/
namespace RadioStream

namespace Block
variable {size before n : Nat} {b source : Block} {blocks : List Block}

/-- The numbers of samples up to the ends of bursts in a row of blocks, counted from `before`. -/
def burstEnds (before : Nat) : List Block → List Nat
  | [] => []
  | b :: rest =>
    (if b.flush then [before + b.content.length] else []) ++
      burstEnds (before + b.content.length) rest

theorem burstEnds_append (before : Nat) (front back : List Block) :
    burstEnds before (front ++ back) =
      burstEnds before front ++ burstEnds (before + (front.flatMap content).length) back := by
  induction front generalizing before with
  | nil => rfl
  | cons b rest ih =>
    rw [List.cons_append, burstEnds, burstEnds, ih, List.flatMap_cons, List.length_append,
      List.append_assoc, Nat.add_assoc]

theorem mem_burstEnds_bounds (stored : ∀ b ∈ blocks, b.Stored size)
    (ends : n ∈ burstEnds before blocks) :
    before < n ∧ n ≤ before + (blocks.flatMap content).length := by
  induction blocks generalizing before with
  | nil => exact absurd ends List.not_mem_nil
  | cons b rest ih =>
    obtain ⟨first, others⟩ := List.forall_mem_cons.mp stored
    have filled := first.length_pos
    rw [← first.length_content] at filled
    rw [List.flatMap_cons, List.length_append]
    rcases List.mem_append.mp ends with here | later
    · split at here
      · rw [List.mem_singleton.mp here]
        omega
      · exact absurd here List.not_mem_nil
    · have := ih others later
      omega

/-- Within a block a burst ends at its end, if the block is marked, and nowhere else. -/
theorem mem_burstEnds_within {front back : List Block}
    (stored : ∀ c ∈ front ++ b :: back, c.Stored size)
    (past : before + (front.flatMap content).length < n)
    (upTo : n ≤ before + (front.flatMap content).length + b.content.length) :
    n ∈ burstEnds before (front ++ b :: back) ↔
      b.flush = true ∧ n = before + (front.flatMap content).length + b.content.length := by
  obtain ⟨earlier, rest⟩ := List.forall_mem_append.mp stored
  rw [burstEnds_append, burstEnds, List.mem_append, List.mem_append]
  constructor
  · rintro (ahead | here | behind)
    · have := mem_burstEnds_bounds earlier ahead
      omega
    · split at here
      · next flush => exact ⟨flush, List.mem_singleton.mp here⟩
      · exact absurd here List.not_mem_nil
    · have := mem_burstEnds_bounds (List.forall_mem_cons.mp rest).2 behind
      omega
  · rintro ⟨flush, rfl⟩
    rw [if_pos flush]
    exact .inr (.inl (List.mem_singleton_self _))

theorem gather_flush (b source : Block) (count : Nat) : (b.gather source count).1.flush =
    (b.flush || ((source.advance count).isEmpty && source.flush)) := by
  rw [← gather_rest b source count]
  rfl

end Block

namespace ChannelQueue
variable {size limit before n : Nat} {q rest : ChannelQueue} {b run : Block} {blocks : List Block}
open Block (burstEnds)

/-- What gathering makes of the marks and the number of samples of two blocks. -/
theorem gathered_marks {front longer left : Block} {count : Nat} (whole : run.Whole size)
    (other : front.Whole size) (joined : ¬(!run.isEmpty && !run.continuedBy front) = true)
    (moved : run.gather front count = (longer, left)) (unmarked : run.flush = false) :
    longer.flush = (left.isEmpty && front.flush) ∧ left.flush = front.flush ∧
      longer.content.length + left.content.length =
        run.content.length + front.content.length := by
  obtain ⟨_, _, grown, cut⟩ := gathered whole other joined moved
  have flush := Block.gather_flush run front count
  have behind := Block.gather_rest run front count
  rw [moved] at flush behind
  obtain rfl : left = front.advance count := behind
  refine ⟨?_, rfl, ?_⟩
  · rw [flush, unmarked, Bool.false_or]
  · rw [grown, cut, List.length_append, List.length_take, List.length_drop]
    omega

/-- Gathering moves no end of a burst: a run is gathered up to the first one at most. -/
theorem burstEnds_gatherRun (limit before : Nat) (whole : run.Whole size)
    (stored : ∀ b ∈ blocks, b.Stored size) (unmarked : run.flush = false) :
    burstEnds before ((gatherRun limit run blocks).1 :: (gatherRun limit run blocks).2) =
      burstEnds before (run :: blocks) := by
  fun_induction gatherRun limit run blocks with
  | case1 run => rfl
  | case2 run front rest full => rfl
  | case3 run front rest room gap => rfl
  | case4 run front rest room joined longer left moved remains =>
    obtain ⟨frontStored, _⟩ := List.forall_mem_cons.mp stored
    obtain ⟨flush, marked, total⟩ :=
      gathered_marks whole frontStored.toWhole joined moved unmarked
    rw [Bool.not_eq_true'] at remains
    rw [remains, Bool.false_and] at flush
    simp only [burstEnds, flush, unmarked, marked, Nat.add_assoc, total, Bool.false_eq_true,
      if_false, List.nil_append]
  | case5 run front rest room joined longer left moved used flushed =>
    obtain ⟨frontStored, _⟩ := List.forall_mem_cons.mp stored
    obtain ⟨_, wholeLeft, _, _⟩ := gathered whole frontStored.toWhole joined moved
    obtain ⟨flush, _, total⟩ :=
      gathered_marks whole frontStored.toWhole joined moved unmarked
    rw [Bool.not_eq_true', Bool.not_eq_false] at used
    rw [wholeLeft.content_eq_nil.mpr used, List.length_nil, Nat.add_zero] at total
    rw [used, Bool.true_and] at flush
    simp only [burstEnds, flush, unmarked, total, Nat.add_assoc, Bool.false_eq_true, if_false,
      List.nil_append]
  | case6 run front rest room joined longer left moved used open_ ih =>
    obtain ⟨frontStored, restStored⟩ := List.forall_mem_cons.mp stored
    obtain ⟨wholeLonger, wholeLeft, _, _⟩ := gathered whole frontStored.toWhole joined moved
    obtain ⟨flush, _, total⟩ :=
      gathered_marks whole frontStored.toWhole joined moved unmarked
    rw [Bool.not_eq_true', Bool.not_eq_false] at used
    rw [wholeLeft.content_eq_nil.mpr used, List.length_nil, Nat.add_zero] at total
    rw [used, Bool.true_and] at flush
    rw [ih wholeLonger restStored (by simpa using open_)]
    simp only [burstEnds, flush, unmarked, total, Nat.add_assoc, Bool.false_eq_true, if_false,
      List.nil_append]

/-- A run and what it leaves behind have the ends of bursts where the queue had them. -/
theorem Sound.burstEnds_takeRun? (sound : q.Sound size)
    (taken : q.takeRun? limit = some (run, rest)) (before : Nat) :
    burstEnds before (run :: rest.blocks) = burstEnds before q.blocks := by
  cases blocks : q.blocks with
  | nil =>
    rw [takeRun?_eq_none.mpr blocks] at taken
    contradiction
  | cons front others =>
    have whole := (sound.stored front (by simp [blocks])).toWhole.emptyLike
    have nothing : front.emptyLike.content = [] := whole.content_eq_nil.mpr rfl
    have unmarked : front.emptyLike.flush = false := rfl
    rw [takeRun?_cons blocks, Option.some.injEq, Prod.mk.injEq] at taken
    obtain ⟨rfl, rfl⟩ := taken
    rw [burstEnds_gatherRun limit before whole sound.stored unmarked, burstEnds, unmarked,
      nothing, blocks]
    rfl

/-- A mark ends a burst at the end of the queue, if anything is queued. -/
theorem mem_burstEnds_markLast (before : Nat) (blocks : List Block) :
    n ∈ burstEnds before (markLast blocks) ↔ n ∈ burstEnds before blocks ∨
      blocks ≠ [] ∧ n = before + (blocks.flatMap Block.content).length := by
  fun_induction markLast blocks generalizing before with
  | case1 => simp
  | case2 b =>
    have same : ({ b with flush := true } : Block).content = b.content := rfl
    cases marked : b.flush <;> simp [burstEnds, marked, same]
  | case3 b rest more ih =>
    have some : rest ≠ [] := more
    rw [burstEnds, burstEnds, List.mem_append, List.mem_append, ih, List.flatMap_cons,
      List.length_append, Nat.add_assoc, or_assoc]
    simp only [some, ne_eq, not_false_eq_true, true_and, reduceCtorEq]

theorem burstEnds_add (q : ChannelQueue) (b : Block) (before : Nat) :
    burstEnds before (q.append b).blocks = burstEnds before q.blocks ++
      if b.isEmpty then [] else
        if b.flush then [before + q.content.length + b.content.length] else [] := by
  rw [append]
  split
  · rw [List.append_nil]
  · rw [Block.burstEnds_append, burstEnds, burstEnds, List.append_nil, content]

/-- An offer ends a burst where it places the last sample of a flushed block. -/
theorem burstEnds_offer (whole : b.Whole size) (q : ChannelQueue) (wait : Wait) (before : Nat) :
    burstEnds before (q.offer b wait).2.blocks = burstEnds before q.blocks ++
      if b.flush = true ∧ b.content ≠ [] ∧ granted (q.offer b wait).1 = b.content.length then
        [before + q.content.length + b.content.length] else [] := by
  cases room : q.stopped with
  | true =>
    have refused (filled : b.content ≠ []) : 0 ≠ b.content.length := by
      rwa [ne_eq, eq_comm, List.length_eq_zero_iff]
    rw [offer_stopped room, if_neg fun ⟨_, filled, all⟩ => refused filled all, List.append_nil]
  | false =>
    have part := whole.content_part (q.capacity - q.queued)
    have wholePart := whole.emptyLike.gather whole (q.capacity - q.queued)
    have flush := Block.gather_flush b.emptyLike b (q.capacity - q.queued)
    have unmarked : b.emptyLike.flush = false := rfl
    have left := (whole.advance (q.capacity - q.queued)).isEmpty_iff
    rw [whole.length_advance] at left
    rw [unmarked, Bool.false_or] at flush
    rw [offer_queue room, granted_offer room, burstEnds_add, flush, part, whole.length_content]
    congr 1
    by_cases all : b.length ≤ q.capacity - q.queued
    · have gone : (b.advance (q.capacity - q.queued)).isEmpty = true := left.mpr (by omega)
      have same : b.content.take (q.capacity - q.queued) = b.content :=
        List.take_of_length_le (whole.length_content ▸ all)
      rw [same] at part ⊢
      have filled := wholePart.content_eq_nil
      rw [part] at filled
      rw [gone, Bool.true_and, whole.length_content, Nat.min_eq_right all]
      cases marked : b.flush <;>
        cases empty : (b.emptyLike.gather b (q.capacity - q.queued)).1.isEmpty <;>
          simp [filled, empty]
    · have remains : (b.advance (q.capacity - q.queued)).isEmpty = false :=
        Bool.eq_false_iff.mpr fun gone => all (by have := left.mp gone; omega)
      rw [remains, Bool.false_and, if_neg Bool.false_ne_true, ite_self, if_neg]
      rintro ⟨_, _, same⟩
      omega

end ChannelQueue
end RadioStream
