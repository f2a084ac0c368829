import Mathlib.Data.List.Chain
import RadioStream.Proofs.Queue.Removal

/-!
The run at the front of a queue. What is taken is the longest row of samples at the front that
follow each other without a gap, as far as the limit reaches and up to a flush mark. So the blocks
that the samples are cut into do not show, only the samples and their ticks.
-/
namespace RadioStream

/-- Whether a sample goes on where another ends: one tick later, or untimed like it. -/
def Stamped.Next (x y : Stamped) : Prop := y.tick = x.tick.map (·.later 1)

/-- The run at the front of a row of samples, cut to `limit`, and what is behind it. -/
structure LeadingRun (limit : Nat) (samples run rest : List Stamped) : Prop where
  samples_eq : samples = run ++ rest
  contiguous : run.IsChain Stamped.Next
  length_le : run.length ≤ limit
  longest : ∀ other, other <+: samples → other.IsChain Stamped.Next → other.length ≤ limit →
    other.length ≤ run.length

/-- A contiguous row is the run at the front if it was cut for a reason: nothing is behind it, it
is as long as the limit, or the next sample does not follow its last one. -/
theorem LeadingRun.of_stop {limit : Nat} {run rest : List Stamped}
    (contiguous : run.IsChain Stamped.Next) (length_le : run.length ≤ limit)
    (stop : rest = [] ∨ limit ≤ run.length ∨
      ∃ x ∈ run.getLast?, ∃ y ∈ rest.head?, ¬x.Next y) :
    LeadingRun limit (run ++ rest) run rest := by
  refine ⟨rfl, contiguous, length_le, ?_⟩
  intro other leads chain short
  rcases stop with rfl | full | ⟨x, last, y, first, gap⟩
  · rw [List.append_nil] at leads
    exact leads.length_le
  · exact Nat.le_trans short full
  · obtain ⟨front, rfl⟩ := List.getLast?_eq_some_iff.mp last
    obtain ⟨behind, rfl⟩ := List.head?_eq_some_iff.mp first
    refine Nat.le_of_not_lt fun longer => gap ?_
    -- A longer row would hold the two samples side by side.
    have inside : front ++ [x, y] <+: other := by
      refine List.prefix_of_prefix_length_le ⟨behind, ?_⟩ leads ?_
      · simp
      · simp only [List.length_append, List.length_cons, List.length_nil] at longer ⊢
        omega
    have beside := List.IsChain.prefix chain inside
    exact beside.right_of_append.rel

theorem stamp_chain (start : Option Tick) (samples : List (List UInt8)) :
    (stamp start samples).IsChain Stamped.Next := by
  induction samples generalizing start with
  | nil => exact .nil
  | cons first rest ih =>
    rw [stamp_cons]
    cases rest with
    | nil => exact .singleton _
    | cons second others =>
      have behind := ih (start.map (·.later 1))
      rw [stamp_cons] at behind ⊢
      exact .cons_cons rfl behind

namespace Block
variable {size : Nat} {b next : Block}

/-- The last sample of a block is as far from its start as the others reach. -/
theorem Whole.last_tick (whole : b.Whole size) {x : Stamped} (last : x ∈ b.content.getLast?) :
    x.tick.map (·.later 1) = b.tick?.map (·.later b.length) := by
  rw [List.getLast?_eq_getElem?, Option.mem_def] at last
  obtain ⟨bound, rfl⟩ := List.getElem?_eq_some_iff.mp last
  rw [whole.length_content] at bound
  simp only [content, stamp, List.getElem_mapIdx, List.length_mapIdx, whole.length_samples,
    Option.map_map, Function.comp_def, Tick.later_later]
  congr 2
  funext t
  congr 1
  omega

/-- Blocks go on in each other exactly where their samples do. -/
theorem Whole.next_iff (whole : b.Whole size) {x y : Stamped} (last : x ∈ b.content.getLast?)
    (first : y ∈ next.content.head?) : x.Next y ↔ b.continuedBy next = true := by
  rw [Stamped.Next, whole.last_tick last, tick_of_head first, continuedBy, tick?, tick?]
  cases b.timed <;> cases next.timed <;> simp only [Option.map_none, Option.map_some, if_true,
    Bool.false_eq_true, if_false, reduceCtorEq]
  rw [Option.some.injEq, decide_eq_true_iff]
  rfl

end Block

namespace ChannelQueue
variable {size limit : Nat} {q rest : ChannelQueue} {run : Block} {blocks : List Block}

/-- Gathering ends for a reason. -/
theorem gatherRun_stop (limit : Nat) (whole : run.Whole size)
    (stored : ∀ b ∈ blocks, b.Stored size) :
    let gathered := gatherRun limit run blocks
    gathered.2 = [] ∨ limit ≤ gathered.1.length ∨ gathered.1.flush = true ∨
      ∃ x ∈ gathered.1.content.getLast?, ∃ y ∈ (gathered.2.flatMap Block.content).head?,
        ¬x.Next y := by
  fun_induction gatherRun limit run blocks with
  | case1 run => exact .inl rfl
  | case2 run front rest full => exact .inr (.inl full)
  | case3 run front rest room gap =>
    rw [Bool.and_eq_true, Bool.not_eq_true', Bool.not_eq_true'] at gap
    have frontStored := stored front List.mem_cons_self
    have filled : run.content ≠ [] := by simp [whole.content_eq_nil, gap.1]
    have more := frontStored.content_ne_nil
    have last := List.getLast?_eq_some_getLast filled
    have first := List.head?_eq_some_head more
    refine .inr (.inr (.inr ⟨_, last, front.content.head more, ?_, ?_⟩))
    · rw [List.flatMap_cons, List.head?_append, first]
      rfl
    · rw [whole.next_iff last first, gap.2]
      exact Bool.false_ne_true
  | case4 run front rest room joined longer left moved remains =>
    obtain ⟨wholeLonger, wholeLeft, grown, cut⟩ :=
      gathered whole (stored front List.mem_cons_self).toWhole joined moved
    have filled : left.content ≠ [] := by
      rw [ne_eq, wholeLeft.content_eq_nil]
      simpa using remains
    have grown := congrArg List.length grown
    rw [cut, ne_eq, List.drop_eq_nil_iff] at filled
    rw [wholeLonger.length_content, List.length_append, whole.length_content, List.length_take]
      at grown
    refine .inr (.inl ?_)
    dsimp only
    omega
  | case5 run front rest room joined longer left moved used flush => exact .inr (.inr (.inl flush))
  | case6 run front rest room joined longer left moved used unmarked ih =>
    obtain ⟨frontStored, restStored⟩ := List.forall_mem_cons.mp stored
    exact ih (gathered whole frontStored.toWhole joined moved).1 restStored

/-- A run is cut for a reason: nothing is behind it, it is as long as the limit, its last sample
ends a burst, or the next sample does not follow it. -/
theorem Sound.takeRun?_stop (sound : q.Sound size) (taken : q.takeRun? limit = some (run, rest)) :
    rest.blocks = [] ∨ limit ≤ run.length ∨ run.flush = true ∨
      ∃ x ∈ run.content.getLast?, ∃ y ∈ rest.content.head?, ¬x.Next y := by
  cases blocks : q.blocks with
  | nil =>
    rw [takeRun?_eq_none.mpr blocks] at taken
    contradiction
  | cons front others =>
    rw [takeRun?_cons blocks, Option.some.injEq, Prod.mk.injEq] at taken
    obtain ⟨rfl, rfl⟩ := taken
    have whole := (sound.stored front (blocks ▸ List.mem_cons_self)).toWhole.emptyLike
    exact gatherRun_stop limit whole sound.stored

/-- A run out of blocks that end no burst ends none. -/
theorem takeRun?_unmarked (unmarked : ∀ b ∈ q.blocks, b.flush = false)
    (taken : q.takeRun? limit = some (run, rest)) : run.flush = false := by
  cases blocks : q.blocks with
  | nil =>
    rw [takeRun?_eq_none.mpr blocks] at taken
    contradiction
  | cons front others =>
    rw [takeRun?_cons blocks, Option.some.injEq, Prod.mk.injEq] at taken
    rw [← taken.1]
    refine gatherRun_keeps (P := fun b => b.flush = false) ?_ rfl
    intro run front member longer left _ moved own
    have made : (run.gather front (limit - run.length)).1 = longer := congrArg Prod.fst moved
    rw [← made]
    simp [Block.gather, own, unmarked front member]

/-- Where no block is marked, what is taken is the run at the front. -/
theorem Sound.takeRun?_leading (sound : q.Sound size) (unmarked : ∀ b ∈ q.blocks, b.flush = false)
    (taken : q.takeRun? limit = some (run, rest)) :
    LeadingRun limit q.content run.content rest.content := by
  have cut := sound.takeRun? taken
  have length := cut.whole.length_content
  rw [← cut.content_eq]
  refine .of_stop (stamp_chain _ _) (length ▸ sound.takeRun?_length taken) ?_
  rcases sound.takeRun?_stop taken with none | full | flush | gap
  · exact .inl (by rw [content, none, List.flatMap_nil])
  · exact .inr (.inl (length ▸ full))
  · rw [takeRun?_unmarked unmarked taken] at flush
    contradiction
  · exact .inr (.inr gap)

/-- A run starts at the tick of the first sample, also one without samples. -/
theorem Sound.takeRun?_start (sound : q.Sound size) (taken : q.takeRun? limit = some (run, rest))
    {x : Stamped} {t : Tick} (first : x ∈ q.content.head?) (tick : x.tick = some t) :
    run.start = t := by
  cases blocks : q.blocks with
  | nil =>
    rw [takeRun?_eq_none.mpr blocks] at taken
    contradiction
  | cons front others =>
    have stored := sound.stored front (blocks ▸ List.mem_cons_self)
    have filled := stored.content_ne_nil
    cases limit with
    | zero =>
      rw [takeRun?_cons blocks, blocks, Option.some.injEq, Prod.mk.injEq] at taken
      rw [content, blocks, List.flatMap_cons, List.head?_append_of_ne_nil _ filled] at first
      rw [← taken.1]
      have begins := Block.start_of_head first tick
      simp only [gatherRun, Nat.zero_le, if_true]
      exact begins
    | succ limit =>
      have cut := sound.takeRun? taken
      have some : run.content ≠ [] := by
        simp [cut.whole.content_eq_nil, sound.takeRun?_nonempty (Nat.succ_pos limit) taken]
      rw [← cut.content_eq, List.head?_append_of_ne_nil _ some] at first
      exact Block.start_of_head first tick

end ChannelQueue
end RadioStream
