import RadioStream.Proofs.Queue.Content

/-!
The receive side of a channel queue, on the list of its samples: a new block goes behind
the others and pushes the oldest samples out, a request for a tick drops samples at the
front, and a run is taken from the front. Nothing else ever leaves or enters.
-/
namespace RadioStream.ChannelQueue
variable {size : Nat} {q : ChannelQueue} {b run : Block} {blocks : List Block}

/-- Dropping the oldest samples drops a prefix, of the length that is reported. -/
theorem dropOldest_content (n : Nat) (stored : ∀ b ∈ blocks, b.Stored size) :
    (∀ b ∈ (dropOldest n blocks).1, b.Stored size) ∧
      (dropOldest n blocks).1.flatMap Block.content = (blocks.flatMap Block.content).drop n ∧
      (dropOldest n blocks).2 = min n (blocks.flatMap Block.content).length := by
  fun_induction dropOldest n blocks with
  | case1 n => simp
  | case2 b rest => simpa using stored
  | case3 n b rest some skip left used others dropped moved ih =>
    obtain ⟨first, behind⟩ := List.forall_mem_cons.mp stored
    obtain ⟨othersStored, cut, counted⟩ := ih behind
    rw [moved] at othersStored cut counted
    have whole := first.toWhole.advance skip
    have all : b.length ≤ n := by
      have none := first.toWhole.length_advance skip
      rw [whole.isEmpty_iff.mp used] at none
      omega
    have skipped : skip = b.length := Nat.min_eq_right all
    have length := first.toWhole.length_content
    have gone : b.content.drop n = [] := List.drop_eq_nil_of_le (by omega)
    refine ⟨othersStored, ?_, ?_⟩
    · rw [List.flatMap_cons, cut, List.drop_append, gone, List.nil_append, length, skipped]
    · rw [List.flatMap_cons, List.length_append, length]
      dsimp only at counted ⊢
      omega
  | case4 n b rest some skip left remains =>
    obtain ⟨first, behind⟩ := List.forall_mem_cons.mp stored
    have whole := first.toWhole.advance skip
    have part : n < b.length := by
      have more := mt whole.isEmpty_iff.mpr remains
      rw [first.toWhole.length_advance] at more
      omega
    have skipped : skip = n := Nat.min_eq_left (Nat.le_of_lt part)
    have length := first.toWhole.length_content
    refine ⟨List.forall_mem_cons.mpr ⟨⟨whole, by simpa using remains⟩, behind⟩, ?_, ?_⟩
    · rw [List.flatMap_cons, List.flatMap_cons, first.toWhole.content_advance, skipped,
        List.drop_append_of_le_length (by omega)]
    · rw [List.flatMap_cons, List.length_append, skipped]
      omega

/-- A pushed block is behind what is left; what is dropped is what is reported. -/
theorem Sound.pushNewest (sound : q.Sound size) (whole : b.Whole size) :
    (q.pushNewest b).1.Sound size ∧
      (q.pushNewest b).1.content = (q.content ++ b.content).drop (q.pushNewest b).2 := by
  rw [ChannelQueue.pushNewest]
  dsimp only
  have part := whole.advance (b.length - q.capacity)
  have length := whole.length_advance (b.length - q.capacity)
  have queued := sound.queued_eq
  have fits := sound.queued_le
  obtain ⟨stored, cut, dropped⟩ := dropOldest_content
    (q.queued + (b.advance (b.length - q.capacity)).length - q.capacity) sound.stored
  generalize dropOldest _ q.blocks = left at stored cut dropped
  change left.2 = min _ q.content.length at dropped
  have leftSound : Sound size
      { q with blocks := left.1, queued := q.queued - left.2 } := by
    refine ⟨stored, ?_, by dsimp only; omega⟩
    simp only [content, cut, List.length_drop]
    change q.queued - left.2 = q.content.length - _
    omega
  refine ⟨leftSound.append part (by dsimp only; omega), ?_⟩
  rw [content_append part]
  simp only [content, cut, whole.content_advance]
  change q.content.drop _ ++ _ = (q.content ++ b.content).drop _
  have behind : b.length - q.capacity + left.2 - q.content.length = b.length - q.capacity := by
    omega
  rw [List.drop_append, behind]
  congr 1
  by_cases excess : b.length ≤ q.capacity
  · congr 1
    omega
  · have gone (n : Nat) (all : q.queued ≤ n) : q.content.drop n = [] :=
      List.drop_eq_nil_of_le (by omega)
    rw [gone _ (by omega), gone _ (by omega)]

theorem skipBlocks_content (t : Tick) (stored : ∀ b ∈ blocks, b.Stored size) :
    (∀ b ∈ (skipBlocks t blocks).1, b.Stored size) ∧
      (skipBlocks t blocks).1.flatMap Block.content =
        (blocks.flatMap Block.content).drop (skipBlocks t blocks).2 ∧
      (skipBlocks t blocks).2 ≤ (blocks.flatMap Block.content).length := by
  fun_induction skipBlocks t blocks with
  | case1 => simp
  | case2 b rest past left skipped moved ih =>
    obtain ⟨first, behind⟩ := List.forall_mem_cons.mp stored
    obtain ⟨leftStored, cut, counted⟩ := ih behind
    rw [moved] at leftStored cut counted
    have length := first.toWhole.length_content
    have gone : b.content.drop (b.length + skipped) = [] := List.drop_eq_nil_of_le (by omega)
    refine ⟨leftStored, ?_, ?_⟩
    · rw [List.flatMap_cons, cut, List.drop_append, gone, List.nil_append, length,
        Nat.add_sub_cancel_left]
    · rw [List.flatMap_cons, List.length_append]
      dsimp only at counted ⊢
      omega
  | case3 b rest remains early =>
    obtain ⟨first, behind⟩ := List.forall_mem_cons.mp stored
    have length := first.toWhole.length_content
    have part : b.start.gap t < b.length := by
      rw [Tick.le_def, Block.finish, Tick.toInt_later] at remains
      rw [Tick.lt_def] at early
      rw [Tick.gap]
      omega
    have whole := first.toWhole.advance (b.start.gap t)
    have remaining := first.toWhole.length_advance (b.start.gap t)
    have nonempty := mt whole.isEmpty_iff.mp (by omega)
    refine ⟨List.forall_mem_cons.mpr ⟨⟨whole, by simpa using nonempty⟩, behind⟩, ?_, ?_⟩
    · rw [List.flatMap_cons, List.flatMap_cons, first.toWhole.content_advance,
        List.drop_append_of_le_length (by omega)]
    · rw [List.flatMap_cons, List.length_append]
      omega
  | case4 b rest remains due => simpa using stored

theorem Sound.skipBefore (sound : q.Sound size) (t : Tick) :
    (q.skipBefore t).Sound size ∧ (q.skipBefore t).content <:+ q.content := by
  obtain ⟨stored, cut, counted⟩ := skipBlocks_content t sound.stored
  have queued := sound.queued_eq
  have fits := sound.queued_le
  unfold content at queued
  refine ⟨⟨stored, ?_, ?_⟩, ?_⟩
  · simp only [ChannelQueue.skipBefore, content, cut, List.length_drop]
    omega
  · simp only [ChannelQueue.skipBefore]
    omega
  · simp only [ChannelQueue.skipBefore, content, cut]
    exact List.drop_suffix _ _

/-- A call for samples reaches the blocks of a queue and their count only. -/
theorem pop_frame (q : ChannelQueue) (limit : Nat) (wait : Wait) : (q.pop limit wait).2 =
    { q with blocks := (q.pop limit wait).2.blocks, queued := (q.pop limit wait).2.queued } := by
  rw [ChannelQueue.pop]
  split
  · rfl
  · split
    · next taken => exact takeRun?_frame taken
    · rfl

theorem popAt_frame (q : ChannelQueue) (t : Tick) (limit : Nat) (wait : Wait) (tolerance : Nat) :
    (q.popAt t limit wait tolerance).2 =
      { q with
        blocks := (q.popAt t limit wait tolerance).2.blocks
        queued := (q.popAt t limit wait tolerance).2.queued } := by
  rw [ChannelQueue.popAt]
  split
  · rfl
  · dsimp only
    split
    · rfl
    · split
      · rfl
      · exact pop_frame _ limit wait

/-- The samples that a call for a run gets. -/
def handedOut (result : Except QueueFault Block) : List Stamped :=
  match result with
  | .ok run => run.content
  | .error _ => []

/-- What a caller gets and what is left are the end of what was there. -/
structure Popped (size : Nat) (q : ChannelQueue) (result : Except QueueFault Block)
    (rest : ChannelQueue) : Prop where
  whole : ∀ run, result = .ok run → run.Whole size
  sound : rest.Sound size
  content_suffix : handedOut result ++ rest.content <:+ q.content

theorem Sound.pop (sound : q.Sound size) (limit : Nat) (wait : Wait) :
    Popped size q (q.pop limit wait).1 (q.pop limit wait).2 := by
  rw [ChannelQueue.pop]
  split
  · exact ⟨by simp, sound, List.suffix_refl _⟩
  · split
    · next run rest found =>
      have taken := sound.takeRun? found
      refine ⟨?_, taken.sound, ?_⟩
      · rintro _ ⟨rfl⟩
        exact taken.whole
      · simp only [handedOut, taken.content_eq, List.suffix_refl]
    · exact ⟨by simp, sound, List.suffix_refl _⟩

theorem Sound.popAt (sound : q.Sound size) (t : Tick) (limit : Nat) (wait : Wait)
    (tolerance : Nat) :
    Popped size q (q.popAt t limit wait tolerance).1 (q.popAt t limit wait tolerance).2 := by
  obtain ⟨skipSound, skipped⟩ := sound.skipBefore t
  rw [ChannelQueue.popAt]
  split
  · exact ⟨by simp, sound, List.suffix_refl _⟩
  · dsimp only
    split
    · exact ⟨by simp, skipSound, skipped⟩
    · split
      · exact ⟨by simp, skipSound, skipped⟩
      · have popped := skipSound.pop limit wait
        exact ⟨popped.whole, popped.sound, popped.content_suffix.trans skipped⟩

end RadioStream.ChannelQueue
