import RadioStream.Proofs.Queue.Overwrite

/-!
Why samples leave a receive queue: a caller gets them, a full queue overwrites them, or
they stand before the tick that a caller asks for. What leaves and what stays are, for
every operation, exactly what was there.
-/
namespace RadioStream

inductive Removal where
  | delivered
  | overwritten
  /-- The sample stood before the requested tick. -/
  | skipped (requested : Tick)
deriving DecidableEq

/-- A sample that has left the queue of its channel. -/
structure Exit where
  sample : Stamped
  cause : Removal
deriving DecidableEq

namespace Exit

def isDelivered (x : Exit) : Bool := x.cause = .delivered

def isOverwritten (x : Exit) : Bool := x.cause = .overwritten

def isSkipped (x : Exit) : Bool := !x.isDelivered && !x.isOverwritten

/-- Samples that leave together for one cause. -/
def all (cause : Removal) (samples : List Stamped) : List Exit := samples.map (⟨·, cause⟩)

@[simp] theorem map_sample_all (cause : Removal) (samples : List Stamped) :
    (all cause samples).map sample = samples := by
  rw [all, List.map_map]
  exact List.map_id samples

theorem mem_all {cause : Removal} {samples : List Stamped} {x : Exit}
    (member : x ∈ all cause samples) :
    x.cause = cause ∧ x.sample ∈ samples := by
  obtain ⟨sample, inside, rfl⟩ := List.mem_map.mp member
  exact ⟨rfl, inside⟩

@[simp] theorem countP_isDelivered_all (cause : Removal) (samples : List Stamped) :
    (all cause samples).countP isDelivered = if cause = .delivered then samples.length else 0 := by
  split
  · next delivered =>
    rw [List.countP_eq_length.mpr, all, List.length_map]
    intro x member
    simp [isDelivered, (mem_all member).1, delivered]
  · next other =>
    rw [List.countP_eq_zero]
    intro x member
    simp [isDelivered, (mem_all member).1, other]

theorem length_eq (exits : List Exit) : exits.length =
    exits.countP isDelivered + exits.countP isOverwritten + exits.countP isSkipped := by
  induction exits with
  | nil => rfl
  | cons x rest ih =>
    rcases x with ⟨sample, _ | _ | requested⟩ <;>
      simp [isSkipped, isDelivered, isOverwritten, ih] <;> omega

end Exit

namespace ChannelQueue
variable {size limit : Nat} {q : ChannelQueue} {b run : Block} {blocks : List Block}

/-- The samples for which there is no room once a block is pushed, oldest first. -/
def overflow (q : ChannelQueue) (b : Block) : List Stamped :=
  (q.content ++ b.content).take (q.content.length + b.length - q.capacity)

/-- The samples that a request for a tick drops. -/
def preceding (q : ChannelQueue) (t : Tick) : List Stamped :=
  if q.stopped then [] else q.content.take (skipBlocks t q.blocks).2

/-- A push drops as many samples as do not fit. -/
theorem Sound.pushNewest_dropped (sound : q.Sound size) (whole : b.Whole size) :
    (q.pushNewest b).2 = q.content.length + b.length - q.capacity := by
  have length := whole.length_advance (b.length - q.capacity)
  have queued := sound.queued_eq
  have fits := sound.queued_le
  have dropped := (dropOldest_content
    (q.queued + (b.advance (b.length - q.capacity)).length - q.capacity) sound.stored).2.2
  change _ = min _ q.content.length at dropped
  change b.length - q.capacity + (dropOldest _ q.blocks).2 = _
  omega

theorem Sound.overflow_append (sound : q.Sound size) (whole : b.Whole size) :
    q.overflow b ++ (q.pushNewest b).1.content = q.content ++ b.content := by
  rw [overflow, (sound.pushNewest whole).2, sound.pushNewest_dropped whole, List.take_append_drop]

theorem mem_take_stamp {start : Option Tick} {samples : List (List UInt8)} {count : Nat}
    {x : Stamped} (member : x ∈ (stamp start samples).take count) :
    ∃ i < count, x.tick = start.map (·.later i) := by
  rw [stamp_take, stamp, List.mem_mapIdx] at member
  obtain ⟨i, bound, rfl⟩ := member
  rw [List.length_take] at bound
  exact ⟨i, by omega, rfl⟩

/-- What is skipped stands before the requested tick, where ticks can tell. -/
theorem skipBlocks_early (t : Tick) (stored : ∀ b ∈ blocks, b.Stored size) :
    ∀ x ∈ (blocks.flatMap Block.content).take (skipBlocks t blocks).2, ∀ s ∈ x.tick,
      s < t ∨ t.toInt = 0x7fffffffffffffff := by
  have stamped (b : Block) (count : Nat) (x : Stamped) (member : x ∈ b.content.take count) (s : Tick)
      (tick : s ∈ x.tick) : ∃ i < count, s = b.start.later i := by
    obtain ⟨i, before, same⟩ := mem_take_stamp member
    rw [same, Block.tick?] at tick
    split at tick
    · exact ⟨i, before, (Option.some.inj tick).symm⟩
    · contradiction
  fun_induction skipBlocks t blocks with
  | case1 => simp
  | case2 b rest past left skipped moved ih =>
    obtain ⟨first, behind⟩ := List.forall_mem_cons.mp stored
    have length := first.toWhole.length_content
    intro x member s tick
    rw [List.flatMap_cons, List.take_append, length, Nat.add_sub_cancel_left,
      List.take_of_length_le (by omega)] at member
    rcases List.mem_append.mp member with here | there
    · rw [← List.take_of_length_le (Nat.le_of_eq length)] at here
      obtain ⟨i, before, rfl⟩ := stamped b _ x here s tick
      have := t.lt_bound
      rw [Tick.le_def, Block.finish, Tick.toInt_later] at past
      rw [Tick.lt_def, Tick.toInt_later]
      omega
    · rw [moved] at ih
      exact ih behind x there s tick
  | case3 b rest remains early =>
    obtain ⟨first, _⟩ := List.forall_mem_cons.mp stored
    have length := first.toWhole.length_content
    have part : b.start.gap t < b.length := by
      rw [Tick.le_def, Block.finish, Tick.toInt_later] at remains
      rw [Tick.lt_def] at early
      rw [Tick.gap]
      omega
    intro x member s tick
    rw [List.flatMap_cons, List.take_append_of_le_length (by omega)] at member
    obtain ⟨i, before, rfl⟩ := stamped b _ x member s tick
    rw [Tick.gap] at before
    rw [Tick.lt_def, Tick.toInt_later]
    omega
  | case4 b rest remains due => simp

theorem Sound.preceding_early (sound : q.Sound size) (t : Tick) :
    ∀ x ∈ q.preceding t, ∀ s ∈ x.tick, s < t ∨ t.toInt = 0x7fffffffffffffff := by
  rw [preceding]
  split
  · exact List.forall_mem_nil _
  · exact skipBlocks_early t sound.stored

/-- What holds of a run and is kept by gathering blocks onto it holds of the run in the end. -/
theorem gatherRun_keeps {P : Block → Prop}
    (grows : ∀ run, ∀ front ∈ blocks, ∀ longer left,
      ¬(!run.isEmpty && !run.continuedBy front) = true →
      run.gather front (limit - run.length) = (longer, left) → P run → P longer)
    (initial : P run) : P (gatherRun limit run blocks).1 := by
  fun_induction gatherRun limit run blocks with
  | case1 run => exact initial
  | case2 run front rest full => exact initial
  | case3 run front rest room gap => exact initial
  | case4 run front rest room joined longer left moved remains =>
    exact grows run front List.mem_cons_self longer left joined moved initial
  | case5 run front rest room joined longer left moved used flush =>
    exact grows run front List.mem_cons_self longer left joined moved initial
  | case6 run front rest room joined longer left moved used unmarked ih =>
    exact ih (fun run front member => grows run front (List.mem_cons_of_mem _ member))
      (grows run front List.mem_cons_self longer left joined moved initial)

theorem gatherRun_length (whole : run.Whole size) (stored : ∀ b ∈ blocks, b.Stored size)
    (fits : run.length ≤ limit) : (gatherRun limit run blocks).1.length ≤ limit := by
  suffices kept : (gatherRun limit run blocks).1.Whole size ∧
      (gatherRun limit run blocks).1.length ≤ limit from kept.2
  refine gatherRun_keeps (P := fun b => b.Whole size ∧ b.length ≤ limit) ?_ ⟨whole, fits⟩
  rintro run front member longer left joined moved ⟨whole, fits⟩
  obtain ⟨wholeLonger, _, grown, _⟩ := gathered whole (stored front member).toWhole joined moved
  have length := congrArg List.length grown
  rw [wholeLonger.length_content, List.length_append, whole.length_content, List.length_take]
    at length
  exact ⟨wholeLonger, by omega⟩

theorem Sound.takeRun?_length {rest : ChannelQueue} (sound : q.Sound size)
    (taken : q.takeRun? limit = some (run, rest)) : run.length ≤ limit := by
  cases blocks : q.blocks with
  | nil =>
    rw [takeRun?_eq_none.mpr blocks] at taken
    contradiction
  | cons front others =>
    rw [takeRun?_cons blocks, Option.some.injEq, Prod.mk.injEq] at taken
    obtain ⟨rfl, _⟩ := taken
    have whole := (sound.stored front (blocks ▸ List.mem_cons_self)).toWhole.emptyLike
    have none : front.emptyLike.length = 0 := whole.isEmpty_iff.mp rfl
    exact gatherRun_length whole sound.stored (none ▸ Nat.zero_le limit)

/-- What a call takes from a queue: samples that it drops, at most `limit` that it hands out,
and what is left behind them. -/
structure Parts (q : ChannelQueue) (limit : Nat) (skipped : List Stamped)
    (result : Except QueueFault Block) (rest : ChannelQueue) : Prop where
  content_eq : q.content = skipped ++ handedOut result ++ rest.content
  length_le : ∀ run, result = .ok run → run.length ≤ limit

theorem Sound.pop_parts (sound : q.Sound size) (limit : Nat) (wait : Wait) :
    Parts q limit [] (q.pop limit wait).1 (q.pop limit wait).2 := by
  rw [ChannelQueue.pop]
  split
  · exact ⟨rfl, by simp⟩
  · split
    · next run rest found =>
      constructor
      · exact (sound.takeRun? found).content_eq.symm
      · rintro _ ⟨rfl⟩
        exact sound.takeRun?_length found
    · exact ⟨rfl, by simp⟩

theorem Sound.popAt_parts (sound : q.Sound size) (t : Tick) (limit : Nat) (wait : Wait)
    (tolerance : Nat) :
    Parts q limit (q.preceding t) (q.popAt t limit wait tolerance).1
      (q.popAt t limit wait tolerance).2 := by
  have skipped : q.stopped ≠ true → q.content = q.preceding t ++ (q.skipBefore t).content := by
    intro running
    have left := (skipBlocks_content t sound.stored).2.1
    rw [preceding, if_neg running]
    calc q.content
        = q.content.take (skipBlocks t q.blocks).2 ++ q.content.drop (skipBlocks t q.blocks).2 :=
          (List.take_append_drop _ _).symm
      _ = q.content.take (skipBlocks t q.blocks).2 ++ (q.skipBefore t).content :=
          congrArg _ left.symm
  rw [ChannelQueue.popAt]
  split
  · next stopped =>
    rw [preceding, if_pos stopped]
    exact ⟨rfl, by simp⟩
  · next running =>
    have nothing (fault : QueueFault) :
        Parts q limit (q.preceding t) (.error fault) (q.skipBefore t) := by
      refine ⟨?_, by simp⟩
      rw [handedOut, List.append_nil]
      exact skipped running
    dsimp only
    split
    · exact nothing _
    · split
      · exact nothing _
      · have popped := (sound.skipBefore t).1.pop_parts limit wait
        refine ⟨?_, popped.length_le⟩
        rw [skipped running, popped.content_eq, List.nil_append, List.append_assoc]

end ChannelQueue
end RadioStream
