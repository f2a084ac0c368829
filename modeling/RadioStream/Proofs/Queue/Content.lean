import RadioStream.ChannelQueue
import RadioStream.Proofs.Iq.Stamped

/-!
A channel queue seen as the list of samples it holds, each with its tick. Every
operation of the transmit side is described by what it does to this list: an offer
appends a prefix, a run is taken from the front, marks and stops change nothing.
-/
namespace RadioStream

structure Block.Stored (size : Nat) (b : Block) : Prop extends Block.Whole size b where
  nonempty : b.isEmpty = false

theorem Block.Stored.length_pos {size : Nat} {b : Block} (stored : b.Stored size) :
    0 < b.length := by
  apply Nat.pos_of_ne_zero
  intro none
  have empty := stored.isEmpty_iff.mpr none
  rw [stored.nonempty] at empty
  contradiction

theorem Block.Stored.content_ne_nil {size : Nat} {b : Block} (stored : b.Stored size) :
    b.content ≠ [] := by
  rw [ne_eq, stored.content_eq_nil, stored.nonempty]
  exact Bool.false_ne_true

namespace ChannelQueue
variable {size limit : Nat} {q : ChannelQueue} {b run : Block} {blocks : List Block}

def content (q : ChannelQueue) : List Stamped := q.blocks.flatMap Block.content

structure Sound (size : Nat) (q : ChannelQueue) : Prop where
  stored : ∀ b ∈ q.blocks, b.Stored size
  queued_eq : q.queued = q.content.length
  queued_le : q.queued ≤ q.capacity

theorem sound_empty (capacity : Nat) : (empty capacity).Sound size :=
  ⟨List.forall_mem_nil _, rfl, Nat.zero_le capacity⟩

theorem Sound.isEmpty_iff (sound : q.Sound size) : q.isEmpty = true ↔ q.content = [] := by
  rw [isEmpty, decide_eq_true_eq, sound.queued_eq, List.length_eq_zero_iff]

theorem content_append (whole : b.Whole size) (q : ChannelQueue) :
    (q.append b).content = q.content ++ b.content := by
  rw [append]
  split
  · next empty => rw [whole.content_eq_nil.mpr empty, List.append_nil]
  · simp [content]

theorem Sound.append (sound : q.Sound size) (whole : b.Whole size)
    (fits : q.queued + b.length ≤ q.capacity) : (q.append b).Sound size := by
  have appended := content_append whole q
  unfold ChannelQueue.append at appended ⊢
  split
  · exact sound
  · next nonempty =>
    rw [if_neg nonempty] at appended
    refine ⟨?_, ?_, fits⟩
    · intro c member
      rcases List.mem_append.mp member with old | new
      · exact sound.stored c old
      · rw [List.mem_singleton.mp new]
        exact ⟨whole, Bool.eq_false_iff.mpr nonempty⟩
    · rw [appended, List.length_append, ← sound.queued_eq, whole.length_content]

theorem gathered {front longer left : Block} {count : Nat} (whole : run.Whole size)
    (other : front.Whole size) (joined : ¬(!run.isEmpty && !run.continuedBy front) = true)
    (moved : run.gather front count = (longer, left)) :
    longer.Whole size ∧ left.Whole size ∧
      longer.content = run.content ++ front.content.take count ∧
      left.content = front.content.drop count := by
  have joins : run.isEmpty = true ∨ run.continuedBy front = true := by
    cases empty : run.isEmpty with
    | true => exact .inl rfl
    | false => exact .inr (by simpa [empty] using joined)
  have first := whole.gather other count
  have grown := whole.content_gather other joins count
  have rest := Block.gather_rest run front count
  rw [moved] at first grown rest
  obtain rfl : left = front.advance count := rest
  exact ⟨first, other.advance count, grown, other.content_advance count⟩

theorem gatherRun_content (limit : Nat) (whole : run.Whole size)
    (stored : ∀ b ∈ blocks, b.Stored size) :
    (gatherRun limit run blocks).1.Whole size ∧
      (∀ b ∈ (gatherRun limit run blocks).2, b.Stored size) ∧
      (gatherRun limit run blocks).1.content ++
        (gatherRun limit run blocks).2.flatMap Block.content =
          run.content ++ blocks.flatMap Block.content := by
  fun_induction gatherRun limit run blocks with
  | case1 run => exact ⟨whole, stored, rfl⟩
  | case2 run front rest full => exact ⟨whole, stored, rfl⟩
  | case3 run front rest room gap => exact ⟨whole, stored, rfl⟩
  | case4 run front rest room joined longer left moved remains =>
    obtain ⟨frontStored, restStored⟩ := List.forall_mem_cons.mp stored
    obtain ⟨wholeLonger, wholeLeft, grown, cut⟩ := gathered whole frontStored.toWhole joined moved
    refine ⟨wholeLonger, List.forall_mem_cons.mpr ⟨⟨wholeLeft, by simpa using remains⟩,
      restStored⟩, ?_⟩
    simp only [List.flatMap_cons, grown, cut]
    rw [List.append_assoc, ← List.append_assoc (front.content.take _), List.take_append_drop]
  | case5 run front rest room joined longer left moved used flush =>
    obtain ⟨frontStored, restStored⟩ := List.forall_mem_cons.mp stored
    obtain ⟨wholeLonger, wholeLeft, grown, cut⟩ := gathered whole frontStored.toWhole joined moved
    rw [wholeLeft.content_eq_nil.mpr (by simpa using used), eq_comm, List.drop_eq_nil_iff] at cut
    refine ⟨wholeLonger, restStored, ?_⟩
    rw [List.flatMap_cons, grown, List.take_of_length_le cut, List.append_assoc]
  | case6 run front rest room joined longer left moved used unmarked ih =>
    obtain ⟨frontStored, restStored⟩ := List.forall_mem_cons.mp stored
    obtain ⟨wholeLonger, wholeLeft, grown, cut⟩ := gathered whole frontStored.toWhole joined moved
    rw [wholeLeft.content_eq_nil.mpr (by simpa using used), eq_comm, List.drop_eq_nil_iff] at cut
    obtain ⟨wholeRun, leftStored, same⟩ := ih wholeLonger restStored
    refine ⟨wholeRun, leftStored, ?_⟩
    rw [same, List.flatMap_cons, grown, List.take_of_length_le cut, List.append_assoc]

theorem gatherRun_extends (whole : run.Whole size) (stored : ∀ b ∈ blocks, b.Stored size) :
    run.content <+: (gatherRun limit run blocks).1.content := by
  fun_induction gatherRun limit run blocks with
  | case1 run => exact List.prefix_rfl
  | case2 run front rest full => exact List.prefix_rfl
  | case3 run front rest room gap => exact List.prefix_rfl
  | case4 run front rest room joined longer left moved remains =>
    obtain ⟨_, _, grown, _⟩ :=
      gathered whole (List.forall_mem_cons.mp stored).1.toWhole joined moved
    exact ⟨_, grown.symm⟩
  | case5 run front rest room joined longer left moved used flush =>
    obtain ⟨_, _, grown, _⟩ :=
      gathered whole (List.forall_mem_cons.mp stored).1.toWhole joined moved
    exact ⟨_, grown.symm⟩
  | case6 run front rest room joined longer left moved used unmarked ih =>
    obtain ⟨frontStored, restStored⟩ := List.forall_mem_cons.mp stored
    obtain ⟨wholeLonger, _, grown, _⟩ := gathered whole frontStored.toWhole joined moved
    exact List.IsPrefix.trans ⟨_, grown.symm⟩ (ih wholeLonger restStored)

/-- A run with room takes at least one sample of the first block. -/
theorem gatherRun_nonempty {front : Block} {rest : List Block} (room : 0 < limit)
    (stored : ∀ b ∈ front :: rest, b.Stored size) :
    (gatherRun limit front.emptyLike (front :: rest)).1.isEmpty = false := by
  obtain ⟨frontStored, restStored⟩ := List.forall_mem_cons.mp stored
  have whole := frontStored.toWhole.emptyLike
  have none : front.emptyLike.length = 0 := whole.isEmpty_iff.mp rfl
  have wholeRun := (gatherRun_content limit whole stored).1
  have part := frontStored.toWhole.content_part limit
  have first : front.content.take limit <+:
      (gatherRun limit front.emptyLike (front :: rest)).1.content := by
    have wholePart := whole.gather frontStored.toWhole limit
    rw [gatherRun, none, if_neg (by omega), if_neg (by simp), Nat.sub_zero, ← part]
    generalize front.emptyLike.gather front limit = moved at wholePart
    dsimp only
    split
    · exact List.prefix_rfl
    · split
      · exact List.prefix_rfl
      · exact gatherRun_extends wholePart restStored
  apply Bool.eq_false_iff.mpr
  intro empty
  rw [wholeRun.content_eq_nil.mpr empty, List.prefix_nil, List.take_eq_nil_iff] at first
  have := frontStored.length_pos
  rw [← frontStored.length_content, List.length_pos_iff] at this
  exact first.elim (by omega) this

/-- What taking a run leaves behind: the samples that were there, cut in two. -/
structure Taken (size : Nat) (q : ChannelQueue) (run : Block) (rest : ChannelQueue) : Prop where
  whole : run.Whole size
  sound : rest.Sound size
  content_eq : run.content ++ rest.content = q.content

theorem takeRun?_eq_none : q.takeRun? limit = none ↔ q.blocks = [] := by
  rw [takeRun?]
  split <;> simp_all

theorem takeRun?_cons {front : Block} {others : List Block} (blocks : q.blocks = front :: others)
    (limit : Nat) : q.takeRun? limit =
      some ((gatherRun limit front.emptyLike q.blocks).1,
        { q with
          blocks := (gatherRun limit front.emptyLike q.blocks).2
          queued := q.queued - (gatherRun limit front.emptyLike q.blocks).1.length }) := by
  rw [takeRun?]
  split
  · next none => rw [blocks] at none; contradiction
  · next first rest same =>
    rw [same] at blocks
    obtain ⟨rfl, rfl⟩ := List.cons.inj blocks
    rw [same]

theorem takeRun?_frame {rest : ChannelQueue} (taken : q.takeRun? limit = some (run, rest)) :
    rest = { q with blocks := rest.blocks, queued := rest.queued } := by
  unfold ChannelQueue.takeRun? at taken
  split at taken
  · contradiction
  · rw [Option.some.injEq, Prod.mk.injEq] at taken
    rw [← taken.2]

theorem Sound.takeRun? {rest : ChannelQueue} (sound : q.Sound size)
    (taken : q.takeRun? limit = some (run, rest)) : Taken size q run rest := by
  cases blocks : q.blocks with
  | nil =>
    rw [takeRun?_eq_none.mpr blocks] at taken
    contradiction
  | cons front others =>
    rw [takeRun?_cons blocks, Option.some.injEq, Prod.mk.injEq] at taken
    obtain ⟨rfl, rfl⟩ := taken
    have stored := sound.stored front (by simp [blocks])
    have nothing : front.emptyLike.content = [] := stored.toWhole.emptyLike.content_eq_nil.mpr rfl
    obtain ⟨whole, remaining, same⟩ := gatherRun_content limit
      stored.toWhole.emptyLike sound.stored
    rw [nothing, List.nil_append] at same
    have counted := congrArg List.length same
    rw [List.length_append, whole.length_content] at counted
    have queued := sound.queued_eq
    have fits := sound.queued_le
    unfold content at queued
    refine ⟨whole, ⟨remaining, ?_, ?_⟩, same⟩
    · simp only [content]
      omega
    · simp only
      omega

theorem Sound.takeRun?_nonempty {rest : ChannelQueue} (sound : q.Sound size) (room : 0 < limit)
    (taken : q.takeRun? limit = some (run, rest)) : run.isEmpty = false := by
  cases blocks : q.blocks with
  | nil =>
    rw [takeRun?_eq_none.mpr blocks] at taken
    contradiction
  | cons front others =>
    rw [takeRun?_cons blocks, Option.some.injEq, Prod.mk.injEq] at taken
    rw [← taken.1, blocks]
    exact gatherRun_nonempty room (blocks ▸ sound.stored)

/-- A run is taken off the count, and with room for any it is at least one sample. -/
theorem Sound.takeRun?_counted {rest : ChannelQueue} (sound : q.Sound size)
    (taken : q.takeRun? limit = some (run, rest)) :
    rest.queued + run.length = q.queued ∧ (0 < limit → 0 < run.length) := by
  have cut := sound.takeRun? taken
  have parts := congrArg List.length cut.content_eq
  rw [List.length_append, cut.whole.length_content, ← cut.sound.queued_eq, ← sound.queued_eq,
    Nat.add_comm] at parts
  exact ⟨parts, fun room => Block.Stored.length_pos ⟨cut.whole, sound.takeRun?_nonempty room taken⟩⟩

theorem Sound.blocks_eq_nil (sound : q.Sound size) : q.blocks = [] ↔ q.content = [] := by
  constructor
  · intro none
    rw [content, none, List.flatMap_nil]
  · intro none
    rw [List.eq_nil_iff_forall_not_mem]
    intro b member
    exact (sound.stored b member).content_ne_nil (List.flatMap_eq_nil_iff.mp none b member)

theorem takeRun?_of_takeReady? {batch : Nat} {force : Bool} {due : Tick → Bool}
    {taken : Block × ChannelQueue} (ready : q.takeReady? batch force due = some taken) :
    q.takeRun? batch = some taken := by
  unfold takeReady? at ready
  dsimp only at ready
  split at ready
  · exact ready
  · contradiction

theorem takeReady?_force (q : ChannelQueue) (batch : Nat) (due : Tick → Bool) :
    q.takeReady? batch true due = q.takeRun? batch := by
  simp [takeReady?]

/-- How many samples an offer reports to have taken. -/
def granted {ε : Type} : Except ε Nat → Nat
  | .ok accepted => accepted
  | .error _ => 0

@[simp] theorem granted_afterOffer (wait : Wait) (accepted : Nat) :
    granted (wait.afterOffer accepted) = accepted := by
  cases wait with
  | poll => rfl
  | expires | interrupted =>
    simp only [Wait.afterOffer]
    split
    · next none => exact none.symm
    · rfl

theorem offer_queue (room : q.stopped = false) (b : Block) (wait : Wait) :
    (q.offer b wait).2 = q.append (b.emptyLike.gather b (q.capacity - q.queued)).1 := by
  rw [offer, if_neg (by simp [room])]

theorem granted_offer (room : q.stopped = false) (b : Block) (wait : Wait) :
    granted (q.offer b wait).1 = min (q.capacity - q.queued) b.length := by
  rw [offer, if_neg (by simp [room])]
  dsimp only
  split
  · rfl
  · exact granted_afterOffer wait _

theorem offer_stopped (stopped : q.stopped = true) (b : Block) (wait : Wait) :
    q.offer b wait = (.error .stopped, q) := by
  rw [offer, if_pos stopped]

/-- What an offer does to the samples of a queue: as many of the block's first ones as it
reports are behind those that were there. -/
theorem offer_content (whole : b.Whole size) (q : ChannelQueue) (wait : Wait) :
    (q.offer b wait).2.content =
      q.content ++ b.content.take (granted (q.offer b wait).1) := by
  cases room : q.stopped with
  | true => simp [offer_stopped room, granted]
  | false =>
    have part := whole.content_part (q.capacity - q.queued)
    have wholePart := whole.emptyLike.gather whole (q.capacity - q.queued)
    rw [offer_queue room, granted_offer room, content_append wholePart, part,
      ← whole.length_content, ← List.take_take, List.take_length]

theorem Sound.offer (sound : q.Sound size) (whole : b.Whole size) (wait : Wait) :
    (q.offer b wait).2.Sound size ∧ (q.offer b wait).2.content =
      q.content ++ b.content.take (granted (q.offer b wait).1) := by
  refine ⟨?_, offer_content whole q wait⟩
  cases room : q.stopped with
  | true => rwa [offer_stopped room]
  | false =>
    have fits := sound.queued_le
    have part := whole.content_part (q.capacity - q.queued)
    have wholePart := whole.emptyLike.gather whole (q.capacity - q.queued)
    have length := congrArg List.length part
    rw [wholePart.length_content, List.length_take, whole.length_content] at length
    rw [offer_queue room]
    exact sound.append wholePart (by omega)

theorem markLast_content (blocks : List Block) :
    (markLast blocks).flatMap Block.content = blocks.flatMap Block.content := by
  fun_induction markLast blocks with
  | case1 => rfl
  | case2 b => rfl
  | case3 b rest more ih => rw [List.flatMap_cons, List.flatMap_cons, ih]

theorem markLast_stored (stored : ∀ b ∈ blocks, b.Stored size) :
    ∀ b ∈ markLast blocks, b.Stored size := by
  fun_induction markLast blocks with
  | case1 => exact stored
  | case2 b =>
    have last := stored b (List.mem_singleton_self b)
    intro marked member
    rw [List.mem_singleton.mp member]
    exact ⟨⟨last.pos, last.sampleSize_eq, last.dvd⟩, last.nonempty⟩
  | case3 b rest more ih =>
    obtain ⟨first, others⟩ := List.forall_mem_cons.mp stored
    exact List.forall_mem_cons.mpr ⟨first, ih others⟩

@[simp] theorem content_markFlush (q : ChannelQueue) : q.markFlush.content = q.content :=
  markLast_content q.blocks

theorem Sound.markFlush (sound : q.Sound size) : q.markFlush.Sound size :=
  ⟨markLast_stored sound.stored, by rw [content_markFlush]; exact sound.queued_eq, sound.queued_le⟩

end ChannelQueue
end RadioStream
