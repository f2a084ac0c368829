import Mathlib.Data.List.Chain
import RadioStream.Proofs.Queue.Overwrite

/-!
What every removal leaves of a queue: its blocks from some block on, the first one advanced. So
what holds of blocks and survives advancing them holds of what is left, and what spaces them apart
stays, since a block that is advanced ends where it did.
-/
namespace RadioStream

namespace Block
variable {size : Nat} {b : Block}

/-- Advancing moves the start of a block and not its end, also where ticks saturate. -/
theorem Whole.finish_advance (whole : b.Whole size) (count : Nat) :
    (b.advance count).finish = b.finish := by
  have length := whole.length_advance count
  rw [Block.finish, length, Block.advance, Tick.later_later, Block.finish]
  congr 1
  omega

theorem payload_advance (b : Block) (count : Nat) :
    (b.advance count).payload.length ≤ b.payload.length := by
  simp only [Block.advance, List.length_drop]
  omega

end Block

namespace ChannelQueue
variable {size : Nat} {q : ChannelQueue} {left blocks : List Block}

/-- What is left of a row of blocks once some of their oldest samples are gone. -/
inductive Leftover : List Block → List Block → Prop where
  | nil : Leftover [] []
  | cut (b : Block) (rest : List Block) (count : Nat) :
    Leftover (b.advance count :: rest) (b :: rest)
  | skip (b : Block) {left rest : List Block} (behind : Leftover left rest) :
    Leftover left (b :: rest)

namespace Leftover

theorem refl : (blocks : List Block) → Leftover blocks blocks
  | [] => nil
  | b :: rest => by
    have whole := cut b rest 0
    rwa [Block.advance_zero] at whole

theorem all {P : Block → Prop} (advances : ∀ b count, P b → P (b.advance count))
    (leftover : Leftover left blocks) (holds : ∀ b ∈ blocks, P b) : ∀ b ∈ left, P b := by
  induction leftover with
  | nil => exact holds
  | cut b rest count =>
    obtain ⟨first, others⟩ := List.forall_mem_cons.mp holds
    exact List.forall_mem_cons.mpr ⟨advances b count first, others⟩
  | skip b behind ih => exact ih (List.forall_mem_cons.mp holds).2

theorem dropOldest (n : Nat) (blocks : List Block) :
    Leftover (dropOldest n blocks).1 blocks := by
  fun_induction ChannelQueue.dropOldest n blocks with
  | case1 n => exact nil
  | case2 b rest => exact refl _
  | case3 n b rest some skip left used others dropped moved ih =>
    rw [moved] at ih
    exact .skip b ih
  | case4 n b rest some skip left remains => exact cut b rest skip

theorem skipBlocks (t : Tick) (blocks : List Block) : Leftover (skipBlocks t blocks).1 blocks := by
  fun_induction ChannelQueue.skipBlocks t blocks with
  | case1 => exact nil
  | case2 b rest past left skipped moved ih =>
    rw [moved] at ih
    exact .skip b ih
  | case3 b rest remains early => exact cut b rest _
  | case4 b rest remains due => exact refl _

theorem gatherRun (limit : Nat) (run : Block) (blocks : List Block) :
    Leftover (gatherRun limit run blocks).2 blocks := by
  fun_induction ChannelQueue.gatherRun limit run blocks with
  | case1 run => exact nil
  | case2 run front rest full => exact refl _
  | case3 run front rest room gap => exact refl _
  | case4 run front rest room joined longer left moved remains =>
    have behind := Block.gather_rest run front (limit - run.length)
    rw [moved] at behind
    obtain rfl : left = front.advance (limit - run.length) := behind
    exact cut front rest _
  | case5 run front rest room joined longer left moved used flush => exact .skip front (refl rest)
  | case6 run front rest room joined longer left moved used unmarked ih => exact .skip front ih

end Leftover

/-- What no removal from a queue of sound blocks can break. -/
def Lasting (size : Nat) (P : List Block → Prop) : Prop :=
  ∀ left blocks, (∀ b ∈ blocks, b.Stored size) → Leftover left blocks → P blocks → P left

section lasting
variable {P : List Block → Prop} {limit : Nat} {run : Block} {rest : ChannelQueue}

theorem Lasting.takeRun? (lasting : Lasting size P) (sound : q.Sound size)
    (taken : q.takeRun? limit = some (run, rest)) (holds : P q.blocks) : P rest.blocks := by
  cases blocks : q.blocks with
  | nil =>
    rw [takeRun?_eq_none.mpr blocks] at taken
    contradiction
  | cons front others =>
    rw [takeRun?_cons blocks, Option.some.injEq, Prod.mk.injEq] at taken
    rw [← taken.2]
    exact lasting _ _ sound.stored (.gatherRun limit _ _) holds

theorem Lasting.pop (lasting : Lasting size P) (sound : q.Sound size) (limit : Nat) (wait : Wait)
    (holds : P q.blocks) : P (q.pop limit wait).2.blocks := by
  rw [ChannelQueue.pop]
  split
  · exact holds
  · split
    · next run rest taken => exact lasting.takeRun? sound taken holds
    · exact holds

theorem Lasting.popAt (lasting : Lasting size P) (sound : q.Sound size) (t : Tick) (limit : Nat)
    (wait : Wait) (tolerance : Nat) (holds : P q.blocks) :
    P (q.popAt t limit wait tolerance).2.blocks := by
  have skipped : P (q.skipBefore t).blocks :=
    lasting _ _ sound.stored (.skipBlocks t q.blocks) holds
  rw [ChannelQueue.popAt]
  split
  · exact holds
  · dsimp only
    split
    · exact skipped
    · split
      · exact skipped
      · exact lasting.pop (sound.skipBefore t).1 limit wait skipped

/-- A pushed block stands behind what is left, unless nothing of it fits. -/
theorem Lasting.pushNewest (lasting : Lasting size P) (sound : q.Sound size) (b : Block)
    (holds : P q.blocks) : ∃ left, P left ∧ ((q.pushNewest b).1.blocks = left ∨
      (q.pushNewest b).1.blocks = left ++ [b.advance (b.length - q.capacity)]) := by
  refine ⟨_, lasting _ _ sound.stored (.dropOldest
    (q.queued + (b.advance (b.length - q.capacity)).length - q.capacity) q.blocks) holds, ?_⟩
  rw [ChannelQueue.pushNewest]
  dsimp only
  rw [append]
  split
  · exact .inl rfl
  · exact .inr rfl

end lasting

end ChannelQueue
end RadioStream
