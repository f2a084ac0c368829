import RadioStream.Module.Lifecycle
import RadioStream.Proofs.Queue.LeadingRun
import RadioStream.Proofs.Reception.Spacing
import RadioStream.Proofs.Session.Halted

/-!
Requests for a tick. Samples in front of the tick leave the queue, by whole blocks and by a part
of the next one, and from what is left a caller gets the run at the front if it starts within the
tolerance. How the samples are cut into blocks does not show in any of this.
-/
namespace RadioStream

/-- Blocks as packets leave them in a receive queue: timed, without flush marks, in order of time
and apart. -/
structure Timely (size : Nat) (blocks : List Block) : Prop where
  dated : ∀ b ∈ blocks, b.Dated size
  unmarked : ∀ b ∈ blocks, b.flush = false
  apart : blocks.IsChain fun b next => b.finish ≤ next.start

namespace Timely
variable {size : Nat} {t : Tick} {blocks : List Block} {b : Block} {q : ChannelQueue}

theorem lasting (size : Nat) : ChannelQueue.Lasting size (Timely size) := by
  intro left blocks stored leftover timely
  refine ⟨leftover.all (fun b count dated => (dated.advance count).1) timely.dated,
    leftover.all (fun b count unmarked => unmarked) timely.unmarked,
    Spaced.apart_leftover stored leftover timely.apart⟩

theorem head_tick (timely : Timely size q.blocks) (sound : q.Sound size) {front : Block}
    (first : q.blocks.head? = some front) :
    ∃ x others, q.content = x :: others ∧ x.tick = some front.start := by
  obtain ⟨rest, blocks⟩ := List.head?_eq_some_iff.mp first
  have member : front ∈ q.blocks := blocks ▸ List.mem_cons_self
  have stored := sound.stored front member
  obtain ⟨x, others, held⟩ := List.exists_cons_of_ne_nil stored.content_ne_nil
  refine ⟨x, others ++ rest.flatMap Block.content, ?_, ?_⟩
  · rw [ChannelQueue.content, blocks, List.flatMap_cons, held, List.cons_append]
  · rw [Block.tick_of_head (b := front) (by rw [held]; rfl), (timely.dated front member).tick?_eq]

end Timely

namespace ChannelQueue
variable {size limit : Nat} {q rest : ChannelQueue} {run : Block}

/-- A run as a call gets it from the front of `samples`. -/
structure Served (size limit : Nat) (samples : List Stamped) (run : Block)
    (rest : List Stamped) : Prop where
  whole : run.Whole size
  leading : LeadingRun limit samples run.content rest
  start : ∃ x others, samples = x :: others ∧ x.tick = some run.start

theorem Sound.served (sound : q.Sound size) (timely : Timely size q.blocks)
    (taken : q.takeRun? limit = some (run, rest)) :
    Served size limit q.content run rest.content := by
  have cut := sound.takeRun? taken
  cases front : q.blocks.head? with
  | none =>
    rw [takeRun?_eq_none.mpr (List.head?_eq_none_iff.mp front)] at taken
    contradiction
  | some b =>
    obtain ⟨x, others, content, tick⟩ := timely.head_tick sound front
    have start := sound.takeRun?_start taken (x := x) (by rw [content]; rfl) tick
    exact ⟨cut.whole, sound.takeRun?_leading timely.unmarked taken, x, others, content,
      start ▸ tick⟩

end ChannelQueue

namespace RxLane
variable {size : Nat} {l : RxLane}

end RxLane

namespace Session
variable {α : Type} [HostSample α] {s : Session} {channel : UInt8} {lane : RxLane}

end Session

namespace RxLane
variable {size : Nat} {l : RxLane} {b : Block}

end RxLane

namespace World
variable {c : StreamConfig} {w : World} {channel : UInt8} {lane : RxLane}

end World

end RadioStream
