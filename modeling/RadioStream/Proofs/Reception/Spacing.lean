import RadioStream.Proofs.Queue.Operations
import RadioStream.Proofs.Reception.Aligned

/-!
The blocks of a receive queue do not overlap. What a lane takes in begins where it has been or
later, so each stored block starts no earlier than the one before it ends, also where ticks
saturate; and removing samples does not bring blocks closer together.
-/
namespace RadioStream

/-- Blocks of which each starts at the end of the one before it or later, and none ends behind the
tick that is expected next. -/
structure Spaced (expected : Option Tick) (blocks : List Block) : Prop where
  apart : blocks.IsChain fun b next => b.finish ≤ next.start
  ended : ∀ b ∈ blocks, ∃ next ∈ expected, b.finish ≤ next

namespace Spaced
variable {size : Nat} {expected : Option Tick} {left blocks : List Block} {b : Block}
  {q : ChannelQueue}

theorem apart_leftover (stored : ∀ b ∈ blocks, b.Stored size)
    (leftover : ChannelQueue.Leftover left blocks)
    (apart : blocks.IsChain fun b next => b.finish ≤ next.start) :
    left.IsChain fun b next => b.finish ≤ next.start := by
  induction leftover with
  | nil => exact apart
  | cut b rest count =>
    have finish := (stored b List.mem_cons_self).toWhole.finish_advance count
    cases rest with
    | nil => exact .singleton _
    | cons next others =>
      rw [List.isChain_cons_cons] at apart ⊢
      rwa [finish]
  | skip b behind ih => exact ih (List.forall_mem_cons.mp stored).2 apart.tail

theorem lasting (size : Nat) (expected : Option Tick) :
    ChannelQueue.Lasting size (Spaced expected) := by
  intro left blocks stored leftover spaced
  refine ⟨apart_leftover stored leftover spaced.apart, fun b member => ?_⟩
  refine (leftover.all (P := fun b => b.Whole size ∧ ∃ next ∈ expected, b.finish ≤ next) ?_
    (fun b there => ⟨(stored b there).toWhole, spaced.ended b there⟩) b member).2
  intro b count ⟨whole, ended⟩
  rw [whole.finish_advance]
  exact ⟨whole.advance count, ended⟩

/-- A block that begins where the lane has been goes behind the others. -/
theorem pushNewest (spaced : Spaced expected q.blocks) (sound : q.Sound size)
    (whole : b.Whole size) (begins : ∀ next ∈ expected, next ≤ b.start) :
    Spaced (some b.finish) (q.pushNewest b).1.blocks := by
  have onward (c : Block) (ended : ∃ next ∈ expected, c.finish ≤ next) :
      c.finish ≤ b.start := by
    obtain ⟨next, reached, le⟩ := ended
    exact Int.le_trans le (begins next reached)
  have within := b.start.le_later b.length
  obtain ⟨left, leftSpaced, pushed⟩ := (lasting size expected).pushNewest sound b spaced
  have old (c : Block) (member : c ∈ left) : ∃ next ∈ some b.finish, c.finish ≤ next :=
    ⟨b.finish, rfl, Int.le_trans (onward c (leftSpaced.ended c member)) within⟩
  rcases pushed with same | same <;> rw [same]
  · exact ⟨leftSpaced.apart, old⟩
  · have finish := whole.finish_advance (b.length - q.capacity)
    constructor
    · refine leftSpaced.apart.append (.singleton _) ?_
      rintro c last _ ⟨rfl⟩
      exact Int.le_trans (onward c (leftSpaced.ended c (List.mem_of_mem_getLast? last)))
        (b.start.le_later _)
    · refine List.forall_mem_append.mpr ⟨old, List.forall_mem_singleton.mpr ?_⟩
      exact ⟨b.finish, rfl, finish ▸ Int.le_refl _⟩

end Spaced

/-- A lane whose queue is sound and holds its blocks apart. -/
structure RxLane.Orderly (size : Nat) (l : RxLane) : Prop where
  queue : l.queue.Sound size
  spaced : Spaced l.expected l.queue.blocks

namespace RxLane.Orderly
variable {size : Nat} {l after : RxLane} {b : Block}

theorem of_core (orderly : l.Orderly size) (same : after.core = l.core) : after.Orderly size := by
  have blocks := congrArg (·.queue.blocks) same
  have expected := congrArg RxLane.expected same
  dsimp only [core] at blocks expected
  refine ⟨sound_core.mp (same ▸ sound_core.mpr orderly.queue), ?_⟩
  rw [blocks, expected]
  exact orderly.spaced

theorem accept (orderly : l.Orderly size) (whole : b.Whole size) : (l.accept b).1.Orderly size := by
  have trimmed := whole.since l.expected
  rw [← trim_eq] at trimmed
  have accepted := accept_spec orderly.queue trimmed
  refine ⟨accepted.queue, ?_⟩
  rw [accepted.expected_eq, accept_eq]
  dsimp only
  split
  · exact orderly.spaced
  · next filled =>
    refine orderly.spaced.pushNewest orderly.queue trimmed ?_
    intro next reached
    rw [trim_eq, Option.mem_def.mp reached] at filled ⊢
    rw [whole.start_since (Bool.eq_false_iff.mpr filled), Tick.le_def, Tick.toInt_max]
    omega

theorem take (orderly : l.Orderly size) (anchor : Option Tick) (limit : Nat) (wait : Wait)
    (tolerance : Nat) : (l.take anchor limit wait tolerance).2.Orderly size := by
  have lasting := Spaced.lasting size l.expected
  refine ⟨(take_spec orderly.queue anchor limit wait tolerance).popped.sound, ?_⟩
  cases anchor with
  | none => exact lasting.pop orderly.queue limit wait orderly.spaced
  | some t => exact lasting.popAt orderly.queue t limit wait tolerance orderly.spaced

end RxLane.Orderly
namespace World
variable {c : StreamConfig} {w : World} {channel : UInt8} {lane : RxLane}

/-- All that a step does to a lane, its stop flag aside: nothing, or a call takes from it, or it
accepts a packet. -/
theorem lane_step (found : w.session.rxOn channel = some lane) (e : Event) :
    ∃ after, (w.step e).session.rxOn channel = some after ∧
      (after.core = lane.core ∨
        (∃ anchor limit wait tolerance, after = (lane.take anchor limit wait tolerance).2) ∨
        ∃ p, e = .arrive p ∧ after.core =
          (lane.accept ((Block.received p.timestamp p.payload
            w.session.config.linkFormat.sampleSize).since
              w.session.timeline.alignedStart)).1.core) := by
  have frame (elsewhere : e.isFor channel = false) : ∃ after,
      (w.step e).session.rxOn channel = some after ∧ after.core = lane.core :=
    step_elsewhere elsewhere found
  cases e with
  | @receive _ _ on buffer info wait =>
    by_cases here : on = channel
    · subst here
      rcases w.session.receive_on found buffer info wait with ⟨stays, _⟩ | ⟨after, _⟩
      · exact ⟨lane, stays, .inl rfl⟩
      · exact ⟨_, after, .inr (.inl ⟨_, _, _, _, rfl⟩)⟩
    · obtain ⟨after, on, core⟩ := frame (beq_eq_false_iff_ne.mpr here)
      exact ⟨after, on, .inl core⟩
  | arrive p =>
    obtain ⟨after, on, core⟩ := w.session.accept_on found p
    refine ⟨after, on, ?_⟩
    rw [Timeline.align_eq] at core
    split at core
    · exact .inr (.inr ⟨p, rfl, core⟩)
    · exact .inl core
  | _ =>
    obtain ⟨after, on, core⟩ := frame rfl
    exact ⟨after, on, .inl core⟩

theorem orderly_step (orderly : lane.Orderly c.linkFormat.sampleSize)
    (config : w.session.config = c) (found : w.session.rxOn channel = some lane) (e : Event) :
    ∃ after, (w.step e).session.rxOn channel = some after ∧
      after.Orderly c.linkFormat.sampleSize := by
  obtain ⟨after, on, core | ⟨anchor, limit, wait, tolerance, rfl⟩ | ⟨p, _, core⟩⟩ :=
    lane_step found e
  · exact ⟨after, on, orderly.of_core core⟩
  · exact ⟨_, on, orderly.take anchor limit wait tolerance⟩
  · have whole := (Block.received_whole c.linkFormat.sampleSize_pos p.timestamp p.payload).since
      w.session.timeline.alignedStart
    rw [config] at core
    exact ⟨after, on, (orderly.accept whole).of_core core⟩

theorem orderly_run (listed : channel ∈ c.rxChannels) (monitor : Option Monitor) (clock : Tick)
    (events : List Event) :
    ∃ lane, ((opened c monitor clock).run events).session.rxOn channel = some lane ∧
      lane.Orderly c.linkFormat.sampleSize :=
  lane_history listed monitor clock (P := fun _ lane => lane.Orderly c.linkFormat.sampleSize)
    (Q := fun _ => True) ⟨ChannelQueue.sound_empty _, .nil, List.forall_mem_nil _⟩
    (fun _ e _ _ config _ found orderly => orderly_step orderly config found e)
    (fun _ _ => trivial)

theorem rx_orderly {available : UInt8} (valid : c.validate available = .ok ())
    (monitor : Option Monitor) (clock : Tick) (events : List Event) :
    ∀ l ∈ ((opened c monitor clock).run events).session.rx,
      l.Orderly c.linkFormat.sampleSize := by
  have channels := run_invariant (w := opened c monitor clock)
    (P := fun w => w.session.rx.map (·.channel) = c.rxChannels)
    (fun w e same => (w.step_continues e).rxChannels_eq.trans same)
    ((List.map_map ..).trans (List.map_id _)) events
  intro l member
  have listed : l.channel ∈ c.rxChannels := channels ▸ List.mem_map_of_mem member
  have distinct := c.channels_nodup valid .rx
  rw [StreamConfig.channels, ← channels] at distinct
  have found := find?_of_mem distinct member
  obtain ⟨lane, on, orderly⟩ := orderly_run listed monitor clock events
  obtain rfl := Option.some.inj (on.symm.trans found)
  exact orderly

end World

/-- The books of every queue are in order after any calls with whole samples, and the receive
queues of a stream hold, in every state that callers, workers and clock can bring about, blocks of
which each starts at the end of the one before it or later. -/
theorem queues_accounted :
    (∀ (size capacity : Nat) (operations : List ChannelQueue.Operation),
      0 < capacity → capacity < 0x10000000000000000 →
      (∀ operation ∈ operations, operation.Proper size) →
        let q := (ChannelQueue.empty capacity).after operations
        q.Accounted size ∧ q.capacity = capacity) ∧
    (∀ (c : StreamConfig) (available : UInt8) (monitor : Option Monitor) (clock : Tick)
      (events : List Event), c.validate available = .ok () →
        ∀ l ∈ ((World.opened c monitor clock).run events).session.rx,
          l.queue.blocks.IsChain fun b next => b.finish ≤ next.start) := by
  constructor
  · intro size capacity operations some word proper
    exact ChannelQueue.accounted_after some word proper
  · intro c available monitor clock events valid l member
    exact (World.rx_orderly valid monitor clock events l member).spaced.apart

/-- Three samples, a request for the second one of them, three more than fit beside what is left, a
flushed offer that finds no room, and a batch taken. -/
def busyQueue : List ChannelQueue.Operation :=
  [.pushNewest ⟨Tick.clamp 10, true, false, [1, 2, 3], 1⟩,
    .popAt (Tick.clamp 11) 1 .poll 0,
    .pushNewest ⟨Tick.clamp 20, true, false, [4, 5, 6, 7], 1⟩,
    .offer ⟨Tick.clamp 24, true, true, [8], 1⟩ .poll,
    .markFlush,
    .takeReady 2 false fun _ => false]

/-- Two packets with a gap between them. -/
def apartPackets : List Event :=
  let samples := (List.range 8).map UInt8.ofNat
  [.arrive ⟨0, Tick.clamp 5, samples⟩, .arrive ⟨0, Tick.clamp 9, samples⟩]

theorem queues_accounted_busy :
    let q := (ChannelQueue.empty 4).after busyQueue
    let w := (World.opened World.oneReceiver none .zero).run apartPackets
    (∀ operation ∈ busyQueue, operation.Proper 1) ∧ q.Accounted 1 ∧
      q.blocks.map (fun b => (b.start.toInt, b.length)) = [(22, 2)] ∧ q.queued = 2 ∧
      World.oneReceiver.validate 1 = .ok () ∧
      (∀ l ∈ w.session.rx, l.queue.blocks.IsChain fun b next => b.finish ≤ next.start) ∧
      w.session.rx.map (·.queue.blocks.map fun b => (b.start.toInt, b.finish.toInt)) =
        [[(5, 7), (9, 11)]] := by
  intro q w
  have proper : ∀ operation ∈ busyQueue, operation.Proper 1 := by
    simp only [busyQueue, List.forall_mem_cons, ChannelQueue.Operation.Proper]
    refine ⟨⟨⟨by decide, rfl, one_dvd _⟩, by decide⟩, trivial,
      ⟨⟨by decide, rfl, one_dvd _⟩, by decide⟩, ⟨⟨by decide, rfl, one_dvd _⟩, by decide⟩, trivial,
      trivial, List.forall_mem_nil _⟩
  obtain ⟨queues, streams⟩ := queues_accounted
  exact ⟨proper, (queues 1 4 busyQueue (by decide) (by decide) proper).1, by decide +kernel,
    by decide +kernel, rfl, streams _ 1 none .zero apartPackets rfl, by decide +kernel⟩

end RadioStream
