import RadioStream.Proofs.Transmission.Gate

/-!
Timed batches of one tick leave together. Taking into the hand and letting go are decided
apart, but the gate opens at a tick only where it is due or the pass drains, and then no
lane whose oldest samples stand at that tick has its hand empty.
-/
namespace RadioStream

namespace Block

theorem Stored.head_tick {size : Nat} {b : Block} (stored : b.Stored size) :
    b.content.head?.map (·.tick) = some b.tick? := by
  have some := stored.length_pos
  rw [← stored.length_samples] at some
  rw [content]
  cases samples : b.samples with
  | nil =>
    rw [samples] at some
    contradiction
  | cons first rest => rw [stamp_cons, List.head?_cons, Option.map_some]

theorem Stored.packetize_ne_nil {size : Nat} {b : Block} (stored : b.Stored size)
    (channel : UInt8) (packetSamples : Nat) : b.packetize channel packetSamples ≠ [] := by
  intro none
  have content := stored.content_packetize channel packetSamples
  rw [none, List.flatMap_nil] at content
  exact stored.content_ne_nil content.symm

theorem tick?_eq_some {b : Block} {t : Tick} :
    b.tick? = some t ↔ b.timed = true ∧ b.start = t := by
  rw [tick?, Option.ite_none_right_eq_some, Option.some.injEq]

end Block

namespace TxLane
variable {size : Nat} {l : TxLane} {t : Tick}

/-- The oldest data that has not left: the batch in hand, or else the front of the queue. -/
def oldest? (l : TxLane) : Option Block := l.held.or l.queue.blocks.head?

/-- The tick at which the oldest data stands, if it is timed. -/
def nextTick? (l : TxLane) : Option Tick := l.oldest?.bind Block.tick?

theorem Sound.head_tick (sound : l.Sound size) :
    l.content.head?.map (·.tick) = l.oldest?.map Block.tick? := by
  have first (b : Block) (stored : b.Stored size) (rest : List Stamped) :
      (b.content ++ rest).head?.map (·.tick) = some b.tick? := by
    rw [List.head?_append, Option.map_or, stored.head_tick, Option.some_or]
  rw [content, oldest?]
  cases held : l.held with
  | some b => exact first b (sound.held b held) _
  | none =>
    rw [Option.none_or, Option.elim_none, List.nil_append, ChannelQueue.content]
    cases blocks : l.queue.blocks with
    | nil => rfl
    | cons b rest =>
      have stored := sound.queue.stored b (blocks ▸ List.mem_cons_self)
      exact first b stored _

/-- What stands first stays first when it is taken into the hand. -/
theorem Sound.nextTick?_pickUp (sound : l.Sound size) {batch : Nat} (room : 0 < batch)
    (draining : Bool) (due : Tick → Bool) :
    (l.pickUp batch draining due).nextTick? = l.nextTick? := by
  obtain ⟨picked, content⟩ := sound.pickUp room draining due
  have same := picked.head_tick
  rw [content, sound.head_tick] at same
  have next (l : TxLane) : l.nextTick? = (l.oldest?.map Block.tick?).join := by
    rw [nextTick?]
    cases l.oldest? <;> rfl
  rw [next, next, same]

theorem nextTick?_of_held {b : Block} (held : l.held = some b) : l.nextTick? = b.tick? := by
  rw [nextTick?, oldest?, held]
  rfl

/-- Where the oldest data is due or driven out, it gets into the hand. -/
theorem pickUp_holds_due (next : l.nextTick? = some t) {draining : Bool} {due : Tick → Bool}
    (goes : draining = true ∨ due t = true) (batch : Nat) :
    (l.pickUp batch draining due).held ≠ none := by
  rw [pickUp]
  cases held : l.held with
  | some b =>
    rw [held]
    exact Option.some_ne_none b
  | none =>
    rw [nextTick?, oldest?, held, Option.none_or] at next
    obtain ⟨front, first, tick⟩ := Option.bind_eq_some_iff.mp next
    have ready : l.queue.takeReady? batch draining due = l.queue.takeRun? batch := by
      unfold Block.tick? at tick
      split at tick
      · next timed =>
        obtain rfl := Option.some.inj tick
        rw [ChannelQueue.takeReady?, first]
        rcases goes with rfl | isDue
        · simp
        · simp [timed, isDue]
      · contradiction
    dsimp only
    rw [ready]
    split
    · exact Option.some_ne_none _
    · next nothing =>
      rw [ChannelQueue.takeRun?_eq_none.mp nothing] at first
      contradiction

end TxLane

namespace Session
variable {s : Session} {channel : UInt8} {reading : Except Fault Tick} {draining : Bool}
  {t : Tick}

/-- The tick at which the oldest unsent data of a channel stands, if it is timed. -/
def nextTick? (s : Session) (channel : UInt8) : Option Tick :=
  (s.txOn channel).bind TxLane.nextTick?

/-- The gate that lets a batch go stands at its tick. -/
theorem TxSound.gate_of_departed (sound : s.TxSound) (next : s.nextTick? channel = some t)
    (departs : s.departed reading draining channel ≠ []) :
    s.passGate reading draining = some t := by
  obtain ⟨lane, found, next⟩ := Option.bind_eq_some_iff.mp next
  obtain ⟨d, left⟩ := List.exists_mem_of_ne_nil _ departs
  rw [departed_on found, Option.mem_toList] at left
  split at left
  · next leaves =>
    obtain ⟨b, held, rfl⟩ := Option.map_eq_some_iff.mp left
    have picked := (sound.lanes channel lane found).nextTick?_pickUp s.config.txBatch_pos draining
      ((s.timeline.now reading).2.isDue · (s.timeline.now reading).1)
    rw [TxLane.nextTick?_of_held held, next, Block.tick?_eq_some] at picked
    obtain ⟨timed, rfl⟩ := picked
    exact (TxLane.leaves_of_timed held timed).mp leaves
  · contradiction

/-- At an open gate, whatever stands there leaves, and all of it in the same way. -/
theorem TxSound.departed_at_gate (sound : s.TxSound)
    (opened : s.passGate reading draining = some t) (next : s.nextTick? channel = some t) :
    ∃ b, b.tick? = some t ∧ s.departed reading draining channel =
      [⟨b, (s.timeline.now reading).1,
        if t.later s.timeline.tolerance < (s.timeline.now reading).1 then none
        else some (b.packetize channel s.config.txPacket)⟩] := by
  obtain ⟨lane, found, next⟩ := Option.bind_eq_some_iff.mp next
  have goes := (gate_eq_some.mp opened).2
  have holds : (lane.pickUp s.config.txBatch draining
      ((s.timeline.now reading).2.isDue · (s.timeline.now reading).1)).held ≠ none :=
    TxLane.pickUp_holds_due next (goes.imp_right decide_eq_true) _
  have picked := (sound.lanes channel lane found).nextTick?_pickUp s.config.txBatch_pos draining
    ((s.timeline.now reading).2.isDue · (s.timeline.now reading).1)
  obtain ⟨b, held⟩ := Option.ne_none_iff_exists'.mp holds
  rw [TxLane.nextTick?_of_held held, next] at picked
  refine ⟨b, picked, ?_⟩
  obtain ⟨timed, rfl⟩ := Block.tick?_eq_some.mp picked
  have leaves := (TxLane.leaves_of_timed held timed).mpr opened
  rw [departed_on found, if_pos leaves, held, Option.map_some, Option.toList_some, timed,
    Bool.true_and, Timeline.isLate, Timeline.now_tolerance, channel_of_txOn found]
  simp only [decide_eq_true_eq]

end Session

namespace World
variable {c : StreamConfig}

/-- In a step, the oldest data of a channel leaves at its tick as a batch, and nothing else. -/
structure Releases (w : World) (e : Event) (channel : UInt8) (t : Tick) (d : Departure) : Prop where
  departed_eq : departed channel w e = [d]
  tick_eq : d.batch.tick? = some t
  unsent_eq : w.session.unsent channel = d.batch.content ++ (w.step e).session.unsent channel

/-- In every state that callers, workers and clock can bring about: if the batch of one channel
leaves the hand at its tick, so do those of all channels that stand at this tick, in the same
pass, and all go out in its write or all are dropped as late. -/
theorem ticks_released_together {available : UInt8} (valid : c.validate available = .ok ())
    (monitor : Option Monitor) (clock : Tick) (past : List Event) {reading : Except Fault Tick}
    {draining : Bool} {answer : Except Fault Unit} {t : Tick} {first : UInt8}
    (next : ((opened c monitor clock).run past).session.nextTick? first = some t)
    (departs : departed first ((opened c monitor clock).run past)
      (.pass reading draining answer) ≠ []) :
    let w := (opened c monitor clock).run past
    let e := Event.pass reading draining answer
    let now := (w.session.timeline.now reading).1
    let tolerance := c.tuning.lateTolerance.toNat
    (now ≤ t.later tolerance ∧ ∀ channel, w.session.nextTick? channel = some t →
      ∃ batch packets, Releases w e channel t ⟨batch, now, some packets⟩ ∧ packets ≠ [] ∧
        (offered w e).filter (·.channel == channel) = packets) ∨
    (t.later tolerance < now ∧ ∀ channel, w.session.nextTick? channel = some t →
      ∃ batch, Releases w e channel t ⟨batch, now, none⟩ ∧
        (offered w e).filter (·.channel == channel) = []) := by
  intro w e now tolerance
  have sound : TxSound c w := run_txSound valid monitor clock past
  have gate : w.session.passGate reading draining = some t :=
    sound.session.gate_of_departed next departs
  have all (channel : UInt8) (next : w.session.nextTick? channel = some t) :
      ∃ batch, Releases w e channel t ⟨batch, now, if t.later tolerance < now then none
        else some (batch.packetize channel w.session.config.txPacket)⟩ := by
    obtain ⟨batch, tick, left⟩ := sound.session.departed_at_gate gate next
    rw [sound.tolerance_eq] at left
    have moved : w.session.unsent channel ++ [] =
        (w.session.departed reading draining channel).flatMap (·.batch.content) ++
          (w.step e).session.unsent channel := ((sound.step e).2 channel).content_eq
    rw [List.append_nil, left, List.flatMap_singleton] at moved
    exact ⟨batch, left, tick, moved⟩
  by_cases late : t.later tolerance < now
  · right
    refine ⟨late, ?_⟩
    intro channel next
    obtain ⟨batch, releases⟩ := all channel next
    rw [if_pos late] at releases
    refine ⟨batch, releases, ?_⟩
    rw [offered_departed sound, releases.departed_eq]
    rfl
  · left
    refine ⟨by rw [Tick.le_def]; rw [Tick.lt_def] at late; omega, ?_⟩
    intro channel next
    obtain ⟨batch, releases⟩ := all channel next
    rw [if_neg late] at releases
    have stored := (((sound.session.pass reading draining answer).2 channel).2.2 _
      (List.mem_of_mem_head? (congrArg List.head? releases.departed_eq))).2.1
    refine ⟨batch, _, releases, stored.packetize_ne_nil channel _, ?_⟩
    rw [offered_departed sound, releases.departed_eq]
    exact List.append_nil _

/-- A full batch for tick 8 in the hand of channel 1, and one sample for the same tick in the
queue of channel 0. -/
def uneven : List Event :=
  [.transmit 1 [(⟨1, -1⟩ : IntSample), ⟨2, -2⟩, ⟨3, -3⟩, ⟨4, -4⟩] (.anchored (Tick.clamp 8))
      (.ok .zero) .poll,
    .pass (.ok (Tick.clamp 3)) false (.ok ()),
    .transmit 0 [(⟨5, -5⟩ : IntSample)] (.anchored (Tick.clamp 8)) (.ok (Tick.clamp 3)) .poll,
    .pass (.ok (Tick.clamp 3)) false (.ok ())]

theorem ticks_released_together_uneven :
    let w := (opened smallBatches none .zero).run uneven
    let e := Event.pass (.ok (Tick.clamp 5)) false (.ok ())
    smallBatches.validate 2 = .ok () ∧
      w.session.nextTick? 1 = some (Tick.clamp 8) ∧ departed 1 w e ≠ [] ∧
      w.session.nextTick? 0 = some (Tick.clamp 8) ∧ w.session.inHand 0 = [] ∧
      ∃ batch packets, Releases w e 0 (Tick.clamp 8) ⟨batch, Tick.clamp 5, some packets⟩ ∧
        (offered w e).filter (·.channel == 0) = packets := by
  intro w e
  have valid : smallBatches.validate 2 = .ok () := rfl
  have next : w.session.nextTick? 1 = some (Tick.clamp 8) := by decide +kernel
  have other : w.session.nextTick? 0 = some (Tick.clamp 8) := by decide +kernel
  have departs : departed 1 w e ≠ [] := by
    have one : (departed 1 w e).length = 1 := by decide +kernel
    intro none
    rw [none] at one
    contradiction
  refine ⟨valid, next, departs, other, by decide +kernel, ?_⟩
  rcases ticks_released_together valid none .zero uneven next departs with
    ⟨_, sent⟩ | ⟨late, _⟩
  · obtain ⟨batch, packets, releases, _, written⟩ := sent 0 other
    exact ⟨batch, packets, releases, written⟩
  · exact absurd late (by decide +kernel)

end World
end RadioStream
