import RadioStream.Proofs.Reception.Lane

/-!
Order of reception over runs. However packets and calls interleave, the samples that calls
hand out on a channel have strictly increasing ticks, and each is decoded from the first
packet of the channel that carries a sample for its tick.
-/
namespace RadioStream

/-- A sample as a receive call hands it out, with the tick that its place after the returned
timestamp gives it. -/
structure Handed : Type 1 where
  {α : Type}
  [sample : HostSample α]
  tick : Int
  value : α

def Delivery.samples {α : Type} [HostSample α] (d : Delivery α) : List Handed :=
  match d.outcome with
  | .ok count => (d.buffer.take count).mapIdx fun i value => ⟨d.info.timestamp.toInt + i, value⟩
  | .error _ => []

/-- A sample is handed out at its tick and decoded. -/
def Handed.Of (c : StreamConfig) (x : Stamped) (h : Handed) : Prop :=
  ∃ t, x.tick = some t ∧ h.tick = t.toInt ∧
    h.value = h.sample.unpack c.hostFormat c.linkFormat x.bytes

namespace Handed
variable {c : StreamConfig} {run : Block} {α : Type} [HostSample α]

/-- A call that gets a run hands out its first samples, decoded, each at its tick. -/
theorem of_run (whole : run.Whole c.linkFormat.sampleSize)
    (inRange : ∀ x ∈ run.content, ∃ t, x.tick = some t ∧ t.toInt < 0x7fffffffffffffff)
    (buffer : List α) (info : TransferMeta) :
    let filled := HostSample.fillFromLink c.hostFormat c.linkFormat run.payload buffer
    ∃ pairs : List (Stamped × Handed),
      pairs.map Prod.snd =
        Delivery.samples ⟨.ok filled.1, filled.2, { info with timestamp := run.start }⟩ ∧
      (pairs.map Prod.fst).Sublist run.content ∧ ∀ x ∈ pairs, x.2.Of c x.1 := by
  intro filled
  have decoded : filled.2.take filled.1 =
      (run.samples.take buffer.length).map (HostSample.unpack c.hostFormat c.linkFormat) := by
    dsimp only [filled, HostSample.fillFromLink, HostSample.fromLink]
    rw [List.take_left', ← List.map_take, whole.samples_eq]
    rfl
  have kept : stamp run.tick? (run.samples.take buffer.length) =
      run.content.take buffer.length := (stamp_take _ _ _).symm
  refine ⟨(run.samples.take buffer.length).mapIdx fun i bytes =>
    (⟨run.tick?.map (·.later i), bytes⟩,
      ⟨run.start.toInt + i, HostSample.unpack (α := α) c.hostFormat c.linkFormat bytes⟩),
    ?_, ?_, ?_⟩
  · simp only [Delivery.samples, decoded, List.mapIdx_eq_zipIdx_map, List.map_map,
      List.zipIdx_map]
    rfl
  · have first := List.take_sublist buffer.length run.content
    rw [← kept, stamp] at first
    simpa only [List.mapIdx_eq_zipIdx_map, List.map_map, Function.comp_def] using first
  · intro x member
    obtain ⟨i, bound, rfl⟩ := List.mem_mapIdx.mp member
    have first : (⟨run.tick?.map (·.later i), (run.samples.take buffer.length)[i]⟩ : Stamped) ∈
        run.content.take buffer.length := by
      rw [← kept, stamp, List.mem_mapIdx]
      exact ⟨i, bound, rfl⟩
    obtain ⟨t, tick, before⟩ := inRange _ (List.mem_of_mem_take first)
    refine ⟨t, tick, ?_, rfl⟩
    dsimp only at tick ⊢
    rw [Block.tick?] at tick
    split at tick
    · rw [Option.map_some, Option.some.injEq] at tick
      rw [← tick, Tick.toInt_later] at before ⊢
      omega
    · contradiction

end Handed

/-- What a receive call hands out and what it leaves in the lane are the end of what was
there, each sample handed out at its tick and decoded. -/
theorem Session.receive_handed {s : Session} {channel : UInt8} {lane : RxLane} {α : Type}
    [HostSample α] (found : s.rxOn channel = some lane)
    (sound : lane.queue.Sound s.config.linkFormat.sampleSize)
    (inRange : ∀ x ∈ lane.queue.content, ∃ t, x.tick = some t ∧ t.toInt < 0x7fffffffffffffff)
    (buffer : List α) (info : TransferMeta) (wait : Wait) :
    ∃ after, ∃ pairs : List (Stamped × Handed),
      (s.receive channel buffer info wait).2.rxOn channel = some after ∧
      after.queue.Sound s.config.linkFormat.sampleSize ∧ after.expected = lane.expected ∧
      pairs.map Prod.snd = (s.receive channel buffer info wait).1.samples ∧
      (pairs.map Prod.fst ++ after.queue.content).Sublist lane.queue.content ∧
      ∀ x ∈ pairs, x.2.Of s.config x.1 := by
  have takes := lane.take_spec sound info.anchor? buffer.length wait s.timeline.tolerance
  rcases s.receive_on found buffer info wait with
    ⟨on, failed⟩ | ⟨on, ⟨run, taken, result⟩ | ⟨fault, taken, result⟩⟩
  · refine ⟨lane, [], on, sound, rfl, ?_, List.Sublist.refl _, by simp⟩
    rw [Delivery.samples]
    split
    · next count outcome => exact absurd outcome (failed count)
    · rfl
  · have whole := takes.popped.whole run taken
    have suffix := takes.popped.content_suffix
    rw [taken, ChannelQueue.handedOut] at suffix
    obtain ⟨pairs, handed, first, decoded⟩ := Handed.of_run whole (fun x member =>
      inRange x (suffix.mem (List.mem_append_left _ member))) buffer info
    exact ⟨_, pairs, on, takes.popped.sound, takes.expected_eq, by rw [handed, result],
      (first.append (List.Sublist.refl _)).trans suffix.sublist, decoded⟩
  · have suffix := takes.popped.content_suffix
    rw [taken, ChannelQueue.handedOut, List.nil_append] at suffix
    refine ⟨_, [], on, takes.popped.sound, takes.expected_eq, ?_, suffix.sublist, by simp⟩
    rcases result with result | result <;> rw [result] <;> rfl

namespace World

/-- The packets for a channel. -/
def arrived (channel : UInt8) (_ : World) : Event → List RxPacket
  | .arrive p => if p.channel = channel then [p] else []
  | _ => []

/-- The samples that the lane of a channel takes in, before it drops any. -/
def heard (channel : UInt8) (w : World) : Event → List Stamped
  | .arrive p =>
    if p.channel = channel then (w.session.rxOn channel).elim [] fun lane =>
      (p.fresh w.session.config.linkFormat.sampleSize w.session.timeline.alignedStart
        lane.expected).content
    else []
  | _ => []

/-- The samples that receive calls hand out on a channel. -/
def delivered (channel : UInt8) (w : World) : Event → List Handed
  | @Event.receive _ _ on buffer info wait =>
    if on = channel then (w.session.receive on buffer info wait).1.samples else []
  | _ => []

/-- The lane of a channel behind a run, with all that it has taken in and handed out. -/
structure Received (c : StreamConfig) (aligned : Option Tick) (packets : List RxPacket)
    (taken : List Stamped) (handed : List Handed) (lane : RxLane) : Prop where
  queue : lane.queue.Sound c.linkFormat.sampleSize
  heard : Heard c.linkFormat.sampleSize aligned packets taken lane.expected
  pairs : ∃ pairs : List (Stamped × Handed), pairs.map Prod.snd = handed ∧
    (pairs.map Prod.fst ++ lane.queue.content).Sublist taken ∧ ∀ x ∈ pairs, x.2.Of c x.1

namespace Received
variable {c : StreamConfig} {aligned : Option Tick} {packets : List RxPacket}
  {taken : List Stamped} {handed : List Handed} {lane after : RxLane} {channel : UInt8} {w : World}

theorem of_core (r : Received c aligned packets taken handed lane)
    (same : after.core = lane.core) : Received c aligned packets taken handed after := by
  have expected := congrArg RxLane.expected same
  have content := congrArg (·.queue.content) same
  simp only [RxLane.expected_core, RxLane.content_core] at expected content
  refine ⟨RxLane.sound_core.mp (same ▸ RxLane.sound_core.mpr r.queue), ?_, ?_⟩
  · rw [expected]
    exact r.heard
  · rw [content]
    exact r.pairs

theorem in_range (r : Received c aligned packets taken handed lane) :
    ∀ x ∈ lane.queue.content, ∃ t, x.tick = some t ∧ t.toInt < 0x7fffffffffffffff := by
  obtain ⟨pairs, _, inside, _⟩ := r.pairs
  intro x member
  obtain ⟨t, next, tick, _, before, _⟩ :=
    r.heard.carried x (inside.mem (List.mem_append_right _ member))
  have := next.lt_bound
  rw [Tick.lt_def] at before
  exact ⟨t, tick, by omega⟩

theorem arrive (r : Received c aligned packets taken handed lane)
    (config : w.session.config = c) (start : w.session.timeline.alignedStart = aligned)
    (found : w.session.rxOn channel = some lane) {p : RxPacket} (here : p.channel = channel)
    (inRange : (Event.arrive p).InRange c.linkFormat.sampleSize) :
    ∃ after, (w.session.accept p).rxOn channel = some after ∧
      Received c aligned (packets ++ [p])
        (taken ++ (p.fresh c.linkFormat.sampleSize aligned lane.expected).content) handed
        after := by
  obtain ⟨after, on, same⟩ := w.session.accept_on found p
  have fresh := p.fresh_spec c.linkFormat.sampleSize_pos aligned lane.expected inRange
  have trimmed : lane.trim (w.session.timeline.align (Block.received p.timestamp p.payload
      w.session.config.linkFormat.sampleSize)) =
      p.fresh c.linkFormat.sampleSize aligned lane.expected := by
    rw [RxPacket.trim_align, config, start]
  have accepts := lane.accept_spec r.queue (trimmed ▸ fresh.dated.toWhole)
  rw [if_pos here] at same
  refine ⟨after, on, .of_core ⟨accepts.queue, ?_, ?_⟩ same⟩
  · rw [accepts.expected_eq, trimmed]
    exact r.heard.next fresh
  · obtain ⟨pairs, handed, inside, decoded⟩ := r.pairs
    have pushed := accepts.content_suffix.sublist
    rw [trimmed] at pushed
    refine ⟨pairs, handed, ?_, decoded⟩
    apply ((List.Sublist.refl _).append pushed).trans
    rw [← List.append_assoc]
    exact inside.append (List.Sublist.refl _)

theorem receive (r : Received c aligned packets taken handed lane)
    (config : w.session.config = c) (found : w.session.rxOn channel = some lane) {α : Type}
    [HostSample α] (buffer : List α) (info : TransferMeta) (wait : Wait) :
    ∃ after, (w.session.receive channel buffer info wait).2.rxOn channel = some after ∧
      Received c aligned packets taken
        (handed ++ (w.session.receive channel buffer info wait).1.samples) after := by
  subst config
  obtain ⟨after, fresh, on, sound, expected, samples, inside, decoded⟩ :=
    w.session.receive_handed found r.queue r.in_range buffer info wait
  obtain ⟨pairs, before, older, of⟩ := r.pairs
  refine ⟨after, on, sound, expected ▸ r.heard, pairs ++ fresh, ?_, ?_, ?_⟩
  · rw [List.map_append, before, samples]
  · rw [List.map_append, List.append_assoc]
    exact ((List.Sublist.refl _).append inside).trans older
  · intro x member
    exact (List.mem_append.mp member).elim (of x) (decoded x)

theorem step (r : Received c aligned packets taken handed lane)
    (config : w.session.config = c) (start : w.session.timeline.alignedStart = aligned)
    (found : w.session.rxOn channel = some lane) {e : Event}
    (inRange : e.InRange c.linkFormat.sampleSize) :
    ∃ after, (w.step e).session.rxOn channel = some after ∧
      Received c aligned (packets ++ arrived channel w e) (taken ++ World.heard channel w e)
        (handed ++ delivered channel w e) after := by
  have frame (elsewhere : e.isFor channel = false) : ∃ after,
      (w.step e).session.rxOn channel = some after ∧
        Received c aligned (packets ++ []) (taken ++ []) (handed ++ []) after := by
    obtain ⟨after, on, core⟩ := step_elsewhere elsewhere found
    rw [List.append_nil, List.append_nil, List.append_nil]
    exact ⟨after, on, r.of_core core⟩
  cases e with
  | @receive _ _ on buffer info wait =>
    by_cases here : on = channel
    · subst here
      simp only [delivered, if_true, arrived, World.heard, List.append_nil]
      exact r.receive config found buffer info wait
    · simp only [delivered, if_neg here]
      exact frame (beq_eq_false_iff_ne.mpr here)
  | arrive p =>
    by_cases here : p.channel = channel
    · simp only [arrived, World.heard, if_pos here, found, config, start, Option.elim,
        delivered, List.append_nil]
      exact r.arrive config start found here inRange
    · simp only [arrived, World.heard, if_neg here]
      exact frame (beq_eq_false_iff_ne.mpr here)
  | _ => exact frame rfl

/-- What was handed out is in order of time, and from the first packets that carry it. -/
theorem handed_in_order (r : Received c aligned packets taken handed lane) :
    (handed.map (·.tick)).Pairwise (· < ·) ∧
      ∀ h ∈ handed, ∃ bytes,
        packets.findSome? (·.sampleAt? c.linkFormat.sampleSize h.tick) = some bytes ∧
        h.value = h.sample.unpack c.hostFormat c.linkFormat bytes := by
  obtain ⟨pairs, rfl, inside, decoded⟩ := r.pairs
  have taken := (List.sublist_append_left _ _).trans inside
  constructor
  · have ordered := List.pairwise_map.mp (r.heard.ordered.sublist taken)
    rw [List.map_map, List.pairwise_map]
    refine ordered.imp_of_mem fun {x y} first second before => ?_
    obtain ⟨s, tick, handedAt, _⟩ := decoded x first
    obtain ⟨t, tick', handedAt', _⟩ := decoded y second
    obtain ⟨s', t', same, same', before⟩ := before
    obtain rfl := Option.some.inj (tick.symm.trans same)
    obtain rfl := Option.some.inj (tick'.symm.trans same')
    simp only [Function.comp, handedAt, handedAt']
    exact before
  · intro h member
    obtain ⟨x, there, rfl⟩ := List.mem_map.mp member
    obtain ⟨t, tick, handedAt, value⟩ := decoded x there
    obtain ⟨s, _, same, _, _, carried⟩ :=
      r.heard.carried x.1 (taken.mem (List.mem_map_of_mem there))
    obtain rfl := Option.some.inj (tick.symm.trans same)
    exact ⟨x.1.bytes, by rw [handedAt, carried], value⟩

end Received

theorem delivered_absent {channel : UInt8} {w : World} (absent : w.session.rxOn channel = none)
    (e : Event) : (w.step e).session.rxOn channel = none ∧ delivered channel w e = [] := by
  have missing (s : Session) : s.rxOn channel = none ↔ channel ∉ s.rx.map (·.channel) := by
    simp only [Session.rxOn, List.find?_eq_none, beq_iff_eq, List.mem_map, not_exists, not_and]
  constructor
  · rw [missing, (w.step_continues e).rxChannels_eq, ← missing]
    exact absent
  · cases e with
    | @receive _ _ on buffer info wait =>
      by_cases here : on = channel
      · subst here
        simp only [delivered, if_true, Delivery.samples]
        rcases w.session.receive_cases on buffer info wait with ⟨_, failed⟩ | ⟨lane, found, _⟩
        · split
          · next count outcome => exact absurd outcome (failed count)
          · rfl
        · rw [absent] at found
          contradiction
      · simp only [delivered, if_neg here]
    | _ => rfl

theorem received_run {c : StreamConfig} {channel : UInt8} (listed : channel ∈ c.rxChannels)
    (monitor : Option Monitor) (clock : Tick) {events : List Event}
    (inRange : ∀ e ∈ events, e.InRange c.linkFormat.sampleSize) :
    let start := opened c monitor clock
    ∃ lane, (start.run events).session.rxOn channel = some lane ∧
      Received c start.session.timeline.alignedStart (observe (arrived channel) start events)
        (observe (heard channel) start events) (observe (delivered channel) start events)
        lane := by
  intro start
  refine lane_history listed monitor clock (P := fun done lane =>
    Received c start.session.timeline.alignedStart (observe (arrived channel) start done)
      (observe (heard channel) start done) (observe (delivered channel) start done) lane)
    ?_ ?_ inRange
  · exact ⟨ChannelQueue.sound_empty _, .nothing .., [], rfl, List.Sublist.refl _, by simp⟩
  · intro done e lane fine config aligned on received
    simp only [observe_append, observe, List.append_nil]
    exact received.step config aligned on fine

/-- Calls hand out the samples of a channel in strict order of time over all runs, each decoded
from the first packet of the channel that carries a sample for its tick. -/
theorem delivered_in_order (c : StreamConfig) (monitor : Option Monitor) (clock : Tick)
    {events : List Event} (inRange : ∀ e ∈ events, e.InRange c.linkFormat.sampleSize)
    (channel : UInt8) :
    let start := opened c monitor clock
    let packets := observe (arrived channel) start events
    let handed := observe (delivered channel) start events
    (handed.map (·.tick)).Pairwise (· < ·) ∧
      ∀ h ∈ handed, ∃ bytes,
        packets.findSome? (·.sampleAt? c.linkFormat.sampleSize h.tick) = some bytes ∧
        h.value = h.sample.unpack c.hostFormat c.linkFormat bytes := by
  intro start packets handed
  have found := opened_rxOn c monitor clock channel
  by_cases listed : channel ∈ c.rxChannels
  · obtain ⟨lane, _, received⟩ := received_run listed monitor clock inRange
    exact received.handed_in_order
  · rw [if_neg listed] at found
    have nothing : ∀ h ∈ handed, False :=
      mem_observe (P := fun w => w.session.rxOn channel = none)
        (fun w e absent => (delivered_absent absent e).1)
        (fun w e absent h member => by
          rw [(delivered_absent absent e).2] at member
          exact List.not_mem_nil member) found events
    rw [List.eq_nil_iff_forall_not_mem.mpr nothing]
    exact ⟨.nil, List.forall_mem_nil _⟩

/-- One receive channel that holds eight samples. -/
def shortQueue : StreamConfig :=
  { StreamConfig.default with
    rxChannels := [0]
    bufferBytes := 32
    tuning := { StreamTuning.default with rxPacketSamples := 4, rxBatchPackets := 1 } }

/-- Calls between packets that overlap, leave a gap and overrun the queue. -/
def gappedReads : List Event :=
  let packet (start : Int) (samples : Nat) : Event :=
    .arrive ⟨0, Tick.clamp start, (List.range (4 * samples)).map UInt8.ofNat⟩
  [packet 0 4, .receive 0 [(⟨0, 0⟩ : IntSample), ⟨0, 0⟩, ⟨0, 0⟩] .plain .poll, packet 2 6,
    packet 10 6, .receive 0 [(⟨0, 0⟩ : IntSample), ⟨0, 0⟩] (.anchored (Tick.clamp 7)) .poll,
    .receive 0 [(⟨0, 0⟩ : IntSample), ⟨0, 0⟩] .plain .poll]

theorem delivered_in_order_gapped :
    let start := opened shortQueue none .zero
    let handed := observe (delivered 0) start gappedReads
    (∀ e ∈ gappedReads, e.InRange shortQueue.linkFormat.sampleSize) ∧
      (handed.map (·.tick)).Pairwise (· < ·) ∧ handed.map (·.tick) = [0, 1, 2, 7, 10, 11] := by
  have inRange : ∀ e ∈ gappedReads, e.InRange shortQueue.linkFormat.sampleSize := by
    simp [gappedReads, Event.InRange]
    decide
  exact ⟨inRange, (delivered_in_order shortQueue none .zero inRange 0).1, by decide +kernel⟩

end World
end RadioStream
