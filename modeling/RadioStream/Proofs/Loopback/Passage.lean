import Mathlib.Data.List.Basic
import RadioStream.Proofs.Loopback.Circuit

/-!
What one step does to untimed samples on their way over a loopback link. Those that a
channel has between its two ends go in at the transmit call, come out at the receive call,
and stay in order. That none is trimmed on the way rests on one invariant: what comes on
the link follows the tick that the receive lane expects next.
-/
namespace RadioStream
open ChannelQueue (granted handedOut)

theorem map_fst_toList {β γ : Type} (o : Option β) (f : β → γ) :
    (o.map fun b => (b, f b)).toList.map Prod.fst = o.toList := by
  cases o <;> rfl

theorem tick_of_stamp {samples : List (List UInt8)} {x : Stamped}
    (member : x ∈ stamp none samples) : x.tick = none := by
  rw [stamp, List.mem_mapIdx] at member
  obtain ⟨i, bound, rfl⟩ := member
  rfl

theorem StreamConfig.encoded_untimed {α : Type} [HostSample α] (c : StreamConfig)
    (samples : List α) {info : TransferMeta} (untimed : info.useTimestamp = false) :
    c.encoded samples info = stamp none (samples.map (HostSample.pack c.hostFormat c.linkFormat)) := by
  rw [encoded, TransferMeta.anchor?, untimed]
  rfl

theorem WaitingCall.ofTransmit?_samples {α : Type} [HostSample α] {c : StreamConfig}
    {channel : UInt8} {samples : List α} {info : TransferMeta} {wait : Wait}
    {outcome : Except Fault Nat} {call : WaitingCall}
    (waits : ofTransmit? c channel samples info wait outcome = some call) :
    call.channel = channel ∧ call.samples = (c.encoded samples info).drop (granted outcome) := by
  unfold ofTransmit? at waits
  dsimp only at waits
  split at waits
  · contradiction
  · rw [← Option.some.inj waits]
    exact ⟨rfl, rfl⟩
  · rw [← Option.some.inj waits]
    exact ⟨rfl, rfl⟩
  · contradiction

namespace Block

theorem since_of_le {b : Block} {o : Option Tick} (behind : ∀ t ∈ o, t ≤ b.start) :
    b.since o = b := by
  cases o with
  | none => rfl
  | some t =>
    have none : b.start.gap t = 0 := by
      have := behind t rfl
      rw [Tick.le_def] at this
      rw [Tick.gap]
      omega
    rw [since, none, advance_zero]

/-- A payload of whole samples is a block's payload as it is. -/
theorem received_payload {size : Nat} {payload : List UInt8} (whole : size ∣ payload.length)
    (start : Tick) : (received start payload size).payload = payload := by
  rw [received, Nat.mod_eq_zero_of_dvd whole, Nat.sub_zero, List.take_length]

end Block

namespace Departure
variable {size tolerance : Nat} {channel : UInt8} {d : Departure}

/-- A batch of samples without a tick is untimed, so it is not dropped. -/
theorem Faithful.untimed (faithful : d.Faithful size tolerance channel)
    (stored : d.batch.Stored size) (ticks : ∀ x ∈ d.batch.content, x.tick = none) :
    (∀ p ∈ d.sent, p.timestamp = none ∧ p.payload ≠ [] ∧ size ∣ p.payload.length) ∧
      d.batch.content.map Stamped.bytes = d.sent.flatMap fun p => wholeSamples size p.payload := by
  unfold Faithful at faithful
  unfold sent
  cases packets : d.packets with
  | none =>
    rw [packets] at faithful
    have filled : 0 < d.batch.content.length := by
      rw [stored.toWhole.length_content]
      exact stored.length_pos
    obtain ⟨x, rest, content⟩ := List.exists_cons_of_length_pos filled
    obtain ⟨s, tick⟩ := Block.tick_of_timed faithful.1 (content ▸ List.mem_cons_self)
    rw [ticks x (content ▸ List.mem_cons_self)] at tick
    contradiction
  | some packets' =>
    rw [packets] at faithful
    obtain ⟨content, _, carries⟩ := faithful
    rw [← content] at ticks ⊢
    constructor
    · intro p member
      obtain ⟨first, head, timestamp⟩ := (carries p member).timestamp_eq
      have inside := List.mem_of_head? head
      refine ⟨?_, ?_, (carries p member).dvd⟩
      · rw [timestamp]
        exact ticks first (List.mem_flatMap.mpr ⟨p, member, inside⟩)
      · intro empty
        rw [TxPacket.content, empty, wholeSamples_nil stored.pos] at inside
        contradiction
    · rw [List.map_flatMap]
      simp only [TxPacket.content, map_bytes_stamp, Option.getD_some]

end Departure

namespace Session
variable {s t : Session} {channel : UInt8}

theorem rxView_of_core
    (core : (t.rxOn channel).map RxLane.core = (s.rxOn channel).map RxLane.core) :
    t.overrunOn channel = s.overrunOn channel ∧ t.heldOn channel = s.heldOn channel := by
  have overrun (u : Session) : u.overrunOn channel =
      ((u.rxOn channel).map RxLane.core).elim 0 (·.traffic.overrun.count) := by
    rw [overrunOn]
    cases u.rxOn channel <;> rfl
  have held (u : Session) : u.heldOn channel = ((u.rxOn channel).map RxLane.core).elim []
      fun lane => lane.queue.content.map Stamped.bytes := by
    rw [heldOn]
    cases u.rxOn channel <;> rfl
  constructor
  · rw [overrun, overrun, core]
  · rw [held, held, core]

end Session

/-- What a pass does to a link in loopback. -/
theorem LiveStream.pass_chained {s : LiveStream} {format : SampleFormat} {channel : UInt8}
    {expected : Option Tick} (loops : s.link.Loops format)
    (chained : s.link.Chained format.sampleSize channel expected) (draining : Bool)
    (echoes : ∀ p ∈ (s.session.beginPass s.link.hardwareTime draining).packets,
      Link.Echoes format.sampleSize channel p) :
    (s.pass draining).1.link.Loops format ∧
      (s.pass draining).1.link.Chained format.sampleSize channel expected ∧
      (s.pass draining).1.link.carried format.sampleSize channel =
        s.link.carried format.sampleSize channel ++
          ((s.session.beginPass s.link.hardwareTime draining).packets.filter
            (·.channel == channel)).flatMap fun p => wholeSamples format.sampleSize p.payload := by
  obtain ⟨after, written, _⟩ := Link.write_working loops.working
    (s.session.beginPass s.link.hardwareTime draining).packets
  unfold pass
  dsimp only
  split
  · next nothing =>
    rw [List.isEmpty_iff.mp nothing]
    exact ⟨loops, chained, (List.append_nil _).symm⟩
  · rw [written]
    exact ⟨loops.of_wiring (Link.wiring_write written),
      Link.write_chained loops chained echoes written⟩

namespace Circuit
variable {α : Type} [HostSample α] {c : StreamConfig} {channel : UInt8} {x y : Circuit α}
  {sent got : List α}

/-- The receive lane of the channel, with all that comes on the link following what it expects. -/
def Hears (c : StreamConfig) (channel : UInt8) (x : Circuit α) : Prop :=
  ∃ lane, x.stream.session.rxOn channel = some lane ∧
    lane.queue.Sound c.linkFormat.sampleSize ∧
    x.stream.link.Chained c.linkFormat.sampleSize channel lane.expected

/-- A circuit without a tick on what the channel has to send, in which nothing that comes back
will be trimmed. -/
structure Sound (c : StreamConfig) (channel : UInt8) (x : Circuit α) : Prop where
  tx : World.TxSound c x.world
  calls : ∀ call ∈ x.waiting, call.1.channel = channel → call.1.samples =
    stamp none (call.2.map (HostSample.pack c.hostFormat c.linkFormat))
  untimed : ∀ s ∈ x.stream.session.unsent channel, s.tick = none
  loops : x.stream.link.Loops c.linkFormat
  unaligned : x.stream.session.timeline.alignedStart = none
  hears : x.Hears c channel

/-- What a step does to the samples between the two ends of the channel, as long as its receive
queue does not overrun. -/
structure Passes (c : StreamConfig) (channel : UInt8) (x y : Circuit α) (sent got : List α) :
    Prop where
  sound : y.Sound c channel
  inside_eq : y.stream.session.overrunOn channel = 0 →
    x.stream.session.overrunOn channel = 0 ∧
    ∃ taken, x.inside c.linkFormat.sampleSize channel ++
        sent.map (HostSample.pack c.hostFormat c.linkFormat) =
      taken ++ y.inside c.linkFormat.sampleSize channel ∧
      got = taken.map (HostSample.unpack c.hostFormat c.linkFormat)

omit [HostSample α] in
theorem Hears.of_lane {lane after : RxLane} (queue : lane.queue.Sound c.linkFormat.sampleSize)
    (on : x.stream.session.rxOn channel = some after) (core : after.core = lane.core)
    (chained : x.stream.link.Chained c.linkFormat.sampleSize channel lane.expected) :
    x.Hears c channel := by
  have expected := congrArg RxLane.expected core
  rw [RxLane.expected_core, RxLane.expected_core] at expected
  exact ⟨after, on, RxLane.sound_core.mp (core ▸ RxLane.sound_core.mpr queue),
    expected ▸ chained⟩

omit [HostSample α] in
theorem Hears.of_core (hears : x.Hears c channel) (link : y.stream.link = x.stream.link)
    (same : (y.stream.session.rxOn channel).map RxLane.core =
      (x.stream.session.rxOn channel).map RxLane.core) : y.Hears c channel := by
  obtain ⟨lane, found, queue, chained⟩ := hears
  rw [found, Option.map_some, Option.map_eq_some_iff] at same
  obtain ⟨after, on, core⟩ := same
  exact .of_lane queue on core (link ▸ chained)

/-- A step that only puts samples behind those that wait for transmission. -/
theorem Sound.enter (sound : x.Sound c channel) (tx : World.TxSound c y.world)
    (calls : ∀ call ∈ y.waiting, call.1.channel = channel → call.1.samples =
      stamp none (call.2.map (HostSample.pack c.hostFormat c.linkFormat)))
    (goesOn : x.stream.session.Continues y.stream.session)
    (link : y.stream.link = x.stream.link)
    (same : (y.stream.session.rxOn channel).map RxLane.core =
      (x.stream.session.rxOn channel).map RxLane.core)
    (moved : y.stream.session.unsent channel = x.stream.session.unsent channel ++
      stamp none (sent.map (HostSample.pack c.hostFormat c.linkFormat))) :
    Passes c channel x y sent [] := by
  obtain ⟨overrun, held⟩ := Session.rxView_of_core same
  constructor
  · constructor
    · exact tx
    · exact calls
    · intro s member
      rw [moved] at member
      rcases List.mem_append.mp member with old | new
      · exact sound.untimed s old
      · exact tick_of_stamp new
    · rw [link]
      exact sound.loops
    · exact goesOn.alignedStart_eq.trans sound.unaligned
    · exact sound.hears.of_core link same
  · intro intact
    refine ⟨overrun ▸ intact, [], ?_, rfl⟩
    rw [inside, inside, held, link, moved, List.map_append, map_bytes_stamp, List.nil_append]
    simp only [List.append_assoc]

/-- A step that moves no sample of the channel. -/
theorem Sound.rest (sound : x.Sound c channel) (tx : World.TxSound c y.world)
    (calls : y.waiting = x.waiting) (goesOn : x.stream.session.Continues y.stream.session)
    (link : y.stream.link = x.stream.link)
    (same : (y.stream.session.rxOn channel).map RxLane.core =
      (x.stream.session.rxOn channel).map RxLane.core)
    (unsent : y.stream.session.unsent channel = x.stream.session.unsent channel) :
    Passes c channel x y ([] : List α) [] := by
  refine sound.enter tx ?_ goesOn link same ?_
  · rw [calls]
    exact sound.calls
  · rw [unsent]
    exact (List.append_nil _).symm

/-- A transmit call on the channel lets in what it reports. -/
theorem Sound.transmit (sound : x.Sound c channel) (samples : List α) {info : TransferMeta}
    (untimed : info.useTimestamp = false) (wait : Wait) :
    Passes c channel x (x.step channel (.transmit samples info wait))
      (x.accepted channel (.transmit samples info wait)) [] := by
  let call : Event := .transmit channel samples info x.stream.link.hardwareTime wait
  have world : (x.step channel (.transmit samples info wait)).world = x.world.step call := by
    simp only [Circuit.world, step, World.step, call, List.map_append, map_fst_toList]
  obtain ⟨tx, moved⟩ := sound.tx.step call
  have config : x.stream.session.config = c := sound.tx.config_eq
  have encoded := c.encoded_untimed samples untimed
  refine sound.enter ?_ ?_ ?_ rfl ?_ ?_
  · rw [world]
    exact tx
  · intro other member on
    rcases List.mem_append.mp member with old | new
    · exact sound.calls other old on
    · obtain ⟨waits, call, rfl⟩ := Option.map_eq_some_iff.mp (Option.mem_toList.mp new)
      have left := (WaitingCall.ofTransmit?_samples call).2
      rw [config, encoded, stamp_drop, ← List.map_drop, Option.map_none] at left
      exact left
  · exact x.stream.session.transmit_continues channel samples info _ wait
  · have rx := x.stream.session.transmit_rx channel samples info x.stream.link.hardwareTime wait
    exact Session.rxOn_core (congrArg _ rx) channel
  · have content := (moved channel).content_eq
    simp only [World.accepted, call, if_true] at content
    refine Eq.trans content.symm ?_
    have there : x.world.session = x.stream.session := rfl
    rw [there, config, encoded, stamp_take, ← List.map_take]
    rfl

/-- A transmit call elsewhere is nothing to the channel. -/
theorem Sound.transmitOn {β : Type} [HostSample β] {on : UInt8} (sound : x.Sound c channel)
    (elsewhere : on ≠ channel) (samples : List β) (info : TransferMeta) (wait : Wait) :
    Passes c channel x (x.step channel (.transmitOn on samples info wait)) ([] : List α) [] := by
  let call : Event := .transmit on samples info x.stream.link.hardwareTime wait
  have world : (x.step channel (.transmitOn on samples info wait)).world = x.world.step call := by
    simp only [Circuit.world, step, World.step, call, List.map_append, map_fst_toList]
  obtain ⟨tx, moved⟩ := sound.tx.step call
  refine sound.enter ?_ ?_ ?_ rfl ?_ ?_
  · rw [world]
    exact tx
  · intro other member there
    rcases List.mem_append.mp member with old | new
    · exact sound.calls other old there
    · obtain ⟨waits, call, rfl⟩ := Option.map_eq_some_iff.mp (Option.mem_toList.mp new)
      exact absurd ((WaitingCall.ofTransmit?_samples call).1.symm.trans there) elsewhere
  · exact x.stream.session.transmit_continues on samples info _ wait
  · have rx := x.stream.session.transmit_rx on samples info x.stream.link.hardwareTime wait
    exact Session.rxOn_core (congrArg _ rx) channel
  · have content := (moved channel).content_eq
    simp only [World.accepted, call, if_neg elsewhere] at content
    exact content.symm

/-- A waiting call that wakes up lets in what its offer places. -/
theorem Sound.resume (sound : x.Sound c channel) (place : Nat) :
    Passes c channel x (x.step channel (.resume place)) (x.accepted channel (.resume place))
      [] := by
  obtain ⟨tx, moved⟩ := sound.tx.step (.resume place)
  cases found : x.waiting[place]? with
  | none =>
    simp only [step, accepted, found]
    exact sound.rest sound.tx rfl (.refl _) rfl rfl rfl
  | some entry =>
    obtain ⟨call, left⟩ := entry
    have there : x.world.waiting[place]? = some call := by
      simp [Circuit.world, found]
    have content := (moved channel).content_eq
    have goesOn := x.world.step_continues (.resume place)
    simp only [World.step, World.accepted, there] at tx content goesOn
    simp only [step, accepted, found]
    refine sound.enter ?_ ?_ goesOn rfl ?_ ?_
    · simp only [Circuit.world, List.map_set]
      exact tx
    · intro other member on
      rcases List.mem_or_eq_of_mem_set member with old | rfl
      · exact sound.calls other old on
      · have before := sound.calls _ (List.mem_of_getElem? found) on
        simp only [WaitingCall.after]
        rw [before, stamp_drop, ← List.map_drop, Option.map_none]
    · exact Session.rxOn_core (congrArg _ (x.stream.session.resume_rx call)) channel
    · refine Eq.trans content.symm ?_
      split
      · next on =>
        rw [sound.calls _ (List.mem_of_getElem? found) on, stamp_take, ← List.map_take]
        rfl
      · rfl

/-- A receive call elsewhere is nothing to the channel. -/
theorem Sound.receiveOn {β : Type} [HostSample β] {on : UInt8} (sound : x.Sound c channel)
    (elsewhere : on ≠ channel) (buffer : List β) (info : TransferMeta) (wait : Wait) :
    Passes c channel x (x.step channel (.receiveOn on buffer info wait)) ([] : List α) [] := by
  obtain ⟨tx, moved⟩ := sound.tx.step (.receive on buffer info wait)
  refine sound.rest tx rfl (x.stream.session.receive_continues on buffer info wait) rfl ?_ ?_
  · exact congrArg _ (x.stream.session.receive_elsewhere elsewhere buffer info wait)
  · exact (moved channel).content_eq.symm.trans (List.append_nil _)

theorem Sound.halt (sound : x.Sound c channel) (reason : Option Fault) :
    Passes c channel x (x.step channel (.halt reason)) ([] : List α) [] := by
  obtain ⟨tx, moved⟩ := sound.tx.step (.halt reason)
  have kept := x.stream.session.halt_kept reason
  refine sound.rest tx rfl kept.continues rfl (Session.rxOn_core kept.rx_eq channel) ?_
  exact (moved channel).content_eq.symm.trans (List.append_nil _)

/-- What happens to the link from outside is nothing to the channel. -/
theorem Sound.link {e : LinkEvent} (sound : x.Sound c channel)
    (fits : (CircuitEvent.link e : CircuitEvent α).Fits channel) :
    Passes c channel x (x.step channel (.link e)) ([] : List α) [] := by
  have kept : (LinkEvent.apply x.stream.link e).Loops c.linkFormat ∧
      (LinkEvent.apply x.stream.link e).coming channel = x.stream.link.coming channel ∧
      (LinkEvent.apply x.stream.link e).cursors = x.stream.link.cursors := by
    obtain ⟨loopback, armed, working⟩ := sound.loops
    cases e with
    | fail reason => exact fits.elim
    | inject packets =>
      refine ⟨⟨loopback, armed, working⟩, ?_, rfl⟩
      have none : packets.filter (·.channel == channel) = [] := by
        rw [List.filter_eq_nil_iff]
        intro p member
        simpa using fits p member
      rw [Link.coming, LinkEvent.apply, Link.inject, List.filter_append, none, List.append_nil]
      rfl
    | _ => exact ⟨⟨loopback, armed, working⟩, rfl, rfl⟩
  obtain ⟨loops, comes, cursors⟩ := kept
  obtain ⟨lane, found, queue, chained⟩ := sound.hears
  constructor
  · constructor
    · exact sound.tx
    · exact sound.calls
    · exact sound.untimed
    · exact loops
    · exact sound.unaligned
    · refine ⟨lane, found, queue, ?_⟩
      rw [Link.Chained, step, comes, cursors]
      exact chained
  · intro intact
    refine ⟨intact, [], ?_, rfl⟩
    rw [inside, inside, Link.carried, Link.carried, step, comes]
    simp

/-- A packet that comes back goes into the receive queue whole. -/
theorem Sound.take_in {p : RxPacket} {rest : List RxPacket} (sound : x.Sound c channel)
    (comes : x.stream.link.incoming = p :: rest) (own : p.channel = channel) :
    ∃ lane, x.stream.session.rxOn channel = some lane ∧
      let b := Block.received p.timestamp p.payload c.linkFormat.sampleSize
      x.stream.session.timeline.align b = b ∧ lane.trim b = b ∧
      lane.queue.Sound c.linkFormat.sampleSize ∧ p.payload ≠ [] ∧
      c.linkFormat.sampleSize ∣ p.payload.length ∧
      Follows c.linkFormat.sampleSize (some (p.finish c.linkFormat.sampleSize))
        (rest.filter (·.channel == channel)) (x.stream.link.cursors.get? channel) := by
  obtain ⟨lane, found, queue, chained⟩ := sound.hears
  rw [Link.Chained, Link.coming, comes, List.filter_cons_of_pos (by simp [own])] at chained
  obtain ⟨behind, filled, whole, others⟩ := chained
  refine ⟨lane, found, ?_, ?_, queue, filled, whole, others⟩
  · rw [Timeline.align_eq, sound.unaligned]
    rfl
  · rw [lane.trim_eq]
    exact Block.since_of_le behind

/-- A lane takes in, whole and behind what it holds, what has room in its queue. -/
theorem accept_bytes {size : Nat} {lane : RxLane} {p : RxPacket} (pos : 0 < size)
    (queue : lane.queue.Sound size) (filled : p.payload ≠ []) (whole : size ∣ p.payload.length)
    (trimmed : lane.trim (.received p.timestamp p.payload size) =
      .received p.timestamp p.payload size) :
    let after := (lane.accept (.received p.timestamp p.payload size)).1
    after.queue.Sound size ∧ after.expected = some (p.finish size) ∧
      (after.traffic.overrun.count = 0 → lane.traffic.overrun.count = 0 ∧
        after.queue.content.map Stamped.bytes =
          lane.queue.content.map Stamped.bytes ++ wholeSamples size p.payload) := by
  have block := Block.received_whole pos p.timestamp p.payload
  have payload := Block.received_payload whole p.timestamp
  have some : (Block.received p.timestamp p.payload size).isEmpty = false := by
    rw [Block.isEmpty, payload]
    simpa using filled
  have bytes : (Block.received p.timestamp p.payload size).content.map Stamped.bytes =
      wholeSamples size p.payload := by
    rw [Block.content, map_bytes_stamp, block.samples_eq, payload]
  have finish : (Block.received p.timestamp p.payload size).finish = p.finish size := by
    rw [Block.finish, Block.received_length pos]
    rfl
  intro after
  have accepts := RxLane.accept_spec queue (trimmed.symm ▸ block)
  obtain ⟨_, parts, _⟩ := RxLane.accept_parts queue (trimmed.symm ▸ block)
  refine ⟨accepts.queue, ?_, ?_⟩
  · rw [accepts.expected_eq, trimmed, some, if_neg Bool.false_ne_true, finish]
  · intro intact
    obtain ⟨before, room⟩ := RxLane.accept_intact queue (trimmed.symm ▸ block) intact
    rw [room, trimmed, List.nil_append] at parts
    exact ⟨before, by rw [parts, List.map_append, bytes]⟩

/-- A circuit whose receive worker has taken a packet and left the link with the rest. -/
def took (x : Circuit α) (p : RxPacket) (rest : List RxPacket) : Circuit α :=
  { x with stream := ⟨x.stream.session.accept p, { x.stream.link with incoming := rest }⟩ }

theorem Sound.took_unsent (sound : x.Sound c channel) (p : RxPacket) :
    (x.stream.session.accept p).unsent channel = x.stream.session.unsent channel :=
  ((sound.tx.step (.arrive p)).2 channel).content_eq.symm.trans (List.append_nil _)

theorem Sound.took (sound : x.Sound c channel) {p : RxPacket} {rest : List RxPacket}
    (hears : (x.took p rest).Hears c channel) : (x.took p rest).Sound c channel := by
  constructor
  · exact (sound.tx.step (.arrive p)).1
  · exact sound.calls
  · intro s member
    rw [Circuit.took, sound.took_unsent p] at member
    exact sound.untimed s member
  · exact sound.loops.of_wiring rfl
  · exact (x.stream.session.accept_continues p).alignedStart_eq.trans sound.unaligned
  · exact hears

/-- A packet of the channel goes from the link to the receive queue. -/
theorem Sound.took_own (sound : x.Sound c channel) {p : RxPacket} {rest : List RxPacket}
    (comes : x.stream.link.incoming = p :: rest) (own : p.channel = channel) :
    Passes c channel x (x.took p rest) ([] : List α) [] := by
  have config : x.stream.session.config = c := sound.tx.config_eq
  obtain ⟨lane, found, aligned, trimmed, queue, filled, whole, others⟩ := sound.take_in comes own
  obtain ⟨after, on, core⟩ := x.stream.session.accept_on found p
  rw [if_pos own, config, aligned] at core
  obtain ⟨still, expected, bytes⟩ :=
    accept_bytes c.linkFormat.sampleSize_pos queue filled whole trimmed
  have traffic := congrArg RxLane.traffic core
  have content := congrArg (·.queue.content) core
  simp only [RxLane.traffic_core, RxLane.content_core] at traffic content
  constructor
  · apply sound.took
    refine .of_lane still on core ?_
    rw [expected]
    exact others
  · intro intact
    have none : after.traffic.overrun.count = 0 := by
      simpa [Circuit.took, Session.overrunOn, on] using intact
    obtain ⟨before, grown⟩ := bytes (traffic ▸ none)
    refine ⟨by simpa [Session.overrunOn, found] using before, [], ?_, rfl⟩
    simp [inside, Circuit.took, Session.heldOn, on, found, sound.took_unsent, content, grown,
      Link.carried, Link.coming, comes, own]

theorem Sound.took_other (sound : x.Sound c channel) {p : RxPacket} {rest : List RxPacket}
    (comes : x.stream.link.incoming = p :: rest) (other : p.channel ≠ channel) :
    Passes c channel x (x.took p rest) ([] : List α) [] := by
  obtain ⟨lane, found, queue, chained⟩ := sound.hears
  obtain ⟨after, on, core⟩ := x.stream.session.accept_on found p
  rw [if_neg other] at core
  have same : ((x.stream.session.accept p).rxOn channel).map RxLane.core =
      (x.stream.session.rxOn channel).map RxLane.core := by
    rw [on, found, Option.map_some, core, Option.map_some]
  obtain ⟨overrun, held⟩ := Session.rxView_of_core same
  have left : ({ x.stream.link with incoming := rest } : Link).coming channel =
      x.stream.link.coming channel := by
    simp [Link.coming, comes, other]
  constructor
  · apply sound.took
    refine .of_lane queue on core ?_
    rw [Link.Chained, Circuit.took, left]
    exact chained
  · intro intact
    refine ⟨overrun ▸ intact, [], ?_, rfl⟩
    simp [inside, Circuit.took, held, sound.took_unsent, Link.carried, left]

/-- The receive worker takes a packet, of the channel or of another one. -/
theorem Sound.read (sound : x.Sound c channel) :
    Passes c channel x (x.step channel .read) ([] : List α) [] := by
  have working : x.stream.link.fault? = none := by
    rw [Link.fault?, sound.loops.working]
    rfl
  cases comes : x.stream.link.incoming with
  | nil =>
    have idle : x.step channel .read = x := by
      simp [step, LiveStream.readOnce, Link.read, working, comes]
    rw [idle]
    exact sound.rest sound.tx rfl (.refl _) rfl rfl rfl
  | cons p rest =>
    have reads : x.step channel .read = x.took p rest := by
      simp [step, LiveStream.readOnce, Link.read, working, comes, Circuit.took]
    rw [reads]
    by_cases own : p.channel = channel
    · exact sound.took_own comes own
    · exact sound.took_other comes own

/-- The packets that the transmit worker takes out for the channel are the untimed samples that
it no longer has. -/
theorem Sound.sends (sound : x.Sound c channel) (draining : Bool) :
    let s := x.stream.session
    let packets := (s.beginPass x.stream.link.hardwareTime draining).packets
    (∀ p ∈ packets, Link.Echoes c.linkFormat.sampleSize channel p) ∧
      (s.unsent channel).map Stamped.bytes =
        ((packets.filter (·.channel == channel)).flatMap
          fun p => wholeSamples c.linkFormat.sampleSize p.payload) ++
          ((x.stream.pass draining).1.session.unsent channel).map Stamped.bytes ∧
      ∀ s ∈ (x.stream.pass draining).1.session.unsent channel, s.tick = none := by
  intro s packets
  have config : s.config = c := sound.tx.config_eq
  have session : s.TxSound := sound.tx.session
  obtain ⟨_, passed⟩ := session.pass x.stream.link.hardwareTime draining
    (x.stream.answer draining)
  obtain ⟨moved, written, faithful⟩ := passed channel
  rw [config] at faithful
  rw [← x.stream.pass_session draining] at moved
  have content := moved.content_eq
  rw [List.append_nil] at content
  have untimed : ∀ stamped ∈ s.unsent channel, stamped.tick = none := sound.untimed
  rw [content] at untimed
  have departs (d) (member : d ∈ s.departed x.stream.link.hardwareTime draining channel) :=
    (faithful d member).2.2.untimed (faithful d member).2.1 fun stamped inside =>
      untimed stamped (List.mem_append_left _ (List.mem_flatMap.mpr ⟨d, member, inside⟩))
  refine ⟨?_, ?_, ?_⟩
  · intro p member own
    have sent : p ∈ packets.filter (·.channel == channel) := by
      simpa [own] using member
    rw [written] at sent
    obtain ⟨d, departed, inside⟩ := List.mem_flatMap.mp sent
    exact (departs d departed).1 p inside
  · rw [content, List.map_append, List.map_flatMap, written, List.flatMap_assoc]
    congr 1
    apply List.flatMap_congr
    intro d member
    exact (departs d member).2
  · intro stamped member
    exact untimed stamped (List.mem_append_right _ member)

/-- The transmit worker makes a pass, and the link brings what is sent behind what is on its
way already. -/
theorem Sound.send (sound : x.Sound c channel) (draining : Bool) :
    Passes c channel x (x.step channel (.send draining)) ([] : List α) [] := by
  have passes : (x.step channel (.send draining)).stream = (x.stream.pass draining).1 := rfl
  have session := x.stream.pass_session draining
  obtain ⟨tx, _⟩ := sound.tx.step (x.stream.passEvent draining)
  obtain ⟨echoes, sent, untimed⟩ := sound.sends draining
  obtain ⟨lane, found, queue, chained⟩ := sound.hears
  obtain ⟨loops, chained, carried⟩ :=
    LiveStream.pass_chained sound.loops chained draining echoes
  have rx := x.stream.session.pass_rx x.stream.link.hardwareTime draining (x.stream.answer draining)
  have goesOn := x.stream.session.pass_continues x.stream.link.hardwareTime draining
    (x.stream.answer draining)
  rw [← session] at rx goesOn
  have same := Session.rxOn_core rx channel
  obtain ⟨overrun, held⟩ := Session.rxView_of_core same
  constructor
  · constructor
    · rw [Circuit.world, passes, session]
      exact tx
    · exact sound.calls
    · exact untimed
    · exact loops
    · exact goesOn.alignedStart_eq.trans sound.unaligned
    · obtain ⟨after, on, core⟩ := Session.rxOn_of_core rx found
      exact .of_lane queue on core chained
  · intro intact
    rw [passes] at intact
    refine ⟨overrun ▸ intact, [], ?_, rfl⟩
    rw [inside, inside, passes, held, carried, sent]
    simp

/-- A plain receive call hands out what is at the front of what is inside. -/
theorem Sound.receive (sound : x.Sound c channel) (buffer : List α) {info : TransferMeta}
    (untimed : info.useTimestamp = false) (wait : Wait) :
    Passes c channel x (x.step channel (.receive buffer info wait)) ([] : List α)
      (x.received channel (.receive buffer info wait)) := by
  have config : x.stream.session.config = c := sound.tx.config_eq
  have goesOn := x.stream.session.receive_continues channel buffer info wait
  obtain ⟨tx, moved⟩ := sound.tx.step (.receive channel buffer info wait)
  have unsent : (x.step channel (.receive buffer info wait)).stream.session.unsent channel =
      x.stream.session.unsent channel :=
    (moved channel).content_eq.symm.trans (List.append_nil _)
  obtain ⟨lane, found, queue, chained⟩ := sound.hears
  obtain ⟨after, taken, on, hands⟩ :=
    Session.receive_plain found (config.symm ▸ queue) untimed buffer wait
  have handed := hands.samples_eq
  rw [config] at handed
  constructor
  · constructor
    · exact tx
    · exact sound.calls
    · rw [unsent]
      exact sound.untimed
    · exact sound.loops
    · exact goesOn.alignedStart_eq.trans sound.unaligned
    · exact ⟨after, on, config ▸ hands.queue, hands.expected_eq ▸ chained⟩
  · intro intact
    have none : after.traffic.overrun.count = 0 := by
      simpa [step, withSession, Session.overrunOn, on] using intact
    refine ⟨?_, taken.map Stamped.bytes, ?_, handed⟩
    · rw [Session.overrunOn, found, Option.elim_some, ← hands.overrun_eq]
      exact none
    · rw [inside, inside, unsent]
      simp [step, withSession, Session.heldOn, found, on, hands.content_eq]

/-- What a step does to the samples that are inside. -/
theorem Sound.step (sound : x.Sound c channel) {e : CircuitEvent α} (fits : e.Fits channel) :
    Passes c channel x (x.step channel e) (x.accepted channel e) (x.received channel e) := by
  cases e with
  | transmit samples info wait => exact sound.transmit samples fits wait
  | receive buffer info wait => exact sound.receive buffer fits wait
  | transmitOn on samples info wait => exact sound.transmitOn fits samples info wait
  | receiveOn on buffer info wait => exact sound.receiveOn fits buffer info wait
  | resume place => exact sound.resume place
  | read => exact sound.read
  | send draining => exact sound.send draining
  | link e => exact sound.link fits
  | halt reason => exact sound.halt reason

end Circuit

end RadioStream
