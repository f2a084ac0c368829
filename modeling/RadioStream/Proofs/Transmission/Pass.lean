import RadioStream.Proofs.Session.Lanes
import RadioStream.Proofs.Transmission.Packets

/-!
What one transmit pass does to a lane: a batch may enter the hand from the queue, and the
batch in hand may leave it, as packets of the write or dropped as late. Between them
these departures account for all samples of the lane, and for all packets of the write.
-/
namespace RadioStream

/-- A batch that left the worker's hand in a pass. -/
structure Departure where
  batch : Block
  now : Tick
  /-- What it was cut into for the write; none when it was dropped. -/
  packets : Option (List TxPacket)

namespace Departure

def isDropped (d : Departure) : Bool := d.packets.isNone

def sent (d : Departure) : List TxPacket := d.packets.getD []

/-- A departure as it should be: either packets that hold the samples of the batch, in time, or
a timed batch whose first tick is out of tolerance. -/
def Faithful (size tolerance : Nat) (channel : UInt8) (d : Departure) : Prop :=
  match d.packets with
  | some packets =>
    packets.flatMap (TxPacket.content size) = d.batch.content ∧
      (d.batch.timed = true → d.now ≤ d.batch.start.later tolerance) ∧
      ∀ p ∈ packets, p.Carries size channel
  | none => d.batch.timed = true ∧ d.batch.start.later tolerance < d.now

end Departure

namespace TxLane
variable {size : Nat} {l : TxLane}

/-- The batch that left the hand between a lane before and after departures. -/
def departure? (before : TxLane) (now : Tick) (after : TxLane × Option Shipment) :
    Option Departure :=
  match before.held, after.2 with
  | some b, some shipment => some ⟨b, now, some shipment.packets⟩
  | some b, none => if after.1.held.isNone then some ⟨b, now, none⟩ else none
  | none, _ => none

theorem pickUp_channel (l : TxLane) (batch : Nat) (draining : Bool) (due : Tick → Bool) :
    (l.pickUp batch draining due).channel = l.channel := by
  rw [pickUp]
  split
  · rfl
  · split <;> rfl

theorem pickUp_traffic (l : TxLane) (batch : Nat) (draining : Bool) (due : Tick → Bool) :
    (l.pickUp batch draining due).traffic = l.traffic := by
  rw [pickUp]
  split
  · rfl
  · split <;> rfl

/-- Taking a batch into the hand moves samples from the queue and keeps their order. -/
theorem Sound.pickUp (sound : l.Sound size) {batch : Nat} (room : 0 < batch) (draining : Bool)
    (due : Tick → Bool) : (l.pickUp batch draining due).Sound size ∧
      (l.pickUp batch draining due).content = l.content := by
  rw [TxLane.pickUp]
  split
  · exact ⟨sound, rfl⟩
  · next empty =>
    split
    · next run queue ready =>
      have chosen := ChannelQueue.takeRun?_of_takeReady? ready
      have taken := sound.queue.takeRun? chosen
      refine ⟨⟨taken.sound, ?_⟩, ?_⟩
      · rintro b ⟨rfl⟩
        exact ⟨taken.whole, sound.queue.takeRun?_nonempty room chosen⟩
      · simp only [content, empty, Option.elim, List.nil_append, taken.content_eq]
    · exact ⟨sound, rfl⟩

/-- All that a departure can be: nothing leaves, a late batch is dropped, or a batch goes out. -/
theorem depart_cases (l : TxLane) (gate : Option Tick) (late : Tick → Bool) (packetSamples : Nat) :
    (l.leaves gate = false ∧ l.depart gate late packetSamples = (l, none)) ∨
    (∃ b, l.held = some b ∧ l.leaves gate = true ∧ b.timed = true ∧ late b.start = true ∧
      l.depart gate late packetSamples =
        ({ l with held := none, traffic := l.traffic.countLate }, none)) ∨
    (∃ b, l.held = some b ∧ l.leaves gate = true ∧ (b.timed && late b.start) = false ∧
      l.depart gate late packetSamples =
        ({ l with held := none, tail := if b.timed && !b.flush then some b.finish else none },
          some ⟨b.timed, b.packetize l.channel packetSamples⟩)) := by
  cases held : l.held with
  | none =>
    refine .inl ⟨?_, ?_⟩
    · simp only [leaves, held]
    · simp only [depart, held]
  | some b =>
    cases leaving : l.leaves gate with
    | false => exact .inl ⟨rfl, by simp only [depart, held, leaving, Bool.not_false, if_true]⟩
    | true =>
      cases dropping : b.timed && late b.start with
      | false =>
        refine .inr (.inr ⟨b, rfl, rfl, dropping, ?_⟩)
        simp only [depart, held, leaving, dropping, Bool.not_true, Bool.false_eq_true, if_false]
      | true =>
        obtain ⟨timed, isLate⟩ := Bool.and_eq_true_iff.mp dropping
        refine .inr (.inl ⟨b, rfl, rfl, timed, isLate, ?_⟩)
        simp only [depart, held, leaving, dropping, Bool.not_true, Bool.false_eq_true, if_false,
          if_true]

theorem depart_channel (l : TxLane) (gate : Option Tick) (late : Tick → Bool)
    (packetSamples : Nat) : (l.depart gate late packetSamples).1.channel = l.channel := by
  rcases l.depart_cases gate late packetSamples with
    ⟨_, departs⟩ | ⟨_, _, _, _, _, departs⟩ | ⟨_, _, _, _, departs⟩ <;> rw [departs]

theorem departure?_now {before : TxLane} {now : Tick} {after : TxLane × Option Shipment}
    {d : Departure} (left : d ∈ before.departure? now after) : d.now = now := by
  unfold departure? at left
  split at left
  · exact congrArg Departure.now (Option.some.inj left).symm
  · split at left
    · exact congrArg Departure.now (Option.some.inj left).symm
    · contradiction
  · contradiction

/-- What a departure takes from a lane and what it says about it. -/
structure Departs (size : Nat) (l after : TxLane) (departure : Option Departure)
    (shipment : Option Shipment) (late : Tick → Bool) : Prop where
  channel_eq : after.channel = l.channel
  sound : after.Sound size
  stored : ∀ d ∈ departure, d.batch.Stored size
  content_eq : l.content = departure.toList.flatMap (·.batch.content) ++ after.content
  sent_eq : departure.toList.flatMap Departure.sent = shipment.elim [] Shipment.packets
  late_eq : after.traffic.late.count =
    min (l.traffic.late.count + departure.toList.countP Departure.isDropped) 0xffffffff
  written : ∀ d ∈ departure, ∀ packets ∈ d.packets,
    packets.flatMap (TxPacket.content size) = d.batch.content ∧
      ∀ p ∈ packets, p.Carries size l.channel
  inTime : ∀ d ∈ departure, ∀ packets ∈ d.packets, (d.batch.timed && late d.batch.start) = false
  dropped : ∀ d ∈ departure, d.packets = none → d.batch.timed = true ∧ late d.batch.start = true

theorem Sound.depart (sound : l.Sound size) (gate : Option Tick) (late : Tick → Bool)
    (packetSamples : Nat) (now : Tick) :
    Departs size l (l.depart gate late packetSamples).1
      (l.departure? now (l.depart gate late packetSamples))
      (l.depart gate late packetSamples).2 late := by
  have counted := l.traffic.late.le_limit
  rcases l.depart_cases gate late packetSamples with ⟨stays, departs⟩ |
    ⟨b, held, leaves, timed, isLate, departs⟩ | ⟨b, held, leaves, inTime, departs⟩
  · have nothing : l.departure? now (l, none) = none := by
      cases held : l.held <;> simp [departure?, held]
    rw [departs, nothing]
    exact ⟨rfl, sound, by simp, rfl, rfl, (Nat.min_eq_left counted).symm, by simp, by simp,
      by simp⟩
  · have leaving : l.departure? now (l.depart gate late packetSamples) = some ⟨b, now, none⟩ := by
      rw [departs]
      simp only [departure?, held, Option.isNone_none, if_true]
    rw [leaving, departs]
    refine ⟨rfl, ⟨sound.queue, by simp⟩, ?_, ?_, rfl, rfl, by simp, by simp, ?_⟩
    · rintro d ⟨rfl⟩
      exact sound.held b held
    · simp [content, held]
    · rintro d ⟨rfl⟩ _
      exact ⟨timed, isLate⟩
  · have leaving : l.departure? now (l.depart gate late packetSamples) =
        some ⟨b, now, some (b.packetize l.channel packetSamples)⟩ := by
      rw [departs]
      simp only [departure?, held]
    have stored := sound.held b held
    rw [leaving, departs]
    refine ⟨rfl, ⟨sound.queue, by simp⟩, ?_, ?_, ?_, (Nat.min_eq_left counted).symm, ?_, ?_,
      by simp⟩
    · rintro d ⟨rfl⟩
      exact stored
    · simp [content, held]
    · simp [Departure.sent]
    · rintro d ⟨rfl⟩ packets ⟨rfl⟩
      exact ⟨stored.content_packetize l.channel packetSamples,
        fun p member => stored.packetize_carries member⟩
    · rintro d ⟨rfl⟩ _ _
      exact inTime

theorem Departs.of_core {before after after' : TxLane} {departure : Option Departure}
    {shipment : Option Shipment} {late : Tick → Bool}
    (departs : Departs size l after departure shipment late) (same : after'.core = after.core)
    (held : before.content = l.content) (channel : before.channel = l.channel)
    (counted : before.traffic = l.traffic) :
    Departs size before after' departure shipment late := by
  have content := congrArg TxLane.content same
  have late := congrArg (·.traffic.late) same
  have on := congrArg TxLane.channel same
  simp only [content_core, late_core, channel_core] at content late on
  refine ⟨?_, sound_core.mp (same ▸ sound_core.mpr departs.sound), departs.stored, ?_,
    departs.sent_eq, ?_, ?_, departs.inTime, departs.dropped⟩
  · rw [on, departs.channel_eq, channel]
  · rw [held, departs.content_eq, content]
  · rw [late, departs.late_eq, counted]
  · rw [channel]
    exact departs.written

theorem Departs.faithful {after : TxLane} {departure : Option Departure}
    {shipment : Option Shipment} {timeline : Timeline} {now : Tick}
    (departs : Departs size l after departure shipment (timeline.isLate · now)) {d : Departure}
    (left : d ∈ departure) (time : d.now = now) :
    d.Faithful size timeline.tolerance l.channel := by
  rw [Departure.Faithful]
  split
  · next packets sent =>
    obtain ⟨content, carries⟩ := departs.written d left packets sent
    have inTime := departs.inTime d left packets sent
    refine ⟨content, ?_, carries⟩
    intro timed
    rw [timed, Bool.true_and, Timeline.isLate, decide_eq_false_iff_not, Tick.lt_def] at inTime
    rw [time, Tick.le_def]
    omega
  · next dropped =>
    obtain ⟨timed, late⟩ := departs.dropped d left dropped
    exact ⟨timed, time ▸ of_decide_eq_true late⟩

@[simp] theorem core_settleTail (l : TxLane) (now : Tick) : (l.settleTail now).core = l.core := by
  rw [settleTail]
  split
  · split <;> rfl
  · rfl

theorem queue_settleTail (l : TxLane) (now : Tick) : (l.settleTail now).queue = l.queue := by
  rw [settleTail]
  split
  · split <;> rfl
  · rfl

end TxLane

namespace TxPass

theorem counted_core (p : TxPass) : p.counted.map TxLane.core = p.kept.map TxLane.core := by
  simp only [counted, kept, List.map_map]
  apply List.map_congr_left
  intro lane _
  rcases lane with ⟨lane, shipment⟩
  cases shipment <;> rfl

theorem counted_stopped {p : TxPass} (stopped : ∀ l ∈ p.kept, l.queue.stopped = true) :
    ∀ l ∈ p.counted, l.queue.stopped = true := by
  intro l member
  obtain ⟨⟨lane, shipment⟩, there, rfl⟩ := List.mem_map.mp member
  have stopped := stopped lane (List.mem_map_of_mem there)
  cases shipment <;> exact stopped

/-- A shipment is in the write wherever it stands in the order of lanes. -/
theorem mem_shipments {p : TxPass} {x : TxLane × Shipment} :
    x ∈ p.shipments ↔ (x.1, some x.2) ∈ p.lanes := by
  have either : (!x.2.timed) = true ∨ x.2.timed = true := by cases x.2.timed <;> simp
  simp only [shipments, List.mem_append, List.mem_filter, ← and_or_left, either, and_true]
  rw [List.mem_filterMap]
  constructor
  · rintro ⟨⟨lane, shipment⟩, there, pair⟩
    obtain ⟨s, rfl, rfl⟩ := Option.map_eq_some_iff.mp pair
    exact there
  · intro there
    exact ⟨_, there, rfl⟩

theorem shipments_on (p : TxPass) (channel : UInt8) :
    p.shipments.filter (·.1.channel == channel) =
      let all := (p.lanes.filter (·.1.channel == channel)).filterMap fun (lane, shipment) =>
        shipment.map fun s => (lane, s)
      all.filter (!·.2.timed) ++ all.filter (·.2.timed) := by
  have commute : (p.lanes.filterMap fun (lane, shipment) => shipment.map fun s => (lane, s)).filter
      (·.1.channel == channel) = (p.lanes.filter (·.1.channel == channel)).filterMap
        fun (lane, shipment) => shipment.map fun s => (lane, s) := by
    rw [List.filter_filterMap, List.filterMap_filter]
    congr 1
    funext x
    rcases x with ⟨lane, shipment⟩
    cases shipment <;> simp [Option.filter]
  rw [shipments]
  dsimp only
  rw [List.filter_append, List.filter_filter, List.filter_filter, ← commute, List.filter_filter,
    List.filter_filter]
  simp only [Bool.and_comm]

/-- The rest of a pass changes lanes only in what it counts and stops. -/
theorem finish_kept (p : TxPass) (outcome : Option (Except Fault Unit)) :
    Session.Kept { p.session with tx := p.kept } (p.finish outcome) := by
  have settled (s : Session) :
      Session.Kept s { s with tx := s.tx.map fun lane => lane.settleTail p.now } := by
    refine ⟨rfl, rfl, by simp only [List.map_map, Function.comp_def, TxLane.core_settleTail], rfl,
      fun closed halted l member => ?_, fun halted => ⟨halted, rfl⟩⟩
    obtain ⟨old, there, rfl⟩ := List.mem_map.mp member
    rw [TxLane.queue_settleTail]
    exact closed halted old there
  have reported (shipments : List (TxLane × Shipment)) (s : Session) :
      Session.Kept s (shipments.foldl (fun s x =>
        s.report ((x.1.shipped x.2).snapshot s.timeline.current)) s) := by
    induction shipments generalizing s with
    | nil => exact .refl s
    | cons first rest ih => exact (Session.report_kept s _).trans (ih _)
  cases outcome with
  | none => exact settled { p.session with tx := p.kept }
  | some answer =>
    cases answer with
    | error reason =>
      have leaves : Session.Kept { p.session with tx := p.kept }
          { p.session with tx := p.kept, senderGone := true } :=
        ⟨rfl, rfl, rfl, rfl, id, fun halted => ⟨halted, rfl⟩⟩
      exact leaves.trans (Session.halt_kept _ (some reason))
    | ok _ =>
      have counts : Session.Kept { p.session with tx := p.kept }
          { p.session with tx := p.counted } :=
        ⟨rfl, rfl, p.counted_core, rfl, fun closed halted => counted_stopped (closed halted),
          fun halted => ⟨halted, rfl⟩⟩
      exact counts.trans ((reported p.shipments _).trans (settled _))

end TxPass

namespace Session
variable {size : Nat} {s : Session} {reading : Except Fault Tick} {draining : Bool}
  {channel : UInt8}

def passGate (s : Session) (reading : Except Fault Tick) (draining : Bool) : Option Tick :=
  gate (s.timeline.now reading).1 (s.timeline.now reading).2 draining (s.loaded reading draining)

/-- The batches of a channel that leave the hand in a pass. -/
def departed (s : Session) (reading : Except Fault Tick) (draining : Bool) (channel : UInt8) :
    List Departure :=
  let p := s.beginPass reading draining
  match (s.loaded reading draining).find? (·.channel == channel),
      p.lanes.find? (·.1.channel == channel) with
  | some before, some after => (before.departure? p.now after).toList
  | _, _ => []

theorem loaded_on (s : Session) (reading : Except Fault Tick) (draining : Bool)
    (channel : UInt8) : (s.loaded reading draining).find? (·.channel == channel) =
      (s.txOn channel).map (·.pickUp s.config.txBatch draining
        ((s.timeline.now reading).2.isDue · (s.timeline.now reading).1)) := by
  have same : (fun l : TxLane => l.channel == channel) ∘ (fun l : TxLane =>
      l.pickUp s.config.txBatch draining
        ((s.timeline.now reading).2.isDue · (s.timeline.now reading).1)) =
      fun l : TxLane => l.channel == channel := by
    funext l
    simp only [Function.comp, TxLane.pickUp_channel]
  rw [loaded, txOn, List.find?_map, same]

theorem beginPass_lanes (s : Session) (reading : Except Fault Tick) (draining : Bool) :
    (s.beginPass reading draining).lanes = (s.loaded reading draining).map fun l =>
      l.depart (s.passGate reading draining)
        ((s.timeline.now reading).2.isLate · (s.timeline.now reading).1) s.config.txPacket := rfl

theorem lanes_on (s : Session) (reading : Except Fault Tick) (draining : Bool)
    (channel : UInt8) : (s.beginPass reading draining).lanes.find? (·.1.channel == channel) =
      ((s.loaded reading draining).find? (·.channel == channel)).map fun l =>
        l.depart (s.passGate reading draining)
          ((s.timeline.now reading).2.isLate · (s.timeline.now reading).1) s.config.txPacket := by
  have same : (fun x : TxLane × Option Shipment => x.1.channel == channel) ∘ (fun l : TxLane =>
      l.depart (s.passGate reading draining)
        ((s.timeline.now reading).2.isLate · (s.timeline.now reading).1) s.config.txPacket) =
      fun l : TxLane => l.channel == channel := by
    funext l
    simp only [Function.comp, TxLane.depart_channel]
  rw [beginPass_lanes, List.find?_map, same]

theorem pass_core (s : Session) (reading : Except Fault Tick) (draining : Bool)
    (answer : Except Fault Unit) (channel : UInt8) :
    ((s.pass reading draining answer).txOn channel).map TxLane.core =
      ((s.beginPass reading draining).lanes.find? (·.1.channel == channel)).map (·.1.core) := by
  have kept := txOn_core (TxPass.finish_kept (s.beginPass reading draining)
    (if (s.beginPass reading draining).packets.isEmpty then none else some answer)).tx_eq channel
  rw [pass, kept, txOn, TxPass.kept, List.find?_map, Option.map_map]
  rfl

theorem pass_absent (absent : s.txOn channel = none) (reading : Except Fault Tick)
    (draining : Bool) (answer : Except Fault Unit) :
    (s.pass reading draining answer).txOn channel = none ∧
      s.departed reading draining channel = [] ∧
      (s.beginPass reading draining).lanes.find? (·.1.channel == channel) = none := by
  have loaded := s.loaded_on reading draining channel
  have lanes := s.lanes_on reading draining channel
  have core := s.pass_core reading draining answer channel
  rw [absent, Option.map_none] at loaded
  rw [loaded, Option.map_none] at lanes
  rw [lanes, Option.map_none, Option.map_eq_none_iff] at core
  refine ⟨core, ?_, lanes⟩
  simp only [departed, loaded]

theorem pass_departs {l : TxLane} (found : s.txOn channel = some l) (sound : l.Sound size)
    (reading : Except Fault Tick) (draining : Bool) (answer : Except Fault Unit) :
    ∃ after departure shipment,
      (s.pass reading draining answer).txOn channel = some after ∧
      s.departed reading draining channel = departure.toList ∧
      (∀ d ∈ departure, d.now = (s.timeline.now reading).1) ∧
      ((s.beginPass reading draining).lanes.find? (·.1.channel == channel)).bind (·.2) =
        shipment ∧
      TxLane.Departs size l after departure shipment
        ((s.timeline.now reading).2.isLate · (s.timeline.now reading).1) := by
  have loaded := s.loaded_on reading draining channel
  have lanes := s.lanes_on reading draining channel
  have core := s.pass_core reading draining answer channel
  rw [found, Option.map_some] at loaded
  rw [loaded, Option.map_some] at lanes
  rw [lanes, Option.map_some, Option.map_eq_some_iff] at core
  obtain ⟨after, on, same⟩ := core
  have picked := sound.pickUp s.config.txBatch_pos draining
    ((s.timeline.now reading).2.isDue · (s.timeline.now reading).1)
  refine ⟨after, _, _, on, ?_, ?_, by rw [lanes]; rfl, TxLane.Departs.of_core
    (picked.1.depart _ _ _ (s.timeline.now reading).1) same picked.2.symm
    (TxLane.pickUp_channel ..).symm (TxLane.pickUp_traffic ..).symm⟩
  · simp only [departed, loaded, lanes]
    rfl
  · intro d member
    exact TxLane.departure?_now member

theorem lanes_channels (s : Session) (reading : Except Fault Tick) (draining : Bool) :
    (s.beginPass reading draining).lanes.map (·.1.channel) = s.tx.map (·.channel) := by
  rw [beginPass_lanes, loaded]
  simp only [List.map_map, Function.comp_def, TxLane.depart_channel, TxLane.pickUp_channel]

theorem shipment_channel {x : TxLane × Option Shipment}
    (member : x ∈ (s.beginPass reading draining).lanes) {shipment : Shipment}
    (ships : x.2 = some shipment) : ∀ p ∈ shipment.packets, p.channel = x.1.channel := by
  rw [beginPass_lanes, List.mem_map] at member
  obtain ⟨l, _, rfl⟩ := member
  rcases l.depart_cases (s.passGate reading draining)
    ((s.timeline.now reading).2.isLate · (s.timeline.now reading).1) s.config.txPacket with
    ⟨_, departs⟩ | ⟨_, _, _, _, _, departs⟩ | ⟨_, _, _, _, departs⟩ <;>
    rw [departs] at ships ⊢
  · contradiction
  · contradiction
  · obtain rfl := Option.some.inj ships
    intro p inside
    exact Block.packetize_channel inside

/-- A pass ships at most one batch of a channel. -/
theorem shipments_single (distinct : (s.tx.map (·.channel)).Nodup) (channel : UInt8) :
    (s.beginPass reading draining).shipments.filter (·.1.channel == channel) =
      (((s.beginPass reading draining).lanes.find? (·.1.channel == channel)).bind fun x =>
        x.2.map fun shipment => (x.1, shipment)).toList := by
  rw [TxPass.shipments_on, filter_eq_find? (s.lanes_channels reading draining ▸ distinct) channel]
  cases (s.beginPass reading draining).lanes.find? (·.1.channel == channel) with
  | none => rfl
  | some found =>
    rcases found with ⟨lane, _ | shipment⟩
    · rfl
    · cases timed : shipment.timed <;> simp [timed]

/-- The packets of a write for one channel are those of its departures. -/
theorem packets_on (distinct : (s.tx.map (·.channel)).Nodup) (channel : UInt8) :
    (s.beginPass reading draining).packets.filter (·.channel == channel) =
      (((s.beginPass reading draining).lanes.find? (·.1.channel == channel)).bind (·.2)).elim []
        Shipment.packets := by
  have shipped : ∀ x ∈ (s.beginPass reading draining).shipments, ∀ p ∈ x.2.packets,
      (p.channel == channel) = (x.1.channel == channel) := by
    intro x member p inside
    rw [shipment_channel (TxPass.mem_shipments.mp member) rfl p inside]
  rw [TxPass.packets, filter_flatMap_of_key shipped, shipments_single distinct]
  cases (s.beginPass reading draining).lanes.find? (·.1.channel == channel) with
  | none => rfl
  | some found =>
    rcases found with ⟨lane, _ | shipment⟩
    · rfl
    · exact List.append_nil _

end Session
end RadioStream
