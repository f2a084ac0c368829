import RadioStream.Proofs.Queue.Removal
import RadioStream.Proofs.Session.Accounts

/-!
What is in a write. A pass hands the link its packets channel by channel, and those of a channel
are one batch, cut into packets of the configured size. A batch in a hand is never longer than
what the configuration makes of it, so it takes no more packets than a batch may have.
-/
namespace RadioStream

namespace Block
variable {c : StreamConfig} {channel : UInt8} {b : Block}

/-- Packets as a batch of a channel should be cut into them. -/
structure CutInto (c : StreamConfig) (channel : UInt8) (b : Block) (packets : List TxPacket) :
    Prop where
  nonempty : packets ≠ []
  few : packets.length ≤ c.packets .tx
  payload_eq : packets.flatMap (·.payload) = b.payload
  channel_eq : ∀ p ∈ packets, p.channel = channel
  whole : ∀ p ∈ packets, p.payload ≠ [] ∧ c.linkFormat.sampleSize ∣ p.payload.length
  length_le : ∀ p ∈ packets, p.payload.length ≤ c.packet .tx * c.linkFormat.sampleSize
  full : ∀ i p, packets[i]? = some p → i + 1 < packets.length →
    p.payload.length = c.packet .tx * c.linkFormat.sampleSize
  untimed : b.timed = false → ∀ p ∈ packets, p.timestamp = none
  timed : b.timed = true → ∀ i p, packets[i]? = some p → ∃ t, p.timestamp = some t ∧
    t.toInt = min (b.start.toInt + (i * c.packet .tx : Nat)) 0x7fffffffffffffff
  flush_iff : ∀ i p, packets[i]? = some p →
    (p.flush = true ↔ b.flush = true ∧ i + 1 = packets.length)

theorem packetize_getElem? {packetSamples i : Nat} {p : TxPacket}
    (there : (b.packetize channel packetSamples)[i]? = some p) :
    ∃ part, (pieces (max packetSamples 1 * b.sampleSize) b.payload)[i]? = some part ∧
      p = {
        channel := channel
        timestamp := if b.timed then some (b.start.later (i * max packetSamples 1)) else none
        flush := b.flush && i + 1 = (b.packetize channel packetSamples).length
        payload := part } := by
  rw [packetize, List.getElem?_mapIdx, Option.map_eq_some_iff] at there
  obtain ⟨part, piece, rfl⟩ := there
  refine ⟨part, piece, ?_⟩
  rw [packetize, List.length_mapIdx]

theorem packetize_payloads (b : Block) (channel : UInt8) (packetSamples : Nat) :
    (b.packetize channel packetSamples).map (·.payload) =
      pieces (max packetSamples 1 * b.sampleSize) b.payload := by
  simp [packetize, List.mapIdx_eq_zipIdx_map, Function.comp_def]

/-- A batch that is no longer than batches may be is cut as it should be. -/
theorem Stored.cutInto (stored : b.Stored c.linkFormat.sampleSize) (short : b.length ≤ c.txBatch)
    (channel : UInt8) : b.CutInto c channel (b.packetize channel c.txPacket) := by
  have positive : max c.txPacket 1 = c.packet .tx := by
    rw [c.txPacket_eq]
    exact Nat.max_eq_left (c.packet_pos .tx)
  have count : 0 < c.packet .tx * c.linkFormat.sampleSize :=
    Nat.mul_pos (c.packet_pos .tx) stored.pos
  have payloads := b.packetize_payloads channel c.txPacket
  rw [positive, stored.sampleSize_eq] at payloads
  have length := congrArg List.length payloads
  rw [List.length_map] at length
  have at_ (i : Nat) (p : TxPacket) (there : (b.packetize channel c.txPacket)[i]? = some p) :=
    packetize_getElem? there
  rw [positive, stored.sampleSize_eq] at at_
  have fits : b.payload.length ≤
      c.packets .tx * (c.packet .tx * c.linkFormat.sampleSize) := by
    rw [stored.payload_length, ← Nat.mul_assoc, Nat.mul_comm (c.packets .tx), ← c.batch_eq .tx]
    exact Nat.mul_le_mul_right _ short
  constructor
  case nonempty => exact stored.packetize_ne_nil channel c.txPacket
  case few =>
    rw [length]
    exact length_pieces_le fits
  case payload_eq => rw [List.flatMap_def, payloads, pieces_flatten count]
  case channel_eq => exact fun p => packetize_channel
  case whole =>
    intro p member
    have piece : p.payload ∈ pieces (c.packet .tx * c.linkFormat.sampleSize) b.payload :=
      payloads ▸ List.mem_map_of_mem member
    exact pieces_whole stored.dvd _ piece
  case length_le =>
    intro p member
    obtain ⟨i, there⟩ := List.getElem?_of_mem member
    obtain ⟨part, piece, rfl⟩ := at_ i p there
    exact (pieces_sized piece).1
  case full =>
    intro i p there further
    obtain ⟨part, piece, rfl⟩ := at_ i p there
    exact (pieces_sized piece).2 (length ▸ further)
  case untimed =>
    intro untimed p member
    obtain ⟨i, there⟩ := List.getElem?_of_mem member
    obtain ⟨part, piece, rfl⟩ := at_ i p there
    simp [untimed]
  case timed =>
    intro timed i p there
    obtain ⟨part, piece, rfl⟩ := at_ i p there
    exact ⟨_, if_pos timed, Tick.toInt_later _ _⟩
  case flush_iff =>
    intro i p there
    obtain ⟨part, piece, rfl⟩ := at_ i p there
    simp

end Block

namespace TxLane

/-- What is taken into the hand is no longer than batches may be. -/
theorem Sound.pickUp_length_le {size batch : Nat} {l : TxLane} (sound : l.Sound size)
    (short : ∀ b, l.held = some b → b.length ≤ batch) (draining : Bool) (due : Tick → Bool)
    {b : Block} (held : (l.pickUp batch draining due).held = some b) : b.length ≤ batch := by
  rw [TxLane.pickUp] at held
  split at held
  · exact short b held
  · split at held
    · next run queue ready =>
      obtain rfl := Option.some.inj held
      exact sound.queue.takeRun?_length (ChannelQueue.takeRun?_of_takeReady? ready)
    · exact short b held

end TxLane

/-- All transmit channels are there, and no hand holds more than a batch may have. -/
def Session.Portioned (c : StreamConfig) (s : Session) : Prop :=
  ∀ channel ∈ c.txChannels, ∃ l, s.txOn channel = some l ∧
    ∀ b, l.held = some b → b.length ≤ c.txBatch

theorem Session.portioned_of_fresh {c : StreamConfig} {s : Session}
    (fresh : s.tx = c.txChannels.map fun channel => .create channel c.capacity) :
    s.Portioned c := by
  intro channel listed
  have there : channel ∈ s.tx.map (·.channel) := by
    rw [fresh, List.map_map]
    exact List.mem_map.mpr ⟨channel, listed, rfl⟩
  obtain ⟨l, found⟩ := Session.txOn_of_mem there
  refine ⟨l, found, fun b held => ?_⟩
  have member := List.mem_of_find?_eq_some found
  rw [fresh] at member
  obtain ⟨_, _, rfl⟩ := List.mem_map.mp member
  contradiction

/-- What leaves all hands as they are leaves them short. -/
theorem Session.Portioned.rests {c : StreamConfig} {s t : Session} (portioned : s.Portioned c)
    (rest : ∀ channel l, s.txOn channel = some l →
      ∃ l', t.txOn channel = some l' ∧ l.Rests l') : t.Portioned c := by
  intro channel listed
  obtain ⟨l, found, short⟩ := portioned channel listed
  obtain ⟨l', there, rests⟩ := rest channel l found
  exact ⟨l', there, fun b held => short b (rests.held_eq ▸ held)⟩

/-- A pass may take another batch into a hand, and that one is short enough. -/
theorem Session.Portioned.pass {c : StreamConfig} {s : Session} (portioned : s.Portioned c)
    (config : s.config = c) (sound : s.TxSound) (reading : Except Fault Tick) (draining : Bool)
    (answer : Except Fault Unit) : (s.pass reading draining answer).Portioned c := by
  intro channel listed
  obtain ⟨l, found, short⟩ := portioned channel listed
  obtain ⟨l', x, there, settled, _, effect⟩ := s.pass_cases found reading draining answer
  have hand := congrArg TxLane.held settled
  simp only [TxLane.held_unstopped, TxPass.settled_held] at hand
  refine ⟨l', there, fun b held => ?_⟩
  rw [hand] at held
  rcases effect with ⟨rfl, _⟩ | ⟨_, _, rfl, _⟩ | ⟨_, _, rfl, _⟩
  · rw [config] at held
    exact (sound.lanes channel l found).pickUp_length_le short _ _ held
  · contradiction
  · contradiction

theorem World.step_portioned {c : StreamConfig} {w : World} (sound : TxSound c w)
    (portioned : w.session.Portioned c) (e : Event) : (w.step e).session.Portioned c := by
  cases e with
  | pass reading draining answer =>
    exact portioned.pass sound.config_eq sound.session reading draining answer
  | _ => exact portioned.rests fun channel l found => step_rests found (by simp)

/-- A batch of a channel with the packets it was cut into. -/
structure Parcel where
  channel : UInt8
  batch : Block
  packets : List TxPacket

/-- A write as it should be: at most one batch of each channel, and the packets of a batch side by
side. -/
structure Shaped (c : StreamConfig) (parcels : List Parcel) (write : List TxPacket) : Prop where
  write_eq : write = parcels.flatMap (·.packets)
  distinct : (parcels.map (·.channel)).Nodup
  listed : ∀ p ∈ parcels, p.channel ∈ c.txChannels
  cut : ∀ p ∈ parcels, p.batch.CutInto c p.channel p.packets

namespace TxPass

theorem shipments_distinct {p : TxPass} (distinct : (p.lanes.map (·.1.channel)).Nodup) :
    (p.shipments.map (·.1.channel)).Nodup := by
  have untimedFirst : p.shipments.Perm (p.lanes.filterMap fun x => x.2.map fun s => (x.1, s)) := by
    have parted := List.filter_append_perm (fun x : TxLane × Shipment => !x.2.timed)
      (p.lanes.filterMap fun x => x.2.map fun s => (x.1, s))
    simp only [Bool.not_not] at parted
    exact parted
  rw [(untimedFirst.map _).nodup_iff, List.Nodup, List.pairwise_map, List.pairwise_filterMap]
  refine (List.pairwise_map.mp distinct).imp fun differ a fromA b fromB => ?_
  obtain ⟨_, _, rfl⟩ := Option.map_eq_some_iff.mp fromA
  obtain ⟨_, _, rfl⟩ := Option.map_eq_some_iff.mp fromB
  exact differ

end TxPass

/-- What leaves a hand and is not dropped is shipped. -/
theorem Session.shipped_of_departed {s : Session} {reading : Except Fault Tick} {draining : Bool}
    {channel : UInt8} {d : Departure} (left : d ∈ s.departed reading draining channel)
    (written : d.isDropped = false) :
    channel ∈ (s.beginPass reading draining).shipments.map (·.1.channel) := by
  cases found : s.txOn channel with
  | none =>
    rw [(pass_absent found reading draining (.ok ())).2.1] at left
    contradiction
  | some l =>
    obtain ⟨_, x, _, _, here, effect⟩ := s.pass_cases found reading draining (.ok ())
    have inside := List.mem_of_find?_eq_some here
    have on := List.find?_some here
    rcases effect with ⟨_, none⟩ | ⟨_, _, _, dropped⟩ | ⟨b, _, rfl, _⟩
    · rw [none] at left
      contradiction
    · rw [dropped] at left
      obtain rfl := List.mem_singleton.mp left
      contradiction
    · exact List.mem_map.mpr ⟨(_, _), TxPass.mem_shipments.mpr inside, eq_of_beq on⟩

namespace World
variable {c : StreamConfig} {w : World}

/-- A step writes the batches that leave the hands in it, other than those that it drops, and these
in the shape of a write. -/
def Ships (c : StreamConfig) (w : World) (e : Event) : Prop :=
  ∃ parcels, Shaped c parcels (offered w e) ∧
    (∀ p ∈ parcels, ∃ now, departed p.channel w e = [⟨p.batch, now, some p.packets⟩]) ∧
    ∀ channel, ∀ d ∈ departed channel w e, d.isDropped = false →
      channel ∈ parcels.map (·.channel)

theorem submitted_eq {e : Event} {write : List TxPacket} (member : write ∈ w.submitted e) :
    write ≠ [] ∧ write = w.offered e := by
  cases e with
  | pass reading draining answer =>
    cases answer with
    | error reason => contradiction
    | ok _ =>
      rw [submitted] at member
      split at member
      · contradiction
      · next filled =>
        obtain rfl := List.mem_singleton.mp member
        exact ⟨fun none => filled (List.isEmpty_iff.mpr none), rfl⟩
  | _ => contradiction

/-- What a lane ships in a pass is the batch from its hand. -/
theorem Reached.shipment_cut (reached : w.Reached c) (portioned : w.session.Portioned c)
    (reading : Except Fault Tick) (draining : Bool) (answer : Except Fault Unit)
    {x : TxLane × Shipment}
    (member : x ∈ (w.session.beginPass reading draining).shipments) :
    ∃ b, departed x.1.channel w (.pass reading draining answer) =
        [⟨b, (w.session.timeline.now reading).1, some x.2.packets⟩] ∧
      x.1.channel ∈ c.txChannels ∧ b.CutInto c x.1.channel x.2.packets := by
  have inside := TxPass.mem_shipments.mp member
  have channels := w.session.lanes_channels reading draining
  have place : (w.session.beginPass reading draining).lanes.find? (·.1.channel == x.1.channel) =
      some (x.1, some x.2) := find?_of_mem (channels ▸ reached.sound.session.distinct) inside
  have listed : x.1.channel ∈ c.txChannels := by
    rw [← reached.txChannels_eq, ← channels]
    exact List.mem_map.mpr ⟨_, inside, rfl⟩
  obtain ⟨l, found, short⟩ := portioned _ listed
  obtain ⟨l', y, _, _, here, effect⟩ := w.session.pass_cases found reading draining answer
  obtain rfl := Option.some.inj (here.symm.trans place)
  have config := reached.sound.config_eq
  have sound := reached.sound.session.lanes _ l found
  rw [config] at sound
  rcases effect with ⟨none, _⟩ | ⟨_, _, none, _⟩ | ⟨b, held, ships, left⟩
  · simp at none
  · simp at none
  · rw [config] at held ships left
    have packets := congrArg (fun y => y.2.elim [] Shipment.packets) ships
    dsimp only [Option.elim_some] at packets
    rw [packets]
    have picked := (sound.pickUp (c.batch_pos .tx) _ _).1.held b held
    exact ⟨b, left, listed, picked.cutInto (sound.pickUp_length_le short _ _ held) _⟩

theorem Reached.ships (reached : w.Reached c) (portioned : w.session.Portioned c) (e : Event) :
    w.Ships c e := by
  cases e with
  | pass reading draining answer =>
    have each (x : TxLane × Shipment)
        (member : x ∈ (w.session.beginPass reading draining).shipments) :=
      reached.shipment_cut portioned reading draining answer member
    have : Nonempty Block := ⟨.received .zero [] 1⟩
    choose! batch left listed cut using each
    let parcels : List Parcel := (w.session.beginPass reading draining).shipments.map fun x =>
      ⟨x.1.channel, batch x, x.2.packets⟩
    have channels : parcels.map (·.channel) =
        (w.session.beginPass reading draining).shipments.map (·.1.channel) := List.map_map ..
    refine ⟨parcels, ⟨?_, ?_, ?_, ?_⟩, ?_, ?_⟩
    · rw [List.flatMap_map]
      rfl
    · rw [channels]
      exact TxPass.shipments_distinct
        (w.session.lanes_channels reading draining ▸ reached.sound.session.distinct)
    · exact List.forall_mem_map.mpr listed
    · exact List.forall_mem_map.mpr cut
    · exact List.forall_mem_map.mpr fun x member => ⟨_, left x member⟩
    · intro channel d gone written
      rw [channels]
      exact Session.shipped_of_departed gone written
  | _ => exact ⟨[], ⟨rfl, .nil, by simp, by simp⟩, by simp, by simp [departed]⟩

theorem run_ships {available : UInt8} (valid : c.validate available = .ok ())
    (monitor : Option Monitor) (clock : Tick) (past : List Event) (e : Event) :
    ((opened c monitor clock).run past).Ships c e := by
  have start : (opened c monitor clock).Reached c ∧
      (opened c monitor clock).session.Portioned c :=
    ⟨opened_reached valid monitor clock, Session.portioned_of_fresh rfl⟩
  have reached := run_invariant (P := fun w => w.Reached c ∧ w.session.Portioned c)
    (fun w e hold => ⟨(hold.1.step e).1, step_portioned hold.1.sound hold.2 e⟩) start past
  exact reached.1.ships reached.2 e

end World

namespace LinkedSession
variable {c : StreamConfig} {x : LinkedSession}

theorem step_portioned (reached : x.world.Reached c) (portioned : x.stream.session.Portioned c)
    (e : LinkedEvent) : (x.step e).stream.session.Portioned c := by
  by_cases running : e = .start
  · subst running
    obtain ⟨timeline, _, _, after | after⟩ := x.stream.start_cases <;> rw [step, after]
    · exact portioned
    · exact portioned.rests fun channel l found =>
        Session.rests_of_unstopped (Session.halt_unstopped _ none) found
  · rw [step_session running]
    cases x.event? e with
    | none => exact portioned
    | some event => exact World.step_portioned reached.sound portioned event

/-- A pass without packets does not write. -/
theorem pass_unwritten (s : LiveStream) (draining : Bool) :
    let write := (s.session.beginPass s.link.hardwareTime draining).packets
    ((s.pass draining).2 = .noWrite ↔ write = []) ∧
      (write = [] → (s.pass draining).1.link = s.link) := by
  intro write
  rw [LiveStream.pass]
  split
  · next none => exact ⟨iff_of_true rfl (List.isEmpty_iff.mp none), fun _ => rfl⟩
  · next some =>
    have packets : write ≠ [] := fun none => some (List.isEmpty_iff.mpr none)
    split <;> exact ⟨by simpa using packets, fun none => absurd none packets⟩

/-- What the link takes in a step is a write in shape, and not an empty one. -/
theorem submitted_shaped (reached : x.world.Reached c) (portioned : x.stream.session.Portioned c)
    (e : LinkedEvent) :
    ∀ write ∈ x.submitted e, write ≠ [] ∧ ∃ parcels, Shaped c parcels write := by
  intro write member
  rw [submitted] at member
  cases event : x.event? e with
  | none =>
    rw [event] at member
    contradiction
  | some event' =>
    rw [event, Option.elim_some] at member
    obtain ⟨filled, same⟩ := World.submitted_eq member
    obtain ⟨parcels, shaped, _⟩ := reached.ships portioned event'
    exact ⟨filled, parcels, same ▸ shaped⟩

/-- In every state that callers, workers and clock can bring about, a pass offers the link the
batches that leave the hands in it undropped, of each channel one at most and cut as it should
be. On a simulated link, a pass without packets makes no write, and so no write is empty. -/
theorem writes_shaped {available : UInt8} (valid : c.validate available = .ok ())
    (monitor : Option Monitor) :
    (∀ (clock : Tick) (past : List Event) (e : Event),
      ((World.opened c monitor clock).run past).Ships c e) ∧
    ∀ (link : Link) (events : List LinkedEvent),
      let x := (setUp c monitor link).run events
      (∀ draining,
        let e := x.stream.passEvent draining
        x.world.Ships c e ∧
          ((x.stream.pass draining).2 = .noWrite ↔ World.offered x.world e = []) ∧
          (World.offered x.world e = [] → (x.stream.pass draining).1.link = x.stream.link)) ∧
        ∀ write ∈ x.stream.link.submissions, write ∈ link.submissions ∨
          write ≠ [] ∧ ∃ parcels, Shaped c parcels write := by
  refine ⟨World.run_ships valid monitor, fun link events => ?_⟩
  intro x
  have start : (setUp c monitor link).world.Reached c ∧
      (setUp c monitor link).stream.session.Portioned c :=
    ⟨setUp_reached valid monitor link, Session.portioned_of_fresh rfl⟩
  have kept (x : LinkedSession) (e : LinkedEvent)
      (hold : x.world.Reached c ∧ x.stream.session.Portioned c) :
      (x.step e).world.Reached c ∧ (x.step e).stream.session.Portioned c :=
    ⟨(step_reached hold.1 e).1, step_portioned hold.1 hold.2 e⟩
  have reached : x.world.Reached c ∧ x.stream.session.Portioned c :=
    run_invariant kept start events
  refine ⟨fun draining => ⟨reached.1.ships reached.2 _, pass_unwritten x.stream draining⟩, ?_⟩
  intro write member
  have books := run_submissions (setUp c monitor link) events
  have there : write ∈ link.submissions ++ observe submitted (setUp c monitor link) events :=
    books ▸ List.mem_append_right _ member
  exact (List.mem_append.mp there).imp_right (mem_observe kept
    (fun x e hold => submitted_shaped hold.1 hold.2 e) start events write)

/-- Five timed samples and an untimed burst of three, on two channels and ready for one pass. -/
def twoBatches : List LinkedEvent :=
  [.start,
    .transmit 1 [(⟨1, -1⟩ : IntSample), ⟨2, -2⟩, ⟨3, -3⟩, ⟨4, -4⟩, ⟨5, -5⟩] (.anchored .zero) .poll,
    .transmit 0 [(⟨6, -6⟩ : IntSample), ⟨7, -7⟩, ⟨8, -8⟩] TransferMeta.plain.flushed .poll,
    .send false]

theorem writes_shaped_cut :
    let x := (setUp World.smallBatches none (.simulated 2 false)).run twoBatches
    World.smallBatches.validate 2 = .ok () ∧
      (∀ write ∈ x.stream.link.submissions, write ≠ [] ∧
        ∃ parcels, Shaped World.smallBatches parcels write) ∧
      x.stream.link.submissions.map (fun write => write.map fun p =>
        (p.channel, p.timestamp, p.flush, p.payload.length)) =
          [[(0, none, false, 8), (0, none, true, 4), (1, some .zero, false, 8),
            (1, some (Tick.clamp 2), false, 8)]] := by
  have valid : World.smallBatches.validate 2 = .ok () := rfl
  have shaped := ((writes_shaped valid none).2 (.simulated 2 false) twoBatches).2
  refine ⟨valid, fun write member => ?_, by decide +kernel⟩
  exact (shaped write member).resolve_left List.not_mem_nil

end LinkedSession
end RadioStream
