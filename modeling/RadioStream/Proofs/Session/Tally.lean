import RadioStream.Proofs.Reception.Loss
import RadioStream.Proofs.Session.Observed
import RadioStream.Proofs.Transmission.Together

/-!
The counters of transfers against the link. A step moves payloads of a channel over the link in
one go at most: the packets of the channel in a write that was accepted, or a block that its
receive lane has taken in. These are what it counts, and with a monitor it shows one snapshot for
each such transfer and no other.
-/
namespace RadioStream

namespace Traffic
variable {t u v : Traffic} {first rest : List (List UInt8)}

/-- The counters of transfers behind some more payloads. -/
structure Carried (t u : Traffic) (payloads : List (List UInt8)) : Prop where
  bytes_eq : u.bytes = t.bytes + payloads.flatten.length
  packets_eq : u.packets = t.packets + payloads.length

theorem Carried.refl (t : Traffic) : t.Carried t [] := ⟨rfl, rfl⟩

theorem Carried.trans (before : t.Carried u first) (after : u.Carried v rest) :
    t.Carried v (first ++ rest) := by
  refine ⟨?_, ?_⟩
  · rw [after.bytes_eq, before.bytes_eq, List.flatten_append, List.length_append, Nat.add_assoc]
  · rw [after.packets_eq, before.packets_eq, List.length_append, Nat.add_assoc]

end Traffic
open Traffic (Carried)

/-- One snapshot for each of some transfers, which counts all of them up to its own. -/
structure Tally (transfers : List (List (List UInt8))) (shown : List Snapshot) : Prop where
  length_eq : shown.length = transfers.length
  carried : ∀ k snapshot, shown[k]? = some snapshot →
    Traffic.zero.Carried snapshot.traffic (transfers.take (k + 1)).flatten

namespace Tally
variable {transfers : List (List (List UInt8))} {payloads : List (List UInt8)}
  {shown : List Snapshot} {snapshot : Snapshot}

theorem nil : Tally [] [] := ⟨rfl, by simp⟩

theorem concat (tally : Tally transfers shown)
    (carried : Traffic.zero.Carried snapshot.traffic (transfers ++ [payloads]).flatten) :
    Tally (transfers ++ [payloads]) (shown ++ [snapshot]) := by
  have length := tally.length_eq
  refine ⟨by simp [length], ?_⟩
  intro k other there
  rcases Nat.lt_trichotomy k shown.length with before | here | past
  · rw [List.getElem?_append_left before] at there
    rw [List.take_append_of_le_length (by omega)]
    exact tally.carried k other there
  · rw [here, List.getElem?_concat_length, Option.some.injEq] at there
    rwa [← there, here, length, List.take_of_length_le (by simp)]
  · rw [List.getElem?_eq_none (by simp; omega)] at there
    contradiction

/-- Where every transfer is one payload, the snapshots count them one by one. -/
theorem map_packets {payloads : List (List UInt8)} (tally : Tally (payloads.map ([·])) shown) :
    shown.map (·.traffic.packets) = List.range' 1 payloads.length := by
  have length := tally.length_eq
  rw [List.length_map] at length
  refine List.ext_getElem (by simp [length]) ?_
  intro k inside bound
  rw [List.length_map] at inside
  have carried := (tally.carried k shown[k] (List.getElem?_eq_getElem inside)).packets_eq
  have single : ((payloads.map ([·])).take (k + 1)).flatten = payloads.take (k + 1) := by
    rw [← List.map_take, ← List.flatMap_def, List.flatMap_singleton']
  rw [single, List.length_take] at carried
  change _ = 0 + _ at carried
  rw [List.getElem_map, List.getElem_range']
  omega

end Tally

/-- What is not found under a key is found under it in no list with the same keys. -/
theorem find?_absent {α : Type} {key : α → UInt8} {list list' : List α}
    (same : list'.map key = list.map key) {k : UInt8}
    (absent : list.find? (key · == k) = none) : list'.find? (key · == k) = none := by
  have found := congrArg (List.find? (· == k)) same
  rw [List.find?_map, List.find?_map] at found
  exact Option.map_eq_none_iff.mp (found.trans (congrArg (Option.map key) absent))

/-- The payloads of a channel in a write. -/
def TxPacket.payloadsOn (channel : UInt8) (packets : List TxPacket) : List (List UInt8) :=
  (packets.filter (·.channel == channel)).map (·.payload)

/-- Of the two counts of a lane that a pass settles, neither changes. -/
theorem TxLane.settleTail_carried (l : TxLane) (now : Tick) :
    l.traffic.Carried (l.settleTail now).traffic [] := by
  rw [settleTail]
  split
  · split <;> exact ⟨rfl, rfl⟩
  · exact .refl _

theorem RxLane.take_carried (l : RxLane) (anchor : Option Tick) (limit : Nat) (wait : Wait)
    (tolerance : Nat) : l.traffic.Carried (l.take anchor limit wait tolerance).2.traffic [] := by
  unfold take
  dsimp only
  split <;> exact ⟨rfl, rfl⟩

/-- A lane takes in what it does not trim of a block, and counts it as one packet. -/
theorem RxLane.accept_carried (l : RxLane) (b : Block) :
    (l.accept b).2 = !(l.trim b).isEmpty ∧
      l.traffic.Carried (l.accept b).1.traffic
        (if (l.trim b).isEmpty then [] else [(l.trim b).payload]) := by
  have trimmed : ({ l with traffic := l.traffic.countLoss (l.missing b) } : RxLane).trim b =
      l.trim b := rfl
  constructor
  · rw [accept]
    dsimp only
    rw [trimmed]
    cases (l.trim b).isEmpty <;> rfl
  · rw [accept_eq]
    dsimp only
    split
    · exact ⟨rfl, rfl⟩
    · dsimp only
      split <;> exact ⟨by simp [Traffic.transfer, Traffic.countLoss, Traffic.countOverrun], rfl⟩

theorem TxLane.Rests.carried {l l' : TxLane} (rests : l.Rests l') :
    l.traffic.Carried l'.traffic [] := by
  rcases rests.traffic_eq with same | late
  · rw [same]
    exact .refl _
  · rw [late]
    exact ⟨rfl, rfl⟩

theorem TxLane.shipped_carried (l : TxLane) (shipment : Shipment) :
    l.traffic.Carried (l.shipped shipment).traffic (shipment.packets.map (·.payload)) := by
  refine ⟨?_, by rw [List.length_map]; rfl⟩
  rw [← List.flatMap_def]
  rfl

namespace World
variable {w : World} {channel : UInt8} {direction : Direction}

/-- The write with which a step succeeds. -/
def submitted (w : World) : Event → List (List TxPacket)
  | .pass reading draining (.ok ()) =>
    let packets := (w.session.beginPass reading draining).packets
    if packets.isEmpty then [] else [packets]
  | _ => []

/-- What a step moves of a channel over the link: the payloads of each write that has any, and the
block that a lane accepts. -/
def transfers (channel : UInt8) (w : World) (e : Event) : Direction → List (List (List UInt8))
  | .tx => ((submitted w e).map (TxPacket.payloadsOn channel)).filter (!·.isEmpty)
  | .rx => (admitted channel w e).map fun b => [b.payload]

/-- The snapshots of a channel that a step shows to the monitor. -/
def reportedOf (channel : UInt8) (w : World) (e : Event) (direction : Direction) :
    List Snapshot :=
  ((reported w e).filter fun x => x.1 = channel ∧ x.2.direction = direction).map Prod.snd

/-- A step as the books of a channel have it: either it moves nothing and shows nothing, or it
counts one transfer and shows one snapshot, to a monitor, with the transfer counted. -/
inductive Booked (monitored : Bool) (before after : Traffic) :
    List (List (List UInt8)) → List Snapshot → Prop
  | nothing (same : before.Carried after []) : Booked monitored before after [] []
  | transfer (payloads : List (List UInt8)) (snapshot : Snapshot)
    (counted : before.Carried after payloads) (shows : before.Carried snapshot.traffic payloads) :
    Booked monitored before after [payloads] (if monitored then [snapshot] else [])

/-- Books that were right stay so with a step that they have. -/
theorem Booked.extend {monitored : Bool} {before after : Traffic}
    {moved past : List (List (List UInt8))} {shown seen : List Snapshot}
    (booked : Booked monitored before after moved shown)
    (carried : Traffic.zero.Carried before past.flatten)
    (tally : monitored = true → Tally past seen) :
    Traffic.zero.Carried after (past ++ moved).flatten ∧
      (monitored = true → Tally (past ++ moved) (seen ++ shown)) := by
  cases booked with
  | nothing same =>
    rw [List.append_nil, List.append_nil]
    refine ⟨?_, tally⟩
    have unchanged := carried.trans same
    rwa [List.append_nil] at unchanged
  | transfer payloads snapshot counted shows =>
    have flat : (past ++ [payloads]).flatten = past.flatten ++ payloads := by simp
    rw [flat]
    refine ⟨carried.trans counted, fun watched => ?_⟩
    rw [watched, if_pos rfl]
    exact (tally watched).concat (flat ▸ carried.trans shows)

theorem reportedOf_eq_nil {e : Event}
    (other : ∀ x ∈ reported w e, ¬(x.1 = channel ∧ x.2.direction = direction)) :
    reportedOf channel w e direction = [] := by
  rw [reportedOf, List.filter_eq_nil_iff.mpr, List.map_nil]
  intro x member
  simpa using other x member

theorem reported_arrive (w : World) (p : RxPacket) :
    ∀ x ∈ reported w (.arrive p), x.1 = p.channel ∧ x.2.direction = .rx := by
  rw [reported]
  cases w.session.rxOn p.channel with
  | none => exact List.forall_mem_nil _
  | some lane =>
    dsimp only
    split
    · rw [List.forall_mem_singleton]
      exact ⟨rfl, rfl⟩
    · exact List.forall_mem_nil _

theorem reported_pass (w : World) (reading : Except Fault Tick) (draining : Bool)
    (answer : Except Fault Unit) :
    ∀ x ∈ reported w (.pass reading draining answer), x.2.direction = .tx := by
  cases answer with
  | error reason => exact List.forall_mem_nil _
  | ok _ =>
    rw [reported]
    split
    · intro x member
      obtain ⟨_, _, rfl⟩ := List.mem_map.mp member
      rfl
    · exact List.forall_mem_nil _

theorem transfers_write (w : World) (reading : Except Fault Tick) (draining : Bool)
    (channel : UInt8) :
    let payloads :=
      TxPacket.payloadsOn channel (w.session.beginPass reading draining).packets
    transfers channel w (.pass reading draining (.ok ())) .tx =
      if payloads.isEmpty then [] else [payloads] := by
  dsimp only [transfers, submitted]
  split
  · next none =>
    rw [List.isEmpty_iff.mp none]
    rfl
  · rw [List.map_singleton]
    cases none : (TxPacket.payloadsOn channel _).isEmpty <;> simp [none]

theorem reportedOf_write (w : World) (reading : Except Fault Tick) (draining : Bool)
    (channel : UInt8) :
    let p := w.session.beginPass reading draining
    reportedOf channel w (.pass reading draining (.ok ())) .tx =
      if !p.packets.isEmpty && w.session.monitor.isSome then
        (p.reports.filter fun x => x.1 = channel ∧ x.2.direction = .tx).map Prod.snd
      else [] := by
  dsimp only [reportedOf, reported]
  split <;> rfl

end World

namespace Session
variable {s : Session} {channel : UInt8}

/-- A lane on its way through a pass: it counts no transfer until it has let its batch go, what it
ships has packets, and then the pass settles it. -/
theorem TxSound.pass_outgoing {l : TxLane} (sound : s.TxSound) (found : s.txOn channel = some l)
    (reading : Except Fault Tick) (draining : Bool) (answer : Except Fault Unit) :
    let p := s.beginPass reading draining
    ∃ lane shipment?, p.lanes.find? (·.1.channel == channel) = some (lane, shipment?) ∧
      l.traffic.Carried lane.traffic [] ∧ (∀ shipment ∈ shipment?, shipment.packets ≠ []) ∧
      (s.pass reading draining answer).trafficOn channel .tx =
        (p.settled (if p.packets.isEmpty then none else some answer) (lane, shipment?)).traffic := by
  intro p
  obtain ⟨l', ⟨lane, shipment?⟩, on, settled, inPass, effect⟩ :=
    Session.pass_cases found reading draining answer
  have after := congrArg TxLane.traffic settled
  have picked := TxLane.pickUp_traffic l s.config.txBatch draining
    ((s.timeline.now reading).2.isDue · (s.timeline.now reading).1)
  have bytes := congrArg Traffic.bytes picked
  have packets := congrArg Traffic.packets picked
  refine ⟨lane, shipment?, inPass, ?_, ?_, by rw [Session.trafficOn, on]; exact after⟩
  · rcases effect with ⟨same, -⟩ | ⟨b, held, same, -⟩ | ⟨b, held, same, -⟩ <;>
      obtain ⟨rfl, -⟩ := Prod.mk.inj same <;>
      exact ⟨bytes, packets⟩
  · rcases effect with ⟨same, -⟩ | ⟨b, held, same, -⟩ | ⟨b, held, same, -⟩ <;>
      obtain ⟨-, rfl⟩ := Prod.mk.inj same
    · simp
    · simp
    · have stored := ((sound.lanes channel l found).pickUp s.config.txBatch_pos draining
        ((s.timeline.now reading).2.isDue · (s.timeline.now reading).1)).1.held b held
      rintro shipment ⟨rfl⟩
      exact stored.packetize_ne_nil channel s.config.txPacket

end Session

theorem TxPass.settled_unshipped (p : TxPass) (outcome : Option (Except Fault Unit)) (l : TxLane) :
    l.traffic.Carried (p.settled outcome (l, none)).traffic [] := by
  rcases outcome with _ | (reason | ⟨⟩)
  · exact l.settleTail_carried p.now
  · exact .refl _
  · exact l.settleTail_carried p.now

namespace World
variable {w : World} {channel : UInt8}

/-- Without a shipment of a channel there is nothing of it in the write and in the reports. -/
theorem pass_silent (distinct : (w.session.tx.map (·.channel)).Nodup) (reading : Except Fault Tick)
    (draining : Bool) (answer : Except Fault Unit) (channel : UInt8)
    (none : ∀ x ∈ (w.session.beginPass reading draining).lanes.find? (·.1.channel == channel),
      x.2 = none) :
    transfers channel w (.pass reading draining answer) .tx = [] ∧
      reportedOf channel w (.pass reading draining answer) .tx = [] := by
  cases answer with
  | error reason => exact ⟨rfl, rfl⟩
  | ok _ =>
    rw [transfers_write, reportedOf_write, Session.reports_on distinct, TxPacket.payloadsOn,
      Session.packets_on distinct]
    cases found : (w.session.beginPass reading draining).lanes.find? (·.1.channel == channel) with
    | none => simp
    | some x =>
      have unshipped := none x found
      simp [unshipped]

theorem pass_ships (distinct : (w.session.tx.map (·.channel)).Nodup) {reading : Except Fault Tick}
    {draining : Bool} {lane : TxLane} {shipment : Shipment}
    (there : (w.session.beginPass reading draining).lanes.find? (·.1.channel == channel) =
      some (lane, some shipment)) (filled : shipment.packets ≠ []) :
    (w.session.beginPass reading draining).packets.isEmpty = false ∧
      transfers channel w (.pass reading draining (.ok ())) .tx =
        [shipment.packets.map (·.payload)] ∧
      reportedOf channel w (.pass reading draining (.ok ())) .tx =
        if w.session.monitor.isSome then [(lane.shipped shipment).snapshot
          (w.session.beginPass reading draining).session.timeline.current] else [] := by
  have packets : (w.session.beginPass reading draining).packets.filter (·.channel == channel) =
      shipment.packets := by
    rw [Session.packets_on distinct, there]
    rfl
  have some : (w.session.beginPass reading draining).packets.isEmpty = false := by
    rw [List.isEmpty_eq_false_iff]
    intro none
    rw [none] at packets
    exact filled packets.symm
  refine ⟨some, ?_, ?_⟩
  · rw [transfers_write, TxPacket.payloadsOn, packets]
    simp [filled]
  · rw [reportedOf_write, Session.reports_on distinct, there]
    simp [some]

theorem pass_booked (sound : w.session.TxSound) (reading : Except Fault Tick) (draining : Bool)
    (answer : Except Fault Unit) (channel : UInt8) :
    let e : Event := .pass reading draining answer
    Booked w.session.monitor.isSome (w.session.trafficOn channel .tx)
      ((w.step e).session.trafficOn channel .tx) (transfers channel w e .tx)
      (reportedOf channel w e .tx) := by
  intro e
  cases found : w.session.txOn channel with
  | none =>
    obtain ⟨gone, -, absent⟩ := Session.pass_absent found reading draining answer
    obtain ⟨moved, shown⟩ := pass_silent sound.distinct reading draining answer
      channel (by simp [absent])
    rw [moved, shown, Session.trafficOn, Session.trafficOn, step, found, gone]
    exact .nothing (.refl _)
  | some l =>
    obtain ⟨lane, shipment?, there, left, filled, after⟩ :=
      sound.pass_outgoing found reading draining answer
    rw [step, after, Session.trafficOn, found, Option.elim_some]
    cases shipment? with
    | none =>
      obtain ⟨moved, shown⟩ := pass_silent sound.distinct reading draining answer
        channel (by simp [there])
      rw [moved, shown]
      exact .nothing (left.trans (TxPass.settled_unshipped _ _ lane))
    | some shipment =>
      obtain ⟨writes, moved, shown⟩ := pass_ships sound.distinct there (filled shipment rfl)
      rw [writes, if_neg Bool.false_ne_true]
      cases answer with
      | error reason => exact .nothing left
      | ok _ =>
        have counted := left.trans (lane.shipped_carried shipment)
        have settled := counted.trans ((lane.shipped shipment).settleTail_carried
          (w.session.beginPass reading draining).now)
        rw [List.append_nil] at settled
        rw [moved, shown]
        exact .transfer _ _ settled counted

/-- A packet for a lane, as the lane's books have it. -/
theorem arrive_booked (w : World) (p : RxPacket) :
    Booked w.session.monitor.isSome (w.session.trafficOn p.channel .rx)
      ((w.session.accept p).trafficOn p.channel .rx) (transfers p.channel w (.arrive p) .rx)
      (reportedOf p.channel w (.arrive p) .rx) := by
  cases found : w.session.rxOn p.channel with
  | none =>
    have moved : transfers p.channel w (.arrive p) .rx = [] := by
      simp [transfers, admitted, found]
    have shown : reportedOf p.channel w (.arrive p) .rx = [] := by
      simp [reportedOf, reported, found]
    rw [Session.accept_absent found, moved, shown]
    exact .nothing (.refl _)
  | some lane =>
    let timeline := w.session.timeline.observe (w.session.endTick p)
    let size := w.session.config.linkFormat.sampleSize
    let block := timeline.align (Block.received p.timestamp p.payload size)
    have trimmed : lane.trim block = p.fresh size timeline.alignedStart lane.expected :=
      RxPacket.trim_align lane timeline size p
    have before : w.session.trafficOn p.channel .rx = lane.traffic := by
      rw [Session.trafficOn, found]
      rfl
    have moved : transfers p.channel w (.arrive p) .rx =
        if (lane.trim block).isEmpty then [] else [[(lane.trim block).payload]] := by
      rw [trimmed]
      simp only [transfers, admitted, found, Option.elim_some, if_true]
      change List.map _ (List.filter _ [p.fresh size timeline.alignedStart lane.expected]) = _
      cases empty : (p.fresh size timeline.alignedStart lane.expected).isEmpty <;> simp [empty]
    have shown : reportedOf p.channel w (.arrive p) .rx =
        if (lane.accept block).2 && w.session.monitor.isSome then
          [(lane.accept block).1.snapshot timeline.current] else [] := by
      have all : (reported w (.arrive p)).filter (fun x =>
          x.1 = p.channel ∧ x.2.direction = .rx) = reported w (.arrive p) :=
        List.filter_eq_self.mpr fun x member => decide_eq_true (w.reported_arrive p x member)
      rw [reportedOf, all, reported, found]
      dsimp only
      split <;> rfl
    obtain ⟨taken, carried⟩ := lane.accept_carried block
    rw [before, Session.accept_traffic found, moved, shown, taken]
    cases empty : (lane.trim block).isEmpty with
    | true =>
      rw [empty] at carried
      exact .nothing carried
    | false =>
      rw [empty] at carried
      exact .transfer _ _ carried carried

/-- A step that is not about the receive lane of a channel leaves its counters. -/
theorem trafficOn_elsewhere {e : Event} (elsewhere : e.isFor channel = false) :
    (w.step e).session.trafficOn channel .rx = w.session.trafficOn channel .rx := by
  cases found : w.session.rxOn channel with
  | none =>
    have gone : (w.step e).session.rxOn channel = none :=
      find?_absent (w.step_continues e).rxChannels_eq found
    rw [Session.trafficOn, Session.trafficOn, found, gone]
  | some lane =>
    obtain ⟨after, on, core⟩ := step_elsewhere elsewhere found
    have same := congrArg RxLane.traffic core
    rw [Session.trafficOn, Session.trafficOn, found, on]
    exact same

theorem receive_carried {α : Type} [HostSample α] (s : Session) (on : UInt8) (buffer : List α)
    (info : TransferMeta) (wait : Wait) (channel : UInt8) :
    (s.trafficOn channel .rx).Carried
      ((s.receive on buffer info wait).2.trafficOn channel .rx) [] := by
  by_cases here : on = channel
  · subst here
    cases found : s.rxOn on with
    | none =>
      rcases s.receive_cases on buffer info wait with ⟨after, _⟩ | ⟨lane, there, _⟩
      · rw [after]
        exact .refl _
      · rw [found] at there
        contradiction
    | some lane =>
      rcases s.receive_on found buffer info wait with ⟨there, _⟩ | ⟨there, _⟩ <;>
        rw [Session.trafficOn, Session.trafficOn, there, found]
      · exact .refl _
      · exact lane.take_carried ..
  · rw [Session.trafficOn, Session.trafficOn, s.receive_elsewhere here]
    exact .refl _

/-- Every step is one that the books of a channel have. -/
theorem step_booked (sound : w.session.TxSound) (e : Event) (channel : UInt8)
    (direction : Direction) :
    Booked w.session.monitor.isSome (w.session.trafficOn channel direction)
      ((w.step e).session.trafficOn channel direction) (transfers channel w e direction)
      (reportedOf channel w e direction) := by
  cases direction with
  | rx =>
    have frame (elsewhere : e.isFor channel = false) :
        (w.session.trafficOn channel .rx).Carried
          ((w.step e).session.trafficOn channel .rx) [] := by
      rw [trafficOn_elsewhere elsewhere]
      exact .refl _
    cases e with
    | arrive p =>
      by_cases here : p.channel = channel
      · subst here
        exact w.arrive_booked p
      · have moved : transfers channel w (.arrive p) .rx = [] := by
          simp [transfers, admitted, here]
        have shown : reportedOf channel w (.arrive p) .rx = [] :=
          reportedOf_eq_nil fun x member on =>
            here ((w.reported_arrive p x member).1.symm.trans on.1)
        rw [moved, shown]
        exact .nothing (frame (beq_eq_false_iff_ne.mpr here))
    | receive on buffer info wait =>
      exact .nothing (receive_carried w.session on buffer info wait channel)
    | pass reading draining answer =>
      have shown : reportedOf channel w (.pass reading draining answer) .rx = [] :=
        reportedOf_eq_nil fun x member on => by
          rw [w.reported_pass reading draining answer x member] at on
          exact Direction.noConfusion on.2
      rw [shown]
      exact .nothing (frame rfl)
    | _ => exact .nothing (frame rfl)
  | tx =>
    have frame (noPass : ∀ reading draining answer, e ≠ .pass reading draining answer) :
        (w.session.trafficOn channel .tx).Carried
          ((w.step e).session.trafficOn channel .tx) [] := by
      cases found : w.session.txOn channel with
      | none =>
        have gone : (w.step e).session.txOn channel = none :=
          find?_absent (w.step_continues e).txChannels_eq found
        rw [Session.trafficOn, Session.trafficOn, found, gone]
        exact .refl _
      | some l =>
        obtain ⟨l', there, rests⟩ := step_rests found noPass
        rw [Session.trafficOn, Session.trafficOn, found, there]
        exact rests.carried
    cases e with
    | pass reading draining answer => exact pass_booked sound reading draining answer channel
    | arrive p =>
      have shown : reportedOf channel w (.arrive p) .tx = [] :=
        reportedOf_eq_nil fun x member on => by
          rw [(w.reported_arrive p x member).2] at on
          exact Direction.noConfusion on.2
      rw [shown]
      exact .nothing (frame (by simp))
    | _ => exact .nothing (frame (by simp))

end World
end RadioStream
