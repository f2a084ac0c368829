import RadioStream.Proofs.Transmission.Conservation

/-!
The gate of a pass. Which batch a lane lets go, and whether in a packet or dropped, hangs
on the batch in its hand, on the gate and on the time of the pass alone; and the gate
stands at a tick only where timed batches wait for it and are due or driven out.
-/
namespace RadioStream

namespace TxLane
variable {l : TxLane} {gate : Option Tick} {b : Block}

theorem leaves_of_timed (held : l.held = some b) (timed : b.timed = true) :
    l.leaves gate = true ↔ gate = some b.start := by
  rw [leaves, held]
  simp only [timed, Bool.not_true, Bool.false_or, beq_iff_eq]
  exact eq_comm

/-- What leaves the hand of a lane in a pass, if anything does. -/
theorem departure?_depart (l : TxLane) (gate : Option Tick) (late : Tick → Bool)
    (packetSamples : Nat) (now : Tick) :
    l.departure? now (l.depart gate late packetSamples) =
      if l.leaves gate then l.held.map fun b =>
        ⟨b, now, if b.timed && late b.start then none
          else some (b.packetize l.channel packetSamples)⟩
      else none := by
  rcases l.depart_cases gate late packetSamples with ⟨stays, departs⟩ |
    ⟨b, held, leaves, timed, isLate, departs⟩ | ⟨b, held, leaves, inTime, departs⟩
  · rw [departs, stays, departure?]
    cases held : l.held with
    | none => rfl
    | some b => simp
  · rw [departs, leaves, departure?, held]
    simp [timed, isLate]
  · rw [departs, leaves, departure?, held, if_pos rfl, Option.map_some, inTime,
      if_neg Bool.false_ne_true]

end TxLane

namespace Session
variable {s : Session} {channel : UInt8} {reading : Except Fault Tick} {draining : Bool}

/-- The gate stands at the earliest tick that a held batch waits for, if that is due. -/
theorem gate_eq_some {now t : Tick} {timeline : Timeline} {lanes : List TxLane} :
    gate now timeline draining lanes = some t ↔
      (lanes.filterMap (·.waitsFor?)).min? = some t ∧
        (draining = true ∨ t ≤ now.later timeline.lead) := by
  rw [gate, Option.filter_eq_some_iff]
  simp [Timeline.isDue]

/-- What leaves a channel in a pass, by the lane as it is once it has picked up a batch. -/
theorem departed_on {l : TxLane} (found : s.txOn channel = some l) (reading : Except Fault Tick)
    (draining : Bool) :
    let now := (s.timeline.now reading).1
    let timeline := (s.timeline.now reading).2
    let picked := l.pickUp s.config.txBatch draining (timeline.isDue · now)
    s.departed reading draining channel =
      (if picked.leaves (s.passGate reading draining) then picked.held.map fun b =>
        (⟨b, now, if b.timed && timeline.isLate b.start now then none
          else some (b.packetize l.channel s.config.txPacket)⟩ : Departure)
      else none).toList := by
  have loaded := s.loaded_on reading draining channel
  have lanes := s.lanes_on reading draining channel
  rw [found, Option.map_some] at loaded
  rw [loaded, Option.map_some] at lanes
  dsimp only
  simp only [departed, loaded, lanes]
  rw [← TxLane.pickUp_channel l s.config.txBatch draining
    ((s.timeline.now reading).2.isDue · (s.timeline.now reading).1)]
  exact congrArg Option.toList (TxLane.departure?_depart ..)

end Session

namespace World
variable {c : StreamConfig} {w : World}

/-- The packets that a step hands to the link, whatever the link answers. -/
def offered (w : World) : Event → List TxPacket
  | .pass reading draining _ => (w.session.beginPass reading draining).packets
  | _ => []

theorem offered_departed (sound : TxSound c w) (e : Event) (channel : UInt8) :
    (offered w e).filter (·.channel == channel) =
      (departed channel w e).flatMap Departure.sent := by
  cases e with
  | pass reading draining answer =>
    exact ((sound.session.pass reading draining answer).2 channel).2.1
  | _ => rfl

theorem run_txSound {available : UInt8} (valid : c.validate available = .ok ())
    (monitor : Option Monitor) (clock : Tick) (events : List Event) :
    TxSound c ((opened c monitor clock).run events) :=
  run_invariant (P := TxSound c) (fun _ e sound => (sound.step e).1)
    (opened_txSound valid monitor clock) events

end World
end RadioStream
