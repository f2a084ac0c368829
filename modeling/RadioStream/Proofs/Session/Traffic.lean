import RadioStream.Proofs.Reception.Lane
import RadioStream.Proofs.Transmission.Settlement

/-!
The counters of a channel over the steps of a session. None of them ever goes back: every step
leaves a lane alone or adds to its counters, and a counter of events that is full stays full.
-/
namespace RadioStream

theorem Counter.le_add (c : Counter) (n : Nat) : c.count ≤ (c.add n).count := by
  have := c.le_limit
  rw [Counter.count_add]
  omega

namespace Traffic
variable {t u v : Traffic}

/-- All counters are where they were or further. -/
structure Within (t u : Traffic) : Prop where
  bytes_le : t.bytes ≤ u.bytes
  packets_le : t.packets ≤ u.packets
  overrun_le : t.overrun.count ≤ u.overrun.count
  underrun_le : t.underrun.count ≤ u.underrun.count
  loss_le : t.loss.count ≤ u.loss.count
  late_le : t.late.count ≤ u.late.count

namespace Within

theorem refl (t : Traffic) : t.Within t :=
  ⟨Nat.le_refl _, Nat.le_refl _, Nat.le_refl _, Nat.le_refl _, Nat.le_refl _, Nat.le_refl _⟩

theorem trans (first : t.Within u) (second : u.Within v) : t.Within v :=
  ⟨Nat.le_trans first.bytes_le second.bytes_le, Nat.le_trans first.packets_le second.packets_le,
    Nat.le_trans first.overrun_le second.overrun_le,
    Nat.le_trans first.underrun_le second.underrun_le,
    Nat.le_trans first.loss_le second.loss_le, Nat.le_trans first.late_le second.late_le⟩

theorem zero (t : Traffic) : Traffic.zero.Within t :=
  ⟨Nat.zero_le _, Nat.zero_le _, Nat.zero_le _, Nat.zero_le _, Nat.zero_le _, Nat.zero_le _⟩

theorem transfer (t : Traffic) (bytes packets : Nat) : t.Within (t.transfer bytes packets) :=
  { refl t with bytes_le := Nat.le_add_right _ _, packets_le := Nat.le_add_right _ _ }

theorem countOverrun (t : Traffic) : t.Within t.countOverrun :=
  { refl t with overrun_le := t.overrun.le_add 1 }

theorem countUnderrun (t : Traffic) : t.Within t.countUnderrun :=
  { refl t with underrun_le := t.underrun.le_add 1 }

theorem countLate (t : Traffic) : t.Within t.countLate :=
  { refl t with late_le := t.late.le_add 1 }

theorem countLoss (t : Traffic) (ticks : Nat) : t.Within (t.countLoss ticks) :=
  { refl t with loss_le := t.loss.le_add ticks }

end Within
end Traffic
open Traffic (Within)

namespace RxLane

theorem accept_within (l : RxLane) (b : Block) : l.traffic.Within (l.accept b).1.traffic := by
  have lost := Within.countLoss l.traffic (l.missing b)
  rw [accept]
  dsimp only
  split
  · exact lost
  · dsimp only
    split
    · exact lost.trans ((Within.countOverrun _).trans (.transfer ..))
    · exact lost.trans (.transfer ..)

theorem take_within (l : RxLane) (anchor : Option Tick) (limit : Nat) (wait : Wait)
    (tolerance : Nat) : l.traffic.Within (l.take anchor limit wait tolerance).2.traffic := by
  unfold take
  dsimp only
  split
  · exact .countLate _
  · exact .refl _

end RxLane

namespace TxLane

theorem settleTail_within (l : TxLane) (now : Tick) :
    l.traffic.Within (l.settleTail now).traffic := by
  rw [settleTail]
  split
  · split
    · exact .countUnderrun _
    · exact .refl _
  · exact .refl _

theorem Rests.within {l l' : TxLane} (rests : l.Rests l') : l.traffic.Within l'.traffic := by
  rcases rests.traffic_eq with same | late
  · rw [same]
    exact .refl _
  · rw [late]
    exact .countLate _

end TxLane

theorem TxPass.settled_within (p : TxPass) (outcome : Option (Except Fault Unit))
    (x : TxLane × Option Shipment) : x.1.traffic.Within (p.settled outcome x).traffic := by
  rcases outcome with _ | (reason | ⟨⟩)
  · exact x.1.settleTail_within p.now
  · exact .refl _
  · refine .trans ?_ (TxLane.settleTail_within _ p.now)
    cases x.2 with
    | none => exact .refl _
    | some shipment => exact .transfer ..

namespace Session
variable {s t : Session} {channel other : UInt8}

/-- The counters of a channel; a channel that is not active has counted nothing. -/
def trafficOn (s : Session) (channel : UInt8) : Direction → Traffic
  | .rx => (s.rxOn channel).elim .zero (·.traffic)
  | .tx => (s.txOn channel).elim .zero (·.traffic)

theorem trafficOn_rx_of_core (same : t.rx.map RxLane.core = s.rx.map RxLane.core) :
    t.trafficOn channel .rx = s.trafficOn channel .rx := by
  have counted (u : Session) :
      u.trafficOn channel .rx = ((u.rxOn channel).map RxLane.core).elim .zero (·.traffic) := by
    rw [trafficOn]
    cases u.rxOn channel <;> rfl
  rw [counted, counted, rxOn_core same]

/-- A lane that is put in the place of another and has not gone back in its counters. -/
theorem putRx_within {old lane : RxLane} (same : t.rx = s.rx) (found : s.rxOn channel = some old)
    (on : lane.channel = old.channel) (within : old.traffic.Within lane.traffic) :
    (s.trafficOn other .rx).Within ((t.putRx lane).trafficOn other .rx) := by
  obtain rfl := on.trans (channel_of_rxOn found)
  have stands : t.rxOn lane.channel = some old := by rw [rxOn, same]; exact found
  have beside : t.rxOn other = s.rxOn other := by rw [rxOn, same]; rfl
  rw [trafficOn, trafficOn, rxOn_putRx stands]
  split
  · next here =>
    subst here
    rw [found]
    exact within
  · rw [beside]
    exact .refl _

theorem accept_within (s : Session) (p : RxPacket) (channel : UInt8) :
    (s.trafficOn channel .rx).Within ((s.accept p).trafficOn channel .rx) := by
  rcases s.accept_cases p with ⟨after, _⟩ | ⟨lane, timeline, found, _, _, kept⟩
  · rw [after]
    exact .refl _
  · rw [trafficOn_rx_of_core kept.rx_eq]
    refine putRx_within rfl found ?_ (lane.accept_within _)
    exact lane.accept_channel _

theorem receive_within {α : Type} [HostSample α] (s : Session) (on : UInt8) (buffer : List α)
    (info : TransferMeta) (wait : Wait) (channel : UInt8) :
    (s.trafficOn channel .rx).Within
      ((s.receive on buffer info wait).2.trafficOn channel .rx) := by
  rcases s.receive_cases on buffer info wait with ⟨after, _⟩ | ⟨lane, found, after, _⟩ <;>
    rw [after]
  · exact .refl _
  · refine putRx_within rfl found ?_ (lane.take_within ..)
    exact lane.take_channel ..

/-- The counters of a lane on its way through a pass: they grow until it has let its batch go, and
then as the pass settles it. -/
theorem pass_traffic {l : TxLane} (found : s.txOn channel = some l) (reading : Except Fault Tick)
    (draining : Bool) (answer : Except Fault Unit) :
    let p := s.beginPass reading draining
    ∃ x, p.lanes.find? (·.1.channel == channel) = some x ∧ l.traffic.Within x.1.traffic ∧
      (s.pass reading draining answer).trafficOn channel .tx =
        (p.settled (if p.packets.isEmpty then none else some answer) x).traffic := by
  obtain ⟨l', x, there, settled, inPass, effect⟩ := pass_cases found reading draining answer
  have traffic := congrArg TxLane.traffic settled
  rw [TxLane.traffic_unstopped, TxLane.traffic_unstopped] at traffic
  refine ⟨x, inPass, ?_, by rw [trafficOn, there, Option.elim, traffic]⟩
  rcases effect with ⟨rfl, _⟩ | ⟨_, _, rfl, _⟩ | ⟨_, _, rfl, _⟩ <;>
    simp only [TxLane.pickUp_traffic]
  · exact .refl _
  · exact .countLate _
  · exact .refl _

end Session

namespace World

/-- No step takes back what was counted. -/
theorem step_within (w : World) (e : Event) (channel : UInt8) (direction : Direction) :
    (w.session.trafficOn channel direction).Within
      ((w.step e).session.trafficOn channel direction) := by
  cases direction with
  | rx =>
    have same {s : Session} (rx : s.rx = w.session.rx) :
        s.trafficOn channel .rx = w.session.trafficOn channel .rx :=
      Session.trafficOn_rx_of_core (congrArg _ rx)
    cases e with
    | transmit on samples info reading wait =>
      rw [step, same (w.session.transmit_rx on samples info reading wait)]
      exact .refl _
    | resume place =>
      rw [step]
      split
      · exact .refl _
      · next call _ =>
        dsimp only
        rw [same (w.session.resume_rx call)]
        exact .refl _
    | receive on buffer info wait => exact w.session.receive_within on buffer info wait channel
    | arrive packet => exact w.session.accept_within packet channel
    | pass reading draining answer =>
      rw [step, Session.trafficOn_rx_of_core (w.session.pass_rx reading draining answer)]
      exact .refl _
    | halt reason =>
      rw [step, Session.trafficOn_rx_of_core (w.session.halt_kept reason).rx_eq]
      exact .refl _
  | tx =>
    rw [Session.trafficOn]
    cases found : w.session.txOn channel with
    | none => exact .zero _
    | some l =>
      have rests (noPass : ∀ reading draining answer, e ≠ .pass reading draining answer) :
          l.traffic.Within ((w.step e).session.trafficOn channel .tx) := by
        obtain ⟨l', there, rests⟩ := step_rests found noPass
        rw [Session.trafficOn, there]
        exact rests.within
      cases e with
      | pass reading draining answer =>
        obtain ⟨x, _, left, settled⟩ := Session.pass_traffic found reading draining answer
        rw [step, settled]
        exact left.trans (TxPass.settled_within ..)
      | _ => exact rests (by simp)

end World
end RadioStream
