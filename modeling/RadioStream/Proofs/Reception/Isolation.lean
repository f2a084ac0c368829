import RadioStream.Proofs.Module.Failures
import RadioStream.Proofs.Module.WindDown
import RadioStream.Proofs.Session.Observed

/-!
A session as one receive channel knows it: without the other channels, the time observed and the
failure that waits to be told. Nothing that is done for other channels can be seen in it, and what
is done for the channel itself is done on it in the same way.
-/
namespace RadioStream
namespace Session
variable {s : Session} {channel other : UInt8}

def isolate (channel : UInt8) (s : Session) : Session :=
  { s with
    timeline := { s.timeline with observed := .least }
    rx := s.rx.filter (·.channel == channel)
    failure := none }

@[simp] theorem isolate_isolate (channel : UInt8) (s : Session) :
    (s.isolate channel).isolate channel = s.isolate channel := by
  simp [isolate, List.filter_filter]

theorem isolate_rxOn (channel : UInt8) (s : Session) :
    (s.isolate channel).rxOn channel = s.rxOn channel := by
  rw [rxOn, isolate, List.find?_filter]
  simp only [and_self, Bool.decide_eq_true, rxOn]

theorem isolate_rxLane? (channel : UInt8) (s : Session) :
    (s.isolate channel).rxLane? channel = s.rxLane? channel := by
  have same := s.isolate_rxOn channel
  unfold rxOn at same
  rw [rxLane?, same]
  rfl

theorem isolate_putRx (channel : UInt8) (s : Session) (lane : RxLane) :
    (s.putRx lane).isolate channel = (s.isolate channel).putRx lane := by
  have keeps : ((·.channel == channel) ∘ fun l : RxLane =>
      if l.channel = lane.channel then lane else l) = (·.channel == channel) := by
    funext l
    by_cases same : l.channel = lane.channel <;> simp [same]
  simp only [isolate, putRx, List.filter_map, keeps]

theorem isolate_putRx_other {lane : RxLane} (differs : lane.channel ≠ channel) (s : Session) :
    (s.putRx lane).isolate channel = s.isolate channel := by
  have none (l : RxLane) (member : l ∈ (s.isolate channel).rx) : ¬l.channel = lane.channel := by
    intro same
    have own := (List.mem_filter.mp member).2
    exact differs (same.symm.trans (eq_of_beq own))
  rw [isolate_putRx, putRx, List.map_congr_left (fun l member => if_neg (none l member)),
    List.map_id']

/-- What a packet does where nobody watches. -/
theorem accept_unwatched {p : RxPacket} {lane : RxLane} (unwatched : s.monitor = none)
    (found : s.rxOn p.channel = some lane) : s.accept p =
      ({ s with timeline := s.timeline.observe (s.endTick p) } : Session).putRx
        (lane.accept (s.timeline.align (Block.received p.timestamp p.payload
          s.config.linkFormat.sampleSize))).1 := by
  rw [accept_eq found]
  dsimp only
  split
  · rw [report]
    dsimp only [putRx]
    rw [unwatched]
    rfl
  · rfl

/-- A packet reaches nothing but the receive lanes and the time. -/
theorem accept_frame (unwatched : s.monitor = none) (p : RxPacket) :
    (s.accept p).tx = s.tx ∧ (s.accept p).monitor = s.monitor ∧
      (s.accept p).halted = s.halted := by
  cases found : s.rxOn p.channel with
  | none =>
    rw [accept_absent found]
    exact ⟨rfl, rfl, rfl⟩
  | some lane =>
    rw [accept_unwatched unwatched found]
    exact ⟨rfl, rfl, rfl⟩

theorem isolate_accept {p : RxPacket} (unwatched : s.monitor = none) (own : p.channel = channel) :
    (s.accept p).isolate channel = ((s.isolate channel).accept p).isolate channel := by
  subst own
  cases found : s.rxOn p.channel with
  | none =>
    have alone := (s.isolate_rxOn p.channel).trans found
    rw [accept_absent found, accept_absent alone, isolate_isolate]
  | some lane =>
    have alone := (s.isolate_rxOn p.channel).trans found
    have quiet : (s.isolate p.channel).monitor = none := unwatched
    rw [accept_unwatched unwatched found, accept_unwatched quiet alone, isolate_putRx,
      isolate_putRx]
    have same : ({ s with timeline := s.timeline.observe (s.endTick p) } : Session).isolate
        p.channel = (s.isolate p.channel).isolate p.channel := by
      rw [isolate_isolate]
      rfl
    rw [same]
    rfl

theorem isolate_accept_other {p : RxPacket} (unwatched : s.monitor = none)
    (differs : p.channel ≠ channel) : (s.accept p).isolate channel = s.isolate channel := by
  cases found : s.rxOn p.channel with
  | none => rw [accept_absent found]
  | some lane =>
    have on : (lane.accept (s.timeline.align (Block.received p.timestamp p.payload
        s.config.linkFormat.sampleSize))).1.channel ≠ channel := by
      rwa [RxLane.accept_channel, channel_of_rxOn found]
    rw [accept_unwatched unwatched found, isolate_putRx_other on]
    rfl

section receive
variable {α : Type} [HostSample α]

theorem isolate_receive (channel : UInt8) (s : Session) (buffer : List α) (info : TransferMeta)
    (wait : Wait) :
    (s.receive channel buffer info wait).1 =
        ((s.isolate channel).receive channel buffer info wait).1 ∧
      (s.receive channel buffer info wait).2.isolate channel =
        ((s.isolate channel).receive channel buffer info wait).2 := by
  have alone (lane : RxLane) := s.isolate_putRx channel lane
  unfold receive
  rw [isolate_rxLane?]
  have config : (s.isolate channel).config = s.config := rfl
  have tolerance : (s.isolate channel).timeline.tolerance = s.timeline.tolerance := rfl
  rw [config, tolerance]
  split
  · exact ⟨rfl, rfl⟩
  · split
    · exact ⟨rfl, rfl⟩
    · dsimp only
      split
      · exact ⟨rfl, alone _⟩
      · split
        · exact ⟨rfl, alone _⟩
        · exact ⟨rfl, alone _⟩

theorem isolate_receive_other (differs : other ≠ channel) (s : Session) (buffer : List α)
    (info : TransferMeta) (wait : Wait) :
    (s.receive other buffer info wait).2.isolate channel = s.isolate channel := by
  rcases s.receive_cases other buffer info wait with ⟨after, _⟩ | ⟨lane, found, after, _⟩ <;>
    rw [after]
  rw [isolate_putRx_other]
  rwa [RxLane.take_channel, channel_of_rxOn found]

end receive

theorem isolate_halt (channel : UInt8) (s : Session) (reason : Option Fault) :
    (s.halt reason).isolate channel = (s.isolate channel).halt none := by
  rw [halt_eq, halt_eq]
  cases halted : s.halted with
  | true => simp [isolate, halted]
  | false =>
    have alone : (s.isolate channel).halted = false := halted
    simp [isolate, List.filter_map, Function.comp_def, halted]

section idle
variable (idle : s.tx = [])

include idle in
theorem halt_idle (reason : Option Fault) : (s.halt reason).tx = [] := by
  rw [halt_eq]
  split
  · exact idle
  · exact congrArg _ idle

include idle in
theorem transmit_idle {α : Type} [HostSample α] (channel : UInt8) (samples : List α)
    (info : TransferMeta) (reading : Except Fault Tick) (wait : Wait) :
    (s.transmit channel samples info reading wait).2 = s := by
  have absent : s.txLane? channel = .error (.invalidChannel channel) := by
    rw [txLane?, idle]
    rfl
  rw [transmit, absent]
  split <;> rfl

include idle in
theorem pass_idle (reading : Except Fault Tick) (draining : Bool) (answer : Except Fault Unit) :
    s.pass reading draining answer = { s with timeline := (s.timeline.now reading).2 } := by
  have nothing : (s.beginPass reading draining).lanes = [] := by
    rw [beginPass_lanes, loaded, idle]
    rfl
  have silent : (s.beginPass reading draining).packets = [] := by
    rw [TxPass.packets, TxPass.shipments, nothing]
    rfl
  rw [pass, silent, List.isEmpty_nil, if_pos rfl, TxPass.finish, TxPass.kept, nothing]
  change ({ s with timeline := _, tx := [] } : Session) = _
  rw [← idle]
  rfl

end idle
end Session

theorem LiveStream.windDown_idle {s : LiveStream} (idle : s.session.tx = [])
    (standing : TxStanding) : (s.windDown standing).session = s.session := by
  simp [windDown, idle]

end RadioStream
