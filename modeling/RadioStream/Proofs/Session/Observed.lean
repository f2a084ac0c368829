import RadioStream.Proofs.Session.Traffic

/-!
What a session shows of itself, step by step: the times that calls and workers read, the ticks
that it observes, and the snapshots that go to the monitor. The observed time is the largest tick
so far, and a snapshot bears the time that its step observed.
-/
namespace RadioStream
open Traffic (Within)

/-- The successful reading of a clock. -/
def readings : Except Fault Tick → List Tick
  | .ok t => [t]
  | .error _ => []

/-- The largest of some ticks and a number. -/
def latest (base : Int) (ticks : List Tick) : Int := (ticks.map Tick.toInt).foldl max base

theorem latest_append (n : Int) (first second : List Tick) :
    latest n (first ++ second) = latest (latest n first) second := by
  simp [latest]

theorem max_latest (n m : Int) (ticks : List Tick) :
    max (latest n ticks) m = latest (max n m) ticks := by
  induction ticks generalizing n with
  | nil => rfl
  | cons t rest ih =>
    change max (latest (max n t.toInt) rest) m = latest (max (max n m) t.toInt) rest
    rw [ih]
    congr 1
    omega

theorem le_latest (n : Int) (ticks : List Tick) : n ≤ latest n ticks := by
  have := max_latest n n ticks
  rw [Int.max_self] at this
  omega

namespace Timeline

theorem now_observed (l : Timeline) (reading : Except Fault Tick) :
    (l.now reading).2.observed.toInt = latest l.observed.toInt (readings reading) := by
  cases reading with
  | ok t => exact Tick.toInt_max _ _
  | error fault => rfl

theorem current_toInt (l : Timeline) : l.current.toInt = max l.observed.toInt 0 :=
  Tick.toInt_max _ _

end Timeline

namespace Session
variable {s : Session}

/-- Whether a transmission reads the clock: one with a timestamp does, unless its sample type or
its channel is refused before. -/
def asksClock (s : Session) (α : Type) [HostSample α] (channel : UInt8) (info : TransferMeta) :
    Bool :=
  HostSample.carries α s.config.hostFormat && (s.txOn channel).isSome && info.useTimestamp

theorem transmit_timeline {α : Type} [HostSample α] (s : Session) (channel : UInt8)
    (samples : List α) (info : TransferMeta) (reading : Except Fault Tick) (wait : Wait) :
    (s.transmit channel samples info reading wait).2.timeline =
      if s.asksClock α channel info then (s.timeline.now reading).2 else s.timeline := by
  unfold transmit asksClock
  cases carried : HostSample.carries α s.config.hostFormat with
  | false => rfl
  | true =>
    cases found : s.txOn channel with
    | none =>
      have absent : s.tx.find? (·.channel == channel) = none := found
      simp [txLane?, absent]
    | some lane =>
      rw [txLane?_eq_ok.mpr found]
      cases timed : info.useTimestamp with
      | false => cases samples <;> cases info.flush <;> simp [putTx]
      | true =>
        simp only [Bool.not_true, Bool.false_eq_true, if_false, if_true, Bool.true_and,
          Option.isSome_some]
        split
        · rfl
        · split
          · split <;> rfl
          · rfl

theorem pass_timeline (s : Session) (reading : Except Fault Tick) (draining : Bool)
    (answer : Except Fault Unit) :
    (s.pass reading draining answer).timeline = (s.timeline.now reading).2 := by
  rw [pass, (TxPass.finish_kept (s.beginPass reading draining) _).timeline_eq]
  rfl

/-- The tick behind the last sample of a packet. -/
def endTick (s : Session) (p : RxPacket) : Tick :=
  p.timestamp.later (p.payload.length / s.config.linkFormat.sampleSize)

theorem finish_received (s : Session) (p : RxPacket) :
    (Block.received p.timestamp p.payload s.config.linkFormat.sampleSize).finish =
      s.endTick p := by
  rw [Block.finish, Block.received_length s.config.linkFormat.sampleSize_pos]
  rfl

/-- What a packet for an active channel does. -/
theorem accept_eq {p : RxPacket} {lane : RxLane} (found : s.rxOn p.channel = some lane) :
    s.accept p =
      let timeline := s.timeline.observe (s.endTick p)
      let result := lane.accept (timeline.align
        (Block.received p.timestamp p.payload s.config.linkFormat.sampleSize))
      let after := ({ s with timeline := timeline }).putRx result.1
      if result.2 then after.report (result.1.snapshot timeline.current) else after := by
  rw [accept, rxLane?_eq_ok.mpr found, ← finish_received]
  rfl

theorem accept_absent {p : RxPacket} (absent : s.rxOn p.channel = none) : s.accept p = s := by
  rw [rxOn] at absent
  simp [accept, rxLane?, absent]

theorem accept_timeline (s : Session) (p : RxPacket) : (s.accept p).timeline =
    if (s.rxOn p.channel).isSome then s.timeline.observe (s.endTick p) else s.timeline := by
  cases found : s.rxOn p.channel with
  | none => rw [accept_absent found, if_neg (by simp)]
  | some lane =>
    rw [accept_eq found, Option.isSome_some, if_pos rfl]
    dsimp only
    split
    · rw [(report_kept _ _).timeline_eq]
      rfl
    · rfl

end Session

namespace World
variable {w : World} {e : Event}

/-- The times that a step reads as the present. -/
def timesRead (w : World) : Event → List Tick
  | @Event.transmit α _ channel _ info reading _ =>
    if w.session.asksClock α channel info then [(w.session.timeline.now reading).1] else []
  | .pass reading _ _ => [(w.session.timeline.now reading).1]
  | _ => []

/-- The ticks that a step observes: readings of the clock, and ends of packets on channels that
are active. -/
def ticksSeen (w : World) : Event → List Tick
  | @Event.transmit α _ channel _ info reading _ =>
    if w.session.asksClock α channel info then readings reading else []
  | .arrive p => if (w.session.rxOn p.channel).isSome then [w.session.endTick p] else []
  | .pass reading _ _ => readings reading
  | _ => []

theorem step_observed (w : World) (e : Event) :
    (w.step e).session.timeline.observed.toInt =
      latest w.session.timeline.observed.toInt (ticksSeen w e) := by
  cases e with
  | transmit channel samples info reading wait =>
    rw [step, Session.transmit_timeline, ticksSeen]
    split
    · exact Timeline.now_observed _ reading
    · rfl
  | resume place =>
    rw [step]
    split
    · rfl
    · next call _ =>
      dsimp only
      rw [w.session.resume_frame call]
      rfl
  | receive channel buffer info wait =>
    rw [step, w.session.receive_frame]
    rfl
  | arrive packet =>
    rw [step, Session.accept_timeline, ticksSeen]
    split
    · exact Tick.toInt_max _ _
    · rfl
  | pass reading draining answer =>
    rw [step, Session.pass_timeline]
    exact Timeline.now_observed _ reading
  | halt reason =>
    rw [step, (w.session.halt_kept reason).timeline_eq]
    rfl

end World
/-- The monitor with more snapshots, in the order in which it sees them. -/
def Monitor.seeing (m : Monitor) (shown : List Snapshot) : Monitor :=
  { m with snapshots := shown.reverse ++ m.snapshots }

@[simp] theorem Monitor.map_seeing_nil (monitor : Option Monitor) :
    monitor.map (·.seeing []) = monitor := by
  cases monitor <;> rfl

theorem Monitor.seeing_append (m : Monitor) (first second : List Snapshot) :
    m.seeing (first ++ second) = (m.seeing first).seeing second := by
  simp [seeing]

namespace TxPass

/-- The snapshots that follow an accepted write, with their channels. -/
def reports (p : TxPass) : List (UInt8 × Snapshot) :=
  p.shipments.map fun x =>
    (x.1.channel, (x.1.shipped x.2).snapshot p.session.timeline.current)

theorem finish_monitor (p : TxPass) : (p.finish (some (.ok ()))).monitor =
    p.session.monitor.map (·.seeing (p.reports.map Prod.snd)) := by
  have reported (shipments : List (TxLane × Shipment)) (s : Session) :
      (shipments.foldl (fun s x => s.report ((x.1.shipped x.2).snapshot s.timeline.current))
        s).monitor = s.monitor.map (·.seeing (shipments.map fun x =>
          (x.1.shipped x.2).snapshot s.timeline.current)) := by
    induction shipments generalizing s with
    | nil => simp [Monitor.seeing]
    | cons first rest ih =>
      rw [List.foldl_cons, ih, Session.report_monitor, (Session.report_kept s _).timeline_eq,
        Option.map_map]
      congr 1
      funext m
      simp [Monitor.seeing]
  rw [finish]
  dsimp only
  rw [reported, reports, List.map_map]
  rfl

end TxPass

namespace Session
variable {s : Session} {channel : UInt8} {reading : Except Fault Tick} {draining : Bool}

theorem accept_traffic {p : RxPacket} {lane : RxLane} (found : s.rxOn p.channel = some lane) :
    (s.accept p).trafficOn p.channel .rx = (lane.accept ((s.timeline.observe (s.endTick p)).align
      (Block.received p.timestamp p.payload s.config.linkFormat.sampleSize))).1.traffic := by
  rw [accept_eq found]
  dsimp only
  generalize accepted : lane.accept _ = result
  have on : result.1.channel = p.channel := by
    rw [← accepted, RxLane.accept_channel, channel_of_rxOn found]
  have stands : ({ s with timeline := s.timeline.observe (s.endTick p) } : Session).rxOn
      result.1.channel = some lane := by
    rw [on]
    exact found
  have put : (({ s with timeline := s.timeline.observe (s.endTick p) } : Session).putRx
      result.1).trafficOn p.channel .rx = result.1.traffic := by
    rw [trafficOn, rxOn_putRx stands, if_pos on]
    rfl
  split
  · rw [trafficOn_rx_of_core (report_kept _ _).rx_eq]
    exact put
  · exact put

/-- The reports of a channel are those of the batch that it ships. -/
theorem reports_on (distinct : (s.tx.map (·.channel)).Nodup) (channel : UInt8) :
    ((s.beginPass reading draining).reports.filter fun x =>
      x.1 = channel ∧ x.2.direction = .tx) =
      (((s.beginPass reading draining).lanes.find? (·.1.channel == channel)).bind fun x =>
        x.2.map fun shipment => (x.1.channel, (x.1.shipped shipment).snapshot
          (s.beginPass reading draining).session.timeline.current)).toList := by
  have same : ((fun x : UInt8 × Snapshot => decide (x.1 = channel ∧ x.2.direction = .tx)) ∘
      fun x : TxLane × Shipment => (x.1.channel, (x.1.shipped x.2).snapshot
        (s.beginPass reading draining).session.timeline.current)) =
      fun x => x.1.channel == channel := by
    funext x
    rw [Bool.eq_iff_iff]
    simp [TxLane.snapshot]
  rw [TxPass.reports, List.filter_map, same, shipments_single distinct]
  cases (s.beginPass reading draining).lanes.find? (·.1.channel == channel) with
  | none => rfl
  | some x => rcases x with ⟨lane, _ | shipment⟩ <;> rfl

/-- The counters in the report of a written batch: those of its lane with the batch counted. -/
theorem pass_reports (distinct : (s.tx.map (·.channel)).Nodup)
    (writes : (s.beginPass reading draining).packets.isEmpty = false) (channel : UInt8)
    (direction : Direction) :
    let shown := (s.beginPass reading draining).reports.filter fun x =>
      x.1 = channel ∧ x.2.direction = direction
    shown.length ≤ 1 ∧ ∀ x ∈ shown, (s.trafficOn channel direction).Within x.2.traffic ∧
      x.2.traffic.Within ((s.pass reading draining (.ok ())).trafficOn channel direction) := by
  cases direction with
  | rx =>
    rw [TxPass.reports, List.filter_map, List.filter_eq_nil_iff.mpr (by simp [TxLane.snapshot])]
    exact ⟨Nat.zero_le _, List.forall_mem_nil _⟩
  | tx =>
    rw [reports_on distinct]
    cases found : s.txOn channel with
    | none =>
      rw [(pass_absent found reading draining (.ok ())).2.2]
      exact ⟨Nat.zero_le _, List.forall_mem_nil _⟩
    | some l =>
      obtain ⟨x, there, left, settled⟩ := pass_traffic found reading draining (.ok ())
      rw [there, Option.bind_some]
      cases ships : x.2 with
      | none => exact ⟨Nat.zero_le _, List.forall_mem_nil _⟩
      | some shipment =>
        refine ⟨Nat.le_refl _, ?_⟩
        rintro shown member
        obtain rfl := List.mem_singleton.mp member
        rw [settled, if_neg (by simp [writes]), trafficOn, found]
        refine ⟨left.trans (.transfer ..), ?_⟩
        rw [TxPass.settled, ships]
        exact TxLane.settleTail_within _ _

end Session

namespace World

/-- The snapshots that a step shows to the monitor, with their channels. -/
def reported (w : World) : Event → List (UInt8 × Snapshot)
  | .arrive p => match w.session.rxOn p.channel with
    | none => []
    | some lane =>
      let timeline := w.session.timeline.observe (w.session.endTick p)
      let result := lane.accept (timeline.align
        (Block.received p.timestamp p.payload w.session.config.linkFormat.sampleSize))
      if result.2 && w.session.monitor.isSome then
        [(p.channel, result.1.snapshot timeline.current)] else []
  | .pass reading draining (.ok ()) =>
    let p := w.session.beginPass reading draining
    if !p.packets.isEmpty && w.session.monitor.isSome then p.reports else []
  | _ => []

theorem arrive_monitor (w : World) (packet : RxPacket) :
    (w.session.accept packet).monitor =
      w.session.monitor.map (·.seeing ((reported w (.arrive packet)).map Prod.snd)) := by
  rw [reported]
  cases found : w.session.rxOn packet.channel with
  | none => rw [Session.accept_absent found, List.map_nil, Monitor.map_seeing_nil]
  | some lane =>
    rw [Session.accept_eq found]
    dsimp only
    generalize lane.accept _ = result
    cases result.2 with
    | false => exact (Monitor.map_seeing_nil _).symm
    | true =>
      rw [if_pos rfl, Session.report_monitor]
      change w.session.monitor.map _ = _
      cases w.session.monitor <;> rfl

theorem pass_monitor (w : World) (reading : Except Fault Tick) (draining : Bool)
    (answer : Except Fault Unit) : (w.session.pass reading draining answer).monitor =
      w.session.monitor.map
        (·.seeing ((reported w (.pass reading draining answer)).map Prod.snd)) := by
  rw [Session.pass]
  cases none : (w.session.beginPass reading draining).packets.isEmpty with
  | true =>
    refine (Monitor.map_seeing_nil _).symm.trans ?_
    cases answer <;> simp [reported, none] <;> rfl
  | false =>
    cases answer with
    | error reason => exact (Session.halt_monitor _ _).trans (Monitor.map_seeing_nil _).symm
    | ok _ =>
      rw [if_neg Bool.false_ne_true, TxPass.finish_monitor]
      change w.session.monitor.map _ = _
      cases monitor : w.session.monitor with
      | none => rfl
      | some m => simp [reported, none, monitor]

/-- What is reported is what the monitor sees. -/
theorem step_monitor (w : World) (e : Event) : (w.step e).session.monitor =
    w.session.monitor.map (·.seeing ((reported w e).map Prod.snd)) := by
  have unseen : w.session.monitor.map (·.seeing []) = w.session.monitor :=
    Monitor.map_seeing_nil _
  cases e with
  | transmit channel samples info reading wait =>
    have same : (w.session.transmit channel samples info reading wait).2.monitor =
        w.session.monitor := by rw [w.session.transmit_frame]
    exact same.trans unseen.symm
  | resume place =>
    refine .trans ?_ unseen.symm
    rw [step]
    split
    · rfl
    · next call _ =>
      dsimp only
      rw [w.session.resume_frame call]
  | receive channel buffer info wait =>
    refine .trans ?_ unseen.symm
    rw [step, w.session.receive_frame]
  | arrive packet => exact w.arrive_monitor packet
  | pass reading draining answer => exact w.pass_monitor reading draining answer
  | halt reason => exact (w.session.halt_monitor reason).trans unseen.symm

/-- A snapshot bears the time that its step has observed. -/
theorem reported_time (w : World) (e : Event) :
    ∀ x ∈ reported w e, x.2.timestamp = (w.step e).session.timeline.current := by
  cases e with
  | arrive packet =>
    rw [reported, step, Session.accept_timeline]
    cases w.session.rxOn packet.channel with
    | none => exact List.forall_mem_nil _
    | some lane =>
      dsimp only
      split
      · rw [List.forall_mem_singleton]
        rfl
      · exact List.forall_mem_nil _
  | pass reading draining answer =>
    cases answer with
    | error reason => exact List.forall_mem_nil _
    | ok _ =>
      rw [reported, step, Session.pass_timeline]
      split
      · intro x member
        obtain ⟨_, _, rfl⟩ := List.mem_map.mp member
        rfl
      · exact List.forall_mem_nil _
  | _ => exact List.forall_mem_nil _

/-- Of one channel and direction a step reports one snapshot at most, and its counters are between
those before the step and those behind it. -/
theorem reported_between (w : World) (distinct : (w.session.tx.map (·.channel)).Nodup) (e : Event)
    (channel : UInt8) (direction : Direction) :
    let shown := (reported w e).filter fun x => x.1 = channel ∧ x.2.direction = direction
    shown.length ≤ 1 ∧ ∀ x ∈ shown,
      (w.session.trafficOn channel direction).Within x.2.traffic ∧
      x.2.traffic.Within ((w.step e).session.trafficOn channel direction) := by
  cases e with
  | arrive packet =>
    rw [reported]
    cases found : w.session.rxOn packet.channel with
    | none => exact ⟨Nat.zero_le _, List.forall_mem_nil _⟩
    | some lane =>
      dsimp only
      split
      · next taken =>
        rw [Bool.and_eq_true] at taken
        refine ⟨List.length_filter_le _ _, ?_⟩
        intro x member
        obtain ⟨only, here⟩ := List.mem_filter.mp member
        obtain rfl := List.mem_singleton.mp only
        obtain ⟨rfl, rfl⟩ := of_decide_eq_true here
        dsimp only [RxLane.snapshot]
        rw [step, Session.accept_traffic found, Session.trafficOn, found]
        exact ⟨lane.accept_within _, .refl _⟩
      · exact ⟨Nat.zero_le _, List.forall_mem_nil _⟩
  | pass reading draining answer =>
    cases answer with
    | error reason => exact ⟨Nat.zero_le _, List.forall_mem_nil _⟩
    | ok _ =>
      rw [reported]
      split
      · next some =>
        rw [Bool.and_eq_true, Bool.not_eq_true'] at some
        exact Session.pass_reports distinct some.1 channel direction
      · exact ⟨Nat.zero_le _, List.forall_mem_nil _⟩
  | _ => exact ⟨Nat.zero_le _, List.forall_mem_nil _⟩

end World
end RadioStream
