import RadioStream.Proofs.Transmission.Pass

/-!
What no step of a session changes, and which lanes a step leaves alone: the transmit
side does not touch receive lanes, and the receive side touches transmit lanes only
where the monitor ends the stream.
-/
namespace RadioStream

namespace Timeline
variable {timeline : Timeline}

@[simp] theorem now_tolerance (reading : Except Fault Tick) :
    (timeline.now reading).2.tolerance = timeline.tolerance := by
  cases reading <;> rfl

@[simp] theorem now_alignedStart (reading : Except Fault Tick) :
    (timeline.now reading).2.alignedStart = timeline.alignedStart := by
  cases reading <;> rfl

end Timeline

namespace Session
variable {s t u : Session} {channel : UInt8} {wait : Wait}

/-- What stays the same over all steps of a session. -/
structure Continues (s t : Session) : Prop where
  config_eq : t.config = s.config
  tolerance_eq : t.timeline.tolerance = s.timeline.tolerance
  alignedStart_eq : t.timeline.alignedStart = s.timeline.alignedStart
  txChannels_eq : t.tx.map (·.channel) = s.tx.map (·.channel)
  rxChannels_eq : t.rx.map (·.channel) = s.rx.map (·.channel)

namespace Continues

theorem refl (s : Session) : Continues s s := ⟨rfl, rfl, rfl, rfl, rfl⟩

theorem trans (first : Continues s t) (second : Continues t u) : Continues s u :=
  ⟨second.config_eq.trans first.config_eq, second.tolerance_eq.trans first.tolerance_eq,
    second.alignedStart_eq.trans first.alignedStart_eq,
    second.txChannels_eq.trans first.txChannels_eq, second.rxChannels_eq.trans first.rxChannels_eq⟩

end Continues

theorem Kept.continues (kept : Kept s t) : Continues s t := by
  have tx := congrArg (List.map (·.channel)) kept.tx_eq
  have rx := congrArg (List.map (·.channel)) kept.rx_eq
  rw [List.map_map, List.map_map] at tx rx
  exact ⟨kept.config_eq, congrArg Timeline.tolerance kept.timeline_eq,
    congrArg Timeline.alignedStart kept.timeline_eq, tx, rx⟩

theorem continues_timeline {timeline : Timeline}
    (tolerance : timeline.tolerance = s.timeline.tolerance)
    (aligned : timeline.alignedStart = s.timeline.alignedStart) :
    Continues s { s with timeline := timeline } := ⟨rfl, tolerance, aligned, rfl, rfl⟩

theorem putTx_continues (s : Session) (lane : TxLane) : Continues s (s.putTx lane) := by
  refine ⟨rfl, rfl, rfl, ?_, rfl⟩
  rw [putTx, List.map_map]
  apply List.map_congr_left
  intro l _
  by_cases same : l.channel = lane.channel <;> simp [same]

theorem putRx_continues (s : Session) (lane : RxLane) : Continues s (s.putRx lane) := by
  refine ⟨rfl, rfl, rfl, rfl, ?_⟩
  rw [putRx, List.map_map]
  apply List.map_congr_left
  intro l _
  by_cases same : l.channel = lane.channel <;> simp [same]

section transmit
variable {α : Type} [HostSample α] {samples : List α} {info : TransferMeta}
  {reading : Except Fault Tick}

/-- All that a transmission does: nothing to any lane, a refusal that is counted, a flush
mark, or an offer to the queue. -/
theorem transmit_cases (s : Session) (channel : UInt8) (samples : List α) (info : TransferMeta)
    (reading : Except Fault Tick) (wait : Wait) :
    ∃ timeline, timeline.tolerance = s.timeline.tolerance ∧
      timeline.alignedStart = s.timeline.alignedStart ∧
      let block := Block.outgoing info.anchor? info.flush
        (HostSample.toLink s.config.hostFormat s.config.linkFormat samples)
        s.config.linkFormat.sampleSize
      let s' := { s with timeline := timeline }
      let outcome := (s.transmit channel samples info reading wait).1
      let after := (s.transmit channel samples info reading wait).2
      (after = s' ∧ (∀ requested now, outcome ≠ .error (.late requested now)) ∧
        ∀ accepted, outcome = .ok accepted → accepted = 0) ∨
      ∃ lane, s.txOn channel = some lane ∧
        ((∃ now, outcome = .error (.late info.timestamp now) ∧
            after = s'.putTx { lane with traffic := lane.traffic.countLate }) ∨
          (outcome = .ok 0 ∧ after = s'.putTx { lane with queue := lane.queue.markFlush }) ∨
          (outcome = (lane.queue.offer block wait).1.mapError QueueFault.toFault ∧
            after = s'.putTx { lane with queue := (lane.queue.offer block wait).2 })) := by
  dsimp only
  unfold transmit
  split
  · exact ⟨s.timeline, rfl, rfl, .inl ⟨rfl, by simp, by simp⟩⟩
  · split
    · next fault missing =>
      refine ⟨s.timeline, rfl, rfl, .inl ⟨rfl, ?_, by simp⟩⟩
      unfold txLane? at missing
      split at missing
      · contradiction
      · rw [← Except.error.inj missing]
        simp
    · next lane found =>
      have on := txLane?_eq_ok.mp found
      dsimp only
      refine ⟨(if info.useTimestamp then s.timeline.now reading
        else (s.timeline.observed, s.timeline)).2, ?_, ?_, ?_⟩
      · split
        · exact Timeline.now_tolerance reading
        · rfl
      · split
        · exact Timeline.now_alignedStart reading
        · rfl
      · generalize (if info.useTimestamp then s.timeline.now reading
          else (s.timeline.observed, s.timeline)) = observed
        split
        · exact .inr ⟨lane, on, .inl ⟨_, rfl, rfl⟩⟩
        · split
          · split
            · exact .inr ⟨lane, on, .inr (.inl ⟨rfl, rfl⟩)⟩
            · exact .inl ⟨rfl, by simp, by simp⟩
          · exact .inr ⟨lane, on, .inr (.inr ⟨rfl, rfl⟩)⟩

theorem transmit_continues (s : Session) (channel : UInt8) (samples : List α)
    (info : TransferMeta) (reading : Except Fault Tick) (wait : Wait) :
    Continues s (s.transmit channel samples info reading wait).2 := by
  obtain ⟨timeline, tolerance, aligned, effect⟩ :=
    s.transmit_cases channel samples info reading wait
  have moved := continues_timeline tolerance aligned
  rcases effect with ⟨after, _⟩ | ⟨lane, _, ⟨_, _, after⟩ | ⟨_, after⟩ | ⟨_, after⟩⟩ <;> rw [after]
  · exact moved
  · exact moved.trans (putTx_continues _ _)
  · exact moved.trans (putTx_continues _ _)
  · exact moved.trans (putTx_continues _ _)

/-- A call with samples reaches the time and the transmit lanes only. -/
theorem transmit_frame (s : Session) (channel : UInt8) (samples : List α) (info : TransferMeta)
    (reading : Except Fault Tick) (wait : Wait) :
    (s.transmit channel samples info reading wait).2 =
      { s with
        timeline := (s.transmit channel samples info reading wait).2.timeline
        tx := (s.transmit channel samples info reading wait).2.tx } := by
  obtain ⟨timeline, _, _, effect⟩ := s.transmit_cases channel samples info reading wait
  rcases effect with ⟨after, _⟩ | ⟨lane, _, ⟨_, _, after⟩ | ⟨_, after⟩ | ⟨_, after⟩⟩ <;>
    rw [after] <;> rfl

theorem transmit_rx (s : Session) (channel : UInt8) (samples : List α) (info : TransferMeta)
    (reading : Except Fault Tick) (wait : Wait) :
    (s.transmit channel samples info reading wait).2.rx = s.rx := by
  rw [transmit_frame]

end transmit

section receive
variable {α : Type} [HostSample α]

theorem receive_cases (s : Session) (channel : UInt8) (buffer : List α) (info : TransferMeta)
    (wait : Wait) :
    ((s.receive channel buffer info wait).2 = s ∧
      ∀ count, (s.receive channel buffer info wait).1.outcome ≠ .ok count) ∨
    ∃ lane, s.rxOn channel = some lane ∧
      let taken := lane.take info.anchor? buffer.length wait s.timeline.tolerance
      (s.receive channel buffer info wait).2 = s.putRx taken.2 ∧
      ((∃ run, taken.1 = .ok run ∧
          let filled := HostSample.fillFromLink s.config.hostFormat s.config.linkFormat
            run.payload buffer
          (s.receive channel buffer info wait).1 =
            ⟨.ok filled.1, filled.2, { info with timestamp := run.start }⟩) ∨
        (∃ fault, taken.1 = .error fault ∧
          ((s.receive channel buffer info wait).1 = ⟨.ok 0, buffer, info⟩ ∨
            (s.receive channel buffer info wait).1 =
              ⟨.error fault.toFault, buffer, info⟩))) := by
  rw [receive]
  split
  · exact .inl ⟨rfl, by simp⟩
  · split
    · exact .inl ⟨rfl, by simp⟩
    · next lane found =>
      refine .inr ⟨lane, rxLane?_eq_ok.mp found, ?_⟩
      dsimp only
      split
      · next run taken => exact ⟨rfl, .inl ⟨run, taken, rfl⟩⟩
      · next fault taken =>
        split
        · exact ⟨rfl, .inr ⟨fault, taken, .inl rfl⟩⟩
        · exact ⟨rfl, .inr ⟨fault, taken, .inr rfl⟩⟩

theorem receive_continues (s : Session) (channel : UInt8) (buffer : List α)
    (info : TransferMeta) (wait : Wait) :
    Continues s (s.receive channel buffer info wait).2 := by
  rcases s.receive_cases channel buffer info wait with ⟨after, _⟩ | ⟨lane, _, after, _⟩ <;>
    rw [after]
  · exact .refl s
  · exact putRx_continues s _

/-- A call for samples reaches the receive lanes only. -/
theorem receive_frame (s : Session) (channel : UInt8) (buffer : List α) (info : TransferMeta)
    (wait : Wait) : (s.receive channel buffer info wait).2 =
      { s with rx := (s.receive channel buffer info wait).2.rx } := by
  rcases s.receive_cases channel buffer info wait with ⟨after, _⟩ | ⟨lane, _, after, _⟩ <;>
    rw [after]
  rfl

theorem receive_tx (s : Session) (channel : UInt8) (buffer : List α) (info : TransferMeta)
    (wait : Wait) : (s.receive channel buffer info wait).2.tx = s.tx := by
  rw [receive_frame]

end receive

theorem resume_continues (s : Session) (call : WaitingCall) :
    Continues s (s.resume call).2 := by
  rw [resume]
  split
  · exact .refl s
  · exact putTx_continues s _

/-- A waiting call reaches the transmit lanes only. -/
theorem resume_frame (s : Session) (call : WaitingCall) :
    (s.resume call).2 = { s with tx := (s.resume call).2.tx } := by
  rw [resume]
  split <;> rfl

theorem resume_rx (s : Session) (call : WaitingCall) : (s.resume call).2.rx = s.rx := by
  rw [resume_frame]

/-- All that a packet does: nothing, or what its lane accepts, and then a report at most. -/
theorem accept_cases (s : Session) (p : RxPacket) :
    (s.accept p = s ∧ s.rxOn p.channel = none) ∨
    ∃ lane timeline, s.rxOn p.channel = some lane ∧
      timeline.tolerance = s.timeline.tolerance ∧
      timeline.alignedStart = s.timeline.alignedStart ∧
      let block := Block.received p.timestamp p.payload s.config.linkFormat.sampleSize
      Kept (({ s with timeline := timeline }).putRx (lane.accept (s.timeline.align block)).1)
        (s.accept p) := by
  rw [accept]
  split
  · next fault missing =>
    refine .inl ⟨rfl, ?_⟩
    unfold rxLane? at missing
    split at missing
    · contradiction
    · assumption
  · next lane found =>
    refine .inr ⟨lane, s.timeline.observe (Block.received p.timestamp p.payload
      s.config.linkFormat.sampleSize).finish, rxLane?_eq_ok.mp found, rfl, rfl, ?_⟩
    dsimp only
    split
    · exact report_kept _ _
    · exact .refl _

theorem accept_continues (s : Session) (p : RxPacket) : Continues s (s.accept p) := by
  rcases s.accept_cases p with ⟨after, _⟩ | ⟨lane, timeline, _, tolerance, aligned, kept⟩
  · rw [after]
    exact .refl s
  · exact (continues_timeline tolerance aligned).trans ((putRx_continues _ _).trans kept.continues)

theorem accept_tx (s : Session) (p : RxPacket) :
    (s.accept p).tx.map TxLane.core = s.tx.map TxLane.core := by
  rcases s.accept_cases p with ⟨after, _⟩ | ⟨lane, timeline, _, _, _, kept⟩
  · rw [after]
  · exact kept.tx_eq

theorem pass_continues (s : Session) (reading : Except Fault Tick) (draining : Bool)
    (answer : Except Fault Unit) : Continues s (s.pass reading draining answer) := by
  let p := s.beginPass reading draining
  have began : Continues s { p.session with tx := p.kept } := by
    refine ⟨rfl, Timeline.now_tolerance reading, Timeline.now_alignedStart reading, ?_, rfl⟩
    exact (List.map_map ..).trans (s.lanes_channels reading draining)
  have kept := TxPass.finish_kept p (if p.packets.isEmpty then none else some answer)
  exact began.trans kept.continues

theorem pass_rx (s : Session) (reading : Except Fault Tick) (draining : Bool)
    (answer : Except Fault Unit) :
    (s.pass reading draining answer).rx.map RxLane.core = s.rx.map RxLane.core :=
  (TxPass.finish_kept (s.beginPass reading draining)
    (if (s.beginPass reading draining).packets.isEmpty then none else some answer)).rx_eq

end Session

namespace World

theorem step_continues (w : World) (e : Event) : w.session.Continues (w.step e).session := by
  cases e with
  | transmit channel samples info reading wait =>
    exact w.session.transmit_continues channel samples info reading wait
  | resume place =>
    rw [step]
    dsimp only
    split
    · exact .refl _
    · exact w.session.resume_continues _
  | receive channel buffer info wait =>
    exact w.session.receive_continues channel buffer info wait
  | arrive packet => exact w.session.accept_continues packet
  | pass reading draining answer => exact w.session.pass_continues reading draining answer
  | halt reason => exact (w.session.halt_kept reason).continues

end World

namespace Timeline
variable {l m n : Timeline}

/-- Time goes on: a later tick may have been observed, and nothing else is different. -/
def GoesOn (l m : Timeline) : Prop := ∃ t, l.observed ≤ t ∧ m = { l with observed := t }

theorem GoesOn.refl (l : Timeline) : GoesOn l l := ⟨l.observed, Int.le_refl _, rfl⟩

theorem GoesOn.trans (first : GoesOn l m) (second : GoesOn m n) : GoesOn l n := by
  obtain ⟨s, earlier, rfl⟩ := first
  obtain ⟨t, later, rfl⟩ := second
  exact ⟨t, Int.le_trans earlier later, rfl⟩

theorem GoesOn.lead_eq (onward : GoesOn l m) : m.lead = l.lead := by
  obtain ⟨t, _, rfl⟩ := onward
  rfl

theorem observe_goesOn (l : Timeline) (t : Tick) : GoesOn l (l.observe t) := by
  refine ⟨max l.observed t, ?_, rfl⟩
  rw [Tick.le_def, Tick.toInt_max]
  omega

theorem now_goesOn (l : Timeline) (reading : Except Fault Tick) : GoesOn l (l.now reading).2 := by
  cases reading with
  | ok t => exact observe_goesOn l t
  | error fault => exact .refl l

end Timeline

namespace Session
variable {α : Type} [HostSample α]

theorem transmit_goesOn (s : Session) (channel : UInt8) (samples : List α) (info : TransferMeta)
    (reading : Except Fault Tick) (wait : Wait) :
    s.timeline.GoesOn (s.transmit channel samples info reading wait).2.timeline := by
  have read : s.timeline.GoesOn (if info.useTimestamp then s.timeline.now reading
      else (s.timeline.observed, s.timeline)).2 := by
    split
    · exact s.timeline.now_goesOn reading
    · exact .refl _
  unfold transmit
  split
  · exact .refl _
  · split
    · exact .refl _
    · dsimp only
      generalize (if info.useTimestamp then s.timeline.now reading
        else (s.timeline.observed, s.timeline)) = observed at read ⊢
      split
      · exact read
      · split
        · split <;> exact read
        · exact read

theorem receive_goesOn (s : Session) (channel : UInt8) (buffer : List α) (info : TransferMeta)
    (wait : Wait) : s.timeline.GoesOn (s.receive channel buffer info wait).2.timeline := by
  rcases s.receive_cases channel buffer info wait with ⟨after, _⟩ | ⟨lane, _, after, _⟩ <;>
    rw [after]
  · exact .refl _
  · exact .refl _

theorem resume_goesOn (s : Session) (call : WaitingCall) :
    s.timeline.GoesOn (s.resume call).2.timeline := by
  rw [resume]
  split <;> exact .refl _

theorem accept_goesOn (s : Session) (p : RxPacket) :
    s.timeline.GoesOn (s.accept p).timeline := by
  rw [accept]
  split
  · exact .refl _
  · dsimp only
    split
    · rw [(report_kept _ _).timeline_eq]
      exact s.timeline.observe_goesOn _
    · exact s.timeline.observe_goesOn _

theorem pass_goesOn (s : Session) (reading : Except Fault Tick) (draining : Bool)
    (answer : Except Fault Unit) :
    s.timeline.GoesOn (s.pass reading draining answer).timeline := by
  have kept := TxPass.finish_kept (s.beginPass reading draining)
    (if (s.beginPass reading draining).packets.isEmpty then none else some answer)
  rw [pass, kept.timeline_eq]
  exact s.timeline.now_goesOn reading

end Session

theorem World.step_goesOn (w : World) (e : Event) :
    w.session.timeline.GoesOn (w.step e).session.timeline := by
  cases e with
  | transmit channel samples info reading wait =>
    exact w.session.transmit_goesOn channel samples info reading wait
  | resume place =>
    rw [step]
    dsimp only
    split
    · exact .refl _
    · exact w.session.resume_goesOn _
  | receive channel buffer info wait => exact w.session.receive_goesOn channel buffer info wait
  | arrive packet => exact w.session.accept_goesOn packet
  | pass reading draining answer => exact w.session.pass_goesOn reading draining answer
  | halt reason =>
    rw [step, (w.session.halt_kept reason).timeline_eq]
    exact .refl _

end RadioStream
