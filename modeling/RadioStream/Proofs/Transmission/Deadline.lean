import RadioStream.Proofs.Transmission.Gate
import RadioStream.Proofs.Transmission.Progress

/-!
Timed transmission keeps its deadlines. A timed batch that a pass writes is within the
tolerance at the time of the pass, and only a pass that has seen the halt writes it
before its lead. A transmission that comes too late is refused and counted, and nothing
of it stays behind.
-/
namespace RadioStream

theorem Timeline.now_lead (l : Timeline) (reading : Except Fault Tick) :
    (l.now reading).2.lead = l.lead := (l.now_goesOn reading).lead_eq

namespace Session
variable {s : Session} {channel : UInt8} {reading : Except Fault Tick}

/-- Before the halt is seen, a timed batch leaves the hand only when it is due. -/
theorem departed_due {d : Departure} (left : d ∈ s.departed reading false channel)
    (timed : d.batch.timed = true) :
    d.batch.start ≤ (s.timeline.now reading).1.later s.timeline.lead := by
  cases found : s.txOn channel with
  | none =>
    rw [(pass_absent found reading false (.ok ())).2.1] at left
    contradiction
  | some lane =>
    rw [departed_on found, Option.mem_toList] at left
    split at left
    · next leaves =>
      obtain ⟨b, held, rfl⟩ := Option.map_eq_some_iff.mp left
      have stands := (TxLane.leaves_of_timed held timed).mp leaves
      rw [passGate, gate_eq_some, Timeline.now_lead] at stands
      exact stands.2.resolve_left Bool.false_ne_true
    · contradiction

/-- The session with one more late transfer counted for a channel. -/
def countLate (s : Session) (channel : UInt8) : Session :=
  { s with tx := s.tx.map fun lane =>
    if lane.channel = channel then { lane with traffic := lane.traffic.countLate } else lane }

theorem putTx_countLate {lane : TxLane} (distinct : (s.tx.map (·.channel)).Nodup)
    (found : s.txOn channel = some lane) :
    s.putTx { lane with traffic := lane.traffic.countLate } = s.countLate channel := by
  obtain rfl := channel_of_txOn found
  rw [putTx, countLate]
  congr 1
  apply List.map_congr_left
  intro other member
  by_cases same : other.channel = lane.channel
  · have there := find?_of_mem distinct member
    rw [same] at there
    obtain rfl := Option.some.inj (there.symm.trans found)
    simp
  · rw [if_neg same, if_neg same]

theorem txOn_countLate (s : Session) (channel other : UInt8) :
    (s.countLate channel).txOn other = (s.txOn other).map fun lane =>
      if lane.channel = channel then { lane with traffic := lane.traffic.countLate } else lane := by
  have keeps : ((·.channel == other) ∘ fun lane : TxLane =>
      if lane.channel = channel then { lane with traffic := lane.traffic.countLate } else lane) =
      (·.channel == other) := by
    funext lane
    by_cases same : lane.channel = channel <;> simp [same]
  rw [txOn, countLate, List.find?_map, keeps]
  rfl

theorem lateOn_countLate {lane : TxLane} (found : s.txOn channel = some lane) :
    (s.countLate channel).lateOn channel = min (s.lateOn channel + 1) 0xffffffff := by
  rw [lateOn, txOn_countLate, lateOn, found, Option.map_some, if_pos (channel_of_txOn found)]
  rfl

/-- What does not read the counters does not see the count. -/
theorem elim_countLate {β : Type} {f : TxLane → β}
    (blind : ∀ lane, f { lane with traffic := lane.traffic.countLate } = f lane)
    (s : Session) (channel other : UInt8) (none : β) :
    ((s.countLate channel).txOn other).elim none f = (s.txOn other).elim none f := by
  rw [txOn_countLate]
  cases s.txOn other with
  | none => rfl
  | some lane =>
    by_cases same : lane.channel = channel
    · rw [Option.map_some, if_pos same]
      exact blind lane
    · rw [Option.map_some, if_neg same]

theorem inHand_countLate (s : Session) (channel other : UInt8) :
    (s.countLate channel).inHand other = s.inHand other :=
  elim_countLate (fun _ => rfl) s channel other []

theorem inQueue_countLate (s : Session) (channel other : UInt8) :
    (s.countLate channel).inQueue other = s.inQueue other :=
  elim_countLate (fun _ => rfl) s channel other []

theorem transmit_late {α : Type} [HostSample α] {lane : TxLane}
    (distinct : (s.tx.map (·.channel)).Nodup)
    (carries : HostSample.carries α s.config.hostFormat = true)
    (found : s.txOn channel = some lane) (samples : List α) {info : TransferMeta}
    (timed : info.useTimestamp = true)
    (late : info.timestamp.later s.timeline.tolerance < (s.timeline.now reading).1) (wait : Wait) :
    s.transmit channel samples info reading wait =
      (.error (.late info.timestamp (s.timeline.now reading).1),
        countLate { s with timeline := (s.timeline.now reading).2 } channel) := by
  have there : s.txLane? channel = .ok lane := txLane?_eq_ok.mpr found
  have isLate : (s.timeline.now reading).2.isLate info.timestamp (s.timeline.now reading).1 =
      true := by
    rw [Timeline.isLate, Timeline.now_tolerance]
    exact decide_eq_true late
  have counted := putTx_countLate (s := { s with timeline := (s.timeline.now reading).2 })
    distinct found
  simp [transmit, carries, there, timed, isLate, ← counted]

end Session

namespace World
variable {c : StreamConfig} {w : World} {channel : UInt8}

/-- What a channel sends later was waiting already or is accepted later. -/
theorem TxSound.offered_later (sound : TxSound c w) (later : List Event) {p : TxPacket}
    (sent : p ∈ observe offered w later) :
    p.content c.linkFormat.sampleSize <:+:
      w.session.unsent p.channel ++ observe (accepted p.channel) w later := by
  have kept (w : World) (e : Event) (sound : TxSound c w) : TxSound c (w.step e) := (sound.step e).1
  have balance := observe_balance (fun w => w.session.unsent p.channel) kept
    (fun w e sound => ((sound.step e).2 p.channel).content_eq) sound later
  have faithful := mem_observe kept
    (fun w e sound => departed_faithful sound e p.channel) sound later
  have here : p ∈ (observe offered w later).filter (·.channel == p.channel) :=
    List.mem_filter.mpr ⟨sent, beq_self_eq_true p.channel⟩
  rw [observe_filter, observe_congr (Q := fun _ => True) kept
    (fun w e sound _ => offered_departed sound e p.channel) sound (fun _ _ => trivial),
    ← observe_flatMap] at here
  have inside := (Departure.content_infix faithful here).2
  rw [balance, ← observe_flatMap]
  exact inside.trans (List.prefix_append _ _).isInfix

/-- A refusal as late leaves one count behind, whatever the samples were. -/
theorem TxSound.step_late {α : Type} [HostSample α] (sound : TxSound c w)
    (carries : HostSample.carries α c.hostFormat = true) {lane : TxLane}
    (found : w.session.txOn channel = some lane) (samples : List α) {info : TransferMeta}
    {reading : Except Fault Tick} (timed : info.useTimestamp = true)
    (late : info.timestamp.later c.tuning.lateTolerance.toNat < (w.session.timeline.now reading).1)
    (wait : Wait) :
    (w.session.transmit channel samples info reading wait).1 =
        .error (.late info.timestamp (w.session.timeline.now reading).1) ∧
      w.step (.transmit channel samples info reading wait) =
        ⟨Session.countLate { w.session with timeline := (w.session.timeline.now reading).2 } channel,
          w.waiting⟩ := by
  rw [← sound.config_eq] at carries
  rw [← sound.tolerance_eq] at late
  have refused := Session.transmit_late sound.session.distinct carries found samples timed late wait
  refine ⟨congrArg Prod.fst refused, ?_⟩
  rw [World.step, refused]
  cases wait <;> simp [WaitingCall.ofTransmit?]

theorem run_lead (c : StreamConfig) (monitor : Option Monitor) (clock : Tick)
    (events : List Event) :
    ((opened c monitor clock).run events).session.timeline.lead = c.txBatch :=
  run_invariant (P := fun w => w.session.timeline.lead = c.txBatch)
    (fun w e same => (w.step_goesOn e).lead_eq.trans same) rfl events

theorem run_txChannels (c : StreamConfig) (monitor : Option Monitor) (clock : Tick)
    (events : List Event) :
    ((opened c monitor clock).run events).session.tx.map (·.channel) = c.txChannels := by
  refine run_invariant (P := fun w => w.session.tx.map (·.channel) = c.txChannels)
    (fun w e same => (w.step_continues e).txChannels_eq.trans same) ?_ events
  exact (List.map_map ..).trans (List.map_id _)

theorem run_txOn (there : channel ∈ c.txChannels)
    (monitor : Option Monitor) (clock : Tick) (events : List Event) :
    ∃ lane, ((opened c monitor clock).run events).session.txOn channel = some lane :=
  Session.txOn_of_mem ((run_txChannels c monitor clock events).symm ▸ there)

/-- In every state that callers, workers and clock can bring about, a pass writes timed batches
within the tolerance and not before their lead, unless it has seen the halt; and a transmission
out of tolerance leaves nothing but its count, whatever happens later. -/
theorem deadlines_kept {available : UInt8} (valid : c.validate available = .ok ())
    (monitor : Option Monitor) (clock : Tick) (past : List Event) :
    let w := (opened c monitor clock).run past
    let size := c.linkFormat.sampleSize
    let tolerance := c.tuning.lateTolerance.toNat
    (∀ reading draining answer channel,
      let now := (w.session.timeline.now reading).1
      let e := Event.pass reading draining answer
      (offered w e).filter (·.channel == channel) =
          (departed channel w e).flatMap Departure.sent ∧
        ∀ d ∈ departed channel w e, ∀ packets ∈ d.packets,
          packets.flatMap (TxPacket.content size) = d.batch.content ∧
          (d.batch.timed = true → now ≤ d.batch.start.later tolerance ∧
            (draining = false → d.batch.start ≤ now.later c.txBatch))) ∧
    (∀ (α : Type) [HostSample α] (channel : UInt8) (samples : List α) (info : TransferMeta)
      (reading : Except Fault Tick) (wait : Wait),
      let now := (w.session.timeline.now reading).1
      let result := w.session.transmit channel samples info reading wait
      let after := w.step (.transmit channel samples info reading wait)
      HostSample.carries α c.hostFormat = true → channel ∈ c.txChannels →
      info.useTimestamp = true → info.timestamp.later tolerance < now →
        result.1 = .error (.late info.timestamp now) ∧
        after = ⟨Session.countLate
          { w.session with timeline := (w.session.timeline.now reading).2 } channel, w.waiting⟩ ∧
        after.session.lateOn channel = min (w.session.lateOn channel + 1) 0xffffffff ∧
        (∀ other, after.session.inHand other = w.session.inHand other ∧
          after.session.inQueue other = w.session.inQueue other) ∧
        ∀ later, ∀ p ∈ observe offered after later,
          p.content size <:+:
            w.session.unsent p.channel ++ observe (accepted p.channel) after later) := by
  intro w size tolerance
  have sound : TxSound c w := run_txSound valid monitor clock past
  constructor
  · intro reading draining answer channel now e
    refine ⟨offered_departed sound e channel, ?_⟩
    intro d left packets sent
    have time := (((sound.session.pass reading draining answer).2 channel).2.2 d left).1
    have faithful := departed_faithful sound e channel d left
    rw [Departure.Faithful, Option.mem_def.mp sent] at faithful
    refine ⟨faithful.1, fun timed => ⟨?_, ?_⟩⟩
    · have inTime := faithful.2.1 timed
      rwa [time] at inTime
    · rintro rfl
      rw [← run_lead c monitor clock past]
      exact Session.departed_due left timed
  · intro α _ channel samples info reading wait now result after carries there timed late
    obtain ⟨lane, found⟩ := run_txOn there monitor clock past
    obtain ⟨outcome, left⟩ := sound.step_late carries found samples timed late wait
    have stands (other : UInt8) : after.session.inHand other = w.session.inHand other ∧
        after.session.inQueue other = w.session.inQueue other := by
      dsimp only [after]
      rw [left]
      exact ⟨Session.inHand_countLate _ channel other, Session.inQueue_countLate _ channel other⟩
    refine ⟨outcome, left, ?_, stands, ?_⟩
    · dsimp only [after]
      rw [left]
      exact Session.lateOn_countLate (s := { w.session with timeline := _ }) found
    · intro later p sent
      have inside := (sound.step _).1.offered_later later sent
      rwa [Session.unsent_eq, (stands p.channel).1, (stands p.channel).2, ← Session.unsent_eq]
        at inside

/-- A batch that waits for tick 8 in the hand, four ticks of lead before it. -/
def early : List Event :=
  [.transmit 0 [(⟨1, -1⟩ : IntSample), ⟨2, -2⟩] (TransferMeta.anchored (Tick.clamp 8)).flushed
      (.ok .zero) .poll,
    .pass (.ok (Tick.clamp 3)) false (.ok ())]

theorem deadlines_kept_early :
    let w := (opened smallBatches none .zero).run early
    let now := (w.session.timeline.now (.ok (Tick.clamp 5))).1
    let e := Event.pass (.ok (Tick.clamp 5)) false (.ok ())
    let samples := [(⟨3, -3⟩ : IntSample)]
    let info := TransferMeta.anchored (Tick.clamp 4)
    smallBatches.validate 2 = .ok () ∧
      HostSample.carries IntSample smallBatches.hostFormat = true ∧
      0 ∈ smallBatches.txChannels ∧ info.useTimestamp = true ∧ info.timestamp.later 0 < now ∧
      (∀ d ∈ departed 0 w e, ∀ packets ∈ d.packets, d.batch.timed = true →
        now ≤ d.batch.start.later 0 ∧ d.batch.start ≤ now.later smallBatches.txBatch) ∧
      (departed 0 w e).map (·.packets.isSome) = [true] ∧
      (w.session.transmit 0 samples info (.ok (Tick.clamp 5)) .poll).1 =
        .error (.late info.timestamp now) := by
  intro w now e samples info
  have valid : smallBatches.validate 2 = .ok () := rfl
  have late : info.timestamp.later 0 < now := by decide
  obtain ⟨passes, refusals⟩ := deadlines_kept valid none .zero early
  have refused := refusals IntSample 0 samples info (.ok (Tick.clamp 5)) .poll rfl (by decide) rfl
    late
  refine ⟨valid, rfl, by decide, rfl, late, ?_, by decide +kernel, refused.1⟩
  intro d left packets sent timed
  obtain ⟨inTime, due⟩ := ((passes _ _ _ 0).2 d left packets sent).2 timed
  exact ⟨inTime, due rfl⟩

end World
end RadioStream
