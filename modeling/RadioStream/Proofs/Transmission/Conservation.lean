import RadioStream.Proofs.Transmission.Balance

/-!
Conservation of transmit samples over runs. Whatever callers, workers, clock and monitor
do, what was accepted on a channel is what left it, in order, followed by what waits in
the hand and in the queue; and what left it went into the writes of its passes or was
dropped as late.
-/
namespace RadioStream.World
open ChannelQueue (granted)

/-- The samples that a step places on a channel, as its transmit call reports them. A call
that waits for room reports the sum of what its offers placed. -/
def accepted (channel : UInt8) (w : World) : Event → List Stamped
  | @Event.transmit _ _ on samples info reading wait =>
    if on = channel then (w.session.config.encoded samples info).take
      (granted (w.session.transmit on samples info reading wait).1) else []
  | .resume place => match w.waiting[place]? with
    | none => []
    | some call =>
      if call.channel = channel then call.samples.take (granted (w.session.resume call).1) else []
  | _ => []

/-- The transmissions on a channel that were refused as late. -/
def refused (channel : UInt8) (w : World) : Event → List Fault
  | @Event.transmit _ _ on samples info reading wait =>
    if on = channel then
      Session.refusals (w.session.transmit on samples info reading wait).1 else []
  | _ => []

/-- The batches of a channel that left the worker's hand. -/
def departed (channel : UInt8) (w : World) : Event → List Departure
  | .pass reading draining _ => w.session.departed reading draining channel
  | _ => []

/-- The packets that were written to the link. -/
def written (w : World) : Event → List TxPacket
  | .pass reading draining (.ok ()) => (w.session.beginPass reading draining).packets
  | _ => []

/-- A world of a configuration in which transmit lanes and waiting calls are sound. -/
structure TxSound (c : StreamConfig) (w : World) : Prop where
  config_eq : w.session.config = c
  tolerance_eq : w.session.timeline.tolerance = c.tuning.lateTolerance.toNat
  session : w.session.TxSound
  calls : ∀ call ∈ w.waiting, call.Sound c.linkFormat.sampleSize

variable {c : StreamConfig} {w : World}

theorem opened_txSound {available : UInt8} (valid : c.validate available = .ok ())
    (monitor : Option Monitor) (clock : Tick) : TxSound c (opened c monitor clock) := by
  have lanes : (opened c monitor clock).session.tx =
      c.txChannels.map fun channel => .create channel c.capacity := rfl
  refine ⟨rfl, rfl, ⟨?_, ?_⟩, List.forall_mem_nil _⟩
  · rw [lanes, List.map_map]
    exact (List.map_id _).symm ▸ c.channels_nodup valid .tx
  · intro channel l found
    have member := List.mem_of_find?_eq_some found
    rw [lanes, List.mem_map] at member
    obtain ⟨_, _, rfl⟩ := member
    exact ⟨ChannelQueue.sound_empty _, by simp [TxLane.create]⟩

theorem opened_unsent (c : StreamConfig) (monitor : Option Monitor) (clock : Tick)
    (channel : UInt8) : (opened c monitor clock).session.unsent channel = [] ∧
      (opened c monitor clock).session.lateOn channel = 0 := by
  unfold Session.unsent Session.lateOn
  cases found : (opened c monitor clock).session.txOn channel with
  | none => exact ⟨rfl, rfl⟩
  | some l =>
    have member := List.mem_of_find?_eq_some found
    change l ∈ c.txChannels.map fun channel => TxLane.create channel c.capacity at member
    obtain ⟨_, _, rfl⟩ := List.mem_map.mp member
    exact ⟨rfl, rfl⟩

theorem ofTransmit?_sound {α : Type} [HostSample α] {channel : UInt8} {samples : List α}
    {info : TransferMeta} {wait : Wait} {outcome : Except Fault Nat} {call : WaitingCall}
    (waits : call ∈ WaitingCall.ofTransmit? c channel samples info wait outcome) :
    call.Sound c.linkFormat.sampleSize := by
  obtain ⟨whole, content⟩ := Session.encoded_sound c samples info
  unfold WaitingCall.ofTransmit? at waits
  dsimp only at waits
  split at waits
  · contradiction
  · obtain rfl := Option.some.inj waits
    exact ⟨whole.advance _, by rw [whole.content_advance, content]⟩
  · obtain rfl := Option.some.inj waits
    exact ⟨whole, content⟩
  · contradiction

/-- Every step keeps a world sound and moves samples of a channel only at its two ends. -/
theorem TxSound.step (sound : TxSound c w) (e : Event) : TxSound c (w.step e) ∧
    ∀ channel, w.session.Moved (w.step e).session channel (accepted channel w e)
      (refused channel w e).length (departed channel w e) := by
  have goesOn := w.step_continues e
  have config := goesOn.config_eq.trans sound.config_eq
  have tolerance := goesOn.tolerance_eq.trans sound.tolerance_eq
  have frame {s : Session} (goesOn : w.session.Continues s)
      (same : s.tx.map TxLane.core = w.session.tx.map TxLane.core) :
      s.TxSound ∧ ∀ channel, w.session.Moved s channel [] 0 [] :=
    ⟨sound.session.of_core goesOn same, Session.moved_of_core same⟩
  cases e with
  | @transmit _ _ on samples info reading wait =>
    obtain ⟨session, moved⟩ := sound.session.transmit on samples info reading wait
    refine ⟨⟨config, tolerance, session, ?_⟩, ?_⟩
    · intro call member
      rcases List.mem_append.mp member with old | new
      · exact sound.calls call old
      · rw [sound.config_eq] at new
        exact ofTransmit?_sound (Option.mem_toList.mp new)
    · intro channel
      have here := moved channel
      rw [accepted, refused, apply_ite List.length, List.length_nil]
      exact here
  | resume place =>
    cases found : w.waiting[place]? with
    | none =>
      simp only [World.step, accepted, found]
      exact ⟨sound, fun channel => Session.moved_nothing rfl rfl⟩
    | some call =>
      have callSound := sound.calls call (List.mem_of_getElem? found)
      rw [← sound.config_eq] at callSound
      obtain ⟨session, cut, moved⟩ := sound.session.resume callSound
      simp only [World.step, accepted, found] at config tolerance ⊢
      refine ⟨⟨config, tolerance, session, ?_⟩, moved⟩
      intro other member
      rcases List.mem_or_eq_of_mem_set member with old | rfl
      · exact sound.calls other old
      · exact sound.config_eq ▸ cut
  | receive channel buffer info wait =>
    obtain ⟨session, moved⟩ :=
      frame goesOn (congrArg _ (w.session.receive_tx channel buffer info wait))
    exact ⟨⟨config, tolerance, session, sound.calls⟩, moved⟩
  | arrive packet =>
    obtain ⟨session, moved⟩ := frame goesOn (w.session.accept_tx packet)
    exact ⟨⟨config, tolerance, session, sound.calls⟩, moved⟩
  | pass reading draining answer =>
    obtain ⟨session, moved⟩ := sound.session.pass reading draining answer
    exact ⟨⟨config, tolerance, session, sound.calls⟩, fun channel => (moved channel).1⟩
  | halt reason =>
    obtain ⟨session, moved⟩ := frame goesOn (w.session.halt_kept reason).tx_eq
    exact ⟨⟨config, tolerance, session, sound.calls⟩, moved⟩

theorem departed_faithful (sound : TxSound c w) (e : Event) (channel : UInt8) :
    ∀ d ∈ departed channel w e,
      d.Faithful c.linkFormat.sampleSize c.tuning.lateTolerance.toNat channel := by
  cases e with
  | pass reading draining answer =>
    intro d member
    have faithful := (((sound.session.pass reading draining answer).2 channel).2.2 d member).2.2
    rwa [sound.config_eq, sound.tolerance_eq] at faithful
  | _ => exact List.forall_mem_nil _

theorem written_departed (sound : TxSound c w) {e : Event} (fine : e.Unfailing)
    (channel : UInt8) : (written w e).filter (·.channel == channel) =
      (departed channel w e).flatMap Departure.sent := by
  cases e with
  | pass reading draining answer =>
    obtain rfl : answer = .ok () := fine
    exact ((sound.session.pass reading draining (.ok ())).2 channel).2.1
  | _ => rfl

/-- A written packet shows its samples as they were accepted, ticks included. -/
theorem Departure.content_infix {size tolerance : Nat} {channel : UInt8}
    {departures : List Departure}
    (faithful : ∀ d ∈ departures, d.Faithful size tolerance channel) {p : TxPacket}
    (member : p ∈ departures.flatMap Departure.sent) :
    p.Carries size channel ∧ p.content size <:+: departures.flatMap (·.batch.content) := by
  obtain ⟨d, left, inside⟩ := List.mem_flatMap.mp member
  have fine := faithful d left
  unfold Departure.Faithful at fine
  unfold Departure.sent at inside
  cases packets : d.packets with
  | none => simp [packets] at inside
  | some sent =>
    simp only [packets, Option.getD_some] at fine inside
    refine ⟨fine.2.2 p inside, .trans ?_ (List.infix_of_mem_flatten (List.mem_map_of_mem left))⟩
    rw [← fine.1]
    exact List.infix_of_mem_flatten (List.mem_map_of_mem inside)

/-- What was accepted on a channel is what left it, and then what is in hand and in the
queue, over all runs without a refused write. -/
theorem accepted_conserved {available : UInt8} (valid : c.validate available = .ok ())
    (monitor : Option Monitor) (clock : Tick) {events : List Event}
    (unfailing : ∀ e ∈ events, e.Unfailing) (channel : UInt8) :
    let start := opened c monitor clock
    let size := c.linkFormat.sampleSize
    let departures := observe (departed channel) start events
    let packets := (observe written start events).filter (·.channel == channel)
    let final := (start.run events).session
    observe (accepted channel) start events =
        departures.flatMap (·.batch.content) ++ final.inHand channel ++ final.inQueue channel ∧
      packets = departures.flatMap Departure.sent ∧
      (∀ d ∈ departures, d.Faithful size c.tuning.lateTolerance.toNat channel) ∧
      (∀ p ∈ packets, p.Carries size channel ∧
        p.content size <:+: observe (accepted channel) start events) ∧
      final.lateOn channel = min ((observe (refused channel) start events).length +
        departures.countP Departure.isDropped) 0xffffffff := by
  intro start size departures packets final
  have sound : TxSound c start := opened_txSound valid monitor clock
  have kept (w : World) (e : Event) (sound : TxSound c w) : TxSound c (w.step e) := (sound.step e).1
  obtain ⟨nothing, none⟩ := opened_unsent c monitor clock channel
  have balance := observe_balance (fun w => w.session.unsent channel) kept
    (fun w e sound => ((sound.step e).2 channel).content_eq) sound events
  have counted := observe_count (fun w => w.session.lateOn channel) kept
    (fun w e sound => ((sound.step e).2 channel).late_eq) sound (start.session.lateOn_le channel)
    events
  have faithful : ∀ d ∈ departures, d.Faithful size c.tuning.lateTolerance.toNat channel :=
    mem_observe kept (fun w e sound => departed_faithful sound e channel) sound events
  have sent : packets = departures.flatMap Departure.sent := by
    dsimp only [packets, departures]
    rw [observe_filter, observe_flatMap]
    exact observe_congr kept (fun w e sound fine => written_departed sound fine channel) sound
      unfailing
  rw [← observe_flatMap, nothing, List.nil_append, Session.unsent_eq, ← List.append_assoc]
    at balance
  rw [none, Nat.zero_add] at counted
  refine ⟨balance, sent, faithful, ?_, counted⟩
  intro p member
  rw [sent] at member
  obtain ⟨carries, inside⟩ := Departure.content_infix faithful member
  refine ⟨carries, inside.trans ?_⟩
  rw [balance, List.append_assoc]
  exact (List.prefix_append _ _).isInfix

/-- Two transmit channels, with packets of two samples and batches of two packets. -/
def smallBatches : StreamConfig :=
  { StreamConfig.default with
    txChannels := [1, 0]
    tuning := { StreamTuning.default with txPacketSamples := 2, txBatchPackets := 2 } }

/-- An untimed burst that does not fill its last packet, a timed one and a stop. -/
def burst : List Event :=
  [.transmit 0 [(⟨1, -1⟩ : IntSample), ⟨2, -2⟩, ⟨3, -3⟩] TransferMeta.plain.flushed (.ok .zero)
      .poll,
    .transmit 0 [(⟨4, -4⟩ : IntSample), ⟨5, -5⟩] (.anchored .zero) (.ok .zero) .poll,
    .pass (.ok .zero) false (.ok ()),
    .halt none,
    .pass (.ok .zero) true (.ok ())]

theorem accepted_conserved_burst :
    let start := opened smallBatches none .zero
    smallBatches.validate 2 = .ok () ∧ (∀ e ∈ burst, e.Unfailing) ∧
      observe (accepted 0) start burst =
        (observe (departed 0) start burst).flatMap (·.batch.content) ++
          (start.run burst).session.inHand 0 ++ (start.run burst).session.inQueue 0 ∧
      (observe (accepted 0) start burst).length = 5 ∧
      (observe written start burst).map (·.timestamp) = [none, none, some .zero] := by
  have valid : smallBatches.validate 2 = .ok () := rfl
  have unfailing : ∀ e ∈ burst, e.Unfailing := by simp [burst, Event.Unfailing]
  exact ⟨valid, unfailing, (accepted_conserved valid none .zero unfailing 0).1,
    by decide, by decide +kernel⟩

end RadioStream.World
