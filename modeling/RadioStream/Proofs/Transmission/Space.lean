import RadioStream.Proofs.Queue.Operations
import RadioStream.Proofs.Transmission.Drain
import RadioStream.Proofs.Transmission.Quiescence

/-!
A full transmit queue gets room again. A configuration is accepted only if a batch fits into a
queue, so a full queue has a batch that is ready whatever its blocks are, and the next pass takes
it unless the hand holds one already, which then is a timed one.
-/
namespace RadioStream

namespace ChannelQueue
variable {size batch : Nat} {q : ChannelQueue} {b : Block}

/-- A full queue that has room for a batch offers one, of at least one sample. -/
theorem Sound.takeReady?_full (sound : q.Sound size) (room : 0 < batch) (fits : batch ≤ q.capacity)
    (full : q.queued = q.capacity) (force : Bool) (due : Tick → Bool) :
    ∃ run rest, q.takeReady? batch force due = some (run, rest) ∧ 0 < run.length ∧
      rest.queued + run.length = q.queued := by
  have ready : q.runReady batch = true := by
    rw [← Bool.not_eq_false, sound.runReady_eq_false room]
    intro growing
    have := growing.short
    omega
  have taking : q.takeReady? batch force due = q.takeRun? batch := by
    simp [takeReady?, ready]
  cases found : q.takeRun? batch with
  | none =>
    have none := sound.blocks_eq_nil.mp (takeRun?_eq_none.mp found)
    have queued := sound.queued_eq
    rw [none, List.length_nil] at queued
    omega
  | some pair =>
    obtain ⟨counted, filled⟩ := sound.takeRun?_counted found
    exact ⟨pair.1, pair.2, taking.trans found, filled room, counted⟩

/-- An offer that places less than it has, for want of room, leaves the queue full. -/
theorem Sound.offer_short (sound : q.Sound size) (whole : b.Whole size) {wait : Wait}
    (short : (q.offer b wait).1 = .error .timedOut ∨
      ∃ accepted < b.length, (q.offer b wait).1 = .ok accepted) :
    (q.offer b wait).2.queued = (q.offer b wait).2.capacity := by
  cases stopped : q.stopped with
  | true =>
    rw [offer_stopped stopped] at short
    simp at short
  | false =>
    have granted := granted_offer stopped b wait
    obtain ⟨offered, grown⟩ := sound.offer whole wait
    have fits := sound.queued_le
    have length := congrArg List.length grown
    rw [List.length_append, List.length_take, whole.length_content, ← offered.queued_eq,
      ← sound.queued_eq] at length
    rw [offer_capacity]
    rcases short with timedOut | ⟨accepted, less, outcome⟩
    · -- A wait ends without a sample only where there is no room.
      have full : q.capacity - q.queued = 0 := by
        apply Nat.eq_zero_of_not_pos
        intro room
        rw [timedOut, ChannelQueue.granted] at granted
        have none : (b.emptyLike.gather b (q.capacity - q.queued)).2.isEmpty = true := by
          rw [Block.gather_rest, (whole.advance _).isEmpty_iff, whole.length_advance]
          omega
        rw [ChannelQueue.offer, if_neg (by simp [stopped])] at timedOut
        dsimp only at timedOut
        rw [if_pos ⟨room, none⟩] at timedOut
        contradiction
      omega
    · rw [outcome, ChannelQueue.granted] at granted length
      omega

end ChannelQueue

namespace TxLane
variable {size batch capacity : Nat} {l l' : TxLane}

/-- A lane with an empty hand has room once it has had the chance to pick up a batch. -/
theorem Sound.pickUp_room (sound : l.Sound size) (room : 0 < batch)
    (fits : batch ≤ l.queue.capacity) (empty : l.held = none) (draining : Bool)
    (due : Tick → Bool) :
    (l.pickUp batch draining due).queue.queued < (l.pickUp batch draining due).queue.capacity := by
  rw [TxLane.pickUp, empty]
  dsimp only
  split
  · next run rest ready =>
    have chosen := ChannelQueue.takeRun?_of_takeReady? ready
    obtain ⟨counted, filled⟩ := sound.queue.takeRun?_counted chosen
    have some := filled room
    have fits := sound.queue.queued_le
    have room := ChannelQueue.takeRun?_capacity chosen
    dsimp only
    omega
  · next nothing =>
    refine Nat.lt_of_le_of_ne sound.queue.queued_le fun full => ?_
    obtain ⟨_, _, taken, _⟩ := sound.queue.takeReady?_full room fits full draining due
    rw [taken] at nothing
    contradiction

/-- A lane as it is between passes: only a timed batch stays in its hand. -/
structure Patient (capacity : Nat) (l : TxLane) : Prop where
  capacity_eq : l.queue.capacity = capacity
  timed : ∀ b, l.held = some b → b.timed = true

theorem Patient.of_core (patient : l.Patient capacity) (same : l'.core = l.core) :
    l'.Patient capacity := by
  have queue := congrArg (·.queue.capacity) same
  have held := congrArg TxLane.held same
  exact ⟨queue.trans patient.capacity_eq, fun b holds => patient.timed b (held ▸ holds)⟩

theorem pickUp_capacity (l : TxLane) (batch : Nat) (draining : Bool) (due : Tick → Bool) :
    (l.pickUp batch draining due).queue.capacity = l.queue.capacity := by
  rw [pickUp]
  split
  · rfl
  · split
    · next ready => exact ChannelQueue.takeRun?_capacity (ChannelQueue.takeRun?_of_takeReady? ready)
    · rfl

/-- Untimed batches leave the hand in the pass that takes them. -/
theorem depart_timed (l : TxLane) (gate : Option Tick) (late : Tick → Bool)
    (packetSamples : Nat) {b : Block} (held : (l.depart gate late packetSamples).1.held = some b) :
    b.timed = true := by
  rcases l.depart_cases gate late packetSamples with ⟨stays, departs⟩ |
    ⟨_, _, _, _, _, departs⟩ | ⟨_, _, _, _, departs⟩
  · rw [departs] at held
    exact (leaves_eq_false.mp stays b held).1
  · simp [departs] at held
  · simp [departs] at held

end TxLane

namespace Session
variable {s t : Session} {capacity : Nat} {channel : UInt8} {l : TxLane}

def Patient (capacity : Nat) (s : Session) : Prop := ∀ l ∈ s.tx, l.Patient capacity

theorem Patient.of_core (patient : s.Patient capacity)
    (same : t.tx.map TxLane.core = s.tx.map TxLane.core) : t.Patient capacity := by
  intro l member
  have there : l.core ∈ s.tx.map TxLane.core := same ▸ List.mem_map_of_mem member
  obtain ⟨old, inside, core⟩ := List.mem_map.mp there
  exact (patient old inside).of_core core.symm

theorem Patient.putTx (patient : s.Patient capacity) {lane : TxLane}
    (put : lane.Patient capacity) : (s.putTx lane).Patient capacity := by
  intro l member
  obtain ⟨old, inside, rfl⟩ := List.mem_map.mp member
  split
  · exact put
  · exact patient old inside

theorem Patient.on (patient : s.Patient capacity) {channel : UInt8} {lane : TxLane}
    (found : s.txOn channel = some lane) : lane.Patient capacity :=
  patient lane (List.mem_of_find?_eq_some found)

theorem Patient.transmit {α : Type} [HostSample α] (patient : s.Patient capacity)
    (channel : UInt8) (samples : List α) (info : TransferMeta) (reading : Except Fault Tick)
    (wait : Wait) : (s.transmit channel samples info reading wait).2.Patient capacity := by
  obtain ⟨timeline, _, _, effect⟩ := s.transmit_cases channel samples info reading wait
  have timed : Patient capacity { s with timeline := timeline } := patient
  dsimp only at effect
  rcases effect with ⟨after, _⟩ | ⟨lane, found, ⟨_, _, after⟩ | ⟨_, after⟩ | ⟨_, after⟩⟩ <;>
    rw [after]
  · exact timed
  · exact timed.putTx ⟨(patient.on found).capacity_eq, (patient.on found).timed⟩
  · exact timed.putTx ⟨(patient.on found).capacity_eq, (patient.on found).timed⟩
  · exact timed.putTx ⟨(ChannelQueue.offer_capacity _ _ _).trans (patient.on found).capacity_eq,
      (patient.on found).timed⟩

theorem Patient.resume (patient : s.Patient capacity) (call : WaitingCall) :
    (s.resume call).2.Patient capacity := by
  rw [Session.resume]
  split
  · exact patient
  · next lane there =>
    have on := patient.on (txLane?_eq_ok.mp there)
    exact patient.putTx ⟨(ChannelQueue.offer_capacity _ _ _).trans on.capacity_eq, on.timed⟩

theorem Patient.pass (patient : s.Patient capacity) (reading : Except Fault Tick)
    (draining : Bool) (answer : Except Fault Unit) :
    (s.pass reading draining answer).Patient capacity := by
  have kept := TxPass.finish_kept (s.beginPass reading draining)
    (if (s.beginPass reading draining).packets.isEmpty then none else some answer)
  refine Patient.of_core (fun l member => ?_) kept.tx_eq
  dsimp only at member
  rw [TxPass.kept, beginPass_lanes, loaded, List.map_map, List.map_map] at member
  obtain ⟨old, inside, rfl⟩ := List.mem_map.mp member
  refine ⟨?_, fun b held => TxLane.depart_timed _ _ _ _ held⟩
  simp only [Function.comp, TxLane.depart_queue, TxLane.pickUp_capacity]
  exact (patient old inside).capacity_eq

/-- A pass makes room in the queue of a lane whose hand is empty before it. -/
theorem TxSound.pass_room (sound : s.TxSound) (found : s.txOn channel = some l)
    (empty : l.held = none) (fits : s.config.txBatch ≤ l.queue.capacity)
    (reading : Except Fault Tick) (draining : Bool) (answer : Except Fault Unit) :
    ∃ l', (s.pass reading draining answer).txOn channel = some l' ∧
      l'.queue.queued < l'.queue.capacity := by
  have lanes := s.lanes_on reading draining channel
  have core := s.pass_core reading draining answer channel
  rw [s.loaded_on, found, Option.map_some, Option.map_some] at lanes
  rw [lanes, Option.map_some, Option.map_eq_some_iff] at core
  obtain ⟨l', on, same⟩ := core
  have room := (sound.lanes channel l found).pickUp_room s.config.txBatch_pos fits empty draining
    ((s.timeline.now reading).2.isDue · (s.timeline.now reading).1)
  have queued := congrArg (·.queue.queued) same
  have capacity := congrArg (·.queue.capacity) same
  simp only [TxLane.core, TxLane.depart_queue] at queued capacity
  exact ⟨l', on, by rwa [queued, capacity]⟩

/-- What is found once a lane is put in place of the one on its channel. -/
theorem txOn_putTx_found {lane : TxLane} (found : s.txOn channel = some lane)
    (timeline : Timeline) (new : TxLane) (place : new.channel = channel) (other : UInt8) :
    (({ s with timeline := timeline } : Session).putTx new).txOn other =
      if channel = other then some new else s.txOn other := by
  have stands : ({ s with timeline := timeline } : Session).txOn new.channel = some lane := by
    rw [place]
    exact found
  rw [txOn_putTx stands, place]
  rfl

theorem txOn_putTx_offer {lane : TxLane} (found : s.txOn channel = some lane) (timeline : Timeline)
    (queue : ChannelQueue) :
    (({ s with timeline := timeline } : Session).putTx { lane with queue := queue }).txOn channel =
      some { lane with queue := queue } := by
  have place := channel_of_txOn found
  rw [txOn_putTx_found found timeline { lane with queue := queue } place, if_pos rfl]

/-- A transmission for which there is no room leaves the queue of its channel full. -/
theorem TxSound.transmit_full {α : Type} [HostSample α] (sound : s.TxSound) {samples : List α}
    {info : TransferMeta} {reading : Except Fault Tick} {wait : Wait}
    (short : (s.transmit channel samples info reading wait).1 = .error .timeout ∨
      ∃ accepted < samples.length,
        (s.transmit channel samples info reading wait).1 = .ok accepted) :
    ∃ l, (s.transmit channel samples info reading wait).2.txOn channel = some l ∧
      l.queue.queued = l.queue.capacity := by
  unfold Session.transmit at short ⊢
  split at short
  · simp at short
  · next carries =>
    rw [if_neg carries]
    cases there : s.txLane? channel with
    | error fault =>
      have other : fault ≠ .timeout := fun same => txLane?_ne_timeout (same ▸ there)
      simp [there, other] at short
    | ok lane =>
      have found := txLane?_eq_ok.mp there
      rw [there] at short
      dsimp only at short ⊢
      generalize (if info.useTimestamp then s.timeline.now reading
        else (s.timeline.observed, s.timeline)) = observed at short ⊢
      split at short
      · simp at short
      · next inTime =>
        rw [if_neg inTime]
        split at short
        · next none =>
          rw [List.isEmpty_iff.mp none] at short
          simp at short
        · next some =>
          rw [if_neg some]
          -- What is left is the offer of a block with all samples to the queue.
          obtain ⟨whole, content⟩ := encoded_sound s.config samples info
          have length := whole.length_content
          rw [content, length_encoded] at length
          rw [length] at short
          refine ⟨_, txOn_putTx_offer found _ _, ?_⟩
          refine (sound.lanes channel lane found).queue.offer_short whole ?_
          exact short.imp (ChannelQueue.eq_of_mapError (y := .error .timedOut))
            fun ⟨accepted, less, outcome⟩ =>
              ⟨accepted, less, ChannelQueue.eq_of_mapError (y := .ok accepted) outcome⟩

theorem TxSound.resume_full (sound : s.TxSound) {call : WaitingCall}
    (callSound : call.Sound s.config.linkFormat.sampleSize)
    (short : (s.resume call).1 = .error .timedOut ∨
      ∃ accepted < call.rest.length, (s.resume call).1 = .ok accepted) :
    ∃ l, (s.resume call).2.txOn call.channel = some l ∧ l.queue.queued = l.queue.capacity := by
  unfold Session.resume at short ⊢
  cases there : s.txLane? call.channel with
  | error fault =>
    rw [there] at short
    simp at short
  | ok lane =>
    have found := txLane?_eq_ok.mp there
    rw [there] at short
    exact ⟨_, txOn_putTx_offer found s.timeline _,
      (sound.lanes _ lane found).queue.offer_short callSound.whole short⟩

end Session

namespace World
variable {c : StreamConfig} {w : World} {channel : UInt8} {l : TxLane}

theorem step_patient {capacity : Nat} (patient : w.session.Patient capacity) (e : Event) :
    (w.step e).session.Patient capacity := by
  cases e with
  | transmit channel samples info reading wait =>
    exact patient.transmit channel samples info reading wait
  | resume place =>
    rw [step]
    split
    · exact patient
    · exact patient.resume _
  | receive channel buffer info wait =>
    exact patient.of_core (congrArg _ (w.session.receive_tx channel buffer info wait))
  | arrive packet => exact patient.of_core (w.session.accept_tx packet)
  | pass reading draining answer => exact patient.pass reading draining answer
  | halt reason => exact patient.of_core (w.session.halt_kept reason).tx_eq

theorem run_patient (c : StreamConfig) (monitor : Option Monitor) (clock : Tick)
    (events : List Event) : ((opened c monitor clock).run events).session.Patient c.capacity := by
  refine run_invariant (P := fun w => w.session.Patient c.capacity)
    (fun _ e patient => step_patient patient e) ?_ events
  intro l member
  obtain ⟨_, _, rfl⟩ := List.mem_map.mp member
  exact ⟨rfl, by simp [TxLane.create]⟩

/-- A call that placed less than it had because it found no room. -/
def lacksRoom (channel : UInt8) (w : World) : Event → Prop
  | @Event.transmit _ _ on samples info reading wait => on = channel ∧
      let outcome := (w.session.transmit on samples info reading wait).1
      outcome = .error .timeout ∨ ∃ accepted < samples.length, outcome = .ok accepted
  | .resume place => ∃ call, w.waiting[place]? = some call ∧ call.channel = channel ∧
      let outcome := (w.session.resume call).1
      outcome = .error .timedOut ∨ ∃ accepted < call.rest.length, outcome = .ok accepted
  | _ => False

/-- A call that finds no room leaves the queue of its channel full. -/
theorem TxSound.step_full (sound : TxSound c w) {e : Event} (lacks : lacksRoom channel w e) :
    ∃ l, (w.step e).session.txOn channel = some l ∧ l.queue.queued = l.queue.capacity := by
  cases e with
  | transmit on samples info reading wait =>
    obtain ⟨rfl, short⟩ := lacks
    exact sound.session.transmit_full short
  | resume place =>
    obtain ⟨call, waits, rfl, short⟩ := lacks
    have callSound := sound.calls call (List.mem_of_getElem? waits)
    rw [← sound.config_eq] at callSound
    simp only [World.step, waits]
    exact sound.session.resume_full callSound short
  | _ => exact absurd lacks id

/-- Only passes move the hand of a lane. -/
theorem run_held (found : w.session.txOn channel = some l) {between : List Event}
    (noPass : ∀ e ∈ between, e.isPass = false) :
    ∃ l', (w.run between).session.txOn channel = some l' ∧ l'.held = l.held := by
  induction between generalizing w l with
  | nil => exact ⟨l, found, rfl⟩
  | cons e rest ih =>
    obtain ⟨first, others⟩ := List.forall_mem_cons.mp noPass
    obtain ⟨l', there, rests⟩ := step_rests found (e := e) (by rintro _ _ _ rfl; contradiction)
    obtain ⟨l'', on, held⟩ := ih there others
    exact ⟨l'', on, held.trans rests.held_eq⟩

/-- In every queue of a transmit lane there is room for a batch. -/
theorem run_batch_fits {available : UInt8} (valid : c.validate available = .ok ())
    (monitor : Option Monitor) (clock : Tick) (events : List Event) :
    ∀ l ∈ ((opened c monitor clock).run events).session.tx, c.txBatch ≤ l.queue.capacity := by
  intro l member
  have carried : l.channel ∈ c.txChannels :=
    run_txChannels c monitor clock events ▸ List.mem_map_of_mem member
  rw [(run_patient c monitor clock events l member).capacity_eq]
  exact c.txBatch_le_capacity valid (List.ne_nil_of_mem carried)

/-- A pass makes room in the queue of a channel whose hand is empty before it. -/
theorem run_pass_room {available : UInt8} (valid : c.validate available = .ok ())
    {monitor : Option Monitor} {clock : Tick} {past : List Event}
    (found : ((opened c monitor clock).run past).session.txOn channel = some l)
    (empty : l.held = none) (reading : Except Fault Tick) (draining : Bool)
    (answer : Except Fault Unit) :
    ∃ l', (((opened c monitor clock).run past).step
        (.pass reading draining answer)).session.txOn channel = some l' ∧
      l'.queue.queued < l'.queue.capacity := by
  have sound := run_txSound valid monitor clock past
  refine sound.session.pass_room found empty ?_ reading draining answer
  rw [sound.config_eq]
  exact run_batch_fits valid monitor clock past l (List.mem_of_find?_eq_some found)

theorem run_held_timed {monitor : Option Monitor} {clock : Tick} {past : List Event}
    (found : ((opened c monitor clock).run past).session.txOn channel = some l) :
    l.held = none ∨ ∃ b, l.held = some b ∧ b.timed = true := by
  cases holds : l.held with
  | none => exact .inl rfl
  | some b => exact .inr ⟨b, rfl, ((run_patient c monitor clock past).on found).timed b holds⟩

/-- No full transmit queue of an accepted configuration stays so for want of a batch: whatever its
blocks are, one is ready. So the queue of a channel is full behind a pass only if its hand held a
timed batch before it; and a channel that a call found without room either has such a batch in its
hand or has room behind the next pass. -/
theorem full_queue_moves {available : UInt8} (valid : c.validate available = .ok ())
    (monitor : Option Monitor) (clock : Tick) (past : List Event) :
    let w := (opened c monitor clock).run past
    (∀ operations : List ChannelQueue.Operation, c.txChannels ≠ [] →
      (∀ operation ∈ operations, operation.Proper c.linkFormat.sampleSize) →
      let q := (ChannelQueue.empty c.capacity).after operations
      q.queued = q.capacity → ∀ due, ∃ run rest,
        q.takeReady? c.txBatch false due = some (run, rest) ∧ 0 < run.length) ∧
    (∀ l ∈ w.session.tx, l.queue.queued = l.queue.capacity → ∀ due, ∃ run rest,
      l.queue.takeReady? c.txBatch false due = some (run, rest) ∧ 0 < run.length) ∧
    (∀ reading draining answer channel l l', w.session.txOn channel = some l →
      (w.step (.pass reading draining answer)).session.txOn channel = some l' →
      l'.queue.queued = l'.queue.capacity → ∃ b, l.held = some b ∧ b.timed = true) ∧
    (∀ channel e, lacksRoom channel w e →
      ∃ l, (w.step e).session.txOn channel = some l ∧ l.queue.queued = l.queue.capacity ∧
        ((∃ b, l.held = some b ∧ b.timed = true) ∨
          ∀ between, (∀ e ∈ between, e.isPass = false) → ∀ reading draining answer,
            ∃ l', ((((w.step e).run between).step
                (.pass reading draining answer)).session.txOn channel) = some l' ∧
              l'.queue.queued < l'.queue.capacity)) := by
  intro w
  have reached : TxSound c w := run_txSound valid monitor clock past
  refine ⟨?_, ?_, ?_, ?_⟩
  · intro operations transmits proper q full due
    obtain ⟨sound, capacity, _⟩ := ChannelQueue.sound_after c.capacity proper
    have fits : c.txBatch ≤ q.capacity := capacity.symm ▸ c.txBatch_le_capacity valid transmits
    obtain ⟨run, rest, taken, some, _⟩ :=
      sound.takeReady?_full c.txBatch_pos fits full false due
    exact ⟨run, rest, taken, some⟩
  · intro l member full due
    have laneSound := reached.session.lanes l.channel l
      (find?_of_mem reached.session.distinct member)
    obtain ⟨run, rest, taken, some, _⟩ := laneSound.queue.takeReady?_full c.txBatch_pos
      (run_batch_fits valid monitor clock past l member) full false due
    exact ⟨run, rest, taken, some⟩
  · intro reading draining answer channel l l' found there full
    refine (run_held_timed found).resolve_left fun empty => ?_
    obtain ⟨after, on, less⟩ := run_pass_room valid found empty reading draining answer
    obtain rfl := Option.some.inj (on.symm.trans there)
    omega
  · intro channel e lacks
    obtain ⟨l, found, full⟩ := reached.step_full lacks
    refine ⟨l, found, full, ?_⟩
    have here : ((opened c monitor clock).run (past ++ [e])).session.txOn channel = some l := by
      rwa [run_append]
    refine (run_held_timed here).symm.imp_right ?_
    intro empty between noPass reading draining answer
    -- The hand stays empty until the pass.
    obtain ⟨last, there, hand⟩ := run_held here noPass
    rw [← run_append] at there
    have room := run_pass_room valid there (hand.trans empty) reading draining answer
    rwa [run_append, run_append] at room

/-- A transmit channel whose queue holds one batch of four samples. -/
def oneBatchQueue : StreamConfig := { smallBatches with txChannels := [0], bufferBytes := 16 }

/-- Three samples that are no single run: one for tick 20 and two untimed ones. -/
def crowded : List Event :=
  [.transmit 0 [(⟨4, -4⟩ : IntSample)] (TransferMeta.anchored (Tick.clamp 20)) (.ok .zero) .poll,
    .transmit 0 [(⟨5, -5⟩ : IntSample), ⟨6, -6⟩] TransferMeta.plain (.ok .zero) .poll]

theorem full_queue_moves_crowded :
    let start := opened oneBatchQueue none .zero
    let e := Event.transmit 0 [(⟨7, -7⟩ : IntSample), ⟨8, -8⟩] TransferMeta.plain (.ok .zero) .poll
    let pass := Event.pass (.ok (Tick.clamp 3)) false (.ok ())
    let blocks := [(⟨Tick.clamp 20, true, false, List.replicate 8 0, 4⟩ : Block),
      ⟨.zero, false, false, List.replicate 8 0, 4⟩]
    let q := (ChannelQueue.empty oneBatchQueue.capacity).after (blocks.map (.offer · .poll))
    let blocked := start.run (early ++ crowded ++ [e])
    oneBatchQueue.validate 2 = .ok () ∧ oneBatchQueue.txChannels ≠ [] ∧
      (∀ b ∈ blocks, (ChannelQueue.Operation.offer b .poll).Proper
        oneBatchQueue.linkFormat.sampleSize) ∧
      q.queued = q.capacity ∧ (∃ run rest, q.takeReady? oneBatchQueue.txBatch false
        (fun _ => false) = some (run, rest) ∧ 0 < run.length) ∧
      lacksRoom 0 (start.run crowded) e ∧
      (∃ l, ((((start.run crowded).step e).run [e]).step pass).session.txOn 0 = some l ∧
        l.queue.queued < l.queue.capacity) ∧
      lacksRoom 0 (start.run (early ++ crowded)) e ∧
      (∃ l l', blocked.session.txOn 0 = some l ∧
        (blocked.step pass).session.txOn 0 = some l' ∧
        l'.queue.queued = l'.queue.capacity ∧ ∃ b, l.held = some b ∧ b.timed = true) := by
  intro start e pass blocks q blocked
  have valid : oneBatchQueue.validate 2 = .ok () := rfl
  have transmits : oneBatchQueue.txChannels ≠ [] := by decide
  have proper : ∀ b ∈ blocks, (ChannelQueue.Operation.offer b .poll).Proper
      oneBatchQueue.linkFormat.sampleSize := by
    simp only [blocks, List.forall_mem_cons, ChannelQueue.Operation.Proper]
    exact ⟨⟨⟨by decide, rfl, by decide⟩, by decide⟩, ⟨⟨by decide, rfl, by decide⟩, by decide⟩,
      List.forall_mem_nil _⟩
  have full : q.queued = q.capacity := by decide +kernel
  obtain ⟨queues, _, _, refusals⟩ := full_queue_moves valid none .zero crowded
  have taken := queues (blocks.map (.offer · .poll)) transmits (by simpa using proper) full
  -- With an empty hand the refused call has room behind the pass.
  have lacks : lacksRoom 0 (start.run crowded) e := ⟨rfl, .inr ⟨1, by decide, by decide +kernel⟩⟩
  obtain ⟨l, found, _, room⟩ := refusals 0 e lacks
  have hand : (((start.run crowded).step e).session.txOn 0).bind TxLane.held = none := by
    decide +kernel
  rw [found, Option.bind_some] at hand
  have noPass : ∀ again ∈ [e], again.isPass = false := by simp [e, Event.isPass]
  have room := room.resolve_left (by simp [hand]) [e] noPass (.ok (Tick.clamp 3)) false (.ok ())
  -- With a batch for tick 8 in the hand it has none.
  have lacks' : lacksRoom 0 (start.run (early ++ crowded)) e :=
    ⟨rfl, .inr ⟨1, by decide, by decide +kernel⟩⟩
  obtain ⟨_, _, passes, _⟩ := full_queue_moves valid none .zero (early ++ crowded ++ [e])
  have before : (blocked.session.txOn 0).isSome = true := by decide +kernel
  have behind : ((blocked.step pass).session.txOn 0).map
      (fun l => (l.queue.queued, l.queue.capacity)) = some (4, 4) := by decide +kernel
  obtain ⟨l, found⟩ := Option.isSome_iff_exists.mp before
  obtain ⟨l', found', same⟩ := Option.map_eq_some_iff.mp behind
  obtain ⟨queued, capacity⟩ := Prod.mk.inj same
  have full' := queued.trans capacity.symm
  exact ⟨valid, transmits, proper, full, taken _, lacks, room, lacks', l, l', found, found', full',
    passes _ _ _ 0 l l' found found' full'⟩

end World
end RadioStream
