import RadioStream.Proofs.Transmission.Bursts
import RadioStream.Proofs.Transmission.Settlement

/-!
What becomes of an empty flushed transmission. It marks the newest block in the queue, and the
mark reaches the packet with the last sample accepted before. When all samples that have not left
are in the worker's hand it finds nothing to mark: the batch goes out as if more were to follow,
and the wait for more counts as an underrun.
-/
namespace RadioStream

namespace TxLane

theorem pickUp_of_held {l : TxLane} {b : Block} (held : l.held = some b) (batch : Nat)
    (draining : Bool) (due : Tick → Bool) : l.pickUp batch draining due = l := by
  simp [pickUp, held]

theorem pickUp_tail (l : TxLane) (batch : Nat) (draining : Bool) (due : Tick → Bool) :
    (l.pickUp batch draining due).tail = l.tail := by
  rw [pickUp]
  split
  · rfl
  · split <;> rfl

end TxLane

theorem Session.transmit_empty {α : Type} [HostSample α] {s : Session} {channel : UInt8}
    (carries : HostSample.carries α s.config.hostFormat = true)
    (there : (s.txOn channel).isSome = true) {info : TransferMeta}
    (untimed : info.useTimestamp = false) (reading : Except Fault Tick) (wait : Wait) :
    (s.transmit channel ([] : List α) info reading wait).1 = .ok 0 := by
  obtain ⟨lane, found⟩ := Option.isSome_iff_exists.mp there
  simp [transmit, carries, txLane?_eq_ok.mpr found, untimed]

/-- Whether the hardware expects samples right behind a batch that is written. -/
def Block.expectsMore (b : Block) : Bool := b.timed && !b.flush

theorem Block.expectsMore_of_flush {b : Block} (flush : b.flush = true) :
    b.expectsMore = false := by
  simp [expectsMore, flush]

/-- The underruns counted for a channel. -/
def Session.underrunOn (s : Session) (channel : UInt8) : Nat :=
  (s.txOn channel).elim 0 (·.traffic.underrun.count)

theorem Session.underrunOn_eq {s : Session} {channel : UInt8} {l : TxLane}
    (found : s.txOn channel = some l) : s.underrunOn channel = l.traffic.underrun.count := by
  rw [underrunOn, found]
  rfl

namespace World
variable {c : StreamConfig} {w : World} {channel : UInt8} {l : TxLane} {b : Block}

/-- A batch in the hand stays there until it is the one that leaves. -/
theorem step_hand (found : w.session.txOn channel = some l) (held : l.held = some b) (e : Event) :
    (departed channel w e = [] ∧
      ∃ l', (w.step e).session.txOn channel = some l' ∧ l'.held = some b) ∨
    ∃ d, departed channel w e = [d] ∧ d.batch = b := by
  have rests (noPass : ∀ reading draining answer, e ≠ .pass reading draining answer) :
      ∃ l', (w.step e).session.txOn channel = some l' ∧ l'.held = some b := by
    obtain ⟨l', there, rests⟩ := step_rests found noPass
    exact ⟨l', there, rests.held_eq.trans held⟩
  cases e with
  | pass reading draining answer =>
    obtain ⟨l', x, there, settled, _, effect⟩ :=
      w.session.pass_cases found reading draining answer
    have hand := congrArg TxLane.held settled
    simp only [TxLane.held_unstopped, TxPass.settled_held, TxLane.pickUp_of_held held]
      at hand effect
    rcases effect with ⟨rfl, stays⟩ | ⟨other, same, _, left⟩ | ⟨other, same, _, left⟩
    · exact .inl ⟨stays, l', there, hand.trans held⟩
    · exact .inr ⟨_, left, Option.some.inj (same.symm.trans held)⟩
    · exact .inr ⟨_, left, Option.some.inj (same.symm.trans held)⟩
  | _ => exact .inl ⟨rfl, rests (by simp)⟩

/-- The batch in the hand is the next one to leave. -/
theorem run_hand (found : w.session.txOn channel = some l) (held : l.held = some b)
    (events : List Event) :
    ∀ d ∈ (observe (departed channel) w events).head?, d.batch = b := by
  induction events generalizing w l with
  | nil => simp [observe]
  | cons e rest ih =>
    rcases step_hand found held e with ⟨stays, l', there, still⟩ | ⟨d, left, same⟩
    · rw [observe, stays, List.nil_append]
      exact ih there still
    · rw [observe, left]
      simpa using same

/-- Once a batch is written behind which the hardware expects no more, or where it expects none
already, it does not run out of samples as long as only such batches are written. -/
theorem step_ended (found : w.session.txOn channel = some l) {e : Event}
    (last : ∀ d ∈ departed channel w e, d.isDropped = false → d.batch.expectsMore = false)
    (ended : l.tail = none ∨ ∃ d ∈ departed channel w e, d.isDropped = false) :
    ∃ l', (w.step e).session.txOn channel = some l' ∧ l'.tail = none ∧
      l'.traffic.underrun = l.traffic.underrun := by
  have rests (noPass : ∀ reading draining answer, e ≠ .pass reading draining answer)
      (ended : l.tail = none) : ∃ l', (w.step e).session.txOn channel = some l' ∧
        l'.tail = none ∧ l'.traffic.underrun = l.traffic.underrun := by
    obtain ⟨l', there, rests⟩ := step_rests found noPass
    exact ⟨l', there, rests.tail_eq.trans ended, rests.underrun_eq⟩
  cases e with
  | pass reading draining answer =>
    obtain ⟨l', x, there, settled, _, effect⟩ :=
      w.session.pass_cases found reading draining answer
    have tail := congrArg TxLane.tail settled
    have underrun := congrArg (·.traffic.underrun) settled
    simp only [TxLane.tail_unstopped, TxLane.traffic_unstopped] at tail underrun
    have quiet : x.1.tail = none ∧ x.1.traffic.underrun = l.traffic.underrun := by
      simp only [departed] at last ended
      rcases effect with ⟨rfl, left⟩ | ⟨_, _, rfl, left⟩ | ⟨_, _, rfl, left⟩ <;>
        rw [left] at last ended <;>
        simp [Departure.isDropped, TxLane.pickUp_tail, TxLane.pickUp_traffic, Traffic.countLate]
          at last ended ⊢
      · exact ended
      · exact ended
      · simpa [Block.expectsMore] using last
    obtain ⟨none, same⟩ := TxPass.settled_of_none quiet.1
      (w.session.beginPass reading draining) (if (w.session.beginPass reading
        draining).packets.isEmpty then none else some answer)
    exact ⟨l', there, tail.trans none, underrun.trans (same.trans quiet.2)⟩
  | _ => exact rests (by simp) (by simpa [departed] using ended)

theorem run_ended (found : w.session.txOn channel = some l) (ended : l.tail = none)
    {events : List Event} (last : ∀ d ∈ observe (departed channel) w events,
      d.isDropped = false → d.batch.expectsMore = false) :
    (w.run events).session.underrunOn channel = l.traffic.underrun.count := by
  induction events generalizing w l with
  | nil => exact Session.underrunOn_eq found
  | cons e rest ih =>
    obtain ⟨now, later⟩ := List.forall_mem_append.mp last
    obtain ⟨l', there, still, same⟩ := step_ended found now (.inl ended)
    rw [← same]
    exact ih there still later

theorem found_of_departed {e : Event} {d : Departure} (left : d ∈ departed channel w e) :
    ∃ l, w.session.txOn channel = some l := by
  cases e with
  | pass reading draining answer =>
    cases found : w.session.txOn channel with
    | some l => exact ⟨l, rfl⟩
    | none =>
      rw [departed, (Session.pass_absent found reading draining answer).2.1] at left
      contradiction
  | _ => contradiction

/-- Where all samples that have not left are in the hand, they are one batch, and it is marked if
and only if a burst ended with the last of them. -/
theorem TxSound.hand_batch (sound : TxSound c w) (fresh : w.session.unsent channel = [])
    {done : List Event} (unsent : (w.run done).session.unsent channel ≠ [])
    (queue : (w.run done).session.inQueue channel = []) :
    ∃ l b, (w.run done).session.txOn channel = some l ∧ l.held = some b ∧
      (observe (accepted channel) w done).length =
        ((observe (departed channel) w done).flatMap (·.batch.content)).length +
          b.content.length ∧
      (b.flush = true ↔
        (observe (accepted channel) w done).length ∈ burstEnds channel 0 w done) := by
  have kept (w : World) (e : Event) (sound : TxSound c w) : TxSound c (w.step e) := (sound.step e).1
  have reached : TxSound c (w.run done) := run_invariant kept sound done
  have balance := observe_balance (fun w => w.session.unsent channel) kept
    (fun w e sound => ((sound.step e).2 channel).content_eq) sound done
  have marks := sound.run_burstEnds_fresh fresh done (observe (accepted channel) w done).length
  have stored := mem_observe kept (fun w e sound => departed_stored sound e channel) sound done
  rw [← observe_flatMap, fresh, List.nil_append] at balance
  cases found : (w.run done).session.txOn channel with
  | none =>
    rw [Session.unsent, found] at unsent
    exact absurd rfl unsent
  | some l =>
    have blocks := (reached.inQueue_isEmpty found).mp (List.isEmpty_iff.mpr queue)
    have line : (w.run done).session.line channel = l.held.toList := by
      simp [Session.line, found, TxLane.line, blocks]
    rw [Session.unsent_eq_line, line] at unsent balance
    cases held : l.held with
    | none =>
      rw [held] at unsent
      exact absurd rfl unsent
    | some b =>
      have total := congrArg List.length balance
      rw [held, Option.toList_some, List.flatMap_singleton, List.length_append] at total
      refine ⟨l, b, rfl, held, total, ?_⟩
      have here := (reached.session.lanes channel l found).held b held
      rw [reached.config_eq] at here
      have pos := here.length_pos
      rw [← here.length_content] at pos
      have counted : (observe (accepted channel) w done).length = 0 +
          (((observe (departed channel) w done).map (·.batch)).flatMap Block.content).length +
            b.content.length := by
        rw [total, Nat.zero_add, List.flatMap_map]
      have whole : ∀ x ∈ (observe (departed channel) w done).map (·.batch) ++ [b],
          x.Stored c.linkFormat.sampleSize := by
        simp only [List.forall_mem_append, List.forall_mem_map, List.forall_mem_singleton]
        exact ⟨stored, here⟩
      rw [← marks, line, held, Option.toList_some, Block.mem_burstEnds_within whole (by omega)
        (by omega), and_iff_left counted]

section flush
variable {done next mid : List Event} {e : Event} {d : Departure}

/-- If the hand holds all that has not left, the next batch to leave is that one. -/
theorem TxSound.hand_leaves (sound : TxSound c w) (fresh : w.session.unsent channel = [])
    (unsent : (w.run done).session.unsent channel ≠ [])
    (queue : (w.run done).session.inQueue channel = [])
    (left : departed channel (w.run (done ++ next)) e = [d]) :
    let count := (observe (accepted channel) w done).length
    let gone := ((observe (departed channel) w (done ++ next)).flatMap (·.batch.content)).length
    gone < count → count = gone + d.batch.content.length ∧
      (d.batch.flush = true ↔ count ∈ burstEnds channel 0 w done) := by
  intro count gone behind
  obtain ⟨l, b, found, held, total, marked⟩ := sound.hand_batch fresh unsent queue
  have first := run_hand found held (next ++ [e])
  have last : observe (departed channel) (w.run (done ++ next)) [e] = [d] := by
    simp [observe, left]
  rw [observe_append, ← run_append, last] at first
  dsimp only [count, gone] at behind ⊢
  rw [observe_append, List.flatMap_append, List.length_append] at behind ⊢
  cases between : observe (departed channel) (w.run done) next with
  | nil =>
    rw [between] at first
    obtain rfl := first d rfl
    exact ⟨by simpa using total, marked⟩
  | cons d' others =>
    rw [between] at first behind
    have same := first d' rfl
    rw [List.flatMap_cons, List.length_append, same] at behind
    omega

/-- The batch that carries the last sample accepted before an empty flushed transmission ends with
it, and it is marked if the call found samples in the queue or the sample ended a burst before. -/
theorem TxSound.flushed_batch {α : Type} [HostSample α] (sound : TxSound c w)
    (fresh : w.session.unsent channel = []) {info : TransferMeta} {reading : Except Fault Tick}
    {wait : Wait} (flush : info.flush = true)
    (taken : ((w.run done).session.transmit channel ([] : List α) info reading wait).1 = .ok 0)
    (unsent : (w.run done).session.unsent channel ≠ [])
    (left : departed channel
      (w.run (done ++ .transmit channel ([] : List α) info reading wait :: mid)) e = [d]) :
    let count := (observe (accepted channel) w done).length
    let past := done ++ .transmit channel ([] : List α) info reading wait :: mid
    let gone := ((observe (departed channel) w past).flatMap (·.batch.content)).length
    gone < count → count ≤ gone + d.batch.content.length →
      count = gone + d.batch.content.length ∧ (d.batch.flush = true ↔
        (w.run done).session.inQueue channel ≠ [] ∨ count ∈ burstEnds channel 0 w done) := by
  intro count past gone behind upTo
  by_cases queue : (w.run done).session.inQueue channel = []
  · obtain ⟨last, marked⟩ := sound.hand_leaves fresh unsent queue left behind
    exact ⟨last, by rw [marked, or_iff_right (not_not_intro queue)]⟩
  · have ended : count ∈ burstEnds channel 0 w (past ++ [e]) := by
      refine mem_burstEnds.mpr ⟨done, .transmit channel ([] : List α) info reading wait,
        mid ++ [e], by simp [past], ?_, ?_⟩
      · simpa [endsBurst, taken, flush] using queue
      · have nothing : accepted channel (w.run done)
            (.transmit channel ([] : List α) info reading wait) = [] := by
          simp [accepted, StreamConfig.encoded]
        simp [observe_append, observe, nothing, count]
    obtain ⟨marked, last⟩ := (sound.mem_burstEnds_batch fresh left [] behind upTo).mp ended
    exact ⟨last, iff_of_true marked (.inl queue)⟩

end flush

/-- An empty flushed transmission on a channel with unsent samples: the packet with the last sample
accepted before ends with it, and it is marked if and only if some of the samples were still
queued or that sample had ended a burst already. If so, no underrun is counted from its batch on
until a batch is written that ends no burst. -/
theorem flush_reaches_end {available : UInt8} (valid : c.validate available = .ok ())
    (monitor : Option Monitor) (clock : Tick) {α : Type} [HostSample α] (done mid : List Event)
    (e : Event) (channel : UInt8) (info : TransferMeta) (reading : Except Fault Tick) (wait : Wait)
    (flush : info.flush = true) :
    let start := opened c monitor clock
    let w := start.run done
    let call := Event.transmit channel ([] : List α) info reading wait
    let past := done ++ call :: mid
    let size := c.linkFormat.sampleSize
    let count := (observe (accepted channel) start done).length
    let gone := ((observe (departed channel) start past).flatMap (·.batch.content)).length
    let reached := w.session.inQueue channel ≠ [] ∨ count ∈ burstEnds channel 0 start done
    (w.session.transmit channel ([] : List α) info reading wait).1 = .ok 0 →
    w.session.unsent channel ≠ [] →
    (∀ front p back,
      (written (start.run past) e).filter (·.channel == channel) = front ++ p :: back →
      gone + (front.flatMap (TxPacket.content size)).length < count →
      count ≤ gone + ((front ++ [p]).flatMap (TxPacket.content size)).length →
        count = gone + ((front ++ [p]).flatMap (TxPacket.content size)).length ∧
          (p.flush = true ↔ reached)) ∧
    (reached → ∀ d ∈ departed channel (start.run past) e, d.isDropped = false →
      gone < count → count ≤ gone + d.batch.content.length →
      ∀ after, (∀ next ∈ observe (departed channel) ((start.run past).step e) after,
          next.isDropped = false → next.batch.flush = true) →
        (((start.run past).step e).run after).session.underrunOn channel =
          (start.run past).session.underrunOn channel) := by
  intro start w call past size count gone reached taken unsent
  have sound : TxSound c start := opened_txSound valid monitor clock
  have fresh := (opened_unsent c monitor clock channel).1
  have behindPast : TxSound c (start.run past) := run_txSound valid monitor clock past
  constructor
  · intro front p back sent behind upTo
    obtain ⟨d, left, cut⟩ := behindPast.written_cut sent
    have stored := departed_stored behindPast e channel d (by simp [left])
    obtain ⟨_, inside, marked⟩ := stored.packetize_flush_iff cut
    have batch : count = gone + d.batch.content.length ∧ (d.batch.flush = true ↔ reached) :=
      sound.flushed_batch fresh flush taken unsent left
        (Nat.lt_of_le_of_lt (Nat.le_add_right _ _) behind)
        (Nat.le_trans upTo (Nat.add_le_add_left inside _))
    obtain ⟨last, ended⟩ := batch
    have whole : ((front ++ [p]).flatMap (TxPacket.content size)).length =
        d.batch.content.length :=
      Nat.le_antisymm inside (Nat.le_of_add_le_add_left (last ▸ upTo))
    rw [whole]
    exact ⟨last, marked.trans ((and_iff_left whole).trans ended)⟩
  · intro reach d member sent behind upTo after flushed
    obtain ⟨l, found⟩ := found_of_departed member
    have left : departed channel (start.run past) e = [d] := by
      rcases departed_single (start.run past) e channel with none | ⟨only, all, _⟩
      · simp [none] at member
      · obtain rfl := List.mem_singleton.mp (all ▸ member)
        exact all
    have marked := (sound.flushed_batch fresh flush taken unsent left behind upTo).2.mpr reach
    have only : ∀ d ∈ departed channel (start.run past) e, d.isDropped = false →
        d.batch.expectsMore = false := by
      rw [left, List.forall_mem_singleton]
      exact fun _ => Block.expectsMore_of_flush marked
    have last : ∀ next ∈ observe (departed channel) ((start.run past).step e) after,
        next.isDropped = false → next.batch.expectsMore = false :=
      fun next there sent => Block.expectsMore_of_flush (flushed next there sent)
    obtain ⟨l', there, ended, same⟩ := step_ended found only (.inr ⟨d, member, sent⟩)
    rw [run_ended there ended last, same, Session.underrunOn_eq found]

/-- A timed burst of one and a half batches: the first is in the hand, the rest in the queue. -/
def splitBurst : List Event :=
  [.transmit 0 [(⟨1, -1⟩ : IntSample), ⟨2, -2⟩, ⟨3, -3⟩, ⟨4, -4⟩, ⟨5, -5⟩, ⟨6, -6⟩]
      (.anchored (Tick.clamp 8)) (.ok .zero) .poll,
    .pass (.ok .zero) false (.ok ())]

theorem flush_reaches_end_split :
    let start := opened smallBatches none .zero
    let w := start.run splitBurst
    let info := TransferMeta.plain.flushed
    let first := Event.pass (.ok (Tick.clamp 8)) false (.ok ())
    let second := Event.pass (.ok (Tick.clamp 12)) false (.ok ())
    let past := splitBurst ++ .transmit 0 ([] : List IntSample) info (.ok .zero) .poll :: [first]
    let last : TxPacket := ⟨0, some (Tick.clamp 12), true, [5, 0, 251, 255, 6, 0, 250, 255]⟩
    smallBatches.validate 2 = .ok () ∧ info.flush = true ∧
      (w.session.transmit 0 ([] : List IntSample) info (.ok .zero) .poll).1 = .ok 0 ∧
      w.session.unsent 0 ≠ [] ∧ w.session.inQueue 0 ≠ [] ∧
      (written (start.run past) second).filter (·.channel == 0) = [last] ∧
      (last.flush = true ↔ w.session.inQueue 0 ≠ [] ∨
        (observe (accepted 0) start splitBurst).length ∈ burstEnds 0 0 start splitBurst) := by
  intro start w info first second past last
  have valid : smallBatches.validate 2 = .ok () := rfl
  have taken : (w.session.transmit 0 ([] : List IntSample) info (.ok .zero) .poll).1 = .ok 0 :=
    Session.transmit_empty (by decide +kernel) (by decide +kernel) rfl _ _
  have unsent : w.session.unsent 0 ≠ [] := by decide +kernel
  have sent : (written (start.run past) second).filter (·.channel == 0) = [last] := by
    decide +kernel
  obtain ⟨packets, _⟩ := flush_reaches_end valid none .zero splitBurst [first] second 0 info
    (.ok .zero) .poll rfl taken unsent
  have reached := packets [] last [] sent (by decide +kernel) (by decide +kernel)
  exact ⟨valid, rfl, taken, unsent, by decide +kernel, sent, reached.2⟩

/-- A timed burst that is one batch, all of it in the hand. -/
def heldBurst : List Event :=
  [.transmit 0 [(⟨1, -1⟩ : IntSample), ⟨2, -2⟩, ⟨3, -3⟩, ⟨4, -4⟩] (.anchored (Tick.clamp 8))
      (.ok .zero) .poll,
    .pass (.ok .zero) false (.ok ())]

/-- The flush of a burst that is in the hand as a whole is lost: no packet of it is marked, and an
underrun is counted when its end has passed. -/
theorem flush_lost_in_hand :
    let start := opened smallBatches none .zero
    let info := TransferMeta.plain.flushed
    let call := Event.transmit 0 ([] : List IntSample) info (.ok .zero) .poll
    let send := Event.pass (.ok (Tick.clamp 8)) false (.ok ())
    let idle := Event.pass (.ok (Tick.clamp 20)) false (.ok ())
    let w := start.run heldBurst
    smallBatches.validate 2 = .ok () ∧
      (∀ e ∈ heldBurst ++ [call, send, idle], e.Unfailing) ∧ info.flush = true ∧
      (w.session.transmit 0 ([] : List IntSample) info (.ok .zero) .poll).1 = .ok 0 ∧
      (w.session.unsent 0).length = 4 ∧ (observe (accepted 0) start heldBurst).length = 4 ∧
      (written (w.step call) send).map (fun p => (p.channel, p.timestamp, p.flush)) =
        [(0, some (Tick.clamp 8), false), (0, some (Tick.clamp 10), false)] ∧
      (w.run [call, send]).session.underrunOn 0 = 0 ∧
      (w.run [call, send, idle]).session.underrunOn 0 = 1 := by
  refine ⟨rfl, ?_, rfl, Session.transmit_empty (by decide +kernel) (by decide +kernel) rfl _ _, ?_⟩
  · simp [heldBurst, Event.Unfailing]
  · decide +kernel

end World
end RadioStream
