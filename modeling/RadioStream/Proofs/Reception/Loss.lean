import RadioStream.Proofs.Reception.Lane

/-!
The loss counter of a receive channel against the ticks that are missing between the
blocks it accepts. The counter holds these ticks and, beside them, the gaps before
packets too short for a sample, which are counted although nothing follows them.
-/
namespace RadioStream

namespace Block

/-- The ticks that are missing between blocks in a row. -/
def missingTicks : List Block → Nat
  | a :: b :: rest => a.finish.gap b.start + missingTicks (b :: rest)
  | _ => 0

theorem missingTicks_concat (blocks : List Block) (b : Block) :
    missingTicks (blocks ++ [b]) =
      missingTicks blocks + (blocks.getLast?.elim 0 (·.finish.gap b.start)) := by
  induction blocks with
  | nil => rfl
  | cons a rest ih =>
    cases rest with
    | nil => simp [missingTicks]
    | cons next rest =>
      simp only [List.cons_append, missingTicks] at ih ⊢
      rw [ih, List.getLast?_cons_cons, Nat.add_assoc]

end Block

/-- Blocks that a lane has accepted, each at or behind the end of the one before it: the ticks
from the first to the last of them are their samples and what is missing between them. -/
structure Spanned (aligned : Option Tick) (blocks : List Block) (expected : Option Tick) :
    Prop where
  expected_eq : expected = blocks.getLast?.map Block.finish
  begun : ∀ next ∈ expected, ∀ a ∈ aligned, a < next
  span : ∀ first ∈ blocks.head?, ∀ last ∈ blocks.getLast?,
    last.finish.toInt - first.start.toInt =
      ((blocks.flatMap Block.content).length + Block.missingTicks blocks : Nat)

namespace Spanned
variable {size : Nat} {aligned expected : Option Tick} {blocks : List Block} {b : Block}
  {p : RxPacket}

theorem nothing (aligned : Option Tick) : Spanned aligned [] none :=
  ⟨rfl, fun _ given => (Option.not_mem_none _ given).elim,
    fun _ given => (Option.not_mem_none _ given).elim⟩

theorem concat (h : Spanned aligned blocks expected)
    (fresh : RxPacket.Fresh size aligned expected p b) (filled : b.length ≠ 0) :
    Spanned aligned (blocks ++ [b]) (some b.finish) := by
  have finish := fresh.dated.toInt_finish
  have samples := fresh.dated.toWhole.length_content
  refine ⟨by rw [List.getLast?_concat]; rfl, fun next given a start => ?_,
    fun first isFirst last isLast => ?_⟩
  · obtain rfl := Option.some.inj given
    have := fresh.aligned_le filled a start
    rw [Tick.le_def] at this
    rw [Tick.lt_def]
    omega
  · rw [List.getLast?_concat] at isLast
    obtain rfl := Option.some.inj isLast
    rw [Block.missingTicks_concat, List.flatMap_append, List.length_append, List.flatMap_singleton,
      samples]
    cases before : blocks.getLast? with
    | none =>
      rw [List.getLast?_eq_none_iff] at before
      rw [before] at isFirst ⊢
      obtain rfl := Option.some.inj isFirst
      simp [Block.missingTicks]
      omega
    | some previous =>
      have expects := h.expected_eq
      rw [before] at expects
      have onward := fresh.expected_le filled _ expects
      have isHead : first ∈ blocks.head? := by
        cases blocks with
        | nil => contradiction
        | cons a rest => exact isFirst
      have span := h.span first isHead previous before
      rw [Tick.le_def] at onward
      simp only [Option.elim]
      rw [Tick.gap]
      omega

end Spanned

namespace RxPacket
variable {size : Nat} {aligned expected : Option Tick} {p : RxPacket}

/-- The gap before a packet that is too short for a sample. -/
def hollowGap (size : Nat) (expected : Option Tick) (p : RxPacket) : Nat :=
  if p.payload.length < size then expected.elim 0 (·.gap p.timestamp) else 0

/-- The gap that a lane counts is the one before the fresh part of the packet, if there is
one, or that of a packet without samples. -/
theorem gap_eq (pos : 0 < size)
    (bound : p.timestamp.toInt + (p.payload.length / size : Nat) ≤ 0x7fffffffffffffff)
    (begun : ∀ next ∈ expected, ∀ a ∈ aligned, a < next) :
    expected.elim 0 (·.gap ((Block.received p.timestamp p.payload size).since aligned).start) =
      (if (p.fresh size aligned expected).isEmpty then 0
        else expected.elim 0 (·.gap (p.fresh size aligned expected).start)) +
      p.hollowGap size expected := by
  cases expected with
  | none => simp [hollowGap]
  | some next =>
    have dated := Block.received_dated pos bound
    have total := Block.received_length pos p.timestamp p.payload
    have first := (dated.since aligned).1
    have firstCut := dated.since_start aligned
    have cut := first.since_start (some next)
    have whole := (first.since (some next)).1.toWhole
    have stamp : (Block.received p.timestamp p.payload size).start = p.timestamp := rfl
    have short : p.payload.length < size ↔ p.payload.length / size = 0 := by
      rw [Nat.div_eq_zero_iff]
      omega
    have aligns : aligned.elim 0 p.timestamp.gap = 0 ∨
        p.timestamp.toInt + aligned.elim 0 p.timestamp.gap < next.toInt := by
      cases aligned with
      | none => exact .inl rfl
      | some a =>
        have := begun next rfl a rfl
        rw [Tick.lt_def] at this
        simp only [Option.elim, Tick.gap]
        omega
    rw [stamp, total] at firstCut
    unfold hollowGap fresh
    simp only [whole.isEmpty_iff, short]
    simp only [Option.elim_some] at cut ⊢
    unfold Tick.gap at *
    split <;> split <;> omega

end RxPacket

def Session.lossOn (s : Session) (channel : UInt8) : Nat :=
  (s.rxOn channel).elim 0 (·.traffic.loss.count)

namespace World

/-- The blocks that the lane of a channel accepts. -/
def admitted (channel : UInt8) (w : World) : Event → List Block
  | .arrive p =>
    if p.channel = channel then (w.session.rxOn channel).elim [] fun lane =>
      [p.fresh w.session.config.linkFormat.sampleSize w.session.timeline.alignedStart
        lane.expected].filter (!·.isEmpty)
    else []
  | _ => []

/-- The gaps before packets of a channel that are too short for a sample. -/
def hollowGaps (channel : UInt8) (w : World) : Event → List Nat
  | .arrive p =>
    if p.channel = channel then (w.session.rxOn channel).elim [] fun lane =>
      [p.hollowGap w.session.config.linkFormat.sampleSize lane.expected]
    else []
  | _ => []

/-- The lane of a channel behind a run, with the blocks that it has accepted. -/
structure Counted (c : StreamConfig) (aligned : Option Tick) (blocks : List Block)
    (hollow : List Nat) (lane : RxLane) : Prop where
  queue : lane.queue.Sound c.linkFormat.sampleSize
  spanned : Spanned aligned blocks lane.expected
  loss_eq : lane.traffic.loss.count =
    min (Block.missingTicks blocks + hollow.foldl (· + ·) 0) 0xffffffff

namespace Counted
variable {c : StreamConfig} {aligned : Option Tick} {blocks : List Block} {hollow : List Nat}
  {lane after : RxLane} {channel : UInt8} {w : World}

theorem of_core (r : Counted c aligned blocks hollow lane) (same : after.core = lane.core) :
    Counted c aligned blocks hollow after := by
  have expected := congrArg RxLane.expected same
  have traffic := congrArg RxLane.traffic same
  simp only [RxLane.expected_core, RxLane.traffic_core] at expected traffic
  refine ⟨RxLane.sound_core.mp (same ▸ RxLane.sound_core.mpr r.queue), ?_, ?_⟩
  · rw [expected]
    exact r.spanned
  · rw [traffic]
    exact r.loss_eq

theorem arrive (r : Counted c aligned blocks hollow lane) (config : w.session.config = c)
    (start : w.session.timeline.alignedStart = aligned)
    (found : w.session.rxOn channel = some lane) {p : RxPacket} (here : p.channel = channel)
    (inRange : (Event.arrive p).InRange c.linkFormat.sampleSize) :
    ∃ after, (w.session.accept p).rxOn channel = some after ∧
      Counted c aligned
        (blocks ++ [p.fresh c.linkFormat.sampleSize aligned lane.expected].filter (!·.isEmpty))
        (hollow ++ [p.hollowGap c.linkFormat.sampleSize lane.expected]) after := by
  have pos := c.linkFormat.sampleSize_pos
  obtain ⟨after, on, same⟩ := w.session.accept_on found p
  have fresh := p.fresh_spec pos aligned lane.expected inRange
  have gap := p.gap_eq pos inRange r.spanned.begun
  have received : w.session.timeline.align (Block.received p.timestamp p.payload
      w.session.config.linkFormat.sampleSize) =
      (Block.received p.timestamp p.payload c.linkFormat.sampleSize).since aligned := by
    rw [Timeline.align_eq, config, start]
  have trimmed : lane.trim ((Block.received p.timestamp p.payload
      c.linkFormat.sampleSize).since aligned) =
      p.fresh c.linkFormat.sampleSize aligned lane.expected := lane.trim_eq _
  rw [if_pos here, received] at same
  have accepts := lane.accept_spec r.queue (trimmed ▸ fresh.dated.toWhole)
  have counted := accepts.loss_eq
  rw [r.loss_eq, RxLane.missing_eq, gap] at counted
  have expected := accepts.expected_eq
  rw [trimmed] at expected
  refine ⟨after, on, .of_core ?_ same⟩
  cases empty : (p.fresh c.linkFormat.sampleSize aligned lane.expected).isEmpty with
  | true =>
    rw [empty, if_pos rfl] at expected counted
    refine ⟨accepts.queue, ?_, ?_⟩
    · simpa [empty, expected] using r.spanned
    · simp only [empty, Bool.not_true, List.filter_cons_of_neg, List.filter_nil, List.append_nil,
        Bool.false_eq_true, not_false_eq_true, List.foldl_append, List.foldl_cons, List.foldl_nil]
      omega
  | false =>
    have filled : (p.fresh c.linkFormat.sampleSize aligned lane.expected).length ≠ 0 := by
      rw [ne_eq, ← fresh.dated.toWhole.isEmpty_iff, empty]
      exact Bool.false_ne_true
    have between : lane.expected.elim 0
        (·.gap (p.fresh c.linkFormat.sampleSize aligned lane.expected).start) =
        blocks.getLast?.elim 0 (·.finish.gap
          (p.fresh c.linkFormat.sampleSize aligned lane.expected).start) := by
      rw [r.spanned.expected_eq]
      cases blocks.getLast? <;> rfl
    rw [empty, if_neg Bool.false_ne_true] at expected counted
    rw [between] at counted
    refine ⟨accepts.queue, ?_, ?_⟩
    · simpa [empty, expected] using r.spanned.concat fresh filled
    · simp only [empty, Bool.not_false, List.filter_cons_of_pos, List.filter_nil,
        Block.missingTicks_concat, List.foldl_append, List.foldl_cons, List.foldl_nil]
      omega

theorem step (r : Counted c aligned blocks hollow lane) (config : w.session.config = c)
    (start : w.session.timeline.alignedStart = aligned)
    (found : w.session.rxOn channel = some lane) {e : Event}
    (inRange : e.InRange c.linkFormat.sampleSize) :
    ∃ after, (w.step e).session.rxOn channel = some after ∧
      Counted c aligned (blocks ++ admitted channel w e) (hollow ++ hollowGaps channel w e)
        after := by
  have frame (elsewhere : e.isFor channel = false) : ∃ after,
      (w.step e).session.rxOn channel = some after ∧
        Counted c aligned (blocks ++ []) (hollow ++ []) after := by
    obtain ⟨after, on, core⟩ := step_elsewhere elsewhere found
    rw [List.append_nil, List.append_nil]
    exact ⟨after, on, r.of_core core⟩
  cases e with
  | @receive _ _ on buffer info wait =>
    by_cases here : on = channel
    · subst here
      obtain ⟨after, there, sound, expected, loss⟩ :=
        w.session.receive_keeps found r.queue buffer info wait
      simp only [admitted, hollowGaps, List.append_nil]
      exact ⟨after, there, sound, expected ▸ r.spanned, loss ▸ r.loss_eq⟩
    · exact frame (beq_eq_false_iff_ne.mpr here)
  | arrive p =>
    by_cases here : p.channel = channel
    · simp only [admitted, hollowGaps, if_pos here, found, config, start, Option.elim]
      exact r.arrive config start found here inRange
    · simp only [admitted, hollowGaps, if_neg here]
      exact frame (beq_eq_false_iff_ne.mpr here)
  | _ => exact frame rfl

end Counted

theorem counted_run {c : StreamConfig} {channel : UInt8} (listed : channel ∈ c.rxChannels)
    (monitor : Option Monitor) (clock : Tick) {events : List Event}
    (inRange : ∀ e ∈ events, e.InRange c.linkFormat.sampleSize) :
    let start := opened c monitor clock
    ∃ lane, (start.run events).session.rxOn channel = some lane ∧
      Counted c start.session.timeline.alignedStart (observe (admitted channel) start events)
        (observe (hollowGaps channel) start events) lane := by
  intro start
  refine lane_history listed monitor clock (P := fun done lane =>
    Counted c start.session.timeline.alignedStart (observe (admitted channel) start done)
      (observe (hollowGaps channel) start done) lane) ?_ ?_ inRange
  · exact ⟨ChannelQueue.sound_empty _, .nothing _, rfl⟩
  · intro done e lane fine config aligned on counted
    simp only [observe_append, observe, List.append_nil]
    exact counted.step config aligned on fine

/-- The ticks from the first accepted block of a channel to the end of the last one are its
samples and what is missing between blocks. The loss counter is these missing ticks unless
packets too short for a sample came behind a gap: their gaps are counted on top. -/
theorem loss_exact_iff {c : StreamConfig} {channel : UInt8} (listed : channel ∈ c.rxChannels)
    (monitor : Option Monitor) (clock : Tick) {events : List Event}
    (inRange : ∀ e ∈ events, e.InRange c.linkFormat.sampleSize) :
    let start := opened c monitor clock
    let blocks := observe (admitted channel) start events
    let missing := Block.missingTicks blocks
    let hollow := (observe (hollowGaps channel) start events).foldl (· + ·) 0
    let loss := (start.run events).session.lossOn channel
    (∀ first ∈ blocks.head?, ∀ last ∈ blocks.getLast?,
      last.finish.toInt - first.start.toInt =
        ((blocks.flatMap Block.content).length + missing : Nat)) ∧
      loss = min (missing + hollow) 0xffffffff ∧
      (loss = min missing 0xffffffff ↔ hollow = 0 ∨ 0xffffffff ≤ missing) := by
  intro start blocks missing hollow loss
  obtain ⟨lane, found, counted⟩ := counted_run listed monitor clock inRange
  have total : loss = min (missing + hollow) 0xffffffff := by
    dsimp only [loss, Session.lossOn]
    rw [found]
    exact counted.loss_eq
  exact ⟨counted.spanned.span, total, by omega⟩

/-- A short packet between two others, far behind the first. -/
def hollowPacket : List Event :=
  let samples := (List.range 40).map UInt8.ofNat
  [.arrive ⟨0, Tick.clamp 0, samples⟩, .arrive ⟨0, Tick.clamp 100, [1, 2, 3]⟩,
    .arrive ⟨0, Tick.clamp 50, samples⟩]

def oneReceiver : StreamConfig := { StreamConfig.default with rxChannels := [0] }

theorem loss_exact_iff_hollow :
    let start := opened oneReceiver none .zero
    0 ∈ oneReceiver.rxChannels ∧
      (∀ e ∈ hollowPacket, e.InRange oneReceiver.linkFormat.sampleSize) ∧
      (start.run hollowPacket).session.lossOn 0 =
        min (Block.missingTicks (observe (admitted 0) start hollowPacket) +
          (observe (hollowGaps 0) start hollowPacket).foldl (· + ·) 0) 0xffffffff := by
  have listed : 0 ∈ oneReceiver.rxChannels := by decide
  have inRange : ∀ e ∈ hollowPacket, e.InRange oneReceiver.linkFormat.sampleSize := by
    simp [hollowPacket, Event.InRange]
    decide
  exact ⟨listed, inRange, (loss_exact_iff listed none .zero inRange).2.1⟩

/-- Ten samples, a gap of forty ticks and ten more: the counter shows 130 lost ticks. -/
theorem loss_overcounted :
    let start := opened oneReceiver none .zero
    let blocks := observe (admitted 0) start hollowPacket
    blocks.map (fun b => (b.start.toInt, b.length)) = [(0, 10), (50, 10)] ∧
      Block.missingTicks blocks = 40 ∧
      (start.run hollowPacket).session.lossOn 0 = 130 ∧
      (start.run hollowPacket).session.lossOn 0 ≠
        min (Block.missingTicks blocks) 0xffffffff := by
  decide +kernel

end World
end RadioStream
