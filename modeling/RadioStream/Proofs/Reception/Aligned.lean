import RadioStream.Proofs.Reception.Conservation

/-!
A phase-aligned start. Aligning cuts from a packet the samples before the common start and
no others, as far before it as a difference of ticks can tell. So a lane holds ticks from
the start on alone, it expects none before it, and what is cut off is no loss; and lanes
whose packets reach over the start all begin at it.
-/
namespace RadioStream
open ChannelQueue (granted handedOut)

theorem Tick.le_later (t : Tick) (n : Nat) : t ≤ t.later n := by
  have := t.lt_bound
  rw [le_def, toInt_later]
  omega

theorem Counter.add_zero (c : Counter) : c.add 0 = c := by
  obtain ⟨count, limit⟩ := c
  simp only [add, Nat.add_zero, Nat.min_eq_left limit]

/-- A block without fresh samples and without a gap before it leaves a lane as it is. -/
theorem RxLane.accept_nothing {l : RxLane} {b : Block} (none : (l.trim b).isEmpty = true)
    (gapless : l.missing b = 0) : (l.accept b).1 = l := by
  rw [accept, gapless, Traffic.countLoss, Counter.add_zero]
  exact if_pos none ▸ rfl

/-- A sample with a tick from `first` on. -/
def Stamped.From (first : Tick) (x : Stamped) : Prop := ∃ t, x.tick = some t ∧ first ≤ t

namespace Block
variable {size : Nat} {b : Block} {first : Tick}

theorem from_of_start (timed : b.timed = true) (begins : first ≤ b.start) :
    ∀ x ∈ b.content, x.From first := by
  intro x member
  rw [content, tick?, if_pos timed] at member
  obtain ⟨i, _, tick⟩ := mem_stamp member
  have := b.start.le_later i
  rw [Tick.le_def] at *
  exact ⟨_, tick, by rw [Tick.le_def]; omega⟩

/-- What stands in front of a tick is before it, also where ticks saturate. -/
theorem before_of_gap (timed : b.timed = true) :
    ∀ x ∈ b.content.take (b.start.gap first), ∃ t, x.tick = some t ∧ t < first := by
  intro x member
  rw [content, tick?, if_pos timed] at member
  obtain ⟨i, early, tick⟩ := ChannelQueue.mem_take_stamp member
  refine ⟨_, tick, ?_⟩
  rw [Tick.gap] at early
  rw [Tick.lt_def, Tick.toInt_later]
  omega

theorem start_le_since (b : Block) (o : Option Tick) : b.start ≤ (b.since o).start := by
  cases o with
  | none => exact Int.le_refl _
  | some t => exact b.start.le_later _

theorem Whole.content_since (whole : b.Whole size) (first : Tick) :
    (b.since (some first)).content = b.content.drop (b.start.gap first) :=
  whole.content_advance _

/-- Cutting a block at a tick cuts off the samples before it, as many as there are. -/
theorem Whole.since_cut (whole : b.Whole size) (timed : b.timed = true) (first : Tick) :
    (b.since (some first)).content = b.content.drop (min b.length (b.start.gap first)) ∧
      ∀ x ∈ b.content.take (min b.length (b.start.gap first)),
        ∃ t, x.tick = some t ∧ t < first := by
  constructor
  · rw [whole.content_since, ← whole.length_content]
    rcases Nat.le_total b.content.length (b.start.gap first) with all | part
    · rw [Nat.min_eq_left all, List.drop_length, List.drop_of_length_le all]
    · rw [Nat.min_eq_right part]
  · intro x member
    rw [← List.take_take] at member
    exact before_of_gap timed x (List.mem_of_mem_take member)

/-- What is left of a block from a tick on begins there, or later where the block does. -/
theorem Whole.start_since (whole : b.Whole size)
    (filled : (b.since (some first)).isEmpty = false) :
    (b.since (some first)).start = max b.start first := by
  have left : (b.since (some first)).length ≠ 0 := by
    rw [ne_eq, ← (whole.since (some first)).isEmpty_iff, filled]
    exact Bool.false_ne_true
  have length : (b.since (some first)).length = b.length - b.start.gap first :=
    whole.length_advance (b.start.gap first)
  have bound := first.lt_bound
  have begins := b.start.lt_bound
  apply Tick.ext
  rw [Block.since, Block.advance, Tick.toInt_later, Tick.toInt_max]
  rw [Tick.gap] at *
  omega

end Block

namespace RxPacket
variable {size : Nat} {first : Tick} {p : RxPacket}

/-- A packet that is not further before a tick than a register of ticks can count. -/
def Near (first : Tick) (p : RxPacket) : Prop :=
  first.toInt - p.timestamp.toInt < 0x8000000000000000

instance (first : Tick) (p : RxPacket) : Decidable (p.Near first) :=
  inferInstanceAs (Decidable (_ < _))

theorem Near.toInt_minus (near : p.Near first) (early : p.timestamp < first) :
    (first.minus p.timestamp).toInt = first.toInt - p.timestamp.toInt := by
  rw [Tick.lt_def] at early
  exact Tick.toInt_minus (by omega) near

/-- Whether a packet holds a sample for a tick from `first` on. -/
def reaches (size : Nat) (first : Tick) (p : RxPacket) : Bool :=
  (Block.received p.timestamp p.payload size).content.any fun x => x.tick.any (first ≤ ·)

theorem reaches_iff (pos : 0 < size) : p.reaches size first = true ↔
    ((Block.received p.timestamp p.payload size).since (some first)).isEmpty = false := by
  have whole := Block.received_whole pos p.timestamp p.payload
  have kept := whole.content_since first
  constructor
  · intro reaches
    obtain ⟨x, member, tick⟩ := List.any_eq_true.mp reaches
    cases empty : ((Block.received p.timestamp p.payload size).since (some first)).isEmpty with
    | false => rfl
    | true =>
      rw [(whole.since (some first)).content_eq_nil.mpr empty, eq_comm, List.drop_eq_nil_iff]
        at kept
      rw [← List.take_of_length_le kept] at member
      obtain ⟨t, same, before⟩ := Block.before_of_gap rfl x member
      rw [same, Option.any_some, decide_eq_true_eq, Tick.le_def] at tick
      rw [Tick.lt_def] at before
      omega
  · intro filled
    have begins : first ≤ ((Block.received p.timestamp p.payload size).since (some first)).start := by
      rw [whole.start_since filled, Tick.le_def, Tick.toInt_max]
      exact Int.le_max_right _ _
    have held := mt (whole.since (some first)).content_eq_nil.mp (Bool.eq_false_iff.mp filled)
    obtain ⟨x, member⟩ := List.exists_mem_of_ne_nil _ held
    obtain ⟨t, same, later⟩ := Block.from_of_start (Block.since_timed _ _) begins x member
    rw [kept] at member
    exact List.any_eq_true.mpr ⟨x, List.mem_of_mem_drop member, by simp [same, later]⟩

/-- A packet that ends before `first` has nothing fresh from there on. -/
theorem fresh_isEmpty (pos : 0 < size) (short : p.reaches size first = false)
    (expected : Option Tick) : (p.fresh size (some first) expected).isEmpty = true := by
  have kept := (Block.received_whole pos p.timestamp p.payload).since (some first)
  have empty := mt (reaches_iff pos).mpr (Bool.eq_false_iff.mp short)
  rw [Bool.not_eq_false, kept.isEmpty_iff] at empty
  rw [(p.fresh_whole pos _ _).isEmpty_iff, fresh]
  cases expected with
  | none => exact empty
  | some next => rw [Block.since, kept.length_advance, empty, Nat.zero_sub]

/-- What is fresh in a packet for a lane that begins at `first` is from there on. -/
theorem fresh_from (pos : 0 < size) (first : Tick) (expected : Option Tick)
    (filled : (p.fresh size (some first) expected).isEmpty = false) :
    first ≤ (p.fresh size (some first) expected).start := by
  have whole := Block.received_whole pos p.timestamp p.payload
  have reaches : p.reaches size first = true := by
    refine Bool.of_not_eq_false fun short => ?_
    rw [fresh_isEmpty pos short] at filled
    contradiction
  have begins := whole.start_since ((reaches_iff pos).mp reaches)
  have later := ((Block.received p.timestamp p.payload size).since (some first)).start_le_since
    expected
  have bound := Tick.toInt_max (Block.received p.timestamp p.payload size).start first
  rw [begins, Tick.le_def] at later
  rw [fresh, Tick.le_def]
  omega

end RxPacket

/-- A lane of a stream that begins at `first`, with the packets it was sent, the blocks it has
accepted of them and the samples that calls took out of it. -/
structure Phased (size : Nat) (first : Tick) (packets : List RxPacket) (blocks : List Block)
    (handed : List Handed) (lane : RxLane) : Prop where
  queue : lane.queue.Sound size
  held : ∀ x ∈ lane.queue.content, x.From first
  expected_eq : lane.expected = blocks.getLast?.map Block.finish
  begins : ∀ b ∈ blocks, b.timed = true ∧ first ≤ b.start
  head_eq : blocks.head? = (packets.find? (·.reaches size first)).map fun p =>
    (Block.received p.timestamp p.payload size).since (some first)
  handed_from : ∀ h ∈ handed, first.toInt ≤ h.tick

namespace Phased
variable {size : Nat} {first : Tick} {packets : List RxPacket} {blocks : List Block}
  {handed : List Handed} {lane after : RxLane} {p : RxPacket}

theorem of_core (r : Phased size first packets blocks handed lane)
    (same : after.core = lane.core) : Phased size first packets blocks handed after := by
  have expected := congrArg RxLane.expected same
  have content := congrArg (·.queue.content) same
  simp only [RxLane.expected_core, RxLane.content_core] at expected content
  constructor
  · exact RxLane.sound_core.mp (same ▸ RxLane.sound_core.mpr r.queue)
  · rw [content]
    exact r.held
  · rw [expected]
    exact r.expected_eq
  · exact r.begins
  · exact r.head_eq
  · exact r.handed_from

/-- A lane that begins at a tick expects none before it. -/
theorem first_le (r : Phased size first packets blocks handed lane) :
    ∀ next ∈ lane.expected, first ≤ next := by
  intro next given
  rw [r.expected_eq] at given
  obtain ⟨b, last, rfl⟩ := Option.map_eq_some_iff.mp given
  have begins := (r.begins b (List.mem_of_getLast? last)).2
  have := b.start.le_later b.length
  rw [Tick.le_def] at *
  rw [Block.finish]
  omega

/-- Aligning leaves nothing before what the lane expects but what it cuts off. -/
theorem missing_eq (r : Phased size first packets blocks handed lane)
    (early : p.timestamp < first) :
    lane.missing ((Block.received p.timestamp p.payload size).since (some first)) = 0 := by
  rw [RxLane.missing_eq]
  cases expected : lane.expected with
  | none => rfl
  | some next =>
    have reached := r.first_le next expected
    rw [Tick.le_def] at reached
    rw [Tick.lt_def] at early
    rw [Option.elim_some, Block.since, Block.advance, Tick.gap, Tick.toInt_later]
    change (min (p.timestamp.toInt + (min (p.timestamp.gap first) _ : Nat)) _ - _).toNat = 0
    rw [Tick.gap]
    omega

/-- The first block that a lane accepts is of the first packet that reaches its beginning. -/
theorem head_next (r : Phased size first packets blocks handed lane) (pos : 0 < size)
    (p : RxPacket) :
    (blocks ++ [p.fresh size (some first) lane.expected].filter (!·.isEmpty)).head? =
      ((packets ++ [p]).find? (·.reaches size first)).map fun p =>
        (Block.received p.timestamp p.payload size).since (some first) := by
  have head := r.head_eq
  rw [List.find?_append]
  cases blocks with
  | nil =>
    have expected : lane.expected = none := r.expected_eq
    have none := Option.map_eq_none_iff.mp head.symm
    have fresh : p.fresh size (some first) lane.expected =
        (Block.received p.timestamp p.payload size).since (some first) := by
      rw [expected]
      rfl
    have reaches : p.reaches size first = true ↔ _ := RxPacket.reaches_iff pos
    rw [none, Option.none_or, fresh]
    cases empty : ((Block.received p.timestamp p.payload size).since (some first)).isEmpty with
    | true =>
      have short : p.reaches size first = false := by
        rw [Bool.eq_false_iff, ne_eq, reaches, empty]
        exact Bool.noConfusion
      simp [empty, short]
    | false => simp [empty, reaches.mpr empty]
  | cons a rest =>
    cases found : packets.find? (·.reaches size first) with
    | none =>
      rw [found] at head
      contradiction
    | some q =>
      rw [found] at head
      exact head

/-- A lane whose first packet to reach `first` does not begin behind it begins at `first`. -/
theorem begins_at (r : Phased size first packets blocks handed lane) (pos : 0 < size)
    (reaches : packets.find? (·.reaches size first) = some p) (begun : p.timestamp ≤ first) :
    ∃ x, (blocks.flatMap Block.content).head? = some x ∧ x.tick = some first := by
  have head := r.head_eq
  rw [reaches, Option.map_some] at head
  have whole := Block.received_whole pos p.timestamp p.payload
  have filled := (RxPacket.reaches_iff pos).mp (List.find?_some reaches)
  have start : ((Block.received p.timestamp p.payload size).since (some first)).start = first := by
    have begun : p.timestamp.toInt ≤ first.toInt := begun
    apply Tick.ext
    rw [whole.start_since filled, Tick.toInt_max]
    exact Int.max_eq_right begun
  have timed := Block.since_timed (Block.received p.timestamp p.payload size) (some first)
  have held := mt (whole.since (some first)).content_eq_nil.mp (Bool.eq_false_iff.mp filled)
  generalize (Block.received p.timestamp p.payload size).since (some first) = b at *
  obtain ⟨rest, rfl⟩ := List.head?_eq_some_iff.mp head
  obtain ⟨x, others, content⟩ := List.exists_cons_of_ne_nil held
  refine ⟨x, by rw [List.flatMap_cons, content]; rfl, ?_⟩
  rw [Block.tick_of_head (b := b) (by rw [content]; rfl), Block.tick?, timed, start]
  rfl

theorem accept (r : Phased size first packets blocks handed lane) (pos : 0 < size)
    (p : RxPacket) :
    Phased size first (packets ++ [p])
      (blocks ++ [p.fresh size (some first) lane.expected].filter (!·.isEmpty)) handed
      (lane.accept ((Block.received p.timestamp p.payload size).since (some first))).1 := by
  have trimmed : lane.trim ((Block.received p.timestamp p.payload size).since (some first)) =
      p.fresh size (some first) lane.expected := lane.trim_eq _
  have whole := p.fresh_whole pos (some first) lane.expected
  have timed := p.fresh_timed size (some first) lane.expected
  have begins := p.fresh_from pos first lane.expected
  have head := r.head_next pos p
  have accepts := lane.accept_spec r.queue (trimmed ▸ whole)
  have suffix := accepts.content_suffix
  have expected := accepts.expected_eq
  rw [trimmed] at suffix expected
  generalize p.fresh size (some first) lane.expected = b at *
  constructor
  · exact accepts.queue
  · intro x member
    rcases List.mem_append.mp (suffix.mem member) with old | new
    · exact r.held x old
    · cases empty : b.isEmpty with
      | true =>
        rw [whole.content_eq_nil.mpr empty] at new
        contradiction
      | false => exact Block.from_of_start timed (begins empty) x new
  · rw [expected]
    cases empty : b.isEmpty with
    | true => simpa [empty] using r.expected_eq
    | false => simp [empty]
  · intro a member
    rcases List.mem_append.mp member with old | new
    · exact r.begins a old
    · obtain ⟨only, filled⟩ := List.mem_filter.mp new
      rw [List.mem_singleton.mp only] at filled ⊢
      exact ⟨timed, begins (Bool.not_eq_true' _ ▸ filled)⟩
  · exact head
  · exact r.handed_from

/-- What a call takes out of a lane was held there. -/
theorem serve (r : Phased size first packets blocks handed lane) {given : List Handed}
    (queue : after.queue.Sound size) (held : ∀ x ∈ after.queue.content, x ∈ lane.queue.content)
    (expected : after.expected = lane.expected) (new : ∀ h ∈ given, first.toInt ≤ h.tick) :
    Phased size first packets blocks (handed ++ given) after := by
  constructor
  · exact queue
  · exact fun x member => r.held x (held x member)
  · exact expected.trans r.expected_eq
  · exact r.begins
  · exact r.head_eq
  · intro h member
    exact (List.mem_append.mp member).elim (r.handed_from h) (new h)

end Phased

/-- A run from a tick on is handed out with ticks from there on. -/
theorem Handed.from_of_run {α : Type} [HostSample α] {c : StreamConfig} {run : Block}
    {first : Tick} (whole : run.Whole c.linkFormat.sampleSize)
    (held : ∀ x ∈ run.content, x.From first) (buffer : List α) (info : TransferMeta) :
    let filled := HostSample.fillFromLink c.hostFormat c.linkFormat run.payload buffer
    ∀ h ∈ Delivery.samples ⟨.ok filled.1, filled.2, { info with timestamp := run.start }⟩,
      first.toInt ≤ h.tick := by
  intro filled h member
  obtain ⟨i, bound, rfl⟩ := List.mem_mapIdx.mp member
  have some : run.content ≠ [] := by
    intro none
    have samples := whole.length_samples
    rw [← whole.length_content, none, List.length_nil, whole.samples_eq,
      List.length_eq_zero_iff] at samples
    simp [filled, HostSample.fillFromLink, HostSample.fromLink, samples] at bound
  obtain ⟨x, rest, content⟩ := List.exists_cons_of_ne_nil some
  obtain ⟨t, tick, later⟩ := held x (content ▸ List.mem_cons_self)
  obtain rfl := Block.start_of_head (by rw [content]; rfl) tick
  rw [Tick.le_def] at later
  dsimp only
  omega

namespace World
variable {c : StreamConfig} {channel : UInt8} {w : World} {first : Tick}
  {packets : List RxPacket} {blocks : List Block} {handed : List Handed} {lane : RxLane}

theorem phased_receive {α : Type} [HostSample α]
    (r : Phased c.linkFormat.sampleSize first packets blocks handed lane)
    (config : w.session.config = c) (found : w.session.rxOn channel = some lane)
    (buffer : List α) (info : TransferMeta) (wait : Wait) :
    ∃ after, (w.session.receive channel buffer info wait).2.rxOn channel = some after ∧
      Phased c.linkFormat.sampleSize first packets blocks
        (handed ++ (w.session.receive channel buffer info wait).1.samples) after := by
  subst config
  have takes := lane.take_spec r.queue info.anchor? buffer.length wait w.session.timeline.tolerance
  have suffix := takes.popped.content_suffix
  rcases w.session.receive_on found buffer info wait with
    ⟨on, failed⟩ | ⟨on, ⟨run, taken, result⟩ | ⟨fault, taken, result⟩⟩
  · refine ⟨lane, on, r.serve r.queue (fun _ member => member) rfl ?_⟩
    intro h member
    rw [Delivery.samples] at member
    split at member
    · next count outcome => exact absurd outcome (failed count)
    · contradiction
  · rw [taken, handedOut] at suffix
    refine ⟨_, on, r.serve takes.popped.sound
      (fun x member => suffix.mem (List.mem_append_right _ member)) takes.expected_eq ?_⟩
    rw [result]
    exact Handed.from_of_run (takes.popped.whole run taken)
      (fun x member => r.held x (suffix.mem (List.mem_append_left _ member))) buffer info
  · refine ⟨_, on, r.serve takes.popped.sound
      (fun x member => suffix.mem (List.mem_append_right _ member)) takes.expected_eq ?_⟩
    rcases result with result | result <;> rw [result] <;> simp [Delivery.samples]

theorem phased_step (r : Phased c.linkFormat.sampleSize first packets blocks handed lane)
    (config : w.session.config = c) (aligned : w.session.timeline.alignedStart = some first)
    (found : w.session.rxOn channel = some lane) (e : Event) :
    ∃ after, (w.step e).session.rxOn channel = some after ∧
      Phased c.linkFormat.sampleSize first (packets ++ arrived channel w e)
        (blocks ++ admitted channel w e) (handed ++ delivered channel w e) after := by
  have frame (elsewhere : e.isFor channel = false) : ∃ after,
      (w.step e).session.rxOn channel = some after ∧
        Phased c.linkFormat.sampleSize first (packets ++ []) (blocks ++ []) (handed ++ [])
          after := by
    obtain ⟨after, on, core⟩ := step_elsewhere elsewhere found
    rw [List.append_nil, List.append_nil, List.append_nil]
    exact ⟨after, on, r.of_core core⟩
  cases e with
  | @receive _ _ on buffer info wait =>
    by_cases here : on = channel
    · subst here
      simp only [delivered, if_true, arrived, admitted, List.append_nil]
      exact phased_receive r config found buffer info wait
    · simp only [delivered, if_neg here]
      exact frame (beq_eq_false_iff_ne.mpr here)
  | arrive p =>
    by_cases here : p.channel = channel
    · obtain ⟨after, on, core⟩ := w.session.accept_on found p
      rw [if_pos here, Timeline.align_eq, config, aligned] at core
      simp only [arrived, admitted, if_pos here, found, config, aligned, Option.elim, delivered,
        List.append_nil]
      exact ⟨after, on, (r.accept c.linkFormat.sampleSize_pos p).of_core core⟩
    · simp only [arrived, admitted, if_neg here]
      exact frame (beq_eq_false_iff_ne.mpr here)
  | _ => exact frame rfl

theorem phased_run (aligns : c.alignPhase = true) (listed : channel ∈ c.rxChannels)
    (monitor : Option Monitor) (clock : Tick) (events : List Event) :
    let start := opened c monitor clock
    (start.run events).session.timeline.alignedStart = some (clock.later c.rxPacket) ∧
      ∃ lane, (start.run events).session.rxOn channel = some lane ∧
        Phased c.linkFormat.sampleSize (clock.later c.rxPacket)
          (observe (arrived channel) start events) (observe (admitted channel) start events)
          (observe (delivered channel) start events) lane := by
  intro start
  have begins : start.session.timeline.alignedStart = some (clock.later c.rxPacket) := if_pos aligns
  refine ⟨run_invariant (P := (·.session.timeline.alignedStart = some (clock.later c.rxPacket)))
    (fun w e same => (w.step_continues e).alignedStart_eq.trans same) begins events, ?_⟩
  refine lane_history listed monitor clock (P := fun done lane =>
    Phased c.linkFormat.sampleSize (clock.later c.rxPacket)
      (observe (arrived channel) start done) (observe (admitted channel) start done)
      (observe (delivered channel) start done) lane)
    (Q := fun _ => True) ?_ ?_ (fun _ _ => trivial)
  · exact ⟨ChannelQueue.sound_empty _, List.forall_mem_nil _, rfl, List.forall_mem_nil _, rfl,
      List.forall_mem_nil _⟩
  · intro done e lane _ config same on phased
    simp only [observe_append, observe, List.append_nil]
    exact phased_step phased config (same.trans begins) on e

/-- A channel that has not overrun, whose calls got nothing and skipped nothing, still holds all
that it has accepted. -/
theorem exits_none (listed : channel ∈ c.rxChannels) (monitor : Option Monitor) (clock : Tick)
    (events : List Event)
    (intact : ((opened c monitor clock).run events).session.overrunOn channel = 0)
    (empty : ∀ n ∈ observe (returned channel) (opened c monitor clock) events, n = 0)
    (kept : ∀ x ∈ observe (exits channel) (opened c monitor clock) events,
      x.isSkipped = false) :
    observe (exits channel) (opened c monitor clock) events = [] := by
  obtain ⟨_, lane, _, ledger⟩ := ledger_run listed monitor clock events
  have overwritten := overwritten_none listed monitor clock events intact
  have told : (observe (returned channel) (opened c monitor clock) events).foldl (· + ·) 0 = 0 :=
    List.foldlRecOn (motive := (· = 0)) _ _ rfl fun total zero n member => by
      rw [zero, empty n member]
  have none : ∀ x ∈ observe (exits channel) (opened c monitor clock) events, False := by
    intro x member
    have handed : x.isDelivered = false := by
      have counted := ledger.delivered_eq.trans told
      simpa using List.countP_eq_zero.mp counted x member
    have skips := kept x member
    simp [Exit.isSkipped, handed, overwritten x member] at skips
  exact List.eq_nil_iff_forall_not_mem.mpr none

/-- A plain call that gets samples returns the tick of the first that the lane holds. -/
theorem timestamp_of_head {α : Type} [HostSample α] {s : Session}
    (found : s.rxOn channel = some lane)
    (sound : lane.queue.Sound s.config.linkFormat.sampleSize) {x : Stamped}
    (head : x ∈ lane.queue.content.head?) (tick : x.tick = some first) {info : TransferMeta}
    (plain : info.useTimestamp = false) (buffer : List α) (wait : Wait)
    (got : 0 < granted (s.receive channel buffer info wait).1.outcome) :
    (s.receive channel buffer info wait).1.info.timestamp = first := by
  obtain ⟨after, taken, _, hands⟩ := Session.receive_plain found sound plain buffer wait
  rw [hands.count_eq] at got
  obtain ⟨y, rest, rfl⟩ := List.exists_cons_of_length_pos got
  rw [hands.content_eq] at head
  exact hands.timestamp_eq x head first tick

/-- A packet that begins before the start of its channel adds nothing to the lost ticks, and
nothing at all if it ends there. -/
theorem accept_early (r : Phased c.linkFormat.sampleSize first packets blocks handed lane)
    (config : w.session.config = c) (aligned : w.session.timeline.alignedStart = some first)
    (found : w.session.rxOn channel = some lane) {p : RxPacket} (here : p.channel = channel)
    (early : p.timestamp < first) :
    (w.session.accept p).lossOn channel = w.session.lossOn channel ∧
      (p.reaches c.linkFormat.sampleSize first = false →
        ((w.session.accept p).rxOn channel).map RxLane.core =
          (w.session.rxOn channel).map RxLane.core) := by
  obtain ⟨after, on, core⟩ := w.session.accept_on found p
  rw [if_pos here, Timeline.align_eq, config, aligned] at core
  have trimmed : lane.trim ((Block.received p.timestamp p.payload c.linkFormat.sampleSize).since
      (some first)) = p.fresh c.linkFormat.sampleSize (some first) lane.expected := lane.trim_eq _
  have whole := p.fresh_whole c.linkFormat.sampleSize_pos (some first) lane.expected
  have gapless := r.missing_eq early
  constructor
  · have counted := (lane.accept_spec r.queue (trimmed ▸ whole)).loss_eq
    have traffic := congrArg RxLane.traffic core
    rw [RxLane.traffic_core, RxLane.traffic_core] at traffic
    have limit := lane.traffic.loss.le_limit
    simp only [Session.lossOn, on, found, Option.elim_some, traffic]
    omega
  · intro short
    have none := p.fresh_isEmpty c.linkFormat.sampleSize_pos short lane.expected
    rw [RxLane.accept_nothing (trimmed ▸ none) gapless] at core
    rw [on, found, Option.map_some, core, Option.map_some]

/-- A stream that aligns its channels, over all runs whose packets are near enough to the common
start that no difference to it overflows: no sample before the start is taken in, held or handed
out; aligning cuts off exactly the samples before it, of which none is lost; and a channel whose
first packet to reach the start does not begin behind it begins there, and is first handed out
from there unless samples have left its queue before. -/
theorem aligned_start (aligns : c.alignPhase = true) (listed : channel ∈ c.rxChannels)
    (monitor : Option Monitor) (clock : Tick) (events : List Event)
    (near : ∀ p, .arrive p ∈ events → p.channel ∈ c.rxChannels → p.Near (clock.later c.rxPacket)) :
    let start := opened c monitor clock
    let size := c.linkFormat.sampleSize
    let first := clock.later c.rxPacket
    let w := start.run events
    let accepted := (observe (admitted channel) start events).flatMap Block.content
    (∀ x ∈ accepted, x.From first) ∧
    (∃ lane, w.session.rxOn channel = some lane ∧ ∀ x ∈ lane.queue.content, x.From first) ∧
    (∀ h ∈ observe (delivered channel) start events, first.toInt ≤ h.tick) ∧
    (∀ done p later, events = done ++ .arrive p :: later → p.channel = channel →
      let before := (start.run done).session
      let b := Block.received p.timestamp p.payload size
      let cut := min b.length (first.toInt - p.timestamp.toInt).toNat
      (before.timeline.align b).content = b.content.drop cut ∧
      (∀ x ∈ b.content.take cut, ∃ t, x.tick = some t ∧ t < first) ∧
      (p.timestamp < first →
        (first.minus p.timestamp).toInt = first.toInt - p.timestamp.toInt ∧
        (before.accept p).lossOn channel = before.lossOn channel ∧
        (cut = b.length → ((before.accept p).rxOn channel).map RxLane.core =
          (before.rxOn channel).map RxLane.core))) ∧
    ∀ p, (observe (arrived channel) start events).find? (·.reaches size first) = some p →
      p.timestamp ≤ first →
      (∃ x, accepted.head? = some x ∧ x.tick = some first) ∧
      (w.session.overrunOn channel = 0 →
        (∀ n ∈ observe (returned channel) start events, n = 0) →
        (∀ x ∈ observe (exits channel) start events, x.isSkipped = false) →
        ∀ (α : Type) [HostSample α] (buffer : List α) (info : TransferMeta) (wait : Wait),
          info.useTimestamp = false →
          0 < granted (w.session.receive channel buffer info wait).1.outcome →
          (w.session.receive channel buffer info wait).1.info.timestamp = first) := by
  intro start size first w accepted
  obtain ⟨config, other, there, ledger⟩ := ledger_run listed monitor clock events
  obtain ⟨_, lane, found, r⟩ := phased_run aligns listed monitor clock events
  obtain rfl := Option.some.inj (found.symm.trans there)
  refine ⟨?_, ⟨lane, found, r.held⟩, r.handed_from, ?_, ?_⟩
  · intro x member
    obtain ⟨b, admits, inside⟩ := List.mem_flatMap.mp member
    exact Block.from_of_start (r.begins b admits).1 (r.begins b admits).2 x inside
  · intro done p later split here before b cut
    obtain ⟨config, _⟩ := ledger_run listed monitor clock done
    obtain ⟨aligned, lane, found, r⟩ := phased_run aligns listed monitor clock done
    have arrives : .arrive p ∈ events := split ▸ List.mem_append_right _ List.mem_cons_self
    have whole : b.Whole size := Block.received_whole c.linkFormat.sampleSize_pos _ _
    obtain ⟨kept, early⟩ := whole.since_cut rfl first
    refine ⟨?_, early, ?_⟩
    · rw [Timeline.align_eq, aligned]
      exact kept
    · intro early
      obtain ⟨loss, nothing⟩ := accept_early r config aligned found here early
      refine ⟨(near p arrives (here ▸ listed)).toInt_minus early, loss, fun all => nothing ?_⟩
      refine Bool.of_not_eq_true fun reaches => ?_
      have left := (RxPacket.reaches_iff c.linkFormat.sampleSize_pos).mp reaches
      have none : (b.since (some first)).content = [] := by
        rw [kept, List.drop_eq_nil_iff, whole.length_content]
        exact Nat.le_of_eq all.symm
      rw [(whole.since (some first)).content_eq_nil] at none
      exact Bool.false_ne_true (left.symm.trans none)
  · intro p reaches begun
    have begins := r.begins_at c.linkFormat.sampleSize_pos reaches begun
    refine ⟨begins, ?_⟩
    intro intact empty kept α _ buffer info wait plain got
    obtain ⟨x, head, tick⟩ := begins
    have content := ledger.content_eq
    rw [exits_none listed monitor clock events intact empty kept, List.map_nil, List.nil_append]
      at content
    rw [content] at head
    exact timestamp_of_head found (config.symm ▸ r.queue) head tick plain buffer wait got

/-- One receive channel that begins ten ticks behind the start of the stream. -/
def phased : StreamConfig :=
  { StreamConfig.default with
    rxChannels := [0]
    alignPhase := true
    tuning := { StreamTuning.default with rxPacketSamples := 10 } }

/-- A packet as far before the start as a difference can tell, and one that reaches over it. -/
def farBefore : List Event :=
  let samples := (List.range 40).map UInt8.ofNat
  [.arrive ⟨0, Tick.clamp (-0x7ffffffffffffff5), samples⟩, .arrive ⟨0, Tick.clamp 5, samples⟩]

theorem aligned_start_farthest :
    let start := opened phased none .zero
    let first := Tick.zero.later phased.rxPacket
    let buffer : List IntSample := List.replicate 8 ⟨0, 0⟩
    let call := (start.run farBefore).session.receive 0 buffer .plain .poll
    phased.alignPhase = true ∧ 0 ∈ phased.rxChannels ∧
      (∀ p, .arrive p ∈ farBefore → p.channel ∈ phased.rxChannels → p.Near first) ∧
      (observe (arrived 0) start farBefore).find? (·.reaches 4 first) =
        some ⟨0, Tick.clamp 5, (List.range 40).map UInt8.ofNat⟩ ∧
      Tick.clamp 5 ≤ first ∧
      (first.minus (Tick.clamp (-0x7ffffffffffffff5))).toInt = 0x7fffffffffffffff ∧
      granted call.1.outcome = 5 ∧ call.1.info.timestamp = first := by
  have listed : 0 ∈ phased.rxChannels := by decide
  have near : ∀ p, .arrive p ∈ farBefore → p.channel ∈ phased.rxChannels →
      p.Near (Tick.zero.later phased.rxPacket) := by
    intro p arrives _
    simp only [farBefore, List.mem_cons, List.not_mem_nil, or_false, Event.arrive.injEq] at arrives
    rcases arrives with rfl | rfl
    · decide
    · decide
  have reaches : (observe (arrived 0) (opened phased none .zero) farBefore).find?
      (·.reaches 4 (Tick.zero.later phased.rxPacket)) =
        some ⟨0, Tick.clamp 5, (List.range 40).map UInt8.ofNat⟩ := by decide +kernel
  have aligned := aligned_start (c := phased) rfl listed none .zero farBefore near
  have apart := ((aligned.2.2.2.1 [] _ _ rfl rfl).2.2 (by decide)).1
  have told := (aligned.2.2.2.2 _ reaches (by decide)).2 (by decide +kernel) (by decide +kernel)
    (by decide +kernel) IntSample (List.replicate 8 ⟨0, 0⟩) .plain .poll rfl
  exact ⟨rfl, listed, near, reaches, by decide, apart, by decide +kernel, told (by decide +kernel)⟩

/-- A call for a later tick between two packets, the first of which begins at the start. -/
def skipped : List Event :=
  let samples := (List.range 20).map UInt8.ofNat
  [.arrive ⟨0, Tick.clamp 10, samples⟩,
    .receive 0 (List.replicate 5 (⟨0, 0⟩ : IntSample)) (.anchored (Tick.clamp 20)) .poll,
    .arrive ⟨0, Tick.clamp 15, samples⟩]

/-- A call for a tick that has not come drops the samples before it, so the first samples that a
channel hands out begin behind its start although none was overwritten. -/
theorem aligned_start_skipped :
    let start := opened phased none .zero
    let first := Tick.zero.later phased.rxPacket
    let w := start.run skipped
    let buffer : List IntSample := List.replicate 5 ⟨0, 0⟩
    let call := w.session.receive 0 buffer .plain .poll
    ((observe (arrived 0) start skipped).find? (·.reaches 4 first)).map (·.timestamp) =
        some first ∧
      w.session.overrunOn 0 = 0 ∧ (∀ n ∈ observe (returned 0) start skipped, n = 0) ∧
      granted call.1.outcome = 5 ∧ call.1.info.timestamp = Tick.clamp 15 ∧
      first = Tick.clamp 10 := by
  decide +kernel

end World
end RadioStream
