import RadioStream.Proofs.Queue.Removal
import RadioStream.Proofs.Reception.Loss
import RadioStream.Proofs.Reception.Order

/-!
Conservation of received samples over runs. What a channel accepts leaves its queue at
the front, delivered to a caller, overwritten or skipped, or is still there; and the
counters of the channel count what it accepted.
-/
namespace RadioStream
open ChannelQueue (granted handedOut)

namespace Block
variable {size : Nat} {b : Block}

theorem Whole.since (whole : b.Whole size) (o : Option Tick) : (b.since o).Whole size := by
  cases o with
  | none => exact whole
  | some t => exact whole.advance _

theorem since_timed (b : Block) (o : Option Tick) : (b.since o).timed = b.timed := by
  cases o <;> rfl

theorem tick_of_timed (timed : b.timed = true) {x : Stamped} (member : x ∈ b.content) :
    ∃ s, x.tick = some s := by
  rw [content, stamp, List.mem_mapIdx] at member
  obtain ⟨i, bound, rfl⟩ := member
  rw [tick?, timed, if_pos rfl]
  exact ⟨_, rfl⟩

theorem Whole.filled_content (whole : b.Whole size) :
    ([b].filter (!·.isEmpty)).flatMap content = b.content := by
  cases empty : b.isEmpty with
  | true => simp [empty, whole.content_eq_nil.mpr empty]
  | false => simp [empty]

end Block

theorem RxPacket.fresh_whole {size : Nat} (pos : 0 < size) (aligned expected : Option Tick)
    (p : RxPacket) : (p.fresh size aligned expected).Whole size :=
  ((Block.received_whole pos p.timestamp p.payload).since aligned).since expected

theorem RxPacket.fresh_timed (size : Nat) (aligned expected : Option Tick) (p : RxPacket) :
    (p.fresh size aligned expected).timed = true := by
  rw [fresh, Block.since_timed, Block.since_timed]
  rfl

/-- A call that gets a run returns the number of its samples. -/
theorem HostSample.fillFromLink_count {α : Type} [HostSample α] (host : SampleFormat)
    {link : SampleFormat} {run : Block} (whole : run.Whole link.sampleSize) (buffer : List α)
    (fits : run.length ≤ buffer.length) :
    (fillFromLink host link run.payload buffer).1 = run.content.length := by
  have samples := whole.length_samples
  rw [whole.samples_eq] at samples
  simp only [fillFromLink, fromLink, List.length_take, List.length_map]
  rw [samples, whole.length_content, Nat.min_eq_right fits]

/-- A call is handed the samples of its run, decoded. -/
theorem HostSample.fillFromLink_run {α : Type} [HostSample α] (host : SampleFormat)
    {link : SampleFormat} {run : Block} (whole : run.Whole link.sampleSize) (buffer : List α)
    (fits : run.length ≤ buffer.length) :
    let filled := fillFromLink host link run.payload buffer
    filled.2.take filled.1 = (run.content.map Stamped.bytes).map (unpack host link) := by
  have all : run.samples.length ≤ buffer.length := by
    rwa [whole.length_samples]
  rw [Block.content, map_bytes_stamp]
  dsimp only [fillFromLink, fromLink]
  rw [List.take_left', ← whole.samples_eq, List.take_of_length_le]
  · rwa [List.length_map]
  · rfl

namespace RxLane
variable {size : Nat} {l : RxLane} {b : Block}

/-- The samples that leave the queue of a lane when a call takes a run from it. -/
def exits (l : RxLane) (anchor : Option Tick) (limit : Nat) (wait : Wait) (tolerance : Nat) :
    List Exit :=
  (anchor.elim [] fun t => Exit.all (.skipped t) (l.queue.preceding t)) ++
    Exit.all .delivered (handedOut (l.take anchor limit wait tolerance).1)

/-- What an accepted block does to the queue and to the counters of its lane. -/
theorem accept_parts (sound : l.queue.Sound size) (whole : (l.trim b).Whole size) :
    (l.accept b).1.queue.Sound size ∧
      l.queue.overflow (l.trim b) ++ (l.accept b).1.queue.content =
        l.queue.content ++ (l.trim b).content ∧
      (l.accept b).1.traffic.bytes = l.traffic.bytes + (l.trim b).content.length * size ∧
      (l.accept b).1.traffic.packets =
        l.traffic.packets + ([l.trim b].filter (!·.isEmpty)).length := by
  refine ⟨(accept_spec sound whole).queue, ?_⟩
  rw [accept_eq]
  dsimp only
  cases empty : (l.trim b).isEmpty with
  | true =>
    have queued := sound.queued_eq
    have fits := sound.queued_le
    have none := whole.isEmpty_iff.mp empty
    have nothing := whole.content_eq_nil.mpr empty
    have kept : l.queue.content.length + (l.trim b).length - l.queue.capacity = 0 := by omega
    rw [if_pos rfl, ChannelQueue.overflow, kept, nothing]
    simp [Traffic.countLoss, empty]
  | false =>
    have bytes : (l.trim b).payload.length = (l.trim b).content.length * size := by
      rw [whole.length_content, whole.payload_length]
    rw [if_neg Bool.false_ne_true]
    refine ⟨sound.overflow_append whole, ?_, ?_⟩
    · simp only [Traffic.transfer, bytes]
      split <;> rfl
    · simp only [Traffic.transfer, empty, Bool.not_false, List.filter_cons_of_pos, List.filter_nil,
        List.length_singleton]
      split <;> rfl

/-- A lane that has never overrun had room for the block that it took in. -/
theorem accept_intact (sound : l.queue.Sound size) (whole : (l.trim b).Whole size)
    (intact : (l.accept b).1.traffic.overrun.count = 0) :
    l.traffic.overrun.count = 0 ∧ l.queue.overflow (l.trim b) = [] := by
  rw [accept_eq] at intact
  dsimp only at intact
  split at intact
  · next empty =>
    have queued := sound.queued_eq
    have fits := sound.queued_le
    have none := whole.isEmpty_iff.mp empty
    refine ⟨intact, ?_⟩
    rw [ChannelQueue.overflow, show l.queue.content.length + (l.trim b).length -
      l.queue.capacity = 0 by omega, List.take_zero]
  · have dropped := sound.pushNewest_dropped whole
    split at intact
    · simp [Traffic.transfer, Traffic.countOverrun] at intact
    · next none =>
      refine ⟨intact, ?_⟩
      rw [ChannelQueue.overflow, ← dropped, Nat.eq_zero_of_not_pos none, List.take_zero]

theorem take_overrun (l : RxLane) (anchor : Option Tick) (limit : Nat) (wait : Wait)
    (tolerance : Nat) :
    (l.take anchor limit wait tolerance).2.traffic.overrun = l.traffic.overrun := by
  unfold take
  dsimp only
  split <;> rfl

/-- What a call for a run takes from a lane and what it leaves. -/
structure Serves (size : Nat) (l after : RxLane) (exits : List Exit) (limit : Nat)
    (result : Except QueueFault Block) : Prop where
  queue : after.queue.Sound size
  content_eq : l.queue.content = exits.map Exit.sample ++ after.queue.content
  delivered_eq : exits.countP Exit.isDelivered = (handedOut result).length
  fits : ∀ run, result = .ok run → run.Whole size ∧ run.length ≤ limit
  early : ∀ x ∈ exits, ∀ t, x.cause = .skipped t → ∀ s ∈ x.sample.tick,
    s < t ∨ t.toInt = 0x7fffffffffffffff
  bytes_eq : after.traffic.bytes = l.traffic.bytes
  packets_eq : after.traffic.packets = l.traffic.packets

theorem take_serves (sound : l.queue.Sound size) (anchor : Option Tick) (limit : Nat)
    (wait : Wait) (tolerance : Nat) :
    Serves size l (l.take anchor limit wait tolerance).2
      (l.exits anchor limit wait tolerance) limit (l.take anchor limit wait tolerance).1 := by
  have takes := l.take_spec sound anchor limit wait tolerance
  have parts : l.queue.Parts limit (anchor.elim [] l.queue.preceding)
      (l.take anchor limit wait tolerance).1 (l.take anchor limit wait tolerance).2.queue := by
    cases anchor with
    | none => exact sound.pop_parts limit wait
    | some t => exact sound.popAt_parts t limit wait tolerance
  constructor
  · exact takes.popped.sound
  · rw [parts.content_eq, exits, List.map_append, Exit.map_sample_all]
    cases anchor with
    | none => rfl
    | some t => rw [Option.elim_some, Option.elim_some, Exit.map_sample_all]
  · rw [exits, List.countP_append, Exit.countP_isDelivered_all, if_pos rfl]
    cases anchor <;> simp
  · intro run taken
    exact ⟨takes.popped.whole run taken, parts.length_le run taken⟩
  · intro x member t cause s tick
    rcases List.mem_append.mp member with before | handed
    · cases anchor with
      | none => contradiction
      | some u =>
        obtain ⟨skips, early⟩ := Exit.mem_all before
        obtain rfl := Removal.skipped.inj (cause.symm.trans skips)
        exact sound.preceding_early t _ early s tick
    · rw [(Exit.mem_all handed).1] at cause
      contradiction
  · unfold take
    dsimp only
    split <;> rfl
  · unfold take
    dsimp only
    split <;> rfl

end RxLane

namespace Session
variable {s : Session} {channel : UInt8} {lane : RxLane} {α : Type} [HostSample α]

theorem receive_mismatch (other : HostSample.carries α s.config.hostFormat = false)
    (channel : UInt8) (buffer : List α) (info : TransferMeta) (wait : Wait) :
    s.receive channel buffer info wait =
      (⟨.error (.formatMismatch s.config.hostFormat), buffer, info⟩, s) := by
  simp [receive, other]

/-- A call in the format of the stream takes from its lane, and returns how many samples it
hands out. -/
theorem receive_taken (carries : HostSample.carries α s.config.hostFormat = true)
    (found : s.rxOn channel = some lane)
    (sound : lane.queue.Sound s.config.linkFormat.sampleSize) (buffer : List α)
    (info : TransferMeta) (wait : Wait) :
    let taken := lane.take info.anchor? buffer.length wait s.timeline.tolerance
    (s.receive channel buffer info wait).2.rxOn channel = some taken.2 ∧
      granted (s.receive channel buffer info wait).1.outcome = (handedOut taken.1).length := by
  intro taken
  have serves := lane.take_serves sound info.anchor? buffer.length wait s.timeline.tolerance
  have there : s.rxLane? channel = .ok lane := rxLane?_eq_ok.mpr found
  have put : (s.putRx taken.2).rxOn channel = some taken.2 := by
    dsimp only [taken]
    rw [rxOn_putRx_take found, if_pos rfl]
  rw [receive, carries, there]
  dsimp only
  split
  · contradiction
  · split
    · next run result =>
      obtain ⟨whole, fits⟩ := serves.fits run result
      refine ⟨put, ?_⟩
      dsimp only [taken]
      rw [result]
      exact HostSample.fillFromLink_count s.config.hostFormat whole buffer fits
    · next fault result =>
      dsimp only [taken]
      rw [result]
      split
      · exact ⟨put, rfl⟩
      · exact ⟨put, rfl⟩

/-- What a call hands out that takes `taken` from the front of the queue of a lane. -/
structure Hands (s : Session) (lane after : RxLane) (taken : List Stamped) (d : Delivery α) :
    Prop where
  queue : after.queue.Sound s.config.linkFormat.sampleSize
  content_eq : lane.queue.content = taken ++ after.queue.content
  expected_eq : after.expected = lane.expected
  overrun_eq : after.traffic.overrun = lane.traffic.overrun
  count_eq : granted d.outcome = taken.length
  samples_eq : d.buffer.take (granted d.outcome) = (taken.map Stamped.bytes).map
    (HostSample.unpack s.config.hostFormat s.config.linkFormat)
  timestamp_eq : ∀ x ∈ taken.head?, ∀ t, x.tick = some t → d.info.timestamp = t

/-- A call that gets nothing leaves the lane as far as it took nothing from it. -/
theorem Hands.of_nothing {after : RxLane} {d : Delivery α}
    (queue : after.queue.Sound s.config.linkFormat.sampleSize)
    (content : lane.queue.content = after.queue.content)
    (expected : after.expected = lane.expected)
    (overrun : after.traffic.overrun = lane.traffic.overrun) (none : granted d.outcome = 0) :
    Hands s lane after [] d := by
  refine ⟨queue, content, expected, overrun, none, ?_, fun x head => ?_⟩
  · rw [none]
    rfl
  · contradiction

/-- A call for no tick hands out what it takes from the front of the queue. -/
theorem receive_plain (found : s.rxOn channel = some lane)
    (sound : lane.queue.Sound s.config.linkFormat.sampleSize) {info : TransferMeta}
    (untimed : info.useTimestamp = false) (buffer : List α) (wait : Wait) :
    ∃ after taken, (s.receive channel buffer info wait).2.rxOn channel = some after ∧
      Hands s lane after taken (s.receive channel buffer info wait).1 := by
  have plain : info.anchor? = none := by
    rw [TransferMeta.anchor?, untimed]
    rfl
  have serves := lane.take_serves sound none buffer.length wait s.timeline.tolerance
  have takes := lane.take_spec sound none buffer.length wait s.timeline.tolerance
  have overrun := lane.take_overrun none buffer.length wait s.timeline.tolerance
  have content := serves.content_eq
  rw [RxLane.exits, Option.elim_none, List.nil_append, Exit.map_sample_all] at content
  rcases s.receive_on found buffer info wait with ⟨on, failed⟩ | ⟨on, handed⟩
  · refine ⟨lane, [], on, .of_nothing sound rfl rfl rfl ?_⟩
    cases outcome : (s.receive channel buffer info wait).1.outcome with
    | ok count => exact absurd outcome (failed count)
    | error fault => rfl
  · rw [plain] at on handed
    rcases handed with ⟨run, took, given⟩ | ⟨fault, took, given⟩
    · obtain ⟨whole, fits⟩ := serves.fits run took
      rw [took, handedOut] at content
      refine ⟨_, run.content, on, serves.queue, content, takes.expected_eq, overrun, ?_, ?_, ?_⟩
      · rw [given]
        exact HostSample.fillFromLink_count s.config.hostFormat whole buffer fits
      · rw [given]
        exact HostSample.fillFromLink_run s.config.hostFormat whole buffer fits
      · intro x head t tick
        rw [given]
        exact Block.start_of_head head tick
    · rw [took, handedOut, List.nil_append] at content
      refine ⟨_, [], on, .of_nothing serves.queue content takes.expected_eq overrun ?_⟩
      rcases given with given | given <;> rw [given] <;> rfl

end Session

/-- The blocks of a channel that met a full receive queue. -/
def Session.overrunOn (s : Session) (channel : UInt8) : Nat :=
  (s.rxOn channel).elim 0 (·.traffic.overrun.count)

namespace World

/-- The samples that leave the queue of a channel. -/
def exits (channel : UInt8) (w : World) : Event → List Exit
  | .arrive p =>
    if p.channel = channel then (w.session.rxOn channel).elim [] fun lane =>
      Exit.all .overwritten (lane.queue.overflow (p.fresh w.session.config.linkFormat.sampleSize
        w.session.timeline.alignedStart lane.expected))
    else []
  | @Event.receive α _ on buffer info wait =>
    if on = channel ∧ HostSample.carries α w.session.config.hostFormat = true then
      (w.session.rxOn channel).elim [] fun lane =>
        lane.exits info.anchor? buffer.length wait w.session.timeline.tolerance
    else []
  | _ => []

/-- The counts that receive calls on a channel return. -/
def returned (channel : UInt8) (w : World) : Event → List Nat
  | @Event.receive _ _ on buffer info wait =>
    if on = channel then [granted (w.session.receive on buffer info wait).1.outcome] else []
  | _ => []

/-- The lane of a channel behind a run, with the blocks it has accepted, the samples that have
left its queue and the counts that its callers were told. -/
structure Ledger (size : Nat) (blocks : List Block) (exits : List Exit) (counts : List Nat)
    (lane : RxLane) : Prop where
  queue : lane.queue.Sound size
  timed : ∀ b ∈ blocks, b.timed = true
  content_eq : blocks.flatMap Block.content = exits.map Exit.sample ++ lane.queue.content
  delivered_eq : exits.countP Exit.isDelivered = counts.foldl (· + ·) 0
  early : ∀ x ∈ exits, ∀ t, x.cause = .skipped t → ∀ s ∈ x.sample.tick,
    s < t ∨ t.toInt = 0x7fffffffffffffff
  bytes_eq : lane.traffic.bytes = (blocks.flatMap Block.content).length * size
  packets_eq : lane.traffic.packets = blocks.length

namespace Ledger
variable {size : Nat} {blocks : List Block} {gone : List Exit} {counts : List Nat}
  {lane after : RxLane} {channel : UInt8} {w : World}

theorem of_core (ledger : Ledger size blocks gone counts lane) (same : after.core = lane.core) :
    Ledger size blocks gone counts after := by
  have content := congrArg (·.queue.content) same
  have traffic := congrArg RxLane.traffic same
  simp only [RxLane.content_core, RxLane.traffic_core] at content traffic
  constructor
  · exact RxLane.sound_core.mp (same ▸ RxLane.sound_core.mpr ledger.queue)
  · exact ledger.timed
  · rw [content]
    exact ledger.content_eq
  · exact ledger.delivered_eq
  · exact ledger.early
  · rw [traffic]
    exact ledger.bytes_eq
  · rw [traffic]
    exact ledger.packets_eq

theorem arrive (ledger : Ledger w.session.config.linkFormat.sampleSize blocks gone counts lane)
    (found : w.session.rxOn channel = some lane) {p : RxPacket} (here : p.channel = channel) :
    ∃ after, (w.session.accept p).rxOn channel = some after ∧
      Ledger w.session.config.linkFormat.sampleSize (blocks ++ admitted channel w (.arrive p))
        (gone ++ exits channel w (.arrive p)) counts after := by
  obtain ⟨after, on, same⟩ := w.session.accept_on found p
  refine ⟨after, on, ?_⟩
  have trimmed := RxPacket.trim_align lane w.session.timeline
    w.session.config.linkFormat.sampleSize p
  have whole := p.fresh_whole w.session.config.linkFormat.sampleSize_pos
    w.session.timeline.alignedStart lane.expected
  obtain ⟨sound, content, bytes, packets⟩ := RxLane.accept_parts ledger.queue (trimmed ▸ whole)
  rw [if_pos here] at same
  rw [trimmed] at content bytes packets
  have timed := p.fresh_timed w.session.config.linkFormat.sampleSize
    w.session.timeline.alignedStart lane.expected
  simp only [admitted, exits, if_pos here, found, Option.elim_some]
  generalize p.fresh _ _ _ = b at whole timed content bytes packets
  apply of_core _ same
  constructor
  · exact sound
  · intro other member
    rcases List.mem_append.mp member with old | new
    · exact ledger.timed other old
    · rw [List.mem_singleton.mp (List.mem_filter.mp new).1]
      exact timed
  · rw [List.flatMap_append, whole.filled_content, ledger.content_eq, List.append_assoc, ← content,
      List.map_append, Exit.map_sample_all, List.append_assoc]
  · rw [List.countP_append, ledger.delivered_eq, Exit.countP_isDelivered_all]
    rfl
  · intro x member t cause
    rcases List.mem_append.mp member with old | new
    · exact ledger.early x old t cause
    · rw [(Exit.mem_all new).1] at cause
      contradiction
  · rw [bytes, ledger.bytes_eq, List.flatMap_append, whole.filled_content, List.length_append,
      Nat.add_mul]
  · rw [packets, ledger.packets_eq, List.length_append]

theorem serve {limit : Nat} {result : Except QueueFault Block} {leaving : List Exit}
    (ledger : Ledger size blocks gone counts lane)
    (serves : RxLane.Serves size lane after leaving limit result) :
    Ledger size blocks (gone ++ leaving) (counts ++ [(handedOut result).length]) after := by
  constructor
  · exact serves.queue
  · exact ledger.timed
  · rw [ledger.content_eq, serves.content_eq, List.map_append, List.append_assoc]
  · rw [List.countP_append, ledger.delivered_eq, serves.delivered_eq, List.foldl_append]
    rfl
  · intro x member
    rcases List.mem_append.mp member with old | new
    · exact ledger.early x old
    · exact serves.early x new
  · rw [serves.bytes_eq, ledger.bytes_eq]
  · rw [serves.packets_eq, ledger.packets_eq]

/-- A call on the channel is told how many samples it took out for delivery. -/
theorem receive {α : Type} [HostSample α]
    (ledger : Ledger w.session.config.linkFormat.sampleSize blocks gone counts lane)
    (found : w.session.rxOn channel = some lane) (buffer : List α) (info : TransferMeta)
    (wait : Wait) :
    ∃ after, (w.session.receive channel buffer info wait).2.rxOn channel = some after ∧
      (exits channel w (.receive channel buffer info wait)).countP Exit.isDelivered =
        granted (w.session.receive channel buffer info wait).1.outcome ∧
      Ledger w.session.config.linkFormat.sampleSize blocks
        (gone ++ exits channel w (.receive channel buffer info wait))
        (counts ++ returned channel w (.receive channel buffer info wait)) after := by
  simp only [returned, if_true]
  cases carries : HostSample.carries α w.session.config.hostFormat with
  | false =>
    have refused := Session.receive_mismatch carries channel buffer info wait
    have none : exits channel w (.receive channel buffer info wait) = [] := by
      simp [exits, carries]
    have counted : (counts ++ [0]).foldl (· + ·) 0 = counts.foldl (· + ·) 0 := by
      rw [List.foldl_append]
      rfl
    rw [none, refused, List.append_nil]
    exact ⟨lane, found, rfl, { ledger with delivered_eq := ledger.delivered_eq.trans counted.symm }⟩
  | true =>
    obtain ⟨on, count⟩ := Session.receive_taken carries found ledger.queue buffer info wait
    have serves := lane.take_serves ledger.queue info.anchor? buffer.length wait
      w.session.timeline.tolerance
    have leaves : exits channel w (.receive channel buffer info wait) =
        lane.exits info.anchor? buffer.length wait w.session.timeline.tolerance := by
      simp [exits, carries, found]
    rw [leaves, count]
    exact ⟨_, on, serves.delivered_eq, ledger.serve serves⟩

theorem step (ledger : Ledger w.session.config.linkFormat.sampleSize blocks gone counts lane)
    (found : w.session.rxOn channel = some lane) (e : Event) :
    ∃ after, (w.step e).session.rxOn channel = some after ∧
      Ledger w.session.config.linkFormat.sampleSize (blocks ++ admitted channel w e)
        (gone ++ exits channel w e) (counts ++ returned channel w e) after := by
  have frame (elsewhere : e.isFor channel = false) : ∃ after,
      (w.step e).session.rxOn channel = some after ∧
        Ledger w.session.config.linkFormat.sampleSize (blocks ++ []) (gone ++ []) (counts ++ [])
          after := by
    obtain ⟨after, on, core⟩ := step_elsewhere elsewhere found
    rw [List.append_nil, List.append_nil, List.append_nil]
    exact ⟨after, on, ledger.of_core core⟩
  cases e with
  | @receive _ _ on buffer info wait =>
    by_cases here : on = channel
    · subst here
      obtain ⟨after, there, _, kept⟩ := ledger.receive found buffer info wait
      have nothing : admitted on w (.receive on buffer info wait) = [] := rfl
      rw [nothing, List.append_nil]
      exact ⟨after, there, kept⟩
    · simp only [admitted, exits, returned, here, false_and, if_false]
      exact frame (beq_eq_false_iff_ne.mpr here)
  | arrive p =>
    by_cases here : p.channel = channel
    · have nothing : returned channel w (.arrive p) = [] := rfl
      rw [nothing, List.append_nil]
      exact ledger.arrive found here
    · simp only [admitted, exits, returned, if_neg here]
      exact frame (beq_eq_false_iff_ne.mpr here)
  | _ => exact frame rfl

end Ledger

theorem ledger_run {c : StreamConfig} {channel : UInt8} (listed : channel ∈ c.rxChannels)
    (monitor : Option Monitor) (clock : Tick) (events : List Event) :
    let start := opened c monitor clock
    (start.run events).session.config = c ∧
      ∃ lane, (start.run events).session.rxOn channel = some lane ∧
        Ledger c.linkFormat.sampleSize (observe (admitted channel) start events)
          (observe (exits channel) start events) (observe (returned channel) start events)
          lane := by
  intro start
  refine ⟨run_invariant (P := (·.session.config = c))
    (fun w e same => (w.step_continues e).config_eq.trans same) rfl events, ?_⟩
  refine lane_history listed monitor clock (P := fun done lane =>
    Ledger c.linkFormat.sampleSize (observe (admitted channel) start done)
      (observe (exits channel) start done) (observe (returned channel) start done) lane)
    (Q := fun _ => True) ?_ ?_ (fun _ _ => trivial)
  · exact ⟨ChannelQueue.sound_empty _, List.forall_mem_nil _, rfl, rfl, List.forall_mem_nil _,
      (Nat.zero_mul _).symm, rfl⟩
  · intro done e lane _ config _ on ledger
    simp only [observe_append, observe, List.append_nil]
    have stepped := Ledger.step (config.symm ▸ ledger) on e
    rwa [config] at stepped

/-- A call overwrites nothing. -/
theorem exits_receive {α : Type} [HostSample α] (channel : UInt8) (w : World) (on : UInt8)
    (buffer : List α) (info : TransferMeta) (wait : Wait) :
    ∀ x ∈ exits channel w (.receive on buffer info wait), x.isOverwritten = false := by
  intro x member
  simp only [exits] at member
  split at member
  · cases found : w.session.rxOn channel with
    | none =>
      rw [found] at member
      contradiction
    | some lane =>
      rw [found] at member
      rcases List.mem_append.mp member with skipped | handed
      · cases anchor : info.anchor? with
        | none =>
          rw [anchor] at skipped
          contradiction
        | some t =>
          rw [anchor] at skipped
          simp [Exit.isOverwritten, (Exit.mem_all skipped).1]
      · simp [Exit.isOverwritten, (Exit.mem_all handed).1]
  · contradiction

theorem arrive_intact {channel : UInt8} {w : World} {lane : RxLane}
    (sound : lane.queue.Sound w.session.config.linkFormat.sampleSize)
    (found : w.session.rxOn channel = some lane) {p : RxPacket} (here : p.channel = channel) :
    ∃ after, (w.session.accept p).rxOn channel = some after ∧
      after.queue.Sound w.session.config.linkFormat.sampleSize ∧
      (after.traffic.overrun.count = 0 → lane.traffic.overrun.count = 0 ∧
        ∀ x ∈ exits channel w (.arrive p), x.isOverwritten = false) := by
  obtain ⟨after, on, core⟩ := w.session.accept_on found p
  have trimmed := RxPacket.trim_align lane w.session.timeline
    w.session.config.linkFormat.sampleSize p
  have whole := p.fresh_whole w.session.config.linkFormat.sampleSize_pos
    w.session.timeline.alignedStart lane.expected
  rw [if_pos here] at core
  have accepts := lane.accept_spec sound (trimmed ▸ whole)
  have traffic := congrArg RxLane.traffic core
  rw [RxLane.traffic_core, RxLane.traffic_core] at traffic
  refine ⟨after, on, RxLane.sound_core.mp (core ▸ RxLane.sound_core.mpr accepts.queue), ?_⟩
  intro intact
  obtain ⟨before, room⟩ := RxLane.accept_intact sound (trimmed ▸ whole) (traffic ▸ intact)
  rw [trimmed] at room
  refine ⟨before, ?_⟩
  simp [exits, here, found, room, Exit.all]

/-- A lane that has not overrun behind a step has not done so before, and overwrites nothing. -/
theorem step_intact {channel : UInt8} {w : World} {lane : RxLane}
    (sound : lane.queue.Sound w.session.config.linkFormat.sampleSize)
    (found : w.session.rxOn channel = some lane) (e : Event) :
    ∃ after, (w.step e).session.rxOn channel = some after ∧
      after.queue.Sound w.session.config.linkFormat.sampleSize ∧
      (after.traffic.overrun.count = 0 → lane.traffic.overrun.count = 0 ∧
        ∀ x ∈ exits channel w e, x.isOverwritten = false) := by
  have frame (elsewhere : e.isFor channel = false) : ∃ after,
      (w.step e).session.rxOn channel = some after ∧
        after.queue.Sound w.session.config.linkFormat.sampleSize ∧
        (after.traffic.overrun.count = 0 → lane.traffic.overrun.count = 0 ∧
          ∀ x ∈ ([] : List Exit), x.isOverwritten = false) := by
    obtain ⟨after, on, core⟩ := step_elsewhere elsewhere found
    have traffic := congrArg RxLane.traffic core
    rw [RxLane.traffic_core, RxLane.traffic_core] at traffic
    refine ⟨after, on, RxLane.sound_core.mp (core ▸ RxLane.sound_core.mpr sound), ?_⟩
    intro intact
    exact ⟨traffic ▸ intact, List.forall_mem_nil _⟩
  cases e with
  | @receive _ _ on buffer info wait =>
    by_cases here : on = channel
    · subst here
      have none := exits_receive on w on buffer info wait
      have takes := lane.take_spec sound info.anchor? buffer.length wait
        w.session.timeline.tolerance
      have overrun := lane.take_overrun info.anchor? buffer.length wait
        w.session.timeline.tolerance
      rcases w.session.receive_on found buffer info wait with ⟨after, _⟩ | ⟨after, _⟩
      · exact ⟨lane, after, sound, fun intact => ⟨intact, none⟩⟩
      · exact ⟨_, after, takes.popped.sound, fun intact => ⟨overrun ▸ intact, none⟩⟩
    · simp only [exits, here, false_and, if_false]
      exact frame (beq_eq_false_iff_ne.mpr here)
  | arrive p =>
    by_cases here : p.channel = channel
    · exact arrive_intact sound found here
    · simp only [exits, if_neg here]
      exact frame (beq_eq_false_iff_ne.mpr here)
  | _ => exact frame rfl

/-- A channel that has not overrun has overwritten nothing. -/
theorem overwritten_none {c : StreamConfig} {channel : UInt8} (listed : channel ∈ c.rxChannels)
    (monitor : Option Monitor) (clock : Tick) (events : List Event)
    (intact : ((opened c monitor clock).run events).session.overrunOn channel = 0) :
    ∀ x ∈ observe (exits channel) (opened c monitor clock) events, x.isOverwritten = false := by
  let P := fun (done : List Event) (lane : RxLane) =>
    lane.queue.Sound c.linkFormat.sampleSize ∧ (lane.traffic.overrun.count = 0 →
      ∀ x ∈ observe (exits channel) (opened c monitor clock) done, x.isOverwritten = false)
  have history : ∃ lane, ((opened c monitor clock).run events).session.rxOn channel = some lane ∧
      P events lane := by
    refine lane_history listed monitor clock (Q := fun _ => True)
      ⟨ChannelQueue.sound_empty _, fun _ => List.forall_mem_nil _⟩ ?_ (fun _ _ => trivial)
    intro done e lane _ config _ found ⟨sound, before⟩
    obtain ⟨after, on, still, stepped⟩ := step_intact (config.symm ▸ sound) found e
    refine ⟨after, on, config ▸ still, ?_⟩
    intro intact x member
    obtain ⟨earlier, now⟩ := stepped intact
    rw [observe_append] at member
    rcases List.mem_append.mp member with old | new
    · exact before earlier x old
    · rw [observe, observe, List.append_nil] at new
      exact now x new
  obtain ⟨lane, found, _, none⟩ := history
  apply none
  simpa [Session.overrunOn, found] using intact

end World
end RadioStream
