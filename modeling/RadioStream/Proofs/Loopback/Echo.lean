import RadioStream.Proofs.Module.Works
import RadioStream.Proofs.Transmission.Packets

/-!
What a loopback link makes of untimed packets. It dates each behind the one before it on
its channel, and not in the past; so however its clock is moved, and also at the last tick,
the packets on their way to the host follow each other, with the cursor of the channel
behind the last one.
-/
namespace RadioStream
variable {size : Nat} {channel : UInt8}

/-- The tick behind the last sample of a packet. -/
def RxPacket.finish (size : Nat) (p : RxPacket) : Tick :=
  p.timestamp.later (p.payload.length / size)

/-- Packets of whole samples, none without any, of which each begins at or behind the tick where
the one before it ends; `before` is where the channel stands before them and `last` behind
them. -/
def Follows (size : Nat) : Option Tick → List RxPacket → Option Tick → Prop
  | before, [], last => last = before
  | before, p :: rest, last =>
    (∀ t ∈ before, t ≤ p.timestamp) ∧ p.payload ≠ [] ∧ size ∣ p.payload.length ∧
      Follows size (some (p.finish size)) rest last

theorem Follows.concat {before last : Option Tick} {packets : List RxPacket} {p : RxPacket}
    (follows : Follows size before packets last) (behind : ∀ t ∈ last, t ≤ p.timestamp)
    (filled : p.payload ≠ []) (whole : size ∣ p.payload.length) :
    Follows size before (packets ++ [p]) (some (p.finish size)) := by
  induction packets generalizing before with
  | nil =>
    obtain rfl : last = before := follows
    exact ⟨behind, filled, whole, rfl⟩
  | cons first rest ih =>
    obtain ⟨begins, some, divides, others⟩ := follows
    exact ⟨begins, some, divides, ih others⟩

namespace Link
variable {l : Link} {p : TxPacket}

/-- The packets of a channel that are on their way to the host. -/
def coming (l : Link) (channel : UInt8) : List RxPacket :=
  l.incoming.filter (·.channel == channel)

/-- The encoded samples of a channel that are on their way to the host. -/
def carried (size : Nat) (l : Link) (channel : UInt8) : List (List UInt8) :=
  (l.coming channel).flatMap fun p => wholeSamples size p.payload

/-- What comes on a channel follows a tick and ends at the cursor of the channel. -/
def Chained (size : Nat) (channel : UInt8) (expected : Option Tick) (l : Link) : Prop :=
  Follows size expected (l.coming channel) (l.cursors.get? channel)

theorem echo_other (size : Nat) (l : Link) (other : p.channel ≠ channel) :
    (l.echo size p).coming channel = l.coming channel ∧
      (l.echo size p).cursors.get? channel = l.cursors.get? channel := by
  constructor
  · simp [coming, echo, other]
  · rw [echo, Table.get?_put, if_neg other]

theorem echo_untimed (size : Nat) (l : Link) (untimed : p.timestamp = none) :
    let tick := (l.cursors.get? p.channel).elim l.time (max · l.time)
    l.echo size p = { l with
      cursors := l.cursors.put p.channel (tick.later (p.payload.length / size))
      incoming := l.incoming ++ [⟨p.channel, tick, p.payload⟩] } := by
  rw [echo, untimed]
  cases l.cursors.get? p.channel <;> rfl

/-- An untimed packet is echoed behind the cursor, which moves behind it. -/
theorem echo_own (size : Nat) (l : Link) (own : p.channel = channel)
    (untimed : p.timestamp = none) :
    ∃ echoed : RxPacket, (l.echo size p).coming channel = l.coming channel ++ [echoed] ∧
      echoed.payload = p.payload ∧ (∀ t ∈ l.cursors.get? channel, t ≤ echoed.timestamp) ∧
      (l.echo size p).cursors.get? channel = some (echoed.finish size) := by
  subst own
  rw [echo_untimed size l untimed]
  refine ⟨⟨p.channel, (l.cursors.get? p.channel).elim l.time (max · l.time), p.payload⟩,
    ?_, rfl, ?_, ?_⟩
  · rw [coming, List.filter_append]
    exact congrArg (l.coming p.channel ++ ·) (List.filter_cons_of_pos (beq_self_eq_true _))
  · intro t cursor
    rw [Option.mem_def.mp cursor, Option.elim_some, Tick.le_def, Tick.toInt_max]
    exact Int.le_max_left _ _
  · rw [Table.get?_put, if_pos rfl]
    rfl

/-- What a packet must be like to be echoed behind the others of its channel. -/
def Echoes (size : Nat) (channel : UInt8) (p : TxPacket) : Prop :=
  p.channel = channel → p.timestamp = none ∧ p.payload ≠ [] ∧ size ∣ p.payload.length

theorem echo_chained {expected : Option Tick} (chained : l.Chained size channel expected)
    (echoes : Echoes size channel p) :
    (l.echo size p).Chained size channel expected ∧
      (l.echo size p).carried size channel = l.carried size channel ++
        ([p].filter (·.channel == channel)).flatMap fun p => wholeSamples size p.payload := by
  by_cases own : p.channel = channel
  · obtain ⟨untimed, filled, whole⟩ := echoes own
    obtain ⟨echoed, comes, payload, behind, cursor⟩ := echo_own size l own untimed
    constructor
    · rw [Chained, comes, cursor]
      exact chained.concat behind (payload ▸ filled) (payload ▸ whole)
    · simp [carried, comes, payload, own]
  · obtain ⟨comes, cursor⟩ := echo_other size l own
    constructor
    · rw [Chained, comes, cursor]
      exact chained
    · simp [carried, comes, own]

theorem echoes_chained {expected : Option Tick} (chained : l.Chained size channel expected)
    {packets : List TxPacket} (echoes : ∀ p ∈ packets, Echoes size channel p) :
    (packets.foldl (echo size) l).Chained size channel expected ∧
      (packets.foldl (echo size) l).carried size channel = l.carried size channel ++
        (packets.filter (·.channel == channel)).flatMap
          fun p => wholeSamples size p.payload := by
  induction packets generalizing l with
  | nil => exact ⟨chained, (List.append_nil _).symm⟩
  | cons p rest ih =>
    obtain ⟨first, others⟩ := List.forall_mem_cons.mp echoes
    obtain ⟨chained, carried⟩ := echo_chained chained first
    obtain ⟨last, all⟩ := ih chained others
    constructor
    · exact last
    · rw [List.foldl_cons, all, carried, List.append_assoc, ← List.flatMap_append,
        ← List.filter_append, List.singleton_append]

/-- A link that is armed in loopback for a format and has not failed. -/
structure Loops (format : SampleFormat) (l : Link) : Prop where
  loopback : l.loopback = true
  armed : ∃ config, l.armed = some config ∧ config.linkFormat = format
  working : l.failure = none

theorem Loops.of_wiring {format : SampleFormat} {after : Link} (loops : l.Loops format)
    (same : after.wiring = l.wiring) : after.Loops format := by
  constructor
  · exact (congrArg Link.loopback same).trans loops.loopback
  · obtain ⟨config, armed, fits⟩ := loops.armed
    exact ⟨config, (congrArg Link.armed same).trans armed, fits⟩
  · exact (congrArg Link.failure same).trans loops.working

/-- A write brings the packets of a channel behind those that are on their way. -/
theorem write_chained {format : SampleFormat} {expected : Option Tick} {after : Link}
    {packets : List TxPacket} (loops : l.Loops format)
    (chained : l.Chained format.sampleSize channel expected)
    (echoes : ∀ p ∈ packets, Echoes format.sampleSize channel p)
    (written : l.write packets = .ok after) :
    after.Chained format.sampleSize channel expected ∧
      after.carried format.sampleSize channel = l.carried format.sampleSize channel ++
        (packets.filter (·.channel == channel)).flatMap
          fun p => wholeSamples format.sampleSize p.payload := by
  obtain ⟨config, armed, rfl⟩ := loops.armed
  unfold write at written
  dsimp only at written
  split at written
  · contradiction
  · split at written
    · next other _ there =>
      obtain rfl := Option.some.inj (there.symm.trans armed)
      rw [← Except.ok.inj written]
      exact echoes_chained (l := { l with submissions := l.submissions ++ [packets] }) chained echoes
    · next none =>
      exact absurd armed (none config loops.loopback)

end Link
end RadioStream
