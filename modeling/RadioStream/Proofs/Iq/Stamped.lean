import RadioStream.Iq.Block
import RadioStream.Proofs.Iq.WholeSamples

/-!
The samples of a block with their ticks, which is what every queue, batch and packet is
compared by. Cutting a block cuts this list, and gathering a block that goes on without
a gap appends to it, also where ticks saturate.
-/
namespace RadioStream

/-- An encoded sample with the tick that it is bound to, if any. -/
structure Stamped where
  tick : Option Tick
  bytes : List UInt8
deriving DecidableEq

/-- Samples in a row, each a tick later than the one before it. -/
def stamp (start : Option Tick) (samples : List (List UInt8)) : List Stamped :=
  samples.mapIdx fun i bytes => ⟨start.map (·.later i), bytes⟩

@[simp] theorem stamp_nil (start : Option Tick) : stamp start [] = [] := rfl

@[simp] theorem length_stamp (start : Option Tick) (samples : List (List UInt8)) :
    (stamp start samples).length = samples.length := List.length_mapIdx

theorem stamp_cons (start : Option Tick) (first : List UInt8) (rest : List (List UInt8)) :
    stamp start (first :: rest) = ⟨start, first⟩ :: stamp (start.map (·.later 1)) rest := by
  cases start <;> simp [stamp, List.mapIdx_cons, Tick.later_later, Nat.add_comm]

@[simp] theorem map_bytes_stamp (start : Option Tick) (samples : List (List UInt8)) :
    (stamp start samples).map Stamped.bytes = samples := by
  induction samples generalizing start with
  | nil => rfl
  | cons first rest ih => rw [stamp_cons, List.map_cons, ih]

theorem stamp_append (start : Option Tick) (first rest : List (List UInt8)) :
    stamp start (first ++ rest) =
      stamp start first ++ stamp (start.map (·.later first.length)) rest := by
  cases start <;> simp [stamp, List.mapIdx_append, Tick.later_later, Nat.add_comm]

theorem stamp_take (start : Option Tick) (samples : List (List UInt8)) (count : Nat) :
    (stamp start samples).take count = stamp start (samples.take count) := by
  induction samples generalizing start count with
  | nil => simp
  | cons first rest ih =>
    cases count with
    | zero => simp
    | succ count => simp only [stamp_cons, List.take_succ_cons, ih]

theorem stamp_drop (start : Option Tick) (samples : List (List UInt8)) (count : Nat) :
    (stamp start samples).drop count = stamp (start.map (·.later count)) (samples.drop count) := by
  induction samples generalizing start count with
  | nil => simp
  | cons first rest ih =>
    cases count with
    | zero => cases start <;> simp
    | succ count =>
      rw [stamp_cons, List.drop_succ_cons, List.drop_succ_cons, ih]
      cases start with
      | none => rfl
      | some t => simp only [Option.map_some, Tick.later_later, Nat.add_comm]

theorem stamp_split (start : Option Tick) (samples : List (List UInt8)) (count : Nat) :
    stamp start (samples.take count) ++ stamp (start.map (·.later count)) (samples.drop count) =
      stamp start samples := by
  rw [← stamp_take, ← stamp_drop, List.take_append_drop]

namespace Block
variable {size : Nat} {b source : Block}

/-- The tick that gates the first sample of a block. -/
def tick? (b : Block) : Option Tick := if b.timed then some b.start else none

def content (b : Block) : List Stamped := stamp b.tick? b.samples

/-- Blocks as they stand in the queues of a link with `size` bytes per sample. -/
structure Whole (size : Nat) (b : Block) : Prop where
  pos : 0 < size
  sampleSize_eq : b.sampleSize = size
  dvd : size ∣ b.payload.length

namespace Whole

theorem payload_length (whole : b.Whole size) : b.payload.length = b.length * size := by
  rw [Block.length, whole.sampleSize_eq, Nat.div_mul_cancel whole.dvd]

theorem samples_eq (whole : b.Whole size) : b.samples = wholeSamples size b.payload := by
  rw [samples, whole.sampleSize_eq]

theorem length_samples (whole : b.Whole size) : b.samples.length = b.length := by
  rw [whole.samples_eq, length_wholeSamples whole.pos, Block.length, whole.sampleSize_eq]

theorem length_content (whole : b.Whole size) : b.content.length = b.length := by
  rw [content, length_stamp, whole.length_samples]

theorem isEmpty_iff (whole : b.Whole size) : b.isEmpty = true ↔ b.length = 0 := by
  have := whole.pos
  rw [isEmpty, List.isEmpty_iff_length_eq_zero, whole.payload_length, Nat.mul_eq_zero]
  omega

theorem content_eq_nil (whole : b.Whole size) : b.content = [] ↔ b.isEmpty = true := by
  rw [whole.isEmpty_iff, ← whole.length_content, List.length_eq_zero_iff]

end Whole

@[simp] theorem emptyLike_isEmpty (b : Block) : b.emptyLike.isEmpty = true := rfl

theorem Whole.emptyLike (whole : b.Whole size) : b.emptyLike.Whole size :=
  ⟨whole.pos, whole.sampleSize_eq, Nat.dvd_zero size⟩

@[simp] theorem advance_zero (b : Block) : b.advance 0 = b := by
  simp [advance]

/-- There are no more samples to drop than the block has. -/
theorem advance_min (b : Block) (count : Nat) : b.advance (min count b.length) = b.advance count := by
  simp [advance]

theorem Whole.advance (whole : b.Whole size) (count : Nat) : (b.advance count).Whole size := by
  refine ⟨whole.pos, whole.sampleSize_eq, ?_⟩
  simp only [Block.advance, List.length_drop, whole.sampleSize_eq]
  exact Nat.dvd_sub whole.dvd (Nat.dvd_mul_left size _)

theorem Whole.length_advance (whole : b.Whole size) (count : Nat) :
    (b.advance count).length = b.length - count := by
  simp only [Block.advance, Block.length, List.length_drop, whole.sampleSize_eq]
  rw [Nat.mul_comm, Nat.sub_mul_div]
  omega

theorem Whole.samples_advance (whole : b.Whole size) (count : Nat) :
    (b.advance count).samples = b.samples.drop count := by
  rw [(whole.advance count).samples_eq, whole.samples_eq]
  simp only [Block.advance, whole.sampleSize_eq]
  rw [wholeSamples_drop whole.pos]
  by_cases enough : count ≤ b.length
  · rw [Nat.min_eq_left enough]
  · have past := Nat.le_of_not_le enough
    have counted : (wholeSamples size b.payload).length = b.length := by
      rw [← whole.samples_eq, whole.length_samples]
    rw [Nat.min_eq_right past, List.drop_eq_nil_of_le (Nat.le_of_eq counted),
      List.drop_eq_nil_of_le (counted ▸ past)]

/-- Advancing a block drops its leading samples; the others keep their ticks. -/
theorem Whole.content_advance (whole : b.Whole size) (count : Nat) :
    (b.advance count).content = b.content.drop count := by
  rw [content, whole.samples_advance, content, stamp_drop]
  by_cases enough : count ≤ b.length
  · simp only [tick?, Block.advance, Nat.min_eq_left enough]
    cases b.timed <;> rfl
  · have past : b.samples.length ≤ count := whole.length_samples ▸ Nat.le_of_not_le enough
    rw [List.drop_eq_nil_of_le past, stamp_nil, stamp_nil]

theorem gather_rest (b source : Block) (count : Nat) :
    (b.gather source count).2 = source.advance count := by
  simp only [gather, Block.advance, Nat.min_assoc, Nat.min_self]

theorem gather_tick? (b source : Block) (count : Nat) :
    (b.gather source count).1.tick? = if b.isEmpty then source.tick? else b.tick? := by
  unfold gather tick?
  split <;> rfl

theorem Whole.gather (whole : b.Whole size) (other : source.Whole size) (count : Nat) :
    (b.gather source count).1.Whole size := by
  refine ⟨whole.pos, ?_, ?_⟩
  · simp only [Block.gather]
    split <;> exact whole.sampleSize_eq
  · simp only [Block.gather, List.length_append, List.length_take, whole.sampleSize_eq,
      other.payload_length]
    apply Nat.dvd_add whole.dvd
    simp only [Nat.mul_min_mul_right]
    exact Nat.dvd_mul_left size _

theorem Whole.samples_gather (whole : b.Whole size) (other : source.Whole size) (count : Nat) :
    (b.gather source count).1.samples = b.samples ++ source.samples.take count := by
  rw [(whole.gather other count).samples_eq, whole.samples_eq, other.samples_eq]
  simp only [Block.gather, whole.sampleSize_eq]
  rw [wholeSamples_append whole.pos whole.dvd, wholeSamples_take whole.pos,
    ← other.samples_eq, ← other.length_samples, ← List.take_take, List.take_length]

/-- What goes on without a gap is bound to the ticks behind the block. -/
theorem tick?_of_continuedBy (joined : b.continuedBy source = true) :
    source.tick? = b.tick?.map (·.later b.length) := by
  unfold continuedBy at joined
  unfold tick?
  cases first : b.timed <;> cases second : source.timed <;> rw [first, second] at joined
  · rfl
  · contradiction
  · contradiction
  · exact congrArg some (of_decide_eq_true joined)

/-- A block that is empty or goes on in `source` grows by its leading samples. -/
theorem Whole.content_gather (whole : b.Whole size) (other : source.Whole size)
    (joined : b.isEmpty = true ∨ b.continuedBy source = true) (count : Nat) :
    (b.gather source count).1.content = b.content ++ source.content.take count := by
  rw [content, whole.samples_gather other, content, content, stamp_take, gather_tick?]
  by_cases empty : b.isEmpty = true
  · have none : b.samples = [] := by
      rw [← List.length_eq_zero_iff, whole.length_samples]
      exact whole.isEmpty_iff.mp empty
    rw [if_pos empty, none, List.nil_append, stamp_nil, List.nil_append]
  · have goesOn := tick?_of_continuedBy (joined.resolve_left empty)
    rw [if_neg empty, stamp_append, whole.length_samples, goesOn]

/-- The part of a block that is taken first, on its own. -/
theorem Whole.content_part (whole : b.Whole size) (count : Nat) :
    (b.emptyLike.gather b count).1.content = b.content.take count := by
  have nothing : b.emptyLike.content = [] := whole.emptyLike.content_eq_nil.mpr rfl
  rw [whole.emptyLike.content_gather whole (.inl rfl), nothing, List.nil_append]

theorem tick_of_head {x : Stamped} (head : x ∈ b.content.head?) : x.tick = b.tick? := by
  rw [content] at head
  cases samples : b.samples with
  | nil =>
    rw [samples] at head
    contradiction
  | cons bytes rest =>
    rw [samples, stamp_cons] at head
    rw [← Option.some.inj head]

/-- The tick of its first sample is where a block starts. -/
theorem start_of_head {x : Stamped} {t : Tick} (head : x ∈ b.content.head?)
    (tick : x.tick = some t) : b.start = t := by
  rw [tick_of_head head, tick?] at tick
  split at tick
  · exact Option.some.inj tick
  · contradiction

theorem outgoing_whole {payload : List UInt8} (pos : 0 < size) (dvd : size ∣ payload.length)
    (start : Option Tick) (flush : Bool) : (outgoing start flush payload size).Whole size :=
  ⟨pos, rfl, dvd⟩

theorem outgoing_content {α : Type} [HostSample α] (start : Option Tick) (flush : Bool)
    (host link : SampleFormat) (samples : List α) :
    (outgoing start flush (HostSample.toLink host link samples) link.sampleSize).content =
      stamp start (samples.map (HostSample.pack host link)) := by
  rw [content, Block.samples]
  simp only [outgoing, HostSample.wholeSamples_toLink]
  cases start <;> rfl

theorem received_whole (pos : 0 < size) (start : Tick) (payload : List UInt8) :
    (received start payload size).Whole size := by
  refine ⟨pos, rfl, ?_⟩
  simp only [received, List.length_take]
  rw [Nat.min_eq_left (Nat.sub_le _ _)]
  exact Nat.dvd_sub_mod _

end Block
end RadioStream
