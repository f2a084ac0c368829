import RadioStream.Proofs.Queue.Overwrite
import RadioStream.Session.Reception

/-!
What a receive lane keeps of a packet: the samples from the aligned start on that the
channel has not reached yet. Where the packet ends before the last tick its samples have
distinct ticks, and trimming moves the start of a block but not its end.
-/
namespace RadioStream

/-- Whether one sample is to be played strictly before another. -/
def Stamped.Before (a b : Stamped) : Prop :=
  ∃ s t, a.tick = some s ∧ b.tick = some t ∧ s < t

theorem mem_stamp {start : Tick} {samples : List (List UInt8)} {x : Stamped}
    (member : x ∈ stamp (some start) samples) :
    ∃ i, samples[i]? = some x.bytes ∧ x.tick = some (start.later i) := by
  rw [stamp, List.mem_mapIdx] at member
  obtain ⟨i, bound, rfl⟩ := member
  exact ⟨i, List.getElem?_eq_getElem bound, rfl⟩

/-- The whole sample of a packet at a time. -/
def RxPacket.sampleAt? (size : Nat) (p : RxPacket) (time : Int) : Option (List UInt8) :=
  if p.timestamp.toInt ≤ time then
    (wholeSamples size p.payload)[(time - p.timestamp.toInt).toNat]?
  else none

namespace Block
variable {size : Nat} {b : Block} {o : Option Tick}

/-- A timed block that ends before the last tick. -/
structure Dated (size : Nat) (b : Block) : Prop extends Block.Whole size b where
  timed : b.timed = true
  in_range : b.start.toInt + b.length ≤ 0x7fffffffffffffff

/-- What a block holds from a tick on. -/
def since (b : Block) (o : Option Tick) : Block :=
  match o with
  | some t => b.advance (b.start.gap t)
  | none => b

namespace Dated

theorem toInt_finish (dated : b.Dated size) : b.finish.toInt = b.start.toInt + b.length := by
  have := dated.in_range
  rw [Block.finish, Tick.toInt_later]
  omega

theorem tick?_eq (dated : b.Dated size) : b.tick? = some b.start := by
  rw [Block.tick?, dated.timed, if_pos rfl]

theorem mem_content (dated : b.Dated size) {x : Stamped} (member : x ∈ b.content) :
    ∃ t, x.tick = some t ∧ b.start ≤ t ∧ t < b.finish ∧
      b.samples[(t.toInt - b.start.toInt).toNat]? = some x.bytes := by
  rw [Block.content, dated.tick?_eq] at member
  obtain ⟨i, found, tick⟩ := mem_stamp member
  obtain ⟨bound, _⟩ := List.getElem?_eq_some_iff.mp found
  rw [dated.toWhole.length_samples] at bound
  have time : (b.start.later i).toInt = b.start.toInt + i := by
    have := dated.in_range
    rw [Tick.toInt_later]
    omega
  have finish := dated.toInt_finish
  refine ⟨_, tick, ?_, ?_, ?_⟩
  · rw [Tick.le_def]
    omega
  · rw [Tick.lt_def]
    omega
  · have place : ((b.start.later i).toInt - b.start.toInt).toNat = i := by omega
    rw [place]
    exact found

theorem content_ordered (dated : b.Dated size) : b.content.Pairwise Stamped.Before := by
  rw [Block.content, dated.tick?_eq, stamp, List.pairwise_iff_getElem]
  intro i j first second earlier
  have bound : j < b.length := by
    rwa [List.length_mapIdx, dated.toWhole.length_samples] at second
  have := dated.in_range
  rw [List.getElem_mapIdx, List.getElem_mapIdx]
  refine ⟨_, _, rfl, rfl, ?_⟩
  rw [Tick.lt_def, Tick.toInt_later, Tick.toInt_later]
  omega

theorem advance (dated : b.Dated size) (count : Nat) :
    (b.advance count).Dated size ∧ (b.advance count).finish = b.finish ∧
      (b.advance count).start.toInt = b.start.toInt + min count b.length := by
  have bound := dated.in_range
  have length := dated.toWhole.length_advance count
  have start : (b.advance count).start.toInt = b.start.toInt + min count b.length := by
    rw [Block.advance, Tick.toInt_later]
    omega
  have cut : (b.advance count).Dated size :=
    ⟨dated.toWhole.advance count, dated.timed, by omega⟩
  refine ⟨cut, ?_, start⟩
  apply Tick.ext
  rw [cut.toInt_finish, dated.toInt_finish]
  omega

theorem since (dated : b.Dated size) (o : Option Tick) :
    (b.since o).Dated size ∧ (b.since o).finish = b.finish ∧
      (b.since o).content <:+ b.content ∧ b.start.toInt ≤ (b.since o).start.toInt := by
  cases o with
  | none => exact ⟨dated, rfl, List.suffix_refl _, Int.le_refl _⟩
  | some t =>
    obtain ⟨cut, finish, start⟩ := dated.advance (b.start.gap t)
    refine ⟨cut, finish, ?_, ?_⟩
    · rw [Block.since, dated.toWhole.content_advance]
      exact List.drop_suffix _ _
    · rw [Block.since, start]
      omega

theorem since_start (dated : b.Dated size) (o : Option Tick) :
    (b.since o).start.toInt = b.start.toInt + min (o.elim 0 b.start.gap) b.length ∧
      (b.since o).length = b.length - o.elim 0 b.start.gap := by
  cases o with
  | none => simp [Block.since]
  | some t =>
    exact ⟨(dated.advance (b.start.gap t)).2.2, dated.toWhole.length_advance (b.start.gap t)⟩

theorem since_cases (dated : b.Dated size) (t : Tick) :
    (t ≤ (b.since (some t)).start ∨ (b.since (some t)).length = 0) ∧
      ((b.since (some t)).length = 0 → b.length = 0 ∨ b.finish ≤ t) := by
  obtain ⟨_, _, start⟩ := dated.advance (b.start.gap t)
  have length := dated.toWhole.length_advance (b.start.gap t)
  have finish := dated.toInt_finish
  simp only [Block.since, Tick.le_def]
  unfold Tick.gap at start length ⊢
  omega

end Dated

theorem received_length (pos : 0 < size) (start : Tick) (payload : List UInt8) :
    (received start payload size).length = payload.length / size := by
  have whole := received_whole pos start payload
  rw [← whole.length_samples, whole.samples_eq, received, wholeSamples_truncate pos,
    length_wholeSamples pos]

theorem received_dated (pos : 0 < size) {start : Tick} {payload : List UInt8}
    (bound : start.toInt + (payload.length / size : Nat) ≤ 0x7fffffffffffffff) :
    (received start payload size).Dated size :=
  ⟨received_whole pos start payload, rfl, by rwa [received_length pos]⟩

theorem received_finish (pos : 0 < size) {start : Tick} {payload : List UInt8}
    (bound : start.toInt + (payload.length / size : Nat) ≤ 0x7fffffffffffffff) :
    (received start payload size).finish.toInt =
      start.toInt + (payload.length / size : Nat) := by
  rw [(received_dated pos bound).toInt_finish, received_length pos]
  rfl

end Block

theorem Timeline.align_eq (timeline : Timeline) (b : Block) :
    timeline.align b = b.since timeline.alignedStart := by
  unfold Timeline.align Block.since
  cases timeline.alignedStart with
  | none => rfl
  | some first =>
    dsimp only
    split
    · next begun =>
      rw [Tick.le_def] at begun
      have gapless : b.start.gap first = 0 := by
        rw [Tick.gap]
        omega
      rw [gapless, Block.advance_zero]
    · next before =>
      have early : b.start ≤ first := by
        rw [Tick.le_def] at before ⊢
        omega
      rw [Tick.unsigned_minus early, Block.advance_min]

theorem RxLane.trim_eq (l : RxLane) (b : Block) : l.trim b = b.since l.expected := by
  unfold RxLane.trim Block.since
  cases l.expected <;> rfl

theorem RxLane.missing_eq (l : RxLane) (b : Block) :
    l.missing b = l.expected.elim 0 (·.gap b.start) := by
  rw [RxLane.missing]
  cases l.expected <;> rfl

namespace RxPacket
variable {size : Nat} {p : RxPacket} {aligned expected : Option Tick}

theorem sampleAt?_span {time : Int} {bytes : List UInt8} (pos : 0 < size)
    (carries : p.sampleAt? size time = some bytes) :
    p.timestamp.toInt ≤ time ∧ time < p.timestamp.toInt + (p.payload.length / size : Nat) := by
  unfold sampleAt? at carries
  split at carries
  · next begun =>
    obtain ⟨bound, _⟩ := List.getElem?_eq_some_iff.mp carries
    rw [length_wholeSamples pos] at bound
    omega
  · contradiction

/-- The part of a packet that is aligned and not behind what the lane expects. -/
def fresh (size : Nat) (aligned expected : Option Tick) (p : RxPacket) : Block :=
  ((Block.received p.timestamp p.payload size).since aligned).since expected

/-- What a lane trims of an aligned packet leaves what is fresh in it. -/
theorem trim_align (l : RxLane) (timeline : Timeline) (size : Nat) (p : RxPacket) :
    l.trim (timeline.align (Block.received p.timestamp p.payload size)) =
      p.fresh size timeline.alignedStart l.expected := by
  rw [l.trim_eq, Timeline.align_eq]
  rfl

/-- What the fresh part of a packet holds, and what is not in it. -/
structure Fresh (size : Nat) (aligned expected : Option Tick) (p : RxPacket) (b : Block) :
    Prop where
  dated : b.Dated size
  carried : ∀ x ∈ b.content, ∃ t, x.tick = some t ∧ b.start ≤ t ∧ t < b.finish ∧
    p.sampleAt? size t.toInt = some x.bytes
  aligned_le : b.length ≠ 0 → ∀ a ∈ aligned, a ≤ b.start
  expected_le : b.length ≠ 0 → ∀ next ∈ expected, next ≤ b.start
  span : ∀ time bytes, p.sampleAt? size time = some bytes → time < b.finish.toInt
  behind : b.length = 0 → ∀ time bytes, p.sampleAt? size time = some bytes →
    (∀ a ∈ aligned, a.toInt ≤ time) → ∃ next ∈ expected, time < next.toInt

theorem received_carried (pos : 0 < size)
    (bound : p.timestamp.toInt + (p.payload.length / size : Nat) ≤ 0x7fffffffffffffff)
    {x : Stamped} (member : x ∈ (Block.received p.timestamp p.payload size).content) :
    ∃ t, x.tick = some t ∧ p.sampleAt? size t.toInt = some x.bytes := by
  have dated := Block.received_dated pos bound
  obtain ⟨t, tick, begun, _, found⟩ := dated.mem_content member
  refine ⟨t, tick, ?_⟩
  rw [dated.toWhole.samples_eq] at found
  simp only [Block.received, wholeSamples_truncate pos] at found
  have begun : p.timestamp.toInt ≤ t.toInt := begun
  rw [sampleAt?, if_pos begun, found]

/-- A packet with a sample for an aligned tick has samples behind the aligned start. -/
theorem since_holds (pos : 0 < size)
    (bound : p.timestamp.toInt + (p.payload.length / size : Nat) ≤ 0x7fffffffffffffff)
    {time : Int} {bytes : List UInt8} (carries : p.sampleAt? size time = some bytes)
    (begun : ∀ a ∈ aligned, a.toInt ≤ time) :
    ((Block.received p.timestamp p.payload size).since aligned).length ≠ 0 := by
  have dated := Block.received_dated pos bound
  have total := Block.received_length pos p.timestamp p.payload
  have ends := Block.received_finish pos bound
  obtain ⟨first, reached⟩ := sampleAt?_span pos carries
  intro missing
  cases aligned with
  | none =>
    simp only [Block.since] at missing
    omega
  | some a =>
    have cases := (dated.since_cases a).2 missing
    have begun := begun a rfl
    rw [Tick.le_def, ends] at cases
    omega

theorem fresh_spec (pos : 0 < size) (aligned expected : Option Tick)
    (bound : p.timestamp.toInt + (p.payload.length / size : Nat) ≤ 0x7fffffffffffffff) :
    Fresh size aligned expected p (p.fresh size aligned expected) := by
  have dated := Block.received_dated pos bound
  have ends := Block.received_finish pos bound
  obtain ⟨first, firstFinish, firstSuffix, _⟩ := dated.since aligned
  obtain ⟨second, secondFinish, secondSuffix, secondStart⟩ := first.since expected
  have finish := congrArg Tick.toInt (secondFinish.trans firstFinish)
  have length := second.toInt_finish
  have firstLength := first.toInt_finish
  rw [congrArg Tick.toInt firstFinish] at firstLength
  refine ⟨second, ?_, ?_, ?_, ?_, ?_⟩
  · intro x member
    obtain ⟨t, tick, begun, inside, _⟩ := second.mem_content member
    obtain ⟨t', tick', carried⟩ :=
      received_carried pos bound ((secondSuffix.trans firstSuffix).mem member)
    obtain rfl := Option.some.inj (tick.symm.trans tick')
    exact ⟨t, tick, begun, inside, carried⟩
  · intro filled a given
    obtain rfl := given
    have cases := dated.since_cases a
    rw [Tick.le_def, Tick.le_def] at cases
    rw [Tick.le_def]
    unfold fresh at filled ⊢
    omega
  · intro filled next given
    obtain rfl := given
    exact ((first.since_cases next).1).resolve_right filled
  · intro time bytes carries
    have reached := (sampleAt?_span pos carries).2
    rw [fresh]
    omega
  · intro none time bytes carries begun
    have reached := (sampleAt?_span pos carries).2
    have held := since_holds pos bound carries begun
    cases expected with
    | none => exact absurd none held
    | some next =>
      refine ⟨next, rfl, ?_⟩
      have cases := ((first.since_cases next).2 none).resolve_left held
      rw [Tick.le_def, congrArg Tick.toInt firstFinish] at cases
      omega

end RxPacket
end RadioStream
