import Mathlib.Algebra.Ring.Nat
import Mathlib.Data.List.Chain
import RadioStream.Proofs.Queue.Content

/-!
When the transmit worker finds a batch. A queue keeps its samples back only while they are one run
that may still grow: no gap and no end of a burst in it, and shorter than a batch. A timed run is
not kept back either once its first tick is due.
-/
namespace RadioStream.ChannelQueue
variable {size batch length : Nat} {q : ChannelQueue} {blocks : List Block}

theorem Sound.queued_eq_sum (sound : q.Sound size) :
    q.queued = (q.blocks.map Block.length).sum := by
  have lengths : q.blocks.map (fun b => b.content.length) = q.blocks.map Block.length :=
    List.map_congr_left fun b member => (sound.stored b member).length_content
  rw [sound.queued_eq, content, List.length_flatMap, lengths]

/-- Samples that are one run, without an end of a burst, and shorter than a batch. -/
structure Growing (batch : Nat) (q : ChannelQueue) : Prop where
  contiguous : q.blocks.IsChain fun b next => b.continuedBy next = true
  unmarked : ∀ b ∈ q.blocks, b.flush = false
  short : q.queued < batch

theorem runEnds_eq_false (fits : length < batch) (previous : Option Block) (blocks : List Block) :
    runEnds batch length previous blocks = false ↔
      (previous.toList ++ blocks).IsChain (fun b next => b.continuedBy next = true) ∧
        (∀ b ∈ blocks, b.flush = false) ∧ length + (blocks.map Block.length).sum < batch := by
  induction blocks generalizing length previous with
  | nil => cases previous <;> simpa [runEnds] using fits
  | cons b rest ih =>
    have joined : (previous.any fun p => !p.continuedBy b) = false ↔
        ∀ p ∈ previous, p.continuedBy b = true := by
      cases previous <;> simp
    have chain : (previous.toList ++ b :: rest).IsChain (fun b next => b.continuedBy next = true) ↔
        (∀ p ∈ previous, p.continuedBy b = true) ∧
          (b :: rest).IsChain fun b next => b.continuedBy next = true := by
      cases previous <;> simp
    rw [runEnds, chain, ← joined, List.map_cons, List.sum_cons, List.forall_mem_cons,
      ← Nat.add_assoc]
    by_cases gap : (previous.any fun p => !p.continuedBy b) = true
    · simp [gap]
    by_cases full : batch ≤ length + b.length
    · have long : ¬length + b.length + (rest.map Block.length).sum < batch := by omega
      simp [gap, full, long]
    cases marked : b.flush with
    | true => simp [gap]
    | false =>
      have later := ih (Nat.lt_of_not_le full) (some b)
      simp only [Option.toList_some, List.singleton_append] at later
      simp [gap, full, later]

/-- The worker is offered a batch as soon as the samples are not one growing run. -/
theorem Sound.runReady_eq_false (sound : q.Sound size) (room : 0 < batch) :
    q.runReady batch = false ↔ q.Growing batch := by
  rw [runReady, runEnds_eq_false room, Nat.zero_add, ← sound.queued_eq_sum]
  exact ⟨fun ⟨contiguous, unmarked, short⟩ => ⟨contiguous, unmarked, short⟩,
    fun growing => ⟨growing.contiguous, growing.unmarked, growing.short⟩⟩

theorem takeReady?_eq_none {due : Tick → Bool} : q.takeReady? batch false due = none ↔
    q.runReady batch = false ∧
      ∀ front ∈ q.blocks.head?, front.timed = true → due front.start = false := by
  cases blocks : q.blocks with
  | nil => simp [takeReady?, runReady, runEnds, blocks]
  | cons front rest =>
    have some : q.takeRun? batch ≠ none := by simp [takeRun?_eq_none, blocks]
    cases timed : front.timed <;> cases isDue : due front.start <;>
      cases ready : q.runReady batch <;>
        simp [takeReady?, blocks, timed, isDue, ready, some]

end RadioStream.ChannelQueue
