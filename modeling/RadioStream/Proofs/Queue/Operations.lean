import RadioStream.Proofs.Binary.Rounding
import RadioStream.Proofs.Queue.Leftover
import RadioStream.Proofs.Queue.Readiness

/-!
The books of a queue. Whatever order its operations come in, the count of queued samples is what
the stored blocks hold and at most the capacity, and no block is empty. So nothing is ever taken
off the count that is not on it, and the filled part is a number from zero to one.
-/
namespace RadioStream.ChannelQueue
variable {size capacity limit : Nat} {q rest : ChannelQueue} {b run : Block} {blocks : List Block}

/-- A call on a queue, by either side of it. -/
inductive Operation where
  | pushNewest (b : Block)
  | offer (b : Block) (wait : Wait)
  | markFlush
  | pop (limit : Nat) (wait : Wait)
  | popAt (t : Tick) (limit : Nat) (wait : Wait) (tolerance : Nat)
  | takeReady (batch : Nat) (force : Bool) (due : Tick → Bool)
  | stop

def Operation.apply : Operation → ChannelQueue → ChannelQueue
  | pushNewest b, q => (q.pushNewest b).1
  | offer b wait, q => (q.offer b wait).2
  | markFlush, q => q.markFlush
  | pop limit wait, q => (q.pop limit wait).2
  | popAt t limit wait tolerance, q => (q.popAt t limit wait tolerance).2
  | takeReady batch force due, q => (q.takeReady? batch force due).elim q Prod.snd
  | stop, q => q.stop

/-- A call whose block, if it has one, is of whole samples and fits in memory. -/
def Operation.Proper (size : Nat) : Operation → Prop
  | pushNewest b | offer b _ => b.Whole size ∧ b.payload.length ≤ 0x7fffffffffffffff
  | _ => True

def after (q : ChannelQueue) (operations : List Operation) : ChannelQueue :=
  operations.foldl (fun q operation => operation.apply q) q

theorem append_capacity (q : ChannelQueue) (b : Block) : (q.append b).capacity = q.capacity := by
  rw [append]
  split <;> rfl

theorem offer_capacity (q : ChannelQueue) (b : Block) (wait : Wait) :
    (q.offer b wait).2.capacity = q.capacity := by
  rw [offer]
  split
  · rfl
  · exact append_capacity q _

theorem takeRun?_capacity (taken : q.takeRun? limit = some (run, rest)) :
    rest.capacity = q.capacity := by
  rw [takeRun?_frame taken]

theorem Operation.apply_capacity (operation : Operation) (q : ChannelQueue) :
    (operation.apply q).capacity = q.capacity := by
  cases operation with
  | pushNewest b => exact append_capacity _ _
  | offer b wait => exact offer_capacity q b wait
  | markFlush => rfl
  | pop limit wait => rw [apply, pop_frame]
  | popAt t limit wait tolerance => rw [apply, popAt_frame]
  | takeReady batch force due =>
    rw [apply]
    cases taken : q.takeReady? batch force due with
    | none => rfl
    | some pair => exact takeRun?_capacity (takeRun?_of_takeReady? taken)
  | stop => rfl

/-- Every call keeps a queue sound, whatever the calls before it were. -/
theorem Sound.apply (sound : q.Sound size) {operation : Operation}
    (proper : operation.Proper size) : (operation.apply q).Sound size := by
  cases operation with
  | pushNewest b => exact (sound.pushNewest proper.1).1
  | offer b wait => exact (sound.offer proper.1 wait).1
  | markFlush => exact sound.markFlush
  | pop limit wait => exact (sound.pop limit wait).sound
  | popAt t limit wait tolerance => exact (sound.popAt t limit wait tolerance).sound
  | takeReady batch force due =>
    rw [Operation.apply]
    cases taken : q.takeReady? batch force due with
    | none => exact sound
    | some pair => exact (sound.takeRun? (takeRun?_of_takeReady? taken)).sound
  | stop => exact ⟨sound.stored, sound.queued_eq, sound.queued_le⟩

/-- Blocks whose payloads fit in memory. -/
def Short (blocks : List Block) : Prop := ∀ b ∈ blocks, b.payload.length ≤ 0x7fffffffffffffff

theorem short_lasting : Lasting size Short := fun _ _ _ leftover short =>
  leftover.all (fun b count fits => Nat.le_trans (b.payload_advance count) fits) short

theorem Short.append (short : Short q.blocks) (fits : b.payload.length ≤ 0x7fffffffffffffff) :
    Short (q.append b).blocks := by
  rw [ChannelQueue.append]
  split
  · exact short
  · exact List.forall_mem_append.mpr ⟨short, List.forall_mem_singleton.mpr fits⟩

theorem Short.markLast (short : Short blocks) : Short (markLast blocks) := by
  fun_induction ChannelQueue.markLast blocks with
  | case1 => exact short
  | case2 b =>
    have fits := short b (List.mem_singleton_self b)
    exact List.forall_mem_singleton.mpr fits
  | case3 b rest more ih =>
    obtain ⟨first, others⟩ := List.forall_mem_cons.mp short
    exact List.forall_mem_cons.mpr ⟨first, ih others⟩

theorem Short.apply (short : Short q.blocks) (sound : q.Sound size) {operation : Operation}
    (proper : operation.Proper size) : Short (operation.apply q).blocks := by
  cases operation with
  | pushNewest b =>
    have fits := Nat.le_trans (b.payload_advance (b.length - q.capacity)) proper.2
    obtain ⟨left, leftShort, same | same⟩ :=
      short_lasting.pushNewest sound b short <;> rw [Operation.apply, same]
    · exact leftShort
    · exact List.forall_mem_append.mpr ⟨leftShort, List.forall_mem_singleton.mpr fits⟩
  | offer b wait =>
    rw [Operation.apply, ChannelQueue.offer]
    split
    · exact short
    · refine short.append (Nat.le_trans ?_ proper.2)
      simp only [Block.gather, Block.emptyLike, List.nil_append, List.length_take]
      omega
  | markFlush => exact short.markLast
  | pop limit wait => exact short_lasting.pop sound limit wait short
  | popAt t limit wait tolerance => exact short_lasting.popAt sound t limit wait tolerance short
  | takeReady batch force due =>
    rw [Operation.apply]
    cases taken : q.takeReady? batch force due with
    | none => exact short
    | some pair => exact short_lasting.takeRun? sound (takeRun?_of_takeReady? taken) short
  | stop => exact short

/-- A queue whose books are in order. -/
structure Accounted (size : Nat) (q : ChannelQueue) : Prop where
  queued_eq : q.queued = (q.blocks.map Block.length).sum
  queued_le : q.queued ≤ q.capacity
  stored : ∀ b ∈ q.blocks, b.payload ≠ [] ∧ b.sampleSize = size ∧ size ∣ b.payload.length
  isEmpty_iff : q.isEmpty = true ↔ q.blocks = []
  /-- A run is taken off the count in full. -/
  taken : ∀ limit run rest, q.takeRun? limit = some (run, rest) →
    rest.queued + run.length = q.queued
  /-- So is what stands before a requested tick. -/
  skipped : ∀ t, (q.skipBefore t).queued + (skipBlocks t q.blocks).2 = q.queued
  /-- So is what a full queue drops. -/
  dropped : ∀ n, (dropOldest n q.blocks).2 ≤ q.queued
  /-- A requested tick inside a block is fewer ticks past its start than the block has samples,
  and than a register can show. -/
  gap : ∀ t, ∀ b ∈ q.blocks, b.start < t → t < b.finish →
    0 < t.toInt - b.start.toInt ∧ t.toInt - b.start.toInt < b.length ∧
      t.toInt - b.start.toInt ≤ 0x7fffffffffffffff
  fill_eq : q.fill = (Binary.ofNat q.queued).div (Binary.ofNat q.capacity)
  /-- The filled part is a number, neither below zero nor above one. -/
  fill_unit : q.fill.isNaN = false ∧ q.fill.below .zero = false ∧
    (Binary.ofNat 1 : Single).below q.fill = false
  fill_zero : q.fill = .zero ↔ q.blocks = []
  fill_one : q.queued = q.capacity → q.fill = .ofNat 1

theorem Sound.accounted (sound : q.Sound size) (short : Short q.blocks) (some : 0 < q.capacity)
    (word : q.capacity < 0x10000000000000000) : q.Accounted size := by
  have queued := sound.queued_eq
  have empty : q.queued = 0 ↔ q.blocks = [] := by
    rw [queued, List.length_eq_zero_iff, sound.blocks_eq_nil]
  have unit := Binary.quotient_inUnit sound.queued_le some word
  have fill : q.fill = (Binary.ofNat q.queued).div (Binary.ofNat q.capacity) := unit.restrict_eq
  refine ⟨sound.queued_eq_sum, sound.queued_le, ?_, ?_, ?_, ?_, ?_, ?_, fill, ?_, ?_, ?_⟩
  · intro b member
    have stored := sound.stored b member
    exact ⟨List.isEmpty_eq_false_iff.mp stored.nonempty, stored.sampleSize_eq, stored.dvd⟩
  · rw [isEmpty, decide_eq_true_eq, empty]
  · intro limit run rest found
    exact (sound.takeRun?_counted found).1
  · intro t
    have counted := (skipBlocks_content t sound.stored).2.2
    unfold content at queued
    simp only [ChannelQueue.skipBefore]
    omega
  · intro n
    have counted := (dropOldest_content n sound.stored).2.2
    unfold content at queued
    omega
  · intro t b member early inside
    have stored := sound.stored b member
    have few := stored.payload_length
    have fits := short b member
    have least : b.length ≤ b.length * size := Nat.le_mul_of_pos_right _ stored.pos
    rw [Block.finish, Tick.lt_def, Tick.toInt_later] at inside
    rw [Tick.lt_def] at early
    omega
  · rw [fill]
    exact unit.order
  · rw [fill, Binary.quotient_eq_zero sound.queued_le some word, empty]
  · intro full
    rw [fill, full]
    exact Binary.quotient_self some word

/-- What every call keeps holds behind all calls. -/
theorem after_invariant {P : ChannelQueue → Prop} {operations : List Operation}
    (kept : ∀ (operation : Operation) q, operation.Proper size → P q → P (operation.apply q))
    (initial : P q) (proper : ∀ operation ∈ operations, operation.Proper size) :
    P (q.after operations) := by
  induction operations generalizing q with
  | nil => exact initial
  | cons operation others ih =>
    obtain ⟨first, behind⟩ := List.forall_mem_cons.mp proper
    exact ih (kept operation q first initial) behind

theorem sound_after (capacity : Nat) {operations : List Operation}
    (proper : ∀ operation ∈ operations, operation.Proper size) :
    ((empty capacity).after operations).Sound size ∧
      ((empty capacity).after operations).capacity = capacity ∧
      Short ((empty capacity).after operations).blocks :=
  after_invariant (P := fun q => q.Sound size ∧ q.capacity = capacity ∧ Short q.blocks)
    (fun operation q first ⟨sound, room, short⟩ =>
      ⟨sound.apply first, (operation.apply_capacity q).trans room, short.apply sound first⟩)
    ⟨sound_empty capacity, rfl, List.forall_mem_nil _⟩ proper

/-- In whatever order they come, calls with blocks of whole samples leave the books in order. -/
theorem accounted_after (some : 0 < capacity) (word : capacity < 0x10000000000000000)
    {operations : List Operation} (proper : ∀ operation ∈ operations, operation.Proper size) :
    ((empty capacity).after operations).Accounted size ∧
      ((empty capacity).after operations).capacity = capacity := by
  obtain ⟨sound, room, short⟩ := sound_after capacity proper
  exact ⟨sound.accounted short (by rwa [room]) (by rwa [room]), room⟩

end RadioStream.ChannelQueue
