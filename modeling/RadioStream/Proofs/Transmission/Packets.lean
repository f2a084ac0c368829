import RadioStream.Proofs.Iq.Stamped
import RadioStream.Session.Transmission

/-!
Cutting a batch into packets. The packets of a batch hold its samples in order, and each
is bound to the tick of its own first sample.
-/
namespace RadioStream

/-- The samples of a packet with the ticks that its own timestamp gives them. -/
def TxPacket.content (size : Nat) (p : TxPacket) : List Stamped :=
  stamp p.timestamp (wholeSamples size p.payload)

/-- A packet of a channel with whole samples, at least one, that is bound to the tick of
its first sample. -/
structure TxPacket.Carries (size : Nat) (channel : UInt8) (p : TxPacket) : Prop where
  channel_eq : p.channel = channel
  dvd : size ∣ p.payload.length
  timestamp_eq : ∃ first, (p.content size).head? = some first ∧ p.timestamp = first.tick

theorem TxPacket.head_content {size : Nat} {p : TxPacket} (pos : 0 < size)
    (some : p.payload ≠ []) (dvd : size ∣ p.payload.length) :
    ∃ first, (p.content size).head? = .some first ∧ p.timestamp = first.tick := by
  have enough := Nat.div_pos (Nat.le_of_dvd (List.length_pos_iff.mpr some) dvd) pos
  rw [← length_wholeSamples pos] at enough
  rw [content]
  cases samples : wholeSamples size p.payload with
  | nil =>
    rw [samples] at enough
    contradiction
  | cons bytes others => exact ⟨_, by rw [stamp_cons, List.head?_cons], rfl⟩

namespace Block
variable {size : Nat} {b : Block}

theorem pieces_nil (count : Nat) : pieces count [] = [] := by
  rw [pieces, dif_neg (by simp)]

theorem pieces_cons {count : Nat} {bytes : List UInt8} (pos : 0 < count) (some : bytes ≠ []) :
    pieces count bytes = bytes.take count :: pieces count (bytes.drop count) := by
  rw [pieces, dif_pos ⟨pos, some⟩]

theorem pieces_whole {count : Nat} {bytes : List UInt8} (dvd : size ∣ bytes.length) :
    ∀ part ∈ pieces (count * size) bytes, part ≠ [] ∧ size ∣ part.length := by
  induction bytes using pieces.induct (count * size) with
  | case1 bytes more ih =>
    rw [pieces_cons more.1 more.2]
    refine List.forall_mem_cons.mpr ⟨⟨?_, ?_⟩, ih ?_⟩
    · rw [ne_eq, List.take_eq_nil_iff]
      intro none
      exact none.elim (Nat.pos_iff_ne_zero.mp more.1) more.2
    · obtain ⟨samples, length⟩ := dvd
      rw [List.length_take, length, Nat.mul_comm size, Nat.mul_min_mul_right]
      exact Nat.dvd_mul_left size _
    · rw [List.length_drop]
      exact Nat.dvd_sub dvd (Nat.dvd_mul_left size count)
  | case2 bytes done =>
    rw [pieces, dif_neg done]
    exact List.forall_mem_nil _

theorem pieces_flatten {count : Nat} (some : 0 < count) (bytes : List UInt8) :
    (pieces count bytes).flatten = bytes := by
  induction bytes using pieces.induct count with
  | case1 bytes more ih =>
    rw [pieces_cons more.1 more.2, List.flatten_cons, ih, List.take_append_drop]
  | case2 bytes done =>
    have none : bytes = [] := Classical.byContradiction fun more => done ⟨some, more⟩
    rw [none, pieces_nil]
    rfl

/-- All pieces but the last one are of full size, and none is longer. -/
theorem pieces_sized {count i : Nat} {bytes part : List UInt8}
    (there : (pieces count bytes)[i]? = some part) :
    part.length ≤ count ∧ (i + 1 < (pieces count bytes).length → part.length = count) := by
  induction bytes using pieces.induct count generalizing i with
  | case1 bytes more ih =>
    rw [pieces_cons more.1 more.2] at there ⊢
    cases i with
    | zero =>
      rw [List.getElem?_cons_zero, Option.some.injEq] at there
      rw [← there, List.length_take]
      refine ⟨Nat.min_le_left _ _, fun further => Nat.min_eq_left ?_⟩
      -- With nothing left behind the first piece there would be no second one.
      refine Nat.le_of_lt (Nat.lt_of_not_le fun all => ?_)
      rw [List.drop_eq_nil_of_le all, pieces_nil, List.length_singleton] at further
      omega
    | succ i =>
      rw [List.getElem?_cons_succ] at there
      rw [List.length_cons, Nat.add_lt_add_iff_right]
      exact ih there
  | case2 bytes done =>
    rw [pieces, dif_neg done] at there
    contradiction

/-- Bytes that fit into some pieces are cut into no more of them. -/
theorem length_pieces_le {count most : Nat} {bytes : List UInt8}
    (fits : bytes.length ≤ most * count) : (pieces count bytes).length ≤ most := by
  induction bytes using pieces.induct count generalizing most with
  | case1 bytes more ih =>
    have filled := List.length_pos_iff.mpr more.2
    rw [pieces_cons more.1 more.2, List.length_cons]
    cases most with
    | zero => omega
    | succ most =>
      rw [Nat.succ_mul] at fits
      have behind : (bytes.drop count).length ≤ most * count := by
        rw [List.length_drop]
        omega
      have := ih behind
      omega
  | case2 bytes done =>
    rw [pieces, dif_neg done]
    exact Nat.zero_le most

/-- Pieces, stamped by their place, hold the samples of the whole. -/
theorem pieces_content {count : Nat} (pos : 0 < size) (some : 0 < count) (start : Option Tick)
    (bytes : List UInt8) :
    ((pieces (count * size) bytes).mapIdx fun i part =>
      stamp (start.map (·.later (i * count))) (wholeSamples size part)).flatten =
        stamp start (wholeSamples size bytes) := by
  induction bytes using pieces.induct (count * size) generalizing start with
  | case1 bytes more ih =>
    have strides : (fun (i : Nat) (part : List UInt8) =>
        stamp (start.map (·.later ((i + 1) * count))) (wholeSamples size part)) =
        fun i part => stamp ((start.map (·.later count)).map (·.later (i * count)))
          (wholeSamples size part) := by
      funext i part
      cases start with
      | none => rfl
      | some t => simp only [Option.map_some, Tick.later_later, Nat.succ_mul, Nat.add_comm]
    rw [pieces_cons more.1 more.2, List.mapIdx_cons, List.flatten_cons, strides, ih,
      wholeSamples_take pos, wholeSamples_drop pos, ← stamp_split start _ count, Nat.zero_mul]
    cases start <;> simp
  | case2 bytes done =>
    have none : bytes = [] := Classical.byContradiction fun more =>
      done ⟨Nat.mul_pos some pos, more⟩
    rw [none, pieces_nil, wholeSamples_nil pos]
    rfl

theorem Whole.content_packetize (whole : b.Whole size) (channel : UInt8) (packetSamples : Nat) :
    (b.packetize channel packetSamples).flatMap (TxPacket.content size) = b.content := by
  have some : 0 < max packetSamples 1 := by omega
  have pieces := pieces_content whole.pos some b.tick? b.payload
  rw [← whole.samples_eq] at pieces
  rw [content, ← pieces, List.flatMap_def, packetize, whole.sampleSize_eq]
  simp only [List.mapIdx_eq_zipIdx_map, List.map_map]
  congr 2
  funext part
  simp only [Function.comp, TxPacket.content, tick?]
  cases b.timed <;> rfl

theorem packetize_channel {channel : UInt8} {packetSamples : Nat} {p : TxPacket}
    (member : p ∈ b.packetize channel packetSamples) : p.channel = channel := by
  rw [packetize, List.mem_mapIdx] at member
  obtain ⟨i, bound, rfl⟩ := member
  rfl

theorem Whole.packetize_carries (whole : b.Whole size) {channel : UInt8} {packetSamples : Nat}
    {p : TxPacket} (member : p ∈ b.packetize channel packetSamples) :
    p.Carries size channel := by
  have filled : p.payload ≠ [] ∧ size ∣ p.payload.length := by
    rw [packetize, whole.sampleSize_eq, List.mem_mapIdx] at member
    obtain ⟨i, bound, rfl⟩ := member
    exact pieces_whole whole.dvd _ (List.getElem_mem bound)
  exact ⟨packetize_channel member, filled.2, p.head_content whole.pos filled.1 filled.2⟩

end Block
end RadioStream
