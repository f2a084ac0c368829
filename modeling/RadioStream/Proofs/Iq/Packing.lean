import RadioStream.Iq.Codec

/-!
The bytes of one sample. A component in the range of its field is read back from it, and every
string of bytes as long as a sample is the encoding of what it is read as, so on the link there is
one pair of components for each such string and one string for each pair.
-/
namespace RadioStream.Codec

theorem toNat_byte (n : Nat) : (byte n).toNat = n % 256 := UInt8.toNat_ofNat'

theorem byte_toNat (b : UInt8) : byte b.toNat = b := UInt8.ofNat_toNat

section Fields
variable {m n : Nat} {v : Int}

theorem field_lt (pos : 0 < m) (v : Int) : field m v < m := by
  have low := Int.emod_nonneg v (Int.natCast_ne_zero.mpr (Nat.pos_iff_ne_zero.mp pos))
  have high := Int.emod_lt_of_pos v (Int.natCast_pos.mpr pos)
  rw [field]
  omega

theorem field_of_nonneg (nonneg : 0 ≤ v) (below : v < m) : (field m v : Int) = v := by
  rw [field, Int.emod_eq_of_lt nonneg below, Int.toNat_of_nonneg nonneg]

theorem field_of_neg (negative : v < 0) (above : -m ≤ v) :
    (field m v : Int) = v + m := by
  rw [field, ← Int.add_emod_right, Int.emod_eq_of_lt (by omega) (by omega),
    Int.toNat_of_nonneg (by omega)]

/-- A component between the ends of its field is what the field stands for. -/
theorem signed_field (above : -m ≤ 2 * v) (below : 2 * v < m) :
    signed m (field m v) = v := by
  rcases Int.lt_or_le v 0 with negative | nonneg
  · have := field_of_neg negative (m := m) (by omega)
    rw [signed, if_neg (by omega)]
    omega
  · have := field_of_nonneg nonneg (m := m) (by omega)
    rw [signed, if_pos (by omega)]
    omega

theorem signed_bounds (inside : n < m) :
    -m ≤ 2 * signed m n ∧ 2 * signed m n < m := by
  rw [signed]
  split <;> omega

theorem field_signed (inside : n < m) : field m (signed m n) = n := by
  rw [signed]
  split
  · have := field_of_nonneg (v := n) (m := m) (by omega) (by omega)
    omega
  · have := field_of_neg (v := n - m) (m := m) (by omega) (by omega)
    omega

end Fields

theorem clampTwelve_bounds (v : Int) : -2048 ≤ clampTwelve v ∧ clampTwelve v ≤ 2047 := by
  rw [clampTwelve]
  omega

theorem clampTwelve_of_mem {v : Int} (above : -2048 ≤ v) (below : v ≤ 2047) :
    clampTwelve v = v := by
  rw [clampTwelve]
  omega

theorem clampTwelve_idem (v : Int) : clampTwelve (clampTwelve v) = clampTwelve v :=
  clampTwelve_of_mem (clampTwelve_bounds v).1 (clampTwelve_bounds v).2

section Sixteen

theorem unpackSixteen_bounds (low high : UInt8) :
    -32768 ≤ unpackSixteen low high ∧ unpackSixteen low high ≤ 32767 := by
  have := low.toNat_lt
  have := high.toNat_lt
  have := signed_bounds (m := 65536) (n := low.toNat + 256 * high.toNat) (by omega)
  rw [unpackSixteen]
  omega

theorem packSixteen_unpack (low high : UInt8) :
    packSixteen (unpackSixteen low high) = [low, high] := by
  have := low.toNat_lt
  have := high.toNat_lt
  rw [packSixteen, unpackSixteen, field_signed (by omega)]
  have first : (low.toNat + 256 * high.toNat) % 256 = low.toNat := by omega
  have second : (low.toNat + 256 * high.toNat) / 256 = high.toNat := by omega
  rw [first, second, byte_toNat, byte_toNat]

theorem byte_high (b : UInt8) : byte (b.toNat / 16 * 16) = b &&& 0xf0 := by
  obtain ⟨⟨b⟩⟩ := b
  revert b
  decide +kernel

/-- Rounding a component down to a multiple of 16 clears the low four bits of its first byte. -/
theorem packSixteen_rounded (low high : UInt8) :
    packSixteen (unpackSixteen low high / 16 * 16) = [low &&& 0xf0, high] := by
  have := low.toNat_lt
  have := high.toNat_lt
  have rounded : unpackSixteen low high / 16 * 16 =
      signed 65536 (low.toNat / 16 * 16 + 256 * high.toNat) := by
    rw [unpackSixteen, signed, signed]
    split <;> split <;> omega
  rw [packSixteen, rounded, field_signed (by omega)]
  have first : (low.toNat / 16 * 16 + 256 * high.toNat) % 256 = low.toNat / 16 * 16 := by omega
  have second : (low.toNat / 16 * 16 + 256 * high.toNat) / 256 = high.toNat := by omega
  rw [first, second, byte_high, byte_toNat]

theorem unpackInts_sixteen {i q : Int} (first : -32768 ≤ i ∧ i ≤ 32767)
    (second : -32768 ≤ q ∧ q ≤ 32767) : unpackInts .i16 (packInts .i16 i q) = (i, q) := by
  have read {v : Int} (range : -32768 ≤ v ∧ v ≤ 32767) :
      unpackSixteen (byte (field 65536 v % 256)) (byte (field 65536 v / 256)) = v := by
    have := field_lt (m := 65536) (by decide) v
    rw [unpackSixteen, toNat_byte, toNat_byte]
    have joined : field 65536 v % 256 % 256 + 256 * (field 65536 v / 256 % 256) =
        field 65536 v := by omega
    rw [joined, signed_field (by omega) (by omega)]
  exact Prod.ext (read first) (read second)

end Sixteen

section Twelve

theorem unpackInts_twelve (i q : Int) :
    unpackInts .i12 (packInts .i12 i q) = (clampTwelve i, clampTwelve q) := by
  have := clampTwelve_bounds i
  have := clampTwelve_bounds q
  have := field_lt (m := 4096) (by decide) (clampTwelve i)
  have := field_lt (m := 4096) (by decide) (clampTwelve q)
  rw [packInts, if_pos rfl, unpackInts, if_pos rfl, toNat_byte, toNat_byte, toNat_byte]
  generalize first : field 4096 (clampTwelve i) = n at *
  generalize second : field 4096 (clampTwelve q) = k at *
  have low : n % 256 % 256 + 256 * ((n / 256 + 16 * (k % 16)) % 256 % 16) = n := by omega
  have high : (n / 256 + 16 * (k % 16)) % 256 / 16 + 16 * (k / 16 % 256) = k := by omega
  rw [low, high, ← first, ← second, signed_field (by omega) (by omega),
    signed_field (by omega) (by omega)]

theorem unpackInts_twelve_bounds (a b c : UInt8) :
    let v := unpackInts .i12 [a, b, c]
    (-2048 ≤ v.1 ∧ v.1 ≤ 2047) ∧ (-2048 ≤ v.2 ∧ v.2 ≤ 2047) := by
  have := a.toNat_lt
  have := b.toNat_lt
  have := c.toNat_lt
  have := signed_bounds (m := 4096) (n := a.toNat + 256 * (b.toNat % 16)) (by omega)
  have := signed_bounds (m := 4096) (n := b.toNat / 16 + 16 * c.toNat) (by omega)
  rw [unpackInts, if_pos rfl]
  constructor <;> constructor <;> omega

theorem packInts_twelve_unpack (a b c : UInt8) :
    packInts .i12 (unpackInts .i12 [a, b, c]).1 (unpackInts .i12 [a, b, c]).2 = [a, b, c] := by
  have := a.toNat_lt
  have := b.toNat_lt
  have := c.toNat_lt
  obtain ⟨⟨above, below⟩, above', below'⟩ := unpackInts_twelve_bounds a b c
  rw [packInts, if_pos rfl, clampTwelve_of_mem above below, clampTwelve_of_mem above' below',
    unpackInts, if_pos rfl, field_signed (by omega), field_signed (by omega)]
  have first : (a.toNat + 256 * (b.toNat % 16)) % 256 = a.toNat := by omega
  have second : (a.toNat + 256 * (b.toNat % 16)) / 256 +
      16 * ((b.toNat / 16 + 16 * c.toNat) % 16) = b.toNat := by omega
  have third : (b.toNat / 16 + 16 * c.toNat) / 16 = c.toNat := by omega
  dsimp only
  rw [first, second, third, byte_toNat, byte_toNat, byte_toNat]

end Twelve

section Singles

theorem packSingle_unpack (a b c d : UInt8) :
    packSingle (unpackSingle a b c d) = [a, b, c, d] := by
  have := a.toNat_lt
  have := b.toNat_lt
  have := c.toNat_lt
  have := d.toNat_lt
  let n := a.toNat + 256 * b.toNat + 65536 * c.toNat + 16777216 * d.toNat
  have code : (unpackSingle a b c d).bits.toNat = n := by
    rw [unpackSingle, BitVec.toNat_ofNat]
    exact Nat.mod_eq_of_lt (show n < 4294967296 by omega)
  have first : n % 256 = a.toNat := by omega
  have second : n / 256 % 256 = b.toNat := by omega
  have third : n / 65536 % 256 = c.toNat := by omega
  have fourth : n / 16777216 = d.toNat := by omega
  rw [packSingle, code]
  rw [first, second, third, fourth, byte_toNat, byte_toNat, byte_toNat, byte_toNat]

theorem unpackSingle_pack (x : Single) :
    unpackSingle (byte (x.bits.toNat % 256)) (byte (x.bits.toNat / 256 % 256))
      (byte (x.bits.toNat / 65536 % 256)) (byte (x.bits.toNat / 16777216)) = x := by
  obtain ⟨bits⟩ := x
  have bound : bits.toNat < 4294967296 := bits.isLt
  have joined : bits.toNat % 256 % 256 + 256 * (bits.toNat / 256 % 256 % 256) +
      65536 * (bits.toNat / 65536 % 256 % 256) +
      16777216 * (bits.toNat / 16777216 % 256) = bits.toNat := by omega
  rw [unpackSingle]
  simp only [toNat_byte]
  rw [joined, BitVec.ofNat_toNat, BitVec.setWidth_eq]

end Singles
end RadioStream.Codec
