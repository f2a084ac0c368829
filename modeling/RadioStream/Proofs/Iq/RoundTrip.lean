import RadioStream.Proofs.Iq.Cutting
import RadioStream.Proofs.Iq.Packing

/-!
Integer samples that go over an integer link and back, in both directions. What comes back of a
sample is said in closed form; what is encoded again of a decoded payload is the payload, but for
the bits that a link of 16 bits has and a host of 12 does not keep.
-/
namespace RadioStream

namespace Codec

/-- What is left of an integer component that went over an integer link. -/
def returned (v : Int) : SampleFormat → SampleFormat → Int
  | .i12, _ => clampTwelve v
  | .i16, .i12 => 16 * (v / 16)
  | _, _ => v

/-- A link string of 16-bit components without the lowest four bits of each. -/
def withoutLowBits (bytes : List UInt8) : List UInt8 :=
  bytes.mapIdx fun i b => if i % 2 = 0 then b &&& 0xf0 else b

theorem withoutLowBits_append {first rest : List UInt8} (even : first.length % 2 = 0) :
    withoutLowBits (first ++ rest) = withoutLowBits first ++ withoutLowBits rest := by
  have parity (i : Nat) : (i + first.length) % 2 = i % 2 := by omega
  simp only [withoutLowBits, List.mapIdx_append, parity]

variable {host link : SampleFormat} {v : Int}

theorem returned_bounds (host link : SampleFormat) (above : -32768 ≤ v) (below : v ≤ 32767) :
    -32768 ≤ returned v host link ∧ returned v host link ≤ 32767 := by
  have := clampTwelve_bounds v
  cases host <;> cases link <;> simp only [returned] <;> omega

theorem returned_returned : returned (returned v host link) host link = returned v host link := by
  cases host with
  | i16 =>
    cases link with
    | f32 | i16 => rfl
    | i12 =>
      simp only [returned]
      omega
  | i12 => exact clampTwelve_idem v
  | f32 => rfl

theorem returned_below (packed : link ≠ .f32) (v : Int) :
    v - 15 ≤ returned v .i16 link ∧ returned v .i16 link ≤ v := by
  cases link with
  | f32 => contradiction
  | i16 | i12 => simp only [returned]; omega

/-- Between the scales of host and link a component survives as `returned` says. -/
theorem unpackInts_rescale {v w : Int} (integral : host ≠ .f32) (packed : link ≠ .f32)
    (first : -32768 ≤ v ∧ v ≤ 32767) (second : -32768 ≤ w ∧ w ≤ 32767) :
    let read := unpackInts link (packInts link (rescale v host link) (rescale w host link))
    rescale read.1 link host = returned v host link ∧
      rescale read.2 link host = returned w host link := by
  have := clampTwelve_bounds v
  have := clampTwelve_bounds w
  cases link with
  | f32 => contradiction
  | i12 =>
    rw [unpackInts_twelve]
    cases host with
    | f32 => contradiction
    | i12 => simp only [rescale, returned, clampTwelve_idem, and_self]
    | i16 =>
      have high : clampTwelve (v / 16) = v / 16 := clampTwelve_of_mem (by omega) (by omega)
      have low : clampTwelve (w / 16) = w / 16 := clampTwelve_of_mem (by omega) (by omega)
      simp only [rescale, returned, high, low, Int.mul_comm, and_self]
  | i16 =>
    cases host with
    | f32 => contradiction
    | i12 =>
      simp only [rescale, returned]
      rw [unpackInts_sixteen (by omega) (by omega)]
      constructor <;> exact Int.mul_ediv_cancel _ (by decide)
    | i16 =>
      simp only [rescale, returned]
      rw [unpackInts_sixteen first second]
      exact ⟨rfl, rfl⟩

end Codec

namespace HostSample
variable {α : Type} [HostSample α] (host link : SampleFormat)
open Codec

theorem fillFromLink_toLink (samples : List α) {buffer : List α}
    (fits : buffer.length = samples.length) :
    fillFromLink host link (toLink host link samples) buffer =
      (samples.length, samples.map fun s => unpack host link (pack host link s)) := by
  have decoded : (fromLink host link (toLink host link samples) : List α) =
      samples.map fun s => unpack host link (pack host link s) := by
    rw [fromLink, wholeSamples_toLink, List.map_map]
    rfl
  have all : (fromLink host link (toLink host link samples) : List α).length = buffer.length := by
    rw [decoded, List.length_map, fits]
  rw [fillFromLink, List.take_of_length_le (Nat.le_of_eq all), all, List.drop_length,
    List.append_nil, decoded, fits]

variable {host link}

theorem unpack_pack_ints (integral : host ≠ .f32) (packed : link ≠ .f32) (s : IntSample) :
    unpack host link (pack host link s) =
      (⟨.ofInt (returned s.re.toInt host link), .ofInt (returned s.im.toInt host link)⟩ :
        IntSample) := by
  have := s.re.le_toInt
  have := s.re.toInt_lt
  have := s.im.le_toInt
  have := s.im.toInt_lt
  obtain ⟨first, second⟩ := unpackInts_rescale (v := s.re.toInt) (w := s.im.toInt)
    integral packed (by omega) (by omega)
  cases link with
  | f32 => contradiction
  | i12 | i16 =>
    rw [← first, ← second]
    rfl

theorem toInt_returned (x : Int16) :
    (Int16.ofInt (returned x.toInt host link)).toInt = returned x.toInt host link := by
  have := x.le_toInt
  have := x.toInt_lt
  have := returned_bounds (v := x.toInt) host link (by omega) (by omega)
  exact Int16.toInt_ofInt_of_le (by omega) (by omega)

theorem unpack_pack_reals (host : SampleFormat) (s : RealSample) :
    unpack host .f32 (pack host .f32 s) = s :=
  congr (congrArg Iq.mk (unpackSingle_pack s.re)) (unpackSingle_pack s.im)

/-- Integer samples come back from an integer link clamped to 12 bits where the host holds so many,
without their low four bits where only the link does, and else as they were. What has been over the
link once is not changed by going again. Samples of single width come back bit by bit. -/
theorem round_trip :
    (∀ (host link : SampleFormat) (samples buffer : List IntSample),
      host ≠ .f32 → link ≠ .f32 → buffer.length = samples.length →
      let back := fillFromLink host link (toLink host link samples) buffer
      back.1 = samples.length ∧
      back.2.map (fun s => (s.re.toInt, s.im.toInt)) = samples.map (fun s =>
        (returned s.re.toInt host link, returned s.im.toInt host link)) ∧
      (host = .i16 → ∀ s t, (s, t) ∈ samples.zip back.2 →
        (s.re.toInt - 15 ≤ t.re.toInt ∧ t.re.toInt ≤ s.re.toInt) ∧
        s.im.toInt - 15 ≤ t.im.toInt ∧ t.im.toInt ≤ s.im.toInt) ∧
      (host = .i12 → (∀ s ∈ samples, (-2048 ≤ s.re.toInt ∧ s.re.toInt ≤ 2047) ∧
        -2048 ≤ s.im.toInt ∧ s.im.toInt ≤ 2047) → back.2 = samples) ∧
      fillFromLink host link (toLink host link back.2) buffer = back) ∧
    ∀ (host : SampleFormat) (samples buffer : List RealSample), buffer.length = samples.length →
      fillFromLink host .f32 (toLink host .f32 samples) buffer = (samples.length, samples) := by
  constructor
  · intro host link samples buffer integral packed fits back
    let sent (s : IntSample) : IntSample :=
      ⟨.ofInt (returned s.re.toInt host link), .ofInt (returned s.im.toInt host link)⟩
    have crossed (samples : List IntSample) (fits : buffer.length = samples.length) :
        fillFromLink host link (toLink host link samples) buffer =
          (samples.length, samples.map sent) := by
      rw [fillFromLink_toLink host link samples fits]
      exact congrArg _ (List.map_congr_left fun s _ => unpack_pack_ints integral packed s)
    have came : back = (samples.length, samples.map sent) := crossed samples fits
    rw [came]
    refine ⟨rfl, ?_, ?_, ?_, ?_⟩
    · rw [List.map_map]
      exact List.map_congr_left fun s _ =>
        Prod.ext (toInt_returned s.re) (toInt_returned s.im)
    · rintro rfl s t paired
      rw [← List.map_prod_left_eq_zip] at paired
      obtain ⟨s, -, equal⟩ := List.mem_map.mp paired
      obtain ⟨rfl, rfl⟩ := Prod.mk.inj equal
      simp only [sent, toInt_returned]
      exact ⟨returned_below packed s.re.toInt, returned_below packed s.im.toInt⟩
    · rintro rfl twelve
      refine (List.map_congr_left fun s member => ?_).trans (List.map_id samples)
      obtain ⟨first, second⟩ := twelve s member
      simp only [sent, returned, clampTwelve_of_mem first.1 first.2,
        clampTwelve_of_mem second.1 second.2, Int16.ofInt_toInt, id]
    · rw [crossed _ (by rw [List.length_map, fits]), List.length_map, List.map_map]
      refine congrArg _ (List.map_congr_left fun s _ => ?_)
      simp only [Function.comp_apply, sent, toInt_returned, returned_returned]
  · intro host samples buffer fits
    rw [fillFromLink_toLink host .f32 samples fits]
    exact congrArg _ ((List.map_congr_left fun s _ => unpack_pack_reals host s).trans
      (List.map_id samples))

theorem round_trip_extremes :
    let samples : List IntSample := [⟨-32768, 32767⟩, ⟨2047, -2049⟩, ⟨-1, 15⟩]
    let buffer : List IntSample := List.replicate 3 ⟨0, 0⟩
    let back := fillFromLink .i16 .i12 (toLink .i16 .i12 samples) buffer
    let held : List IntSample := [⟨2047, -2048⟩]
    back.1 = 3 ∧
      back.2.map (fun s => (s.re.toInt, s.im.toInt)) =
        [(-32768, 32752), (2032, -2064), (-16, 0)] ∧
      fillFromLink .i16 .i12 (toLink .i16 .i12 back.2) buffer = back ∧
      (fillFromLink .i12 .i16 (toLink .i12 .i16 held) [⟨0, 0⟩]).2 = held := by
  intro samples buffer back held
  obtain ⟨count, values, -, -, again⟩ :=
    round_trip.1 .i16 .i12 samples buffer (by decide) (by decide) rfl
  obtain ⟨-, -, -, kept, -⟩ :=
    round_trip.1 .i12 .i16 held [⟨0, 0⟩] (by decide) (by decide) rfl
  exact ⟨count, values, again, kept rfl (by decide)⟩

/-- A destination that is large enough is written with all whole samples of the payload. -/
theorem fillFromLink_all (host link : SampleFormat) {bytes : List UInt8} {buffer : List α}
    (fits : bytes.length / link.sampleSize ≤ buffer.length) :
    let filled := fillFromLink host link bytes buffer
    filled.1 = bytes.length / link.sampleSize ∧
      filled.2.take filled.1 = fromLink host link bytes := by
  intro filled
  refine ⟨(fillFromLink_written host link bytes buffer).trans (Nat.min_eq_right fits), ?_⟩
  dsimp only [filled, fillFromLink]
  rw [List.take_left' rfl, List.take_of_length_le]
  rwa [length_fromLink]

/-- If each whole sample is encoded again as a function says that goes from sample to sample, the
payload is. -/
theorem toLink_fromLink (rewrite : List UInt8 → List UInt8) (nothing : rewrite [] = [])
    (joins : ∀ first rest, first.length = link.sampleSize →
      rewrite (first ++ rest) = rewrite first ++ rewrite rest)
    (again : ∀ chunk, chunk.length = link.sampleSize →
      pack host link (unpack host link chunk : α) = rewrite chunk) (bytes : List UInt8) :
    toLink host link (fromLink host link bytes : List α) =
      rewrite (bytes.take (bytes.length / link.sampleSize * link.sampleSize)) := by
  have pos := link.sampleSize_pos
  induction bytes using wholeSamples.induct link.sampleSize with
  | case1 bytes whole ih =>
    have width := whole.2
    have enough : link.sampleSize ≤ bytes.length := by
      rw [List.length_take] at width
      omega
    rw [fromLink, wholeSamples_cons pos enough, List.map_cons, toLink, List.flatMap_cons,
      again _ width, ← toLink, ← fromLink, ih, ← joins _ _ width, List.length_drop,
      Nat.div_eq_sub_div pos enough, Nat.succ_mul, Nat.add_comm, List.take_add]
  | case2 bytes short =>
    have short : bytes.length < link.sampleSize := by
      rw [List.length_take] at short
      omega
    rw [fromLink, wholeSamples_short short, Nat.div_eq_of_lt short, Nat.zero_mul, List.take_zero,
      nothing]
    rfl

theorem pack_unpack_ints {chunk : List UInt8}
    (exact : (host, link) ∈ [(.i16, .i16), (.i12, .i12), (.i16, .i12)])
    (width : chunk.length = link.sampleSize) :
    pack host link (unpack host link chunk : IntSample) = chunk := by
  cases link with
  | f32 => simp at exact
  | i12 =>
    match chunk, width with
    | [a, b, c], _ =>
      obtain ⟨first, second⟩ := unpackInts_twelve_bounds a b c
      have kept {v : Int} (range : -2048 ≤ v ∧ v ≤ 2047) :
          rescale (Int16.ofInt (rescale v .i12 host)).toInt host .i12 = v := by
        have := clampTwelve_of_mem range.1 range.2
        cases host with
        | f32 => simp at exact
        | i12 =>
          simp only [rescale]
          rw [this, Int16.toInt_ofInt_of_le (by omega) (by omega), this]
        | i16 =>
          simp only [rescale]
          rw [this, Int16.toInt_ofInt_of_le (by omega) (by omega)]
          exact Int.mul_ediv_cancel _ (by decide)
      show packInts .i12 (rescale (Int16.ofInt (rescale _ .i12 host)).toInt host .i12)
        (rescale (Int16.ofInt (rescale _ .i12 host)).toInt host .i12) = _
      rw [kept first, kept second, packInts_twelve_unpack]
  | i16 =>
    match chunk, width with
    | [a, b, c, d], _ =>
      have own : host = .i16 := by simpa using exact
      subst own
      have kept (low high : UInt8) :
          (Int16.ofInt (unpackSixteen low high)).toInt = unpackSixteen low high := by
        have := unpackSixteen_bounds low high
        exact Int16.toInt_ofInt_of_le (by omega) (by omega)
      show packSixteen (Int16.ofInt (unpackSixteen a b)).toInt ++
        packSixteen (Int16.ofInt (unpackSixteen c d)).toInt = _
      rw [kept, kept, packSixteen_unpack, packSixteen_unpack, List.cons_append, List.cons_append,
        List.nil_append]

theorem pack_unpack_narrow {chunk : List UInt8} (width : chunk.length = 4) :
    pack .i12 .i16 (unpack .i12 .i16 chunk : IntSample) = withoutLowBits chunk := by
  match chunk, width with
  | [a, b, c, d], _ =>
    have kept (low high : UInt8) :
        rescale (Int16.ofInt (rescale (unpackSixteen low high) .i16 .i12)).toInt .i12 .i16 =
          unpackSixteen low high / 16 * 16 := by
      have := unpackSixteen_bounds low high
      simp only [rescale]
      rw [Int16.toInt_ofInt_of_le (by omega) (by omega), clampTwelve_of_mem (by omega) (by omega)]
    show packSixteen (rescale (Int16.ofInt (rescale (unpackSixteen a b) _ _)).toInt _ _) ++
      packSixteen (rescale (Int16.ofInt (rescale (unpackSixteen c d) _ _)).toInt _ _) = _
    rw [kept, kept, packSixteen_rounded, packSixteen_rounded]
    simp [withoutLowBits, List.mapIdx_cons]

theorem pack_unpack_reals (host : SampleFormat) {chunk : List UInt8} (width : chunk.length = 8) :
    pack host .f32 (unpack host .f32 chunk : RealSample) = chunk := by
  match chunk, width with
  | [a, b, c, d, e, f, g, h], _ =>
    show packSingle (unpackSingle a b c d) ++ packSingle (unpackSingle e f g h) = _
    rw [packSingle_unpack, packSingle_unpack, List.cons_append, List.cons_append,
      List.cons_append, List.cons_append, List.nil_append]

/-- Every string of bytes on the link is the encoding of what it is decoded to, as far as it makes
whole samples. A host of 12 bits forgets the low four bits of the components on a link of 16. -/
theorem link_bytes_canonical :
    (∀ (host link : SampleFormat) (bytes : List UInt8) (buffer : List IntSample),
      (host, link) ∈ [(.i16, .i16), (.i12, .i12), (.i16, .i12)] →
      bytes.length / link.sampleSize ≤ buffer.length →
      let filled := fillFromLink host link bytes buffer
      filled.1 = bytes.length / link.sampleSize ∧
      toLink host link (filled.2.take filled.1) =
        bytes.take (bytes.length / link.sampleSize * link.sampleSize)) ∧
    (∀ (bytes : List UInt8) (buffer : List RealSample), bytes.length / 8 ≤ buffer.length →
      let filled := fillFromLink .f32 .f32 bytes buffer
      filled.1 = bytes.length / 8 ∧
      toLink .f32 .f32 (filled.2.take filled.1) = bytes.take (bytes.length / 8 * 8)) ∧
    ∀ (bytes : List UInt8) (buffer : List IntSample), bytes.length / 4 ≤ buffer.length →
      let filled := fillFromLink .i12 .i16 bytes buffer
      filled.1 = bytes.length / 4 ∧
      toLink .i12 .i16 (filled.2.take filled.1) =
        withoutLowBits (bytes.take (bytes.length / 4 * 4)) := by
  refine ⟨?_, ?_, ?_⟩
  · intro host link bytes buffer exact fits filled
    obtain ⟨count, written⟩ := fillFromLink_all host link fits
    refine ⟨count, ?_⟩
    rw [written]
    exact toLink_fromLink id rfl (fun _ _ _ => rfl) (fun _ => pack_unpack_ints exact) bytes
  · intro bytes buffer fits filled
    obtain ⟨count, written⟩ := fillFromLink_all .f32 .f32 fits
    refine ⟨count, ?_⟩
    rw [written]
    exact toLink_fromLink id rfl (fun _ _ _ => rfl) (fun _ => pack_unpack_reals .f32) bytes
  · intro bytes buffer fits filled
    obtain ⟨count, written⟩ := fillFromLink_all .i12 .i16 fits
    refine ⟨count, ?_⟩
    rw [written]
    have joins (first rest : List UInt8) (width : first.length = SampleFormat.i16.sampleSize) :
        withoutLowBits (first ++ rest) = withoutLowBits first ++ withoutLowBits rest :=
      withoutLowBits_append (by rw [width]; rfl)
    exact toLink_fromLink withoutLowBits rfl joins (fun _ => pack_unpack_narrow) bytes

theorem link_bytes_canonical_incomplete :
    let bytes : List UInt8 := [0x1f, 0x80, 0xff, 0x7f, 0x23, 0xf1, 0xff, 0x00, 0x05]
    let buffer : List IntSample := List.replicate 3 ⟨0, 0⟩
    let packed := fillFromLink .i16 .i12 bytes buffer
    let narrow := fillFromLink .i12 .i16 bytes buffer
    let single := fillFromLink .f32 .f32 bytes ([⟨.zero, .zero⟩] : List RealSample)
    toLink .i16 .i12 (packed.2.take packed.1) = bytes ∧
      toLink .f32 .f32 (single.2.take single.1) = bytes.take 8 ∧
      toLink .i12 .i16 (narrow.2.take narrow.1) =
        [0x10, 0x80, 0xf0, 0x7f, 0x20, 0xf1, 0xf0, 0x00] := by
  intro bytes buffer packed narrow single
  obtain ⟨ints, reals, cleared⟩ := link_bytes_canonical
  obtain ⟨-, again⟩ := ints .i16 .i12 bytes buffer (by decide) (by decide)
  obtain ⟨-, bits⟩ := reals bytes [⟨.zero, .zero⟩] (by decide)
  obtain ⟨-, kept⟩ := cleared bytes buffer (by decide)
  exact ⟨again.trans (by decide), bits.trans (by decide), kept.trans (by decide)⟩

end HostSample
end RadioStream
