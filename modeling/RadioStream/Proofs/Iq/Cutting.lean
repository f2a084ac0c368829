import RadioStream.Proofs.Iq.Stamped

/-!
Conversion goes sample by sample. Encodings of two lists in a row are the encoding of the lists
in a row, a payload decodes the same in one piece and in pieces that end at a sample, and a block
of encoded samples stays one under every cut.
-/
namespace RadioStream

theorem wholeSamples_getElem? {size : Nat} {bytes : List UInt8} {i : Nat} (pos : 0 < size)
    (inside : i < bytes.length / size) :
    (wholeSamples size bytes)[i]? = some ((bytes.drop (i * size)).take size) := by
  have enough : size ≤ (bytes.drop (i * size)).length := by
    have : (i + 1) * size ≤ bytes.length := (Nat.le_div_iff_mul_le pos).mp inside
    rw [Nat.succ_mul] at this
    rw [List.length_drop]
    omega
  rw [← List.head?_drop, ← wholeSamples_drop pos, wholeSamples_cons pos enough, List.head?_cons]

namespace HostSample
variable {α : Type} [HostSample α] (host link : SampleFormat)

theorem toLink_append (first rest : List α) :
    toLink host link (first ++ rest) = toLink host link first ++ toLink host link rest :=
  List.flatMap_append

theorem take_toLink (samples : List α) (count : Nat) :
    (toLink host link samples).take (count * link.sampleSize) =
      toLink host link (samples.take count) := by
  induction samples generalizing count with
  | nil => simp [toLink]
  | cons a rest ih =>
    cases count with
    | zero => simp [toLink]
    | succ count =>
      have width := length_pack host link a
      rw [toLink, List.flatMap_cons, List.take_append, List.take_of_length_le, width,
        Nat.succ_mul, Nat.add_sub_cancel, List.take_succ_cons, toLink, List.flatMap_cons]
      · exact congrArg _ (ih count)
      · rw [width, Nat.succ_mul]
        exact Nat.le_add_left _ _

theorem drop_toLink (samples : List α) (count : Nat) :
    (toLink host link samples).drop (count * link.sampleSize) =
      toLink host link (samples.drop count) := by
  have cut := toLink_append host link (samples.take count) (samples.drop count)
  rw [List.take_append_drop, ← take_toLink] at cut
  exact List.append_cancel_left ((List.take_append_drop _ _).trans cut)

/-- Writing sample after sample behind what is there already appends the encoding of all. -/
theorem foldl_toLink (out : List UInt8) (samples : List α) :
    samples.foldl (fun out a => out ++ pack host link a) out = out ++ toLink host link samples := by
  induction samples generalizing out with
  | nil => simp [toLink]
  | cons a rest ih =>
    rw [List.foldl_cons, ih, toLink, toLink, List.flatMap_cons, List.append_assoc]

variable (bytes : List UInt8) (buffer : List α)

theorem length_fromLink :
    (fromLink host link bytes : List α).length = bytes.length / link.sampleSize := by
  rw [fromLink, List.length_map, length_wholeSamples link.sampleSize_pos]

theorem fillFromLink_written :
    (fillFromLink host link bytes buffer).1 =
      min buffer.length (bytes.length / link.sampleSize) := by
  rw [fillFromLink, List.length_take, length_fromLink]

theorem fillFromLink_length : (fillFromLink host link bytes buffer).2.length = buffer.length := by
  simp only [fillFromLink, List.length_append, List.length_take, List.length_drop]
  omega

theorem fillFromLink_getElem? (i : Nat) :
    (fillFromLink host link bytes buffer).2[i]? =
      if i < (fillFromLink host link bytes buffer).1 then
        some (unpack host link ((bytes.drop (i * link.sampleSize)).take link.sampleSize))
      else buffer[i]? := by
  have counted := fillFromLink_written host link bytes buffer
  split
  · next written =>
    rw [counted] at written
    have inside : i < bytes.length / link.sampleSize := by omega
    rw [fillFromLink, List.getElem?_append_left, List.getElem?_take_of_lt (by omega), fromLink,
      List.getElem?_map, wholeSamples_getElem? link.sampleSize_pos inside, Option.map_some]
    rw [List.length_take, length_fromLink]
    omega
  · next kept =>
    have past := Nat.le_of_not_lt kept
    rw [fillFromLink] at past ⊢
    rw [List.getElem?_append_right past, List.getElem?_drop, Nat.add_sub_of_le past]

theorem fillFromLink_truncate :
    fillFromLink host link
        (bytes.take (bytes.length / link.sampleSize * link.sampleSize)) buffer =
      fillFromLink host link bytes buffer := by
  have same := wholeSamples_truncate link.sampleSize_pos bytes
  rw [← Nat.div_mul_self_eq_mod_sub_self] at same
  rw [fillFromLink, fromLink, same, ← fromLink, fillFromLink]

omit [HostSample α] in
theorem take_overwrite (samples buffer : List α) (count : Nat) :
    let written := samples.take buffer.length
    let first := (samples.take count).take (buffer.take count).length
    let rest := (samples.drop count).take (buffer.drop count).length
    written = first ++ rest ∧
      written ++ buffer.drop written.length =
        (first ++ (buffer.take count).drop first.length) ++
          (rest ++ (buffer.drop count).drop rest.length) := by
  induction count generalizing samples buffer with
  | zero => simp
  | succ count ih =>
    cases samples with
    | nil => simp
    | cons a samples =>
      cases buffer with
      | nil => simp
      | cons slot buffer =>
        obtain ⟨written, kept⟩ := ih samples buffer
        simp only [List.length_cons, List.take_succ_cons, List.drop_succ_cons, List.cons_append,
          written, List.cons.injEq, true_and]
        rw [written] at kept
        exact kept

/-- Decoding a payload in two parts, cut behind a sample, is decoding it as a whole. -/
theorem fillFromLink_split (count : Nat) :
    let first := fillFromLink host link (bytes.take (count * link.sampleSize)) (buffer.take count)
    let rest := fillFromLink host link (bytes.drop (count * link.sampleSize)) (buffer.drop count)
    fillFromLink host link bytes buffer = (first.1 + rest.1, first.2 ++ rest.2) := by
  have pos := link.sampleSize_pos
  have front : (fromLink host link (bytes.take (count * link.sampleSize)) : List α) =
      (fromLink host link bytes).take count := by
    rw [fromLink, wholeSamples_take pos, List.map_take, fromLink]
  have back : (fromLink host link (bytes.drop (count * link.sampleSize)) : List α) =
      (fromLink host link bytes).drop count := by
    rw [fromLink, wholeSamples_drop pos, List.map_drop, fromLink]
  obtain ⟨written, filled⟩ := take_overwrite (fromLink host link bytes) buffer count
  dsimp only [fillFromLink]
  rw [front, back, filled, written, List.length_append]

end HostSample

namespace Block
variable {α : Type} [HostSample α] {host link : SampleFormat} {samples more : List α}
  {b source : Block}

/-- A block that holds the encodings of some samples. -/
structure Encodes (host link : SampleFormat) (samples : List α) (b : Block) : Prop where
  sampleSize_eq : b.sampleSize = link.sampleSize
  payload_eq : b.payload = HostSample.toLink host link samples

theorem Encodes.length_eq (encoded : b.Encodes host link samples) : b.length = samples.length := by
  rw [length, encoded.sampleSize_eq, encoded.payload_eq, HostSample.length_toLink,
    Nat.mul_div_cancel _ link.sampleSize_pos]

theorem Encodes.advance (encoded : b.Encodes host link samples) (count : Nat) :
    (b.advance count).Encodes host link (samples.drop count) := by
  refine ⟨encoded.sampleSize_eq, ?_⟩
  have dropped : (b.advance count).payload =
      HostSample.toLink host link (samples.drop (min count samples.length)) := by
    rw [← HostSample.drop_toLink, ← encoded.payload_eq, ← encoded.length_eq,
      ← encoded.sampleSize_eq]
    rfl
  rw [dropped]
  by_cases enough : count ≤ samples.length
  · rw [Nat.min_eq_left enough]
  · have past := Nat.le_of_not_le enough
    rw [Nat.min_eq_right past, List.drop_length, List.drop_of_length_le past]

theorem Encodes.gather (encoded : b.Encodes host link samples)
    (other : source.Encodes host link more) (count : Nat) :
    (b.gather source count).1.Encodes host link (samples ++ more.take count) := by
  refine ⟨?_, ?_⟩
  · simp only [Block.gather]
    split <;> exact encoded.sampleSize_eq
  · have taken : (b.gather source count).1.payload =
        b.payload ++ source.payload.take (min count source.length * b.sampleSize) := rfl
    rw [taken, encoded.payload_eq, encoded.sampleSize_eq, other.payload_eq,
      HostSample.take_toLink, other.length_eq, ← List.take_take, List.take_length,
      HostSample.toLink_append]

end Block

/-- Encoding appends the bytes of each sample in turn. Decoding fills a destination as far as it and
the whole samples reach, each place from its own bytes. So what is encoded may be cut and joined at
any sample, as bytes or as blocks. -/
theorem HostSample.conversion_per_sample {α : Type} [HostSample α] (host link : SampleFormat) :
    (∀ (out : List UInt8) (samples : List α),
      samples.foldl (fun out a => out ++ pack host link a) out =
        out ++ toLink host link samples ∧
      (toLink host link samples).length = samples.length * link.sampleSize) ∧
    (∀ first rest : List α,
      toLink host link (first ++ rest) = toLink host link first ++ toLink host link rest) ∧
    (∀ (bytes : List UInt8) (buffer : List α),
      let filled := fillFromLink host link bytes buffer
      filled.1 = min buffer.length (bytes.length / link.sampleSize) ∧
      filled.2.length = buffer.length ∧
      (∀ i, filled.2[i]? =
        if i < filled.1 then
          some (unpack host link ((bytes.drop (i * link.sampleSize)).take link.sampleSize))
        else buffer[i]?) ∧
      fillFromLink host link
        (bytes.take (bytes.length / link.sampleSize * link.sampleSize)) buffer = filled) ∧
    (∀ (bytes : List UInt8) (buffer : List α) (count : Nat),
      let first :=
        fillFromLink host link (bytes.take (count * link.sampleSize)) (buffer.take count)
      let rest :=
        fillFromLink host link (bytes.drop (count * link.sampleSize)) (buffer.drop count)
      fillFromLink host link bytes buffer = (first.1 + rest.1, first.2 ++ rest.2)) ∧
    ∀ (b source : Block) (samples more : List α) (count : Nat),
      b.Encodes host link samples → source.Encodes host link more →
      (source.advance count).Encodes host link (more.drop count) ∧
      (b.gather source count).1.Encodes host link (samples ++ more.take count) ∧
      (b.gather source count).2.Encodes host link (more.drop count) := by
  refine ⟨fun out samples => ⟨foldl_toLink host link out samples, length_toLink host link samples⟩,
    toLink_append host link, ?_, fillFromLink_split host link, ?_⟩
  · intro bytes buffer
    exact ⟨fillFromLink_written host link bytes buffer, fillFromLink_length host link bytes buffer,
      fillFromLink_getElem? host link bytes buffer, fillFromLink_truncate host link bytes buffer⟩
  · intro b source samples more count encoded other
    refine ⟨other.advance count, encoded.gather other count, ?_⟩
    rw [Block.gather_rest]
    exact other.advance count

theorem HostSample.conversion_per_sample_packed :
    let first : List IntSample := [⟨100, -3⟩]
    let more : List IntSample := [⟨-32768, 32767⟩, ⟨2047, -2049⟩]
    let b := Block.outgoing none false (toLink .i16 .i12 first) 3
    let source := Block.outgoing none true (toLink .i16 .i12 more) 3
    b.Encodes .i16 .i12 first ∧ source.Encodes .i16 .i12 more ∧
      (b.gather source 1).1.Encodes .i16 .i12 (first ++ [⟨-32768, 32767⟩]) ∧
      (b.gather source 1).2.Encodes .i16 .i12 [(⟨2047, -2049⟩ : IntSample)] := by
  intro first more b source
  have encoded : b.Encodes .i16 .i12 first := ⟨rfl, rfl⟩
  have other : source.Encodes .i16 .i12 more := ⟨rfl, rfl⟩
  obtain ⟨-, -, -, -, blocks⟩ := HostSample.conversion_per_sample (α := IntSample) .i16 .i12
  obtain ⟨-, taken, left⟩ := blocks b source first more 1 encoded other
  exact ⟨encoded, other, taken, left⟩

end RadioStream
