import RadioStream.Iq.Codec

/-!
Cutting bytes into samples commutes with every cut at a sample boundary, and gives back
the encodings that a payload was put together from.
-/
namespace RadioStream
variable {size : Nat} {bytes : List UInt8}

theorem wholeSamples_short (short : bytes.length < size) : wholeSamples size bytes = [] := by
  rw [wholeSamples, dif_neg]
  simp only [List.length_take]
  omega

@[simp] theorem wholeSamples_nil (pos : 0 < size) : wholeSamples size [] = [] :=
  wholeSamples_short pos

theorem wholeSamples_cons (pos : 0 < size) (enough : size ≤ bytes.length) :
    wholeSamples size bytes = bytes.take size :: wholeSamples size (bytes.drop size) := by
  rw [wholeSamples, dif_pos]
  simp only [List.length_take]
  omega

theorem length_wholeSamples (pos : 0 < size) (bytes : List UInt8) :
    (wholeSamples size bytes).length = bytes.length / size := by
  induction bytes using wholeSamples.induct size with
  | case1 bytes whole ih =>
    have enough : size ≤ bytes.length := by
      have := whole.2
      simp only [List.length_take] at this
      omega
    rw [wholeSamples_cons pos enough, List.length_cons, ih, List.length_drop,
      ← Nat.div_eq_sub_div pos enough]
  | case2 bytes short =>
    have short : bytes.length < size := by
      simp only [List.length_take] at short
      omega
    rw [wholeSamples_short short, List.length_nil, Nat.div_eq_of_lt short]

theorem wholeSamples_append {first : List UInt8} (pos : 0 < size) (whole : size ∣ first.length)
    (rest : List UInt8) :
    wholeSamples size (first ++ rest) = wholeSamples size first ++ wholeSamples size rest := by
  induction first using wholeSamples.induct size with
  | case1 first front ih =>
    have enough : size ≤ first.length := by
      have := front.2
      simp only [List.length_take] at this
      omega
    have shorter : size ∣ (first.drop size).length := by
      rw [List.length_drop]
      exact Nat.dvd_sub whole (Nat.dvd_refl size)
    rw [wholeSamples_cons pos (by rw [List.length_append]; omega), wholeSamples_cons pos enough,
      List.take_append_of_le_length enough, List.drop_append_of_le_length enough, ih shorter,
      List.cons_append]
  | case2 first short =>
    have short : first.length < size := by
      simp only [List.length_take] at short
      omega
    have empty : first = [] :=
      List.length_eq_zero_iff.mp (Nat.eq_zero_of_dvd_of_lt whole short)
    rw [empty, List.nil_append, wholeSamples_nil pos, List.nil_append]

theorem wholeSamples_take (pos : 0 < size) (count : Nat) (bytes : List UInt8) :
    wholeSamples size (bytes.take (count * size)) = (wholeSamples size bytes).take count := by
  induction count generalizing bytes with
  | zero => simp [pos]
  | succ count ih =>
    rw [Nat.succ_mul]
    by_cases enough : size ≤ bytes.length
    · rw [wholeSamples_cons pos enough, List.take_succ_cons, ← ih, wholeSamples_cons pos
        (by rw [List.length_take]; omega), List.take_take, List.drop_take, Nat.add_sub_cancel,
        Nat.min_eq_left (Nat.le_add_left _ _)]
    · rw [List.take_of_length_le (by omega), wholeSamples_short (by omega), List.take_nil]

theorem wholeSamples_drop (pos : 0 < size) (count : Nat) (bytes : List UInt8) :
    wholeSamples size (bytes.drop (count * size)) = (wholeSamples size bytes).drop count := by
  induction count generalizing bytes with
  | zero => simp
  | succ count ih =>
    rw [Nat.succ_mul]
    by_cases enough : size ≤ bytes.length
    · rw [wholeSamples_cons pos enough, List.drop_succ_cons, ← ih, List.drop_drop, Nat.add_comm]
    · rw [List.drop_eq_nil_of_le (by omega), wholeSamples_nil pos, wholeSamples_short (by omega),
        List.drop_nil]

theorem wholeSamples_truncate (pos : 0 < size) (bytes : List UInt8) :
    wholeSamples size (bytes.take (bytes.length - bytes.length % size)) =
      wholeSamples size bytes := by
  rw [← Nat.div_mul_self_eq_mod_sub_self, wholeSamples_take pos,
    List.take_of_length_le (Nat.le_of_eq (length_wholeSamples pos bytes))]

theorem wholeSamples_flatMap {α : Type} (pos : 0 < size) {encode : α → List UInt8}
    (samples : List α) (width : ∀ a, (encode a).length = size) :
    wholeSamples size (samples.flatMap encode) = samples.map encode := by
  induction samples with
  | nil => simp [pos]
  | cons a rest ih =>
    rw [List.flatMap_cons, wholeSamples_append pos (by simp [width]), ih,
      wholeSamples_cons pos (Nat.le_of_eq (width a).symm), List.take_of_length_le
      (Nat.le_of_eq (width a)), List.drop_eq_nil_of_le (Nat.le_of_eq (width a)),
      wholeSamples_nil pos, List.map_cons, List.singleton_append]

namespace HostSample
variable {α : Type} [HostSample α]

theorem wholeSamples_toLink (host link : SampleFormat) (samples : List α) :
    wholeSamples link.sampleSize (toLink host link samples) = samples.map (pack host link) :=
  wholeSamples_flatMap link.sampleSize_pos samples (length_pack host link)

theorem length_toLink (host link : SampleFormat) (samples : List α) :
    (toLink host link samples).length = samples.length * link.sampleSize := by
  induction samples with
  | nil => simp [toLink]
  | cons a rest ih =>
    rw [toLink, List.flatMap_cons, List.length_append, length_pack]
    rw [toLink] at ih
    rw [ih, List.length_cons, Nat.succ_mul, Nat.add_comm]

end HostSample
end RadioStream
