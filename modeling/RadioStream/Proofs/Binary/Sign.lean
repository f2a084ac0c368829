import RadioStream.Binary.Arithmetic

/-!
On which side of zero a pattern lies, told by what it stands for. The order of patterns compares
sign and code, so a negative zero is not below zero and what is not a number is on neither side.
-/
namespace RadioStream

/-- Data on the side of zero that a sign names. -/
def BinaryDatum.HasSign (sign : Bool) : BinaryDatum → Prop
  | .notANumber => False
  | .infinite negative => negative = sign
  | .finite negative significand _ => negative = sign ∧ 0 < significand

instance (sign : Bool) : (datum : BinaryDatum) → Decidable (datum.HasSign sign)
  | .notANumber => inferInstanceAs (Decidable False)
  | .infinite negative => inferInstanceAs (Decidable (negative = sign))
  | .finite negative significand _ =>
    inferInstanceAs (Decidable (negative = sign ∧ 0 < significand))

namespace Binary
variable {f : BinaryFormat} {x : Binary f}

theorem fieldStep_pos (f : BinaryFormat) : 0 < f.fieldStep := by
  rw [BinaryFormat.fieldStep, Nat.one_shiftLeft]
  exact Nat.two_pow_pos _

theorem position?_zero : (zero : Binary f).position? = some 0 := by
  have place : 0 < f.signPlace := by
    rw [BinaryFormat.signPlace, Nat.one_shiftLeft]
    exact Nat.two_pow_pos _
  have bits : (zero : Binary f).bits.toNat = 0 := by simp [zero, ofCode]
  have code : (zero : Binary f).magnitudeCode = 0 := by rw [magnitudeCode, bits, Nat.zero_mod]
  have positive : (zero : Binary f).isNegative = false := by
    rw [isNegative, bits]
    exact decide_eq_false (Nat.not_le.mpr place)
  rw [position?, isNaN, code, positive]
  rfl

/-- What a pattern stands for has its sign, and is zero only with the code zero. -/
theorem decode_spec (x : Binary f) :
    (f.infinityCode < x.magnitudeCode ∧ x.decode = .notANumber) ∨
    (x.magnitudeCode = f.infinityCode ∧ x.decode = .infinite x.isNegative) ∨
    (x.magnitudeCode < f.infinityCode ∧ ∃ significand exponent,
      x.decode = .finite x.isNegative significand exponent ∧
        (0 < significand ↔ 0 < x.magnitudeCode)) := by
  rw [decode, isNaN]
  rcases Nat.lt_trichotomy f.infinityCode x.magnitudeCode with more | same | less
  · exact .inl ⟨more, by rw [decide_eq_true more, if_pos rfl]⟩
  · refine .inr (.inl ⟨same.symm, ?_⟩)
    rw [decide_eq_false (by omega), if_neg Bool.false_ne_true, if_pos same.symm]
  · refine .inr (.inr ⟨less, ?_⟩)
    rw [decide_eq_false (by omega), if_neg Bool.false_ne_true, if_neg (Nat.ne_of_lt less)]
    split
    · exact ⟨_, _, rfl, .rfl⟩
    · next field =>
      have step := fieldStep_pos f
      have code : 0 < x.magnitudeCode := by
        apply Nat.pos_of_ne_zero
        intro none
        rw [none, Nat.zero_div] at field
        exact field rfl
      exact ⟨_, _, rfl, iff_of_true (by omega) code⟩

theorem isFinite_iff : x.isFinite = true ↔
    ∃ negative significand exponent, x.decode = .finite negative significand exponent := by
  rw [isFinite, decide_eq_true_iff]
  rcases x.decode_spec with
    ⟨code, nothing⟩ | ⟨code, infinite⟩ | ⟨code, significand, exponent, finite, _⟩
  · rw [nothing]
    exact iff_of_false (by omega) (by rintro ⟨_, _, _, _⟩; contradiction)
  · rw [infinite]
    exact iff_of_false (by omega) (by rintro ⟨_, _, _, _⟩; contradiction)
  · exact iff_of_true code ⟨_, significand, exponent, finite⟩

/-- The position of a pattern is on the side that its datum has. -/
theorem hasSign_iff (some : 0 < f.infinityCode) (sign : Bool) : x.decode.HasSign sign ↔
    ∃ position, x.position? = Option.some position ∧
      if sign then position < 0 else 0 < position := by
  rw [position?, isNaN]
  rcases x.decode_spec with
    ⟨code, nothing⟩ | ⟨code, infinite⟩ | ⟨code, significand, exponent, finite, zero⟩
  · rw [nothing, decide_eq_true code]
    exact iff_of_false id (by rintro ⟨_, _, _⟩; contradiction)
  · rw [infinite, decide_eq_false (by omega), if_neg Bool.false_ne_true]
    cases sign <;> cases x.isNegative <;> simp [BinaryDatum.HasSign] <;> omega
  · rw [finite, decide_eq_false (by omega), if_neg Bool.false_ne_true]
    cases sign <;> cases x.isNegative <;> simp [BinaryDatum.HasSign] <;> omega

theorem below_zero_iff (some : 0 < f.infinityCode) :
    x.below zero = true ↔ x.decode.HasSign true := by
  rw [hasSign_iff some, below, position?_zero]
  cases x.position? <;> simp

theorem zero_below_iff (some : 0 < f.infinityCode) :
    zero.below x = true ↔ x.decode.HasSign false := by
  rw [hasSign_iff some, below, position?_zero]
  cases x.position? <;> simp

end Binary
end RadioStream
