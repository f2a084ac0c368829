import Mathlib.Data.Int.Log
import Mathlib.Data.Nat.Log
import Mathlib.Data.Rat.Floor
import Mathlib.Algebra.Order.Field.Power
import Mathlib.Tactic.Linarith
import Mathlib.Tactic.Ring
import Mathlib.Tactic.FieldSimp
import Mathlib.Tactic.Positivity
import RadioStream.Proofs.Binary.Sign

/-!
Rounding keeps order. A ratio is rounded at a place that its binary logarithm gives; within a place
a larger ratio has no smaller significand, and the codes of a higher place are behind those of a
lower one. So of two ratios the larger one never has the smaller code.
-/
namespace RadioStream

namespace Binary
variable {f : BinaryFormat} {num den a b c d k : Nat} {place : Int} {x y : ℚ}

/-- A ratio that `k` or less is nearest to, halves being decided for the even neighbour. -/
def RoundsUpTo (x : ℚ) (k : Nat) : Prop := 2 * x ≤ 2 * k + 1 ∧ (k % 2 = 1 → 2 * x ≠ 2 * k + 1)

theorem RoundsUpTo.of_le (rounds : RoundsUpTo y k) (le : x ≤ y) : RoundsUpTo x k := by
  refine ⟨by linarith [rounds.1], fun odd tie => ?_⟩
  exact rounds.2 odd (le_antisymm rounds.1 (by linarith))

theorem roundEven_le_iff (pos : 0 < den) : roundEven num den ≤ k ↔
    2 * num ≤ (2 * k + 1) * den ∧ (k % 2 = 1 → 2 * num ≠ (2 * k + 1) * den) := by
  have split := Nat.div_add_mod num den
  have part := Nat.mod_lt num pos
  rw [roundEven]
  generalize num / den = q at *
  generalize num % den = r at *
  rcases Nat.lt_trichotomy k q with less | rfl | more
  · obtain ⟨j, rfl⟩ := Nat.exists_eq_add_of_lt less
    have : den * (k + j + 1) = den * k + den * j + den := by ring
    have : (2 * k + 1) * den = 2 * (den * k) + den := by ring
    refine iff_of_false (by split <;> omega) (by omega)
  · have : (2 * k + 1) * den = 2 * (den * k) + den := by ring
    split <;> omega
  · obtain ⟨j, rfl⟩ := Nat.exists_eq_add_of_lt more
    have : (2 * (q + j + 1) + 1) * den = 2 * (den * q) + 2 * (den * j) + 3 * den := by ring
    refine iff_of_true (by split <;> omega) (by omega)

theorem roundEven_le_iff_ratio (pos : 0 < den) :
    roundEven num den ≤ k ↔ RoundsUpTo ((num : ℚ) / den) k := by
  have posRat : (0 : ℚ) < den := by exact_mod_cast pos
  have scaled : 2 * ((num : ℚ) / den) = (2 * num : ℚ) / den := by ring
  rw [roundEven_le_iff pos, RoundsUpTo, scaled, div_le_iff₀ posRat, ne_eq, ne_eq,
    div_eq_iff posRat.ne']
  norm_cast

/-- The significand of a ratio that is rounded at a place. -/
def significandAt (num den : Nat) (place : Int) : Nat :=
  if 0 ≤ place then roundEven num (den <<< place.toNat)
  else roundEven (num <<< (-place).toNat) den

theorem significandAt_le_iff (pos : 0 < den) (place : Int) :
    significandAt num den place ≤ k ↔ RoundsUpTo ((num : ℚ) / den * 2 ^ (-place)) k := by
  rw [significandAt]
  split
  · next up =>
    obtain ⟨n, rfl⟩ := Int.eq_ofNat_of_zero_le up
    have shifted : 0 < den <<< n := by
      rw [Nat.shiftLeft_eq]
      positivity
    rw [Int.toNat_natCast, roundEven_le_iff_ratio shifted, Nat.shiftLeft_eq, zpow_neg,
      zpow_natCast, Nat.cast_mul, Nat.cast_pow, Nat.cast_ofNat, ← div_div, div_eq_mul_inv _ (2 ^ n)]
  · next down =>
    obtain ⟨n, eq⟩ := Int.eq_ofNat_of_zero_le (a := -place) (by omega)
    rw [eq, Int.toNat_natCast, roundEven_le_iff_ratio pos, Nat.shiftLeft_eq, zpow_natCast,
      Nat.cast_mul, Nat.cast_pow, Nat.cast_ofNat, div_mul_eq_mul_div]

theorem log_eq {place : Int} (lower : 2 ^ place ≤ x) (upper : x < 2 ^ (place + 1)) :
    Int.log 2 x = place := by
  have pos : 0 < x := lt_of_lt_of_le (by positivity) lower
  have least := (Int.zpow_le_iff_le_log (b := 2) (by decide) pos).mp (by exact_mod_cast lower)
  have most := (Int.lt_zpow_iff_log_lt (b := 2) (by decide) pos).mp (by exact_mod_cast upper)
  omega

theorem log2_bounds (pos : 0 < num) :
    (2 : ℚ) ^ (num.log2 : Int) ≤ num ∧ (num : ℚ) < 2 ^ ((num.log2 : Int) + 1) := by
  have lower := Nat.log2_self_le pos.ne'
  have upper := Nat.lt_log2_self (n := num)
  constructor
  · exact_mod_cast lower
  · exact_mod_cast upper

/-- The comparison by which a place is found, between whole numbers. -/
theorem small_iff (f : BinaryFormat) (num : Nat) (denPos : 0 < den) (guess : Int) :
    (if 0 ≤ guess then num < (den <<< guess.toNat) * f.fieldStep
      else num <<< (-guess).toNat < den * f.fieldStep) ↔
      (num : ℚ) / den < 2 ^ (guess + f.fractionBits) := by
  have posRat : (0 : ℚ) < den := by exact_mod_cast denPos
  rw [BinaryFormat.fieldStep, Nat.one_shiftLeft, zpow_add₀ two_ne_zero, zpow_natCast]
  split
  · next up =>
    obtain ⟨n, rfl⟩ := Int.eq_ofNat_of_zero_le up
    rw [Int.toNat_natCast, Nat.shiftLeft_eq, zpow_natCast, div_lt_iff₀ posRat, mul_comm _ (den : ℚ),
      ← mul_assoc]
    norm_cast
  · next down =>
    obtain ⟨n, eq⟩ := Int.eq_ofNat_of_zero_le (a := -guess) (by omega)
    obtain rfl : guess = -(n : Int) := by omega
    rw [neg_neg, Int.toNat_natCast, Nat.shiftLeft_eq, zpow_neg, zpow_natCast, ← div_eq_inv_mul,
      div_lt_div_iff₀ posRat (by positivity), mul_comm (den : ℕ)]
    norm_cast

/-- A ratio is rounded at the place that gives it one bit more than the fraction has, but at none
below the last place of the subnormal numbers. -/
theorem placeExponent_eq (numPos : 0 < num) (denPos : 0 < den) : placeExponent f num den =
    max (Int.log 2 ((num : ℚ) / den) - f.fractionBits) f.leastExponent := by
  have posRat : (0 : ℚ) < den := by exact_mod_cast denPos
  obtain ⟨numLower, numUpper⟩ := log2_bounds numPos
  obtain ⟨denLower, denUpper⟩ := log2_bounds denPos
  have small := small_iff f num denPos
    ((num.log2 : Int) - den.log2 - f.fractionBits)
  have lower : (2 : ℚ) ^ ((num.log2 : Int) - den.log2 - 1) ≤ (num : ℚ) / den := by
    rw [le_div_iff₀ posRat]
    calc (2 : ℚ) ^ ((num.log2 : Int) - den.log2 - 1) * den
        ≤ 2 ^ ((num.log2 : Int) - den.log2 - 1) * 2 ^ ((den.log2 : Int) + 1) := by gcongr
      _ = 2 ^ (num.log2 : Int) := by
        rw [← zpow_add₀ two_ne_zero]
        congr 1
        omega
      _ ≤ num := numLower
  have upper : (num : ℚ) / den < 2 ^ ((num.log2 : Int) - den.log2 + 1) := by
    rw [div_lt_iff₀ posRat]
    calc (num : ℚ) < 2 ^ ((num.log2 : Int) + 1) := numUpper
      _ = 2 ^ ((num.log2 : Int) - den.log2 + 1) * 2 ^ (den.log2 : Int) := by
        rw [← zpow_add₀ two_ne_zero]
        congr 1
        omega
      _ ≤ 2 ^ ((num.log2 : Int) - den.log2 + 1) * den := by gcongr
  rw [placeExponent]
  congr 1
  simp only [small, Int.sub_add_cancel]
  split
  · next less =>
    rw [log_eq lower (by rwa [Int.sub_add_cancel])]
    omega
  · next more => rw [log_eq (not_lt.mp more) upper]

/-- A significand takes at most one bit more than the fraction, or is the next power of two. -/
theorem significandAt_le (numPos : 0 < num) (denPos : 0 < den) :
    significandAt num den (placeExponent f num den) ≤ 2 * f.fieldStep := by
  rw [significandAt_le_iff denPos]
  have place := placeExponent_eq (f := f) numPos denPos
  have upper := Int.lt_zpow_succ_log_self (R := ℚ) (b := 2) (by decide) ((num : ℚ) / den)
  have bound : (num : ℚ) / den * 2 ^ (-placeExponent f num den) ≤ (2 * f.fieldStep : Nat) := by
    calc (num : ℚ) / den * 2 ^ (-placeExponent f num den)
        ≤ 2 ^ (Int.log 2 ((num : ℚ) / den) + 1) * 2 ^ (-placeExponent f num den) := by
          gcongr
          exact_mod_cast upper.le
      _ = 2 ^ (Int.log 2 ((num : ℚ) / den) + 1 - placeExponent f num den) := by
          rw [← zpow_add₀ two_ne_zero, Int.sub_eq_add_neg]
      _ ≤ 2 ^ ((1 + f.fractionBits : Nat) : Int) :=
          zpow_le_zpow_right₀ one_le_two (by omega)
      _ = (2 * f.fieldStep : Nat) := by
          rw [zpow_natCast, BinaryFormat.fieldStep, Nat.one_shiftLeft, pow_add]
          norm_cast
  exact ⟨by linarith, by omega⟩

/-- Above the subnormal numbers a significand has all its bits. -/
theorem le_significandAt (numPos : 0 < num) (denPos : 0 < den)
    (normal : f.leastExponent < placeExponent f num den) :
    f.fieldStep ≤ significandAt num den (placeExponent f num den) := by
  have place := placeExponent_eq (f := f) numPos denPos
  have posRatio : (0 : ℚ) < (num : ℚ) / den := by positivity
  have lower := Int.zpow_log_le_self (b := 2) (by decide) posRatio
  have some := fieldStep_pos f
  by_contra less
  have few : significandAt num den (placeExponent f num den) ≤ f.fieldStep - 1 := by omega
  rw [significandAt_le_iff denPos] at few
  have bound : (f.fieldStep : ℚ) ≤ (num : ℚ) / den * 2 ^ (-placeExponent f num den) := by
    calc (f.fieldStep : ℚ) = 2 ^ (f.fractionBits : Int) := by
          rw [zpow_natCast, BinaryFormat.fieldStep, Nat.one_shiftLeft]
          norm_cast
      _ = 2 ^ Int.log 2 ((num : ℚ) / den) * 2 ^ (-placeExponent f num den) := by
          rw [← zpow_add₀ two_ne_zero]
          congr 1
          omega
      _ ≤ _ := by
          gcongr
          exact_mod_cast lower
  have cast : ((f.fieldStep - 1 : Nat) : ℚ) = f.fieldStep - 1 := by
    rw [Nat.cast_sub some, Nat.cast_one]
  have := few.1
  rw [cast] at this
  linarith

/-- The code of a ratio, if it is not past the largest number. -/
def codeOf (f : BinaryFormat) (num den : Nat) : Nat :=
  significandAt num den (placeExponent f num den) +
    (placeExponent f num den - f.leastExponent).toNat * f.fieldStep

theorem codeOf_mono (aPos : 0 < a) (bPos : 0 < b) (cPos : 0 < c) (dPos : 0 < d)
    (le : (a : ℚ) / b ≤ c / d) : codeOf f a b ≤ codeOf f c d := by
  have posRatio : (0 : ℚ) < (a : ℚ) / b := by positivity
  have placeA := placeExponent_eq (f := f) aPos bPos
  have placeC := placeExponent_eq (f := f) cPos dPos
  have logs := Int.log_mono_right (b := 2) posRatio le
  rw [codeOf, codeOf]
  rcases Int.lt_or_eq_of_le (show placeExponent f a b ≤ placeExponent f c d by omega) with
    lower | same
  · have few := significandAt_le (f := f) aPos bPos
    have many := le_significandAt (f := f) cPos dPos (by omega)
    have steps : (placeExponent f a b - f.leastExponent).toNat * f.fieldStep + f.fieldStep ≤
        (placeExponent f c d - f.leastExponent).toNat * f.fieldStep := by
      rw [← Nat.succ_mul]
      exact Nat.mul_le_mul_right _ (by omega)
    omega
  · rw [same]
    apply Nat.add_le_add_right
    rw [significandAt_le_iff bPos]
    have rounds := (significandAt_le_iff (k := significandAt c d (placeExponent f c d)) dPos _).mp
      (Nat.le_refl _)
    exact rounds.of_le (by gcongr)

theorem infinityCode_lt (f : BinaryFormat) : f.infinityCode < f.signPlace := by
  rw [BinaryFormat.infinityCode, BinaryFormat.signPlace, BinaryFormat.fieldStep,
    Nat.one_shiftLeft, Nat.one_shiftLeft, Nat.one_shiftLeft, pow_add]
  have := Nat.two_pow_pos f.exponentBits
  exact Nat.mul_lt_mul_of_pos_right (by omega) (Nat.two_pow_pos _)

/-- A magnitude that leaves the sign alone is read back as it was written. -/
theorem ofCode_spec {magnitude : Nat} (small : magnitude < f.signPlace) :
    (ofCode false magnitude : Binary f).magnitudeCode = magnitude ∧
      (ofCode false magnitude : Binary f).isNegative = false := by
  have wide : magnitude < 2 ^ f.width := by
    rw [BinaryFormat.signPlace, Nat.one_shiftLeft] at small
    exact Nat.lt_of_lt_of_le small (Nat.pow_le_pow_right (by decide) (by simp))
  have bits : (ofCode false magnitude : Binary f).bits.toNat = magnitude := by
    rw [ofCode, if_neg Bool.false_ne_true, BitVec.toNat_ofNat, Nat.mod_eq_of_lt wide]
  constructor
  · rw [magnitudeCode, bits, Nat.mod_eq_of_lt small]
  · rw [isNegative, bits]
    exact decide_eq_false (Nat.not_le.mpr small)

/-- The code that a ratio is rounded to. -/
def ratioCode (f : BinaryFormat) (num den : Nat) : Nat :=
  if num = 0 then 0 else min (codeOf f num den) f.infinityCode

theorem ofRatio_eq (num den : Nat) :
    (ofRatio false num den : Binary f) = ofCode false (ratioCode f num den) := by
  rw [ofRatio, ratioCode]
  split <;> rfl

theorem ratioCode_le (f : BinaryFormat) (num den : Nat) : ratioCode f num den ≤ f.infinityCode := by
  rw [ratioCode]
  split
  · exact Nat.zero_le _
  · exact Nat.min_le_right _ _

theorem ofRatio_spec (num den : Nat) :
    (ofRatio false num den : Binary f).magnitudeCode = ratioCode f num den ∧
      (ofRatio false num den : Binary f).isNegative = false := by
  rw [ofRatio_eq]
  exact ofCode_spec (Nat.lt_of_le_of_lt (ratioCode_le f num den) (infinityCode_lt f))

/-- The larger ratio never has the smaller code. -/
theorem ratioCode_mono (bPos : 0 < b) (dPos : 0 < d) (le : (a : ℚ) / b ≤ c / d) :
    ratioCode f a b ≤ ratioCode f c d := by
  have bPosRat : (0 : ℚ) < b := by exact_mod_cast bPos
  rw [ratioCode, ratioCode]
  split
  · exact Nat.zero_le _
  · next some =>
    have aPos : 0 < a := Nat.pos_of_ne_zero some
    have cPos : 0 < c := by
      apply Nat.pos_of_ne_zero
      rintro rfl
      have : (0 : ℚ) < (a : ℚ) / b := by positivity
      rw [Nat.cast_zero, zero_div] at le
      linarith
    rw [if_neg cPos.ne']
    have codes := codeOf_mono (f := f) aPos bPos cPos dPos le
    omega

/-- What a code below infinity stands for. -/
def codeValue (f : BinaryFormat) (code : Nat) : ℚ :=
  if code / f.fieldStep = 0 then code * 2 ^ f.leastExponent
  else (code % f.fieldStep + f.fieldStep : Nat) *
    2 ^ (f.leastExponent + (code / f.fieldStep - 1 : Nat))

theorem decode_finite {v : Binary f} (finite : v.isFinite = true) :
    ∃ significand exponent, v.decode = .finite v.isNegative significand exponent ∧
      (significand : ℚ) * 2 ^ exponent = codeValue f v.magnitudeCode := by
  have below : v.magnitudeCode < f.infinityCode := of_decide_eq_true finite
  have number : v.isNaN = false := decide_eq_false (by omega)
  rw [decode, codeValue, number, if_neg Bool.false_ne_true, if_neg below.ne]
  split
  · exact ⟨_, _, rfl, rfl⟩
  · next field =>
    refine ⟨_, _, rfl, ?_⟩
    rw [Nat.cast_sub (Nat.pos_of_ne_zero field)]
    rfl

/-- The larger code stands for the larger number. -/
theorem codeValue_mono (f : BinaryFormat) : Monotone (codeValue f) := by
  refine monotone_nat_of_le_succ fun code => ?_
  have some := fieldStep_pos f
  have power : (0 : ℚ) < 2 ^ f.leastExponent := by positivity
  have parts := Nat.mod_add_div code f.fieldStep
  have bound := Nat.mod_lt code some
  rcases Nat.lt_or_eq_of_le (Nat.succ_le_of_lt bound) with inside | last
  · -- The next code has the same field.
    obtain ⟨field, fraction⟩ := (Nat.div_mod_unique some).mpr
      ⟨show code % f.fieldStep + 1 + f.fieldStep * (code / f.fieldStep) = code + 1 by omega, inside⟩
    rw [codeValue, codeValue, field, fraction]
    split
    · gcongr
      omega
    · gcongr
      omega
  · -- The next code is the first one of the next field.
    obtain ⟨field, fraction⟩ := (Nat.div_mod_unique some).mpr
      ⟨show 0 + f.fieldStep * (code / f.fieldStep + 1) = code + 1 by rw [Nat.mul_succ]; omega, some⟩
    rw [codeValue, codeValue, field, fraction, if_neg (Nat.succ_ne_zero _), Nat.zero_add,
      Nat.add_sub_cancel]
    split
    · next zero =>
      rw [zero, Nat.mul_zero, Nat.add_zero] at parts
      rw [zero, Nat.cast_zero, add_zero]
      gcongr
      omega
    · next normal =>
      have twice : (2 : ℚ) ^ (f.leastExponent + (code / f.fieldStep : Nat)) =
          2 * 2 ^ (f.leastExponent + (code / f.fieldStep - 1 : Nat)) := by
        obtain ⟨field, eq⟩ := Nat.exists_eq_succ_of_ne_zero normal
        rw [← zpow_one_add₀ two_ne_zero, eq, Nat.succ_sub_one, Nat.succ_eq_add_one, Nat.cast_add]
        congr 1
        ring
      have few : ((code % f.fieldStep + f.fieldStep : Nat) : ℚ) ≤ f.fieldStep * 2 := by
        norm_cast
        omega
      rw [twice, ← mul_assoc]
      gcongr

theorem codeValue_pos {code : Nat} (some : 0 < code) : 0 < codeValue f code := by
  have step := fieldStep_pos f
  rw [codeValue]
  split <;> positivity

/-- The quotient of two numbers is rounded from their exact ratio. -/
theorem div_eq_ofRatio {u v : Binary f} (uFinite : u.isFinite = true) (vFinite : v.isFinite = true)
    (uSign : u.isNegative = false) (vSign : v.isNegative = false) (some : 0 < v.magnitudeCode) :
    ∃ num den, 0 < den ∧ u.div v = ofRatio false num den ∧
      (num : ℚ) / den = codeValue f u.magnitudeCode / codeValue f v.magnitudeCode := by
  obtain ⟨m, d, uDecode, uValue⟩ := decode_finite uFinite
  obtain ⟨n, e, vDecode, vValue⟩ := decode_finite vFinite
  have positive := codeValue_pos (f := f) some
  have nPos : 0 < n := by
    apply Nat.pos_of_ne_zero
    rintro rfl
    rw [Nat.cast_zero, zero_mul] at vValue
    linarith
  have nRat : (n : ℚ) ≠ 0 := by exact_mod_cast nPos.ne'
  rw [← uValue, ← vValue, div, uDecode, vDecode, uSign, vSign]
  simp only [nPos.ne', if_false, bne_self_eq_false]
  split
  · next le =>
    obtain ⟨k, rfl⟩ := Int.le.dest le
    refine ⟨_, _, nPos, rfl, ?_⟩
    rw [add_sub_cancel_left, Int.toNat_natCast, Nat.shiftLeft_eq, zpow_add₀ two_ne_zero,
      zpow_natCast]
    push_cast
    field_simp
  · next less =>
    obtain ⟨k, rfl⟩ := Int.le.dest (Int.le_of_lt (Int.not_le.mp less))
    refine ⟨_, n <<< k, ?_, by rw [add_sub_cancel_left, Int.toNat_natCast], ?_⟩
    · rw [Nat.shiftLeft_eq]
      positivity
    · rw [Nat.shiftLeft_eq, zpow_add₀ two_ne_zero, zpow_natCast]
      push_cast
      field_simp

theorem ofNat_mono {m n : Nat} (le : m ≤ n) :
    (ofNat m : Binary f).magnitudeCode ≤ (ofNat n : Binary f).magnitudeCode := by
  rw [ofNat, ofNat, (ofRatio_spec m 1).1, (ofRatio_spec n 1).1]
  refine ratioCode_mono (by decide) (by decide) ?_
  gcongr

/-- A count of a machine word is a finite single number. -/
theorem ofNat_finite {n : Nat} (small : n < 0x10000000000000000) :
    (ofNat n : Single).isFinite = true := by
  have most := ofNat_mono (f := .single) (Nat.le_of_lt small)
  have finite : (ofNat 0x10000000000000000 : Single).magnitudeCode <
      BinaryFormat.single.infinityCode := by decide
  exact decide_eq_true (Nat.lt_of_le_of_lt most finite)

theorem ofNat_pos {n : Nat} (some : 0 < n) : 0 < (ofNat n : Single).magnitudeCode :=
  Nat.lt_of_lt_of_le (by decide) (ofNat_mono (f := .single) some)

/-- Numbers from zero to one, by sign and code. -/
structure InUnit (x : Single) : Prop where
  sign : x.isNegative = false
  code_le : x.magnitudeCode ≤ (ofNat 1 : Single).magnitudeCode

theorem InUnit.position?_eq {x : Single} (unit : x.InUnit) :
    x.position? = some (x.magnitudeCode : Int) := by
  have below : (ofNat 1 : Single).magnitudeCode ≤ BinaryFormat.single.infinityCode := by decide
  have number : x.isNaN = false :=
    decide_eq_false (Nat.not_lt.mpr (Nat.le_trans unit.code_le below))
  rw [position?, number, unit.sign, if_neg Bool.false_ne_true, if_neg Bool.false_ne_true]

/-- Such a number is neither below zero nor above one. -/
theorem InUnit.order {x : Single} (unit : x.InUnit) :
    x.isNaN = false ∧ x.below zero = false ∧ (ofNat 1 : Single).below x = false := by
  have zeroAt : (zero : Single).position? = some 0 := by decide
  have oneAt : (ofNat 1 : Single).position? =
      some ((ofNat 1 : Single).magnitudeCode : Int) := by decide
  have here := unit.position?_eq
  have code := unit.code_le
  refine ⟨?_, ?_, ?_⟩
  · rw [position?] at here
    split at here
    · contradiction
    · exact Bool.eq_false_iff.mpr ‹_›
  · simp only [below, here, zeroAt, decide_eq_false_iff_not]
    omega
  · simp only [below, here, oneAt, decide_eq_false_iff_not]
    omega

theorem InUnit.restrict_eq {x : Single} (unit : x.InUnit) : x.restrict zero (ofNat 1) = x := by
  obtain ⟨_, low, high⟩ := unit.order
  rw [restrict, low, high, if_neg Bool.false_ne_true, if_neg Bool.false_ne_true]

theorem codeValue_ofNat_one : codeValue .single (ofNat 1 : Single).magnitudeCode = 1 := by
  have code : (ofNat 1 : Single).magnitudeCode = 0x3f800000 := by decide
  have step : BinaryFormat.single.fieldStep = 0x800000 := by decide
  have least : BinaryFormat.single.leastExponent = -149 := by decide
  rw [code, codeValue, step, least]
  norm_num

theorem codeValue_ofNat_bound :
    codeValue .single (ofNat 0x10000000000000000 : Single).magnitudeCode =
      (0x10000000000000000 : Nat) := by
  have code : (ofNat 0x10000000000000000 : Single).magnitudeCode = 0x5f800000 := by decide
  have step : BinaryFormat.single.fieldStep = 0x800000 := by decide
  have least : BinaryFormat.single.leastExponent = -149 := by decide
  rw [code, codeValue, step, least]
  norm_num

section quotient
variable {part whole : Nat} (le : part ≤ whole) (some : 0 < whole)
  (small : whole < 0x10000000000000000)
include le some small

theorem quotient_eq_ofRatio :
    ∃ num den, 0 < den ∧ (ofNat part : Single).div (ofNat whole) = ofRatio false num den ∧
      (num : ℚ) / den = codeValue .single (ofNat part : Single).magnitudeCode /
        codeValue .single (ofNat whole : Single).magnitudeCode :=
  div_eq_ofRatio (ofNat_finite (Nat.lt_of_le_of_lt le small)) (ofNat_finite small)
    (ofRatio_spec part 1).2 (ofRatio_spec whole 1).2 (ofNat_pos some)

/-- The quotient of a count and a larger one lies between zero and one. -/
theorem quotient_inUnit : ((ofNat part : Single).div (ofNat whole)).InUnit := by
  obtain ⟨num, den, denPos, quotient, ratio⟩ := quotient_eq_ofRatio le some small
  obtain ⟨code, sign⟩ := ofRatio_spec (f := .single) num den
  have one : (ofNat 1 : Single).magnitudeCode = ratioCode .single 1 1 := (ofRatio_spec 1 1).1
  have upper : (num : ℚ) / den ≤ (1 : Nat) / (1 : Nat) := by
    rw [ratio, Nat.cast_one, div_one, div_le_one (codeValue_pos (ofNat_pos some))]
    exact codeValue_mono _ (ofNat_mono le)
  constructor
  · rw [quotient, sign]
  · rw [quotient, code, one]
    exact ratioCode_mono denPos (by decide) upper

/-- It is zero for no count but zero. -/
theorem quotient_eq_zero : (ofNat part : Single).div (ofNat whole) = zero ↔ part = 0 := by
  obtain ⟨num, den, denPos, quotient, ratio⟩ := quotient_eq_ofRatio le some small
  constructor
  · intro none
    -- The least ratio of two words, one to their bound, is still far from zero.
    by_contra filled
    have least : ((1 : Nat) : ℚ) / (0x10000000000000000 : Nat) ≤ num / den := by
      rw [ratio, ← codeValue_ofNat_bound, Nat.cast_one, ← codeValue_ofNat_one]
      exact div_le_div₀ (codeValue_pos (ofNat_pos (Nat.pos_of_ne_zero filled))).le
        (codeValue_mono _ (ofNat_mono (Nat.pos_of_ne_zero filled)))
        (codeValue_pos (ofNat_pos some)) (codeValue_mono _ (ofNat_mono (Nat.le_of_lt small)))
    have codes := ratioCode_mono (f := .single) (by decide) denPos least
    have nonzero : 0 < ratioCode .single 1 0x10000000000000000 := by decide
    have gone : ratioCode .single num den = 0 := by
      rw [← (ofRatio_spec (f := .single) num den).1, ← quotient]
      exact (congrArg magnitudeCode none).trans (by decide)
    omega
  · rintro rfl
    have nothing : codeValue .single (ofNat 0 : Single).magnitudeCode = 0 := by
      have code : (ofNat 0 : Single).magnitudeCode = 0 := by decide
      rw [code]
      norm_num [codeValue]
    have denRat : (den : ℚ) ≠ 0 := by exact_mod_cast denPos.ne'
    rw [nothing, zero_div, div_eq_zero_iff, or_iff_left denRat, Nat.cast_eq_zero] at ratio
    rw [quotient, ratio]
    rfl

end quotient

/-- The quotient of equal counts is one. -/
theorem quotient_self {whole : Nat} (some : 0 < whole) (small : whole < 0x10000000000000000) :
    (ofNat whole : Single).div (ofNat whole) = ofNat 1 := by
  obtain ⟨num, den, denPos, quotient, ratio⟩ := quotient_eq_ofRatio (Nat.le_refl whole) some small
  have same : (num : ℚ) / den = (1 : Nat) / (1 : Nat) := by
    rw [ratio, Nat.cast_one, div_one, div_self (codeValue_pos (ofNat_pos some)).ne']
  have codes : ratioCode .single num den = ratioCode .single 1 1 :=
    Nat.le_antisymm (ratioCode_mono denPos (by decide) same.le)
      (ratioCode_mono (by decide) denPos same.ge)
  rw [quotient, ofRatio_eq, codes, ← ofRatio_eq]
  rfl

end Binary
end RadioStream
