/-!
IEEE 754 binary interchange formats as bit patterns. A pattern is read as a sign
with a significand and a power of two, and an exact ratio is written as the
nearest pattern, ties to the even one. No hardware arithmetic is used, so every
bit of a result follows from integer arithmetic, and not-a-number payloads are
kept apart.
-/
namespace RadioStream

/-- Widths of the two magnitude fields of a format. -/
structure BinaryFormat where
  fractionBits : Nat
  exponentBits : Nat
deriving DecidableEq

namespace BinaryFormat

@[reducible] def single : BinaryFormat := ⟨23, 8⟩
@[reducible] def double : BinaryFormat := ⟨52, 11⟩

@[reducible] def width (f : BinaryFormat) : Nat := 1 + f.exponentBits + f.fractionBits

/-- One step of the exponent field, which is also the hidden bit's weight. -/
def fieldStep (f : BinaryFormat) : Nat := 1 <<< f.fractionBits

def signPlace (f : BinaryFormat) : Nat := 1 <<< (f.exponentBits + f.fractionBits)

/-- The magnitude code of infinity; larger codes are not numbers. -/
def infinityCode (f : BinaryFormat) : Nat := ((1 <<< f.exponentBits) - 1) * f.fieldStep

/-- The power of two of a subnormal's last place. -/
def leastExponent (f : BinaryFormat) : Int :=
  2 - (1 <<< (f.exponentBits - 1) : Nat) - f.fractionBits

end BinaryFormat

structure Binary (f : BinaryFormat) where
  bits : BitVec f.width
deriving DecidableEq

abbrev Single := Binary .single
abbrev Double := Binary .double

/-- What a pattern stands for. A finite datum is `significand * 2 ^ exponent`. -/
inductive BinaryDatum where
  | notANumber
  | infinite (negative : Bool)
  | finite (negative : Bool) (significand : Nat) (exponent : Int)
deriving DecidableEq

namespace Binary
variable {f : BinaryFormat}

def ofCode (negative : Bool) (magnitude : Nat) : Binary f :=
  ⟨BitVec.ofNat _ (if negative then f.signPlace + magnitude else magnitude)⟩

def isNegative (x : Binary f) : Bool := f.signPlace ≤ x.bits.toNat

def magnitudeCode (x : Binary f) : Nat := x.bits.toNat % f.signPlace

def isNaN (x : Binary f) : Bool := f.infinityCode < x.magnitudeCode

def isFinite (x : Binary f) : Bool := x.magnitudeCode < f.infinityCode

def zero : Binary f := ofCode false 0

def infinity (negative : Bool) : Binary f := ofCode negative f.infinityCode

def decode (x : Binary f) : BinaryDatum :=
  let code := x.magnitudeCode
  let field := code / f.fieldStep
  if x.isNaN then .notANumber
  else if code = f.infinityCode then .infinite x.isNegative
  else if field = 0 then .finite x.isNegative code f.leastExponent
  else .finite x.isNegative (code % f.fieldStep + f.fieldStep) (f.leastExponent + (field - 1))

/-- `num / den` rounded to a whole number, a half to the even neighbour. -/
def roundEven (num den : Nat) : Nat :=
  let q := num / den
  let r := num % den
  if den < 2 * r ∨ den = 2 * r ∧ q % 2 = 1 then q + 1 else q

/-- The power of two of the last place that `num / den` is rounded at. -/
def placeExponent (f : BinaryFormat) (num den : Nat) : Int :=
  let guess : Int := (num.log2 : Int) - den.log2 - f.fractionBits
  let small := if 0 ≤ guess then num < (den <<< guess.toNat) * f.fieldStep
    else num <<< (-guess).toNat < den * f.fieldStep
  max (if small then guess - 1 else guess) f.leastExponent

/-- The pattern nearest to `num / den`, infinity when that is past the largest one. -/
def ofRatio (negative : Bool) (num den : Nat) : Binary f :=
  if num = 0 then ofCode negative 0
  else
    let place := placeExponent f num den
    let scaled := if 0 ≤ place then roundEven num (den <<< place.toNat)
      else roundEven (num <<< (-place).toNat) den
    ofCode negative (min (scaled + (place - f.leastExponent).toNat * f.fieldStep) f.infinityCode)

/-- The pattern nearest to `significand * 2 ^ exponent`. -/
def ofScaled (negative : Bool) (significand : Nat) (exponent : Int) : Binary f :=
  if 0 ≤ exponent then ofRatio negative (significand <<< exponent.toNat) 1
  else ofRatio negative significand (1 <<< (-exponent).toNat)

def ofNat (n : Nat) : Binary f := ofRatio false n 1

def ofInt (n : Int) : Binary f := ofRatio (decide (n < 0)) n.natAbs 1

end Binary
end RadioStream
