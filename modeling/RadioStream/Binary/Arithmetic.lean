import RadioStream.Binary.Basic

/-!
Correctly rounded arithmetic on binary patterns. An operand that is not a number
passes through with its payload and its quiet bit set, the first one before the
second; an invalid operation gives the negative quiet pattern.
-/
namespace RadioStream.Binary
variable {f g : BinaryFormat}

def negate (x : Binary f) : Binary f := ofCode (!x.isNegative) x.magnitudeCode

/-- Sets the quiet bit, the highest bit of the fraction. -/
def quieted (x : Binary f) : Binary f :=
  ⟨x.bits ||| BitVec.ofNat _ (1 <<< (f.fractionBits - 1))⟩

/-- The result of an operation without a value. -/
def invalid : Binary f := ofCode true (f.infinityCode + 1 <<< (f.fractionBits - 1))

def mul (x y : Binary f) : Binary f :=
  match x.decode, y.decode with
  | .notANumber, _ => x.quieted
  | _, .notANumber => y.quieted
  | .infinite s, .infinite t => infinity (s != t)
  | .infinite s, .finite t m _ => if m = 0 then invalid else infinity (s != t)
  | .finite s m _, .infinite t => if m = 0 then invalid else infinity (s != t)
  | .finite s m d, .finite t n e => ofScaled (s != t) (m * n) (d + e)

def div (x y : Binary f) : Binary f :=
  match x.decode, y.decode with
  | .notANumber, _ => x.quieted
  | _, .notANumber => y.quieted
  | .infinite _, .infinite _ => invalid
  | .infinite s, .finite t _ _ => infinity (s != t)
  | .finite s _ _, .infinite t => ofCode (s != t) 0
  | .finite s m d, .finite t n e =>
    if n = 0 then (if m = 0 then invalid else infinity (s != t))
    else if e ≤ d then ofRatio (s != t) (m <<< (d - e).toNat) n
    else ofRatio (s != t) m (n <<< (e - d).toNat)

/-- The same value in another format, rounded when the format is narrower. -/
def convert (x : Binary f) : Binary g :=
  match x.decode with
  | .notANumber =>
    let payload := x.magnitudeCode % f.fieldStep
    let kept := if f.fractionBits ≤ g.fractionBits
      then payload <<< (g.fractionBits - f.fractionBits)
      else payload >>> (f.fractionBits - g.fractionBits)
    quieted (ofCode x.isNegative (g.infinityCode + kept))
  | .infinite s => infinity s
  | .finite s m e => ofScaled s m e

/-- Position on the number line, the same for both zeros. -/
def position? (x : Binary f) : Option Int :=
  if x.isNaN then none
  else some (if x.isNegative then -(x.magnitudeCode : Int) else x.magnitudeCode)

/-- Numeric order; what is not a number is below and above nothing. -/
def below (x y : Binary f) : Bool :=
  match x.position?, y.position? with
  | some a, some b => a < b
  | _, _ => false

/-- Numeric equality, under which the zeros agree and what is not a number differs from itself. -/
def same (x y : Binary f) : Bool :=
  match x.position?, y.position? with
  | some a, some b => a == b
  | _, _ => false

/-- Restricts `x` to the interval from `low` to `high`. -/
def restrict (x low high : Binary f) : Binary f :=
  if x.below low then low else if high.below x then high else x

/-- The nearest integer, a half away from zero, for a finite number. -/
def nearestInt? (x : Binary f) : Option Int :=
  match x.decode with
  | .finite s m e =>
    let n := if 0 ≤ e then m <<< e.toNat
      else (m + 1 <<< ((-e).toNat - 1)) >>> (-e).toNat
    some (if s then -(n : Int) else n)
  | _ => none

end RadioStream.Binary
