import RadioStream.Binary.Arithmetic

/-!
Number literals and their values. A literal without fraction and exponent is an
integer when it fits 64 bits. Any other literal is read in two roundings: the
digits that fit 64 bits become a double, which is then multiplied or divided by a
rounded power of ten. The result may therefore miss the nearest double by a place.
-/
namespace RadioStream

/-- A literal by its digits. The exponent holds whether it is negative, and its digits. -/
structure Numeral where
  negative : Bool
  whole : List Nat
  fraction : Option (List Nat)
  exponent : Option (Bool × List Nat)

/-- The value a literal is read as, before a reader asks for a certain type. -/
inductive NumeralValue where
  | natural (n : Nat)
  | negative (n : Nat)
  | real (x : Double)

namespace Numeral

/-- Reads digits onto `acc` up to the first one that would pass 64 bits, and returns the rest. -/
def gather (acc : Nat) : List Nat → Nat × List Nat
  | [] => (acc, [])
  | d :: ds =>
    if acc * 10 + d < 0x10000000000000000 then gather (acc * 10 + d) ds else (acc, d :: ds)

def digitsToNat (ds : List Nat) : Nat := ds.foldl (fun n d => n * 10 + d) 0

def tenTo (n : Nat) : Double := Binary.ofNat (Nat.pow 10 n)

/-- Divides by `10 ^ n`, in steps of the largest power of ten that is a double. -/
def shrink (x : Double) (n : Nat) : Double :=
  if _small : n ≤ 308 then x.div (tenTo n)
  else if x.magnitudeCode = 0 then x
  else shrink (x.div (tenTo 308)) (n - 308)
termination_by n

/-- The magnitude `significand * 10 ^ power`, none when it passes the largest double. -/
def scale? (significand : Nat) (power : Int) : Option Double :=
  let x : Double := Binary.ofNat significand
  if 0 ≤ power then
    if significand = 0 then some x
    else if power ≤ 308 then
      let y := x.mul (tenTo power.toNat)
      if y.isFinite then some y else none
    else none
  else some (shrink x (-power).toNat)

def value? (n : Numeral) : Option NumeralValue :=
  let (whole, unread) := gather 0 n.whole
  let signed (x : Double) : NumeralValue := .real (if n.negative then x.negate else x)
  match n.fraction, n.exponent, unread with
  | none, none, [] =>
    if !n.negative then some (.natural whole)
    else if whole = 0 ∨ 0x8000000000000000 < whole then some (signed (Binary.ofNat whole))
    else some (.negative whole)
  | fraction, exponent, unread =>
    let digits := fraction.getD []
    let (significand, dropped) := gather whole digits
    let power : Int := unread.length - (digits.length - dropped.length : Nat)
    match exponent with
    | none => (scale? significand power).map signed
    | some (negative, ds) =>
      let e := digitsToNat ds
      if 0x80000000 ≤ e then
        if significand = 0 ∨ negative then some (signed Binary.zero) else none
      else (scale? significand (power + (if negative then -(e : Int) else e))).map signed

def ofInt (n : Int) : Numeral :=
  ⟨n < 0, (Nat.toDigits 10 n.natAbs).map (fun c => c.toNat - '0'.toNat), none, none⟩

end Numeral

/-- A literal read up to some character, digits newest first. A missing exponent sign is `none`. -/
structure NumeralScan where
  negative : Bool
  whole : List Nat
  fraction : Option (List Nat)
  exponent : Option (Option Bool × List Nat)

namespace NumeralScan

def digit? (c : Char) : Option Nat :=
  if '0' ≤ c ∧ c ≤ '9' then some (c.toNat - '0'.toNat) else none

def start? (c : Char) : Option NumeralScan :=
  if c = '-' then some ⟨true, [], none, none⟩
  else (digit? c).map fun d => ⟨false, [d], none, none⟩

/-- The literal with one more character, if that still begins a literal. -/
def extend? (s : NumeralScan) (c : Char) : Option NumeralScan :=
  match s.exponent, s.fraction with
  | some (sign, ds), _ =>
    match digit? c with
    | some d => some { s with exponent := some (sign, d :: ds) }
    | none =>
      if (c = '+' ∨ c = '-') ∧ sign = none ∧ ds = [] then
        some { s with exponent := some (some (c = '-'), []) }
      else none
  | none, some ds =>
    match digit? c with
    | some d => some { s with fraction := some (d :: ds) }
    | none => if (c = 'e' ∨ c = 'E') ∧ ds ≠ [] then some { s with exponent := some (none, []) }
      else none
  | none, none =>
    match digit? c with
    | some d => if s.whole = [0] then none else some { s with whole := d :: s.whole }
    | none =>
      if s.whole = [] then none
      else if c = '.' then some { s with fraction := some [] }
      else if c = 'e' ∨ c = 'E' then some { s with exponent := some (none, []) }
      else none

def finish? (s : NumeralScan) : Option Numeral :=
  if s.whole = [] ∨ s.fraction = some [] ∨ s.exponent.any (fun e => e.2 = []) then none
  else some
    { negative := s.negative
      whole := s.whole.reverse
      fraction := s.fraction.map List.reverse
      exponent := s.exponent.map fun e => (e.1.getD false, e.2.reverse) }

end NumeralScan
end RadioStream
