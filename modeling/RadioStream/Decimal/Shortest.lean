import RadioStream.Binary.Basic

/-!
The shortest decimal that reads back as a given binary number. Decimals with one
power of ten form a grid; the coarsest grid with a point in the interval of reals
that round to the number has the fewest digits, and of its points next to the
number the nearer is taken. Two layouts turn the digits into text.
-/
namespace RadioStream

/-- The decimal `coefficient * 10 ^ power`. -/
structure Decimal where
  coefficient : Nat
  power : Int
deriving DecidableEq

/-- Which of two equally near decimals is taken. -/
inductive DecimalTie where
  | upper
  | even
deriving DecidableEq

namespace Decimal

/-- Reals that round to `significand * 2 ^ exponent`, measured in quarters of its last place. -/
structure Interval where
  low : Nat
  centre : Nat
  high : Nat
  closed : Bool
  exponent : Int

/-- The gap below a power of two is half as wide as the one above it. -/
def Interval.around (f : BinaryFormat) (significand : Nat) (exponent : Int) : Interval where
  low := 4 * significand -
    (if significand = f.fieldStep ∧ f.leastExponent < exponent then 1 else 2)
  centre := 4 * significand
  high := 4 * significand + 2
  closed := significand % 2 == 0
  exponent := exponent - 2

/-- The point of the grid of `10 ^ power` in the interval that is nearest to its centre. -/
def Interval.point? (i : Interval) (tie : DecimalTie) (power : Int) : Option Nat :=
  let unit := Nat.pow 10 power.toNat <<< (-i.exponent).toNat
  let quarter := Nat.pow 10 (-power).toNat <<< i.exponent.toNat
  let inside (c : Nat) : Bool :=
    if i.closed then i.low * quarter ≤ c * unit ∧ c * unit ≤ i.high * quarter
    else i.low * quarter < c * unit ∧ c * unit < i.high * quarter
  let below := i.centre * quarter / unit
  let down := i.centre * quarter - below * unit
  let up := (below + 1) * unit - i.centre * quarter
  if inside below then
    if inside (below + 1) && (up < down || up == down && (tie == .upper || below % 2 == 1))
    then some (below + 1) else some below
  else if inside (below + 1) then some (below + 1) else none

/-- Searches ever finer grids, at most `steps` of them. -/
def Interval.search (i : Interval) (tie : DecimalTie) : Nat → Int → Decimal
  | 0, power => ⟨0, power⟩
  | steps + 1, power =>
    match i.point? tie power with
    | some c => ⟨c, power⟩
    | none => i.search tie steps (power - 1)

/-- The shortest decimal for `significand * 2 ^ exponent`. The search starts above the number,
since `2 ^ n` is below `10 ^ (n / 3 + 1)`, and for a negative `n` below `10 ^ (3 * n / 10 + 1)`. -/
def shortest (f : BinaryFormat) (tie : DecimalTie) (significand : Nat) (exponent : Int) :
    Decimal :=
  if significand = 0 then ⟨0, 0⟩
  else
    let bits := exponent + significand.log2 + 1
    let start := if 0 ≤ bits then bits / 3 + 1 else 3 * bits / 10 + 1
    (Interval.around f significand exponent).search tie 80 start

def digits (d : Decimal) : List Char := Nat.toDigits 10 d.coefficient

/-- All digits in their places, without an exponent and without an empty fraction. -/
def positional (d : Decimal) : List Char :=
  let ds := d.digits
  if 0 ≤ d.power then
    if d.coefficient = 0 then ds else ds ++ List.replicate d.power.toNat '0'
  else
    let places := (-d.power).toNat
    if places < ds.length then
      ds.take (ds.length - places) ++ '.' :: ds.drop (ds.length - places)
    else '0' :: '.' :: List.replicate (places - ds.length) '0' ++ ds

/-- Where a layout leaves the positional form: its points range over
`least < point ≤ greatest`, counted from the first digit. -/
structure Layout where
  least : Int
  greatest : Int

/-- Positional for moderate sizes, always with a fraction, and scientific otherwise. -/
def scientific (layout : Layout) (d : Decimal) : List Char :=
  if d.coefficient = 0 then ['0', '.', '0']
  else
    let ds := d.digits
    let point : Int := ds.length + d.power
    let exponent := (toString (point - 1)).toList
    if 0 ≤ d.power ∧ point ≤ layout.greatest then d.positional ++ ['.', '0']
    else if layout.least < point ∧ point ≤ layout.greatest then d.positional
    else match ds with
      | [c] => c :: 'e' :: exponent
      | c :: rest => c :: '.' :: rest ++ 'e' :: exponent
      | [] => []

end Decimal

namespace Binary
variable {f : BinaryFormat}

def toDisplay (x : Binary f) : String :=
  match x.decode with
  | .notANumber => "NaN"
  | .infinite s => if s then "-inf" else "inf"
  | .finite s m e =>
    String.ofList ((if s then ['-'] else []) ++ (Decimal.shortest f .upper m e).positional)

end Binary
end RadioStream
