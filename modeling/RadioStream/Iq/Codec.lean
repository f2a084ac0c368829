import RadioStream.Iq.Format

/-!
Conversion between host samples and link bytes. On the link a pair is

* `i16`: both components as two bytes, low byte first;
* `i12`: the low eight bits of the first component, its high four bits below the low
  four bits of the second, the high eight bits of the second;
* `f32`: both components as four bytes, low byte first.

Integers cross between the two integer formats by a factor of sixteen and into
`f32` by the full scale of their format; conversion to integers saturates. Integer
components are computed on as integers, patterns pass as patterns.
-/
namespace RadioStream

/-- The host holds `i16` and `i12` samples in 16 bits. -/
abbrev IntSample := Iq Int16

/-- The host holds `f32` samples as patterns of single width. -/
abbrev RealSample := Iq Single

namespace Codec

def clampTwelve (v : Int) : Int := max (-2048) (min v 2047)

/-- Moves a component between the integer scales; to and within `i12` it saturates. -/
def rescale (v : Int) : SampleFormat → SampleFormat → Int
  | .i16, .i12 => v / 16
  | .i12, .i16 => clampTwelve v * 16
  | _, .i12 => clampTwelve v
  | _, _ => v

def byte (n : Nat) : UInt8 := UInt8.ofNat n

/-- The two's complement field of a component; `modulus` is the number of its values. -/
def field (modulus : Nat) (v : Int) : Nat := (v % modulus).toNat

/-- The component with a given two's complement field. -/
def signed (modulus n : Nat) : Int := if 2 * n < modulus then n else (n : Int) - modulus

def packSixteen (v : Int) : List UInt8 :=
  let n := field 65536 v
  [byte (n % 256), byte (n / 256)]

def unpackSixteen (low high : UInt8) : Int := signed 65536 (low.toNat + 256 * high.toNat)

/-- Packs a pair of integer components. -/
def packInts (link : SampleFormat) (i q : Int) : List UInt8 :=
  if link = .i12 then
    let i := field 4096 (clampTwelve i)
    let q := field 4096 (clampTwelve q)
    [byte (i % 256), byte (i / 256 + 16 * (q % 16)), byte (q / 16)]
  else packSixteen i ++ packSixteen q

def unpackInts (link : SampleFormat) : List UInt8 → Int × Int
  | [a, b, c] =>
    if link = .i12 then
      (signed 4096 (a.toNat + 256 * (b.toNat % 16)), signed 4096 (b.toNat / 16 + 16 * c.toNat))
    else (0, 0)
  | [a, b, c, d] => if link = .i12 then (0, 0) else (unpackSixteen a b, unpackSixteen c d)
  | _ => (0, 0)

def packSingle (x : Single) : List UInt8 :=
  let n := x.bits.toNat
  [byte (n % 256), byte (n / 256 % 256), byte (n / 65536 % 256), byte (n / 16777216)]

theorem length_packInts (link : SampleFormat) (i q : Int) (integral : link ≠ .f32) :
    (packInts link i q).length = link.sampleSize := by
  cases link with
  | i16 => rfl
  | i12 => rfl
  | f32 => contradiction

theorem length_packSingle (x : Single) : (packSingle x).length = 4 := rfl

def unpackSingle (a b c d : UInt8) : Single :=
  ⟨BitVec.ofNat _ (a.toNat + 256 * b.toNat + 65536 * c.toNat + 16777216 * d.toNat)⟩

/-- A component times the scale, rounded and saturated to `-scale - 1 … scale`. What is not a
number becomes zero. -/
def quantize (x : Single) (scale : Nat) : Int :=
  let limit : Int := scale
  match ((x.mul (.ofNat scale)).restrict (.ofInt (-limit - 1)) (.ofInt limit)).nearestInt? with
  | some n => n
  | none => 0

def normalize (v : Int) (scale : Nat) : Single :=
  (Binary.ofInt v).div (.ofNat scale)

end Codec

/-- A host sample type: the formats it can hold and its conversions with the link. -/
class HostSample (α : Type) where
  silence : α
  carries : SampleFormat → Bool
  /-- The bytes of one sample, given the format of host and link. -/
  pack : SampleFormat → SampleFormat → α → List UInt8
  /-- The sample of the bytes that one link sample takes. -/
  unpack : SampleFormat → SampleFormat → List UInt8 → α
  length_pack : ∀ host link a, (pack host link a).length = link.sampleSize

open Codec in
instance : HostSample IntSample where
  silence := ⟨0, 0⟩
  carries f := f = .i16 ∨ f = .i12
  pack host link s :=
    if link = .f32 then
      packSingle (normalize s.re.toInt host.fullScale) ++
        packSingle (normalize s.im.toInt host.fullScale)
    else packInts link (rescale s.re.toInt host link) (rescale s.im.toInt host link)
  unpack host link bytes :=
    match link, bytes with
    | .f32, [a, b, c, d, e, f, g, h] =>
      ⟨.ofInt (quantize (unpackSingle a b c d) host.fullScale),
        .ofInt (quantize (unpackSingle e f g h) host.fullScale)⟩
    | .f32, _ => ⟨0, 0⟩
    | _, _ =>
      let (i, q) := unpackInts link bytes
      ⟨.ofInt (rescale i link host), .ofInt (rescale q link host)⟩
  length_pack host link s := by
    by_cases float : link = .f32
    · simp [float, length_packSingle, SampleFormat.sampleSize]
    · simp [float, length_packInts]

open Codec in
instance : HostSample RealSample where
  silence := ⟨Binary.zero, Binary.zero⟩
  carries f := f = .f32
  pack _ link s :=
    if link = .f32 then packSingle s.re ++ packSingle s.im
    else packInts link (quantize s.re link.fullScale) (quantize s.im link.fullScale)
  unpack _ link bytes :=
    match link, bytes with
    | .f32, [a, b, c, d, e, f, g, h] => ⟨unpackSingle a b c d, unpackSingle e f g h⟩
    | .f32, _ => ⟨Binary.zero, Binary.zero⟩
    | _, _ =>
      let (i, q) := unpackInts link bytes
      ⟨normalize i link.fullScale, normalize q link.fullScale⟩
  length_pack host link s := by
    by_cases float : link = .f32
    · simp [float, length_packSingle, SampleFormat.sampleSize]
    · simp [float, length_packInts]

/-- Cuts bytes into samples of `size`; bytes left over do not make a sample. -/
def wholeSamples (size : Nat) (bytes : List UInt8) : List (List UInt8) :=
  if _whole : 0 < size ∧ (bytes.take size).length = size then
    bytes.take size :: wholeSamples size (bytes.drop size)
  else []
termination_by bytes.length
decreasing_by
  simp only [List.length_take] at _whole
  simp only [List.length_drop]
  omega

namespace HostSample
variable {α : Type} [HostSample α]

def toLink (host link : SampleFormat) (samples : List α) : List UInt8 :=
  samples.flatMap (pack host link)

def fromLink (host link : SampleFormat) (bytes : List UInt8) : List α :=
  (wholeSamples link.sampleSize bytes).map (unpack host link)

/-- Overwrites the start of a buffer with decoded samples, as many as there are and fit.
Returns their number and the buffer. -/
def fillFromLink (host link : SampleFormat) (bytes : List UInt8) (buffer : List α) :
    Nat × List α :=
  let samples := (fromLink host link bytes).take buffer.length
  (samples.length, samples ++ buffer.drop samples.length)

end HostSample
end RadioStream
