import RadioStream.Binary.Arithmetic

/-!
Sample formats. Every sample is a complex pair; a format says how host buffers
scale it and how many bytes it takes on the link.
-/
namespace RadioStream

inductive SampleFormat where
  /-- Signed 16-bit components. -/
  | i16
  /-- Signed 12-bit components, packed on the link and held in 16 bits by the host. -/
  | i12
  /-- Components of single width, nominally from -1 to 1. -/
  | f32
deriving DecidableEq, Inhabited

namespace SampleFormat

def name : SampleFormat → String
  | i16 => "I16"
  | i12 => "I12"
  | f32 => "F32"

/-- Bytes of one pair on the link. -/
def sampleSize : SampleFormat → Nat
  | i16 => 4
  | i12 => 3
  | f32 => 8

theorem sampleSize_pos (f : SampleFormat) : 0 < f.sampleSize := by
  cases f <;> decide

/-- The component that stands for 1. -/
def fullScale : SampleFormat → Nat
  | i16 => 32767
  | i12 => 2047
  | f32 => 1

def all : List SampleFormat := [i16, i12, f32]

/-- ASCII letters in lower case; other characters have no case here. -/
def lowered (text : String) : String := String.ofList (text.toList.map Char.toLower)

/-- The format of a name in any ASCII case. -/
def ofName? (text : String) : Option SampleFormat :=
  all.find? fun f => lowered f.name == lowered text

end SampleFormat

structure Iq (α : Type) where
  re : α
  im : α
deriving DecidableEq, Inhabited

end RadioStream
