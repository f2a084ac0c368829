import RadioStream.Json.Reader

/-!
Reading typed values out of JSON trees. A record is given as an object in any
order, or as an array of its fields in their order; unknown members are skipped,
a known member may not be given twice. Numbers must be in the range of their type
and integers must be written as integers.
-/
namespace RadioStream.Json

def flag? : Json → Option Bool
  | .flag b => some b
  | _ => none

def text? : Json → Option String
  | .text contents => contents
  | _ => none

def numeral? : Json → Option NumeralValue
  | .number n => n.value?
  | _ => none

def integer? (j : Json) : Option Int :=
  match j.numeral? with
  | some (.natural n) => some n
  | some (.negative n) => some (-(n : Int))
  | _ => none

/-- An integer from zero up to a bound. -/
def natural? (bound : Nat) (j : Json) : Option Nat :=
  j.integer?.bind fun n => if 0 ≤ n ∧ n < bound then some n.toNat else none

def byte? (j : Json) : Option UInt8 := (j.natural? 256).map UInt8.ofNat
def word16? (j : Json) : Option UInt16 := (j.natural? 65536).map UInt16.ofNat
def word32? (j : Json) : Option UInt32 := (j.natural? 0x100000000).map UInt32.ofNat
def word64? (j : Json) : Option UInt64 := (j.natural? 0x10000000000000000).map UInt64.ofNat

def signed64? (j : Json) : Option Int64 :=
  j.integer?.bind fun n =>
    if -0x8000000000000000 ≤ n ∧ n < 0x8000000000000000 then some (.ofInt n) else none

/-- A number as a pattern. An integer is rounded once, any other literal through a double. -/
def binary? {f : BinaryFormat} (j : Json) : Option (Binary f) :=
  match j.numeral? with
  | some (.natural n) => some (.ofNat n)
  | some (.negative n) => some (.ofInt (-(n : Int)))
  | some (.real x) => some x.convert
  | none => none

def nullable? {α : Type} (read : Json → Option α) : Json → Option (Option α)
  | .null => some none
  | j => (read j).map some

def list? {α : Type} (read : Json → Option α) : Json → Option (List α)
  | .array items => items.mapM read
  | _ => none

/-- A map from texts; of a repeated key the last entry stays, in the place of the first. -/
def entries? {α : Type} (read : Json → Option α) : Json → Option (List (String × α))
  | .object members => do
    let entries ← members.mapM fun (k, v) => do return (← k, ← read v)
    return entries.foldl (fun acc (k, v) =>
      if acc.any (·.1 == k) then acc.map fun e => if e.1 == k then (k, v) else e
      else acc ++ [(k, v)]) []
  | _ => none

/-- One of a list of names, given as text or as the name of a null member. -/
def choice? {α : Type} (names : List (String × α)) : Json → Option α
  | .text (some s) => names.lookup s
  | .object [(some s, .null)] => names.lookup s
  | _ => none

/-- What a missing field means. -/
inductive Presence where
  | required
  /-- May be missing from an object, not from an array. -/
  | optional
  | defaulted
deriving DecidableEq

/-- A named field of a record and how to store a value into it. -/
structure RecordField (α : Type) where
  name : String
  presence : Presence
  store : Json → α → Option α

namespace RecordField
variable {α : Type}

def storeMember (members : List (Option String × Json)) (a : α) (field : RecordField α) :
    Option α :=
  match members.filter (·.1 == some field.name) with
  | [] => if field.presence = .required then none else some a
  | [(_, v)] => field.store v a
  | _ => none

def storeItems : List (RecordField α) → List Json → α → Option α
  | [], [], a => some a
  | [], _ :: _, _ => none
  | field :: fields, [], a =>
    if field.presence = .defaulted then storeItems fields [] a else none
  | field :: fields, v :: vs, a => (field.store v a).bind (storeItems fields vs)

end RecordField

/-- Reads a record, starting from the values that missing fields take. -/
def record? {α : Type} (fields : List (RecordField α)) (initial : α) : Json → Option α
  | .object members =>
    if members.all (·.1.isSome) then fields.foldlM (RecordField.storeMember members) initial
    else none
  | .array items => RecordField.storeItems fields items initial
  | _ => none

end RadioStream.Json
