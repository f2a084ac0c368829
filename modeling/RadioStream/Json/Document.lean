import RadioStream.Decimal.Shortest
import RadioStream.Json.Reader

/-!
Documents to be written as JSON. A document keeps its numbers as values with their
width, so that each is written with the fewest digits that read back; infinities
and what is not a number are written as null.
-/
namespace RadioStream

inductive Document where
  | null
  | flag (value : Bool)
  | integer (value : Int)
  | single (value : Single)
  | double (value : Double)
  | text (value : String)
  | list (items : List Document)
  | record (members : List (String × Document))
deriving Inhabited, BEq

namespace Document

/-- Numbers of single width are positional from `0.00000d` up to thirteen digits. -/
def singleLayout : Decimal.Layout := ⟨-6, 13⟩

/-- Numbers of double width are positional from `0.0000d` up to sixteen digits. -/
def doubleLayout : Decimal.Layout := ⟨-5, 16⟩

def numberText {f : BinaryFormat} (layout : Decimal.Layout) (x : Binary f) : List Char :=
  match x.decode with
  | .finite s m e =>
    (if s then ['-'] else []) ++ (Decimal.shortest f .even m e).scientific layout
  | _ => ['n', 'u', 'l', 'l']

def hexDigit (n : Nat) : Char := Nat.digitChar n

def escape (c : Char) : List Char :=
  if c = '"' then ['\\', '"']
  else if c = '\\' then ['\\', '\\']
  else if c = '\n' then ['\\', 'n']
  else if c = '\r' then ['\\', 'r']
  else if c = '\t' then ['\\', 't']
  else if c = '\x08' then ['\\', 'b']
  else if c = '\x0c' then ['\\', 'f']
  else if c.toNat < 0x20 then
    ['\\', 'u', '0', '0', hexDigit (c.toNat / 16), hexDigit (c.toNat % 16)]
  else [c]

def quote (s : String) : List Char := '"' :: s.toList.flatMap escape ++ ['"']

def joinWith (separator : Char) (parts : List (List Char)) : List Char :=
  (parts.intersperse [separator]).flatten

mutual

def renderChars : Document → List Char
  | .null => ['n', 'u', 'l', 'l']
  | .flag b => if b then ['t', 'r', 'u', 'e'] else ['f', 'a', 'l', 's', 'e']
  | .integer n => (toString n).toList
  | .single x => numberText singleLayout x
  | .double x => numberText doubleLayout x
  | .text s => quote s
  | .list items => '[' :: joinWith ',' (renderItems items) ++ [']']
  | .record members => '\x7b' :: joinWith ',' (renderMembers members) ++ ['\x7d']

def renderItems : List Document → List (List Char)
  | [] => []
  | d :: ds => renderChars d :: renderItems ds

def renderMembers : List (String × Document) → List (List Char)
  | [] => []
  | (k, d) :: ds => (quote k ++ ':' :: renderChars d) :: renderMembers ds

end

def render (d : Document) : String := String.ofList d.renderChars

end Document
end RadioStream
