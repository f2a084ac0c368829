import RadioStream.Decimal.Numeral

/-!
JSON texts as trees, read strictly: no comments, no trailing text, no control
characters in strings. A literal keeps its digits and a string with an unpaired
surrogate stays a string without contents, so whoever skips a member need not care
about either. The reader is an automaton over characters with an explicit stack;
nesting costs no recursion and every character is looked at once.
-/
namespace RadioStream

/-- A JSON value. Text that is not valid Unicode is `none`. -/
inductive Json where
  | null
  | flag (value : Bool)
  | number (literal : Numeral)
  | text (contents : Option String)
  | array (items : List Json)
  | object (members : List (Option String × Json))
deriving Inhabited

namespace Json

/-- A container that is being read, newest entry first. -/
inductive Frame where
  | array (items : List Json)
  | object (members : List (Option String × Json)) (key : Option String)

/-- A string that is being read, newest character first. `high` is a high surrogate that
waits for its partner. -/
structure TextScan where
  isKey : Bool
  contents : List Char
  high : Option Nat
  broken : Bool

/-- What may come next. -/
inductive Expectation where
  /-- A value; after an opening bracket also the closing one. -/
  | value (orClose : Bool)
  /-- A member name; after an opening brace also the closing one. -/
  | key (orClose : Bool)
  | colon
  /-- A value has ended: a comma, a closing bracket or the end of the text. -/
  | separator
  | word (rest : List Char) (value : Json)
  | numeral (scan : NumeralScan)
  | text (scan : TextScan)
  | escape (scan : TextScan)
  /-- Hexadecimal digits of an escape, with the number still missing. -/
  | unit (scan : TextScan) (code missing : Nat)

structure ReaderState where
  stack : List Frame
  done : Option Json
  expected : Expectation

namespace TextScan

def start (isKey : Bool) : TextScan := ⟨isKey, [], none, false⟩

def push (s : TextScan) (c : Char) : TextScan :=
  { s with contents := c :: s.contents, high := none, broken := s.broken || s.high.isSome }

/-- Adds a UTF-16 unit, joining it to a high surrogate before it. -/
def pushUnit (s : TextScan) (code : Nat) : TextScan :=
  let isHigh := 0xD800 ≤ code ∧ code < 0xDC00
  let isLow := 0xDC00 ≤ code ∧ code < 0xE000
  match s.high with
  | some high =>
    if isLow then
      { s with
        contents := Char.ofNat (0x10000 + (high - 0xD800) * 0x400 + (code - 0xDC00)) :: s.contents
        high := none }
    else { s with broken := true, high := none }
  | none =>
    if isHigh then { s with high := some code }
    else if isLow then { s with broken := true }
    else s.push (Char.ofNat code)

def finish (s : TextScan) : Option String :=
  if s.broken || s.high.isSome then none else some (String.ofList s.contents.reverse)

end TextScan

def isBlank (c : Char) : Bool := c = ' ' || c = '\n' || c = '\t' || c = '\r'

def hexDigit? (c : Char) : Option Nat :=
  if '0' ≤ c ∧ c ≤ '9' then some (c.toNat - '0'.toNat)
  else if 'a' ≤ c ∧ c ≤ 'f' then some (c.toNat - 'a'.toNat + 10)
  else if 'A' ≤ c ∧ c ≤ 'F' then some (c.toNat - 'A'.toNat + 10)
  else none

def escaped? : Char → Option Char
  | '"' => some '"'
  | '\\' => some '\\'
  | '/' => some '/'
  | 'b' => some '\x08'
  | 'f' => some '\x0c'
  | 'n' => some '\n'
  | 'r' => some '\r'
  | 't' => some '\t'
  | _ => none

namespace ReaderState

def start : ReaderState := ⟨[], none, .value false⟩

/-- Puts a finished value into the innermost container. -/
def supply (s : ReaderState) (v : Json) : ReaderState :=
  match s.stack with
  | [] => { s with done := some v, expected := .separator }
  | .array items :: rest => { s with stack := .array (v :: items) :: rest, expected := .separator }
  | .object members key :: rest =>
    { s with stack := .object ((key, v) :: members) none :: rest, expected := .separator }

def open? (s : ReaderState) (c : Char) : Option ReaderState :=
  match c with
  | '[' => some { s with stack := .array [] :: s.stack, expected := .value true }
  | '\x7b' => some { s with stack := .object [] none :: s.stack, expected := .key true }
  | '"' => some { s with expected := .text (.start false) }
  | 'n' => some { s with expected := .word ['u', 'l', 'l'] .null }
  | 't' => some { s with expected := .word ['r', 'u', 'e'] (.flag true) }
  | 'f' => some { s with expected := .word ['a', 'l', 's', 'e'] (.flag false) }
  | _ => (NumeralScan.start? c).map fun n => { s with expected := .numeral n }

/-- Closes the innermost container with its own bracket. -/
def close? (s : ReaderState) (c : Char) : Option ReaderState :=
  match s.stack with
  | .array items :: rest =>
    if c = ']' then some (supply { s with stack := rest } (.array items.reverse)) else none
  | .object members _ :: rest =>
    if c = '\x7d' then some (supply { s with stack := rest } (.object members.reverse)) else none
  | [] => none

/-- The step after a value. -/
def separate? (s : ReaderState) (c : Char) : Option ReaderState :=
  if isBlank c then some s
  else if c = ',' then
    match s.stack with
    | .array _ :: _ => some { s with expected := .value false }
    | .object _ _ :: _ => some { s with expected := .key false }
    | [] => none
  else s.close? c

def finishText (s : ReaderState) (t : TextScan) : ReaderState :=
  if t.isKey then
    match s.stack with
    | .object members _ :: rest =>
      { s with stack := .object members t.finish :: rest, expected := .colon }
    | _ => { s with expected := .colon }
  else s.supply (.text t.finish)

def finishNumeral? (s : ReaderState) (n : NumeralScan) : Option ReaderState :=
  n.finish?.map fun literal => s.supply (.number literal)

def step? (s : ReaderState) (c : Char) : Option ReaderState :=
  match s.expected with
  | .value orClose =>
    if isBlank c then some s
    else if orClose && c = ']' then s.close? c
    else s.open? c
  | .key orClose =>
    if isBlank c then some s
    else if orClose && c = '\x7d' then s.close? c
    else if c = '"' then some { s with expected := .text (.start true) }
    else none
  | .colon =>
    if isBlank c then some s
    else if c = ':' then some { s with expected := .value false }
    else none
  | .separator => s.separate? c
  | .word rest v =>
    match rest with
    | [] => none
    | [last] => if c = last then some (s.supply v) else none
    | next :: more => if c = next then some { s with expected := .word more v } else none
  | .numeral n =>
    match n.extend? c with
    | some n => some { s with expected := .numeral n }
    | none => (s.finishNumeral? n).bind (·.separate? c)
  | .text t =>
    if c = '"' then some (s.finishText t)
    else if c = '\\' then some { s with expected := .escape t }
    else if c.toNat < 0x20 then none
    else some { s with expected := .text (t.push c) }
  | .escape t =>
    if c = 'u' then some { s with expected := .unit t 0 4 }
    else (escaped? c).map fun e => { s with expected := .text (t.push e) }
  | .unit t code missing =>
    (hexDigit? c).map fun d =>
      let code := code * 16 + d
      if missing ≤ 1 then { s with expected := .text (t.pushUnit code) }
      else { s with expected := .unit t code (missing - 1) }

def finish? (s : ReaderState) : Option Json :=
  match s.stack, s.expected with
  | [], .separator => s.done
  | [], .numeral n => (s.finishNumeral? n).bind (·.done)
  | _, _ => none

end ReaderState

/-- The value of a complete JSON text. -/
def parse? (source : String) : Option Json := do
  let s ← source.toList.foldlM ReaderState.step? .start
  s.finish?

end Json
end RadioStream
