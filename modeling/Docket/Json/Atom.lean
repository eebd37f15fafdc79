import Docket.Json.Cursor
import Docket.Number.Reading
import Docket.Text.Quoted

/-! Values without parts and how a text writes them: words, numbers and strings. The kind
of a value is known once its atom has been read or its bracket has been seen. -/
namespace Docket.Json

/-- A value without parts. -/
inductive Atom
  | null
  | bool (b : Bool)
  | number (n : Number)
  | string (s : String)

/-- What is known of a value before its parts are read. -/
inductive Kind
  | atom (a : Atom)
  | list
  | object

namespace Atom

def toValue : Atom → Value
  | null => .null
  | bool b => .bool b
  | number n => .number n
  | string s => .string s

def describe : Atom → String
  | null => "null"
  | bool b => if b then "boolean `true`" else "boolean `false`"
  | number (.whole n) => s!"integer `{n}`"
  | number (.real x) => "floating point " ++ backquoted (FloatFormat.record.write x)
  | string s => "string " ++ Text.Quoted.encode s

end Atom

namespace Kind

/-- What a value is called in messages. -/
def describe : Kind → String
  | atom a => a.describe
  | list => "sequence"
  | object => "map"

/-- A value of another kind than expected. -/
def mistyped (kind : Kind) (expected : String) : Cause := .invalidType kind.describe expected

end Kind

def Value.kind : Value → Kind
  | null => .atom .null
  | bool b => .atom (.bool b)
  | number n => .atom (.number n)
  | string s => .atom (.string s)
  | array _ => .list
  | object _ => .object

namespace Cursor

/-- The characters of a word. -/
def word : List Char → Cursor → Scan Cursor
  | [], c => .ok c
  | expected :: more, c =>
    match c.rest with
    | [] => .error (c.fault .endInValue)
    | ch :: _ => if ch = expected then word more c.next else .error (c.peekFault .expectedIdent)

def hexDigit? (c : Char) : Option Nat :=
  if '0' ≤ c ∧ c ≤ '9' then some (c.toNat - 48)
  else if 'a' ≤ c ∧ c ≤ 'f' then some (c.toNat - 87)
  else if 'A' ≤ c ∧ c ≤ 'F' then some (c.toNat - 55)
  else none

/-- The number that four hexadecimal digits write. -/
def hexNumber? : List Char → Option Nat
  | [a, b, c, d] => do
    return (((← hexDigit? a) * 16 + (← hexDigit? b)) * 16 + (← hexDigit? c)) * 16 + (← hexDigit? d)
  | _ => none

/-- Four bytes that must be hexadecimal digits. -/
def hexEscape (c : Cursor) : Scan (Nat × Cursor) :=
  let four := c.rest.take 4
  match hexNumber? four with
  | some n => .ok (n, c.next.next.next.next)
  | none =>
    let bytes := four.foldl (fun n ch => n + ch.utf8Size) 0
    let cause := Cause.grammar (if bytes < 4 then .endInString else .invalidEscape)
    .error (.placed cause (c.positionAfter 4))

/-- The next character, which must be `expected` to go on after half of a pair. -/
def pairMark (expected : Char) (c : Cursor) : Scan Cursor :=
  match c.rest with
  | [] => .error (c.fault .endInString)
  | ch :: _ => if ch = expected then .ok c.next else .error (c.peekFault .endInHexEscape)

/-- A character by its UTF-16 units. -/
def unicodeEscape (c : Cursor) : Scan (Char × Cursor) := do
  let (n, c) ← c.hexEscape
  if 0xDC00 ≤ n ∧ n ≤ 0xDFFF then throw (c.fault .loneSurrogate)
  if n < 0xD800 ∨ 0xDBFF < n then return (Char.ofNat n, c)
  let c ← c.pairMark '\\'
  let c ← c.pairMark 'u'
  let (m, c) ← c.hexEscape
  if m < 0xDC00 ∨ 0xDFFF < m then throw (c.fault .loneSurrogate)
  return (Char.ofNat ((n - 0xD800) * 0x400 + (m - 0xDC00) + 0x10000), c)

/-- The character that one behind a backslash stands for. -/
def shortEscape? : Char → Option Char
  | '"' => some '"'
  | '\\' => some '\\'
  | '/' => some '/'
  | 'b' => some '\x08'
  | 'f' => some '\x0c'
  | 'n' => some '\n'
  | 'r' => some '\r'
  | 't' => some '\t'
  | _ => none

/-- A character after a backslash. -/
def escaped (c : Cursor) : Scan (Char × Cursor) :=
  match c.rest with
  | [] => .error (c.fault .endInString)
  | 'u' :: _ => c.next.unicodeEscape
  | ch :: _ =>
    match shortEscape? ch with
    | some r => .ok (r, c.next)
    | none => .error (c.peekFault .invalidEscape)

/-- The rest of a string after its opening quote; `seen` is reversed. The first list bounds what is
left of the text. -/
def stringRest : List Char → List Char → Cursor → Scan (String × Cursor)
  | [], _, c => .error (c.fault .endInString)
  | _ :: bound, seen, c =>
    match c.rest with
    | [] => .error (c.fault .endInString)
    | '"' :: _ => .ok (String.ofList seen.reverse, c.next)
    | '\\' :: _ => do
      let (r, c) ← c.next.escaped
      stringRest bound (r :: seen) c
    | ch :: _ =>
      if ch.toNat < 32 then .error (c.peekFault .controlCharacter)
      else stringRest bound (ch :: seen) c.next

/-- A string behind its opening quote. -/
def string (c : Cursor) : Scan (String × Cursor) := stringRest c.rest [] c

/-- The run of digits here. -/
def digits (c : Cursor) : List Char := c.rest.takeWhile Reading.isDigit

/-- Past the digits here. -/
def pastDigits (c : Cursor) : Cursor := c.pastAll Reading.isDigit

/-- Digits taken into a significand as long as it stays below `2 ^ 64`: the significand, how many
were taken and how many were left out. -/
def significand (start : Nat) : List Char → Nat × Nat × Nat
  | [] => (start, 0, 0)
  | d :: ds =>
    let n := 10 * start + (d.toNat - '0'.toNat)
    if n < twoTo 64 then
      let (m, taken, left) := significand n ds
      (m, taken + 1, left)
    else (start, 0, ds.length + 1)

def real (negative : Bool) (n : Nat) (e : Int) (c : Cursor) : Scan (Number × Cursor) :=
  match Reading.assembled n e with
  | some x => .ok (.real (if negative then -x else x), c)
  | none => .error (c.fault .numberOutOfRange)

/-- The exponent that digits write and the text behind them, or the text behind the digit that
takes it beyond 31 bits. -/
def exponent (n : Nat) : List Char → Cursor → Except Cursor (Nat × Cursor)
  | [], c => .ok (n, c)
  | d :: ds, c =>
    let m := 10 * n + (d.toNat - '0'.toNat)
    if m < twoTo 31 then exponent m ds c.next else .error c.next

/-- The exponent behind its mark. An exponent beyond 31 bits makes zero, or none if it is positive
and the significand is not zero. -/
def exponentPart (negative : Bool) (n : Nat) (e : Int) (c : Cursor) : Scan (Number × Cursor) :=
  let (below, c) := match c.rest with
    | '+' :: _ => (false, c.next)
    | '-' :: _ => (true, c.next)
    | _ => (false, c)
  if c.rest.isEmpty then .error (c.fault .endInValue)
  else if c.digits.isEmpty then .error (c.peekFault .invalidNumber)
  else
    match exponent 0 c.digits c with
    | .ok (power, behind) => real negative n (if below then e - power else e + power) behind
    | .error beyond =>
      if n ≠ 0 ∧ !below then .error (beyond.fault .numberOutOfRange)
      else .ok (.real (if negative then -0.0 else 0.0), c.pastDigits)

/-- What may follow the digits of a number: an exponent or nothing. -/
def afterDigits (negative : Bool) (n : Nat) (e : Int) (c : Cursor) : Scan (Number × Cursor) :=
  match c.rest with
  | 'e' :: _ | 'E' :: _ => exponentPart negative n e c.next
  | _ => real negative n e c

/-- Digits after the point. -/
def fractionPart (negative : Bool) (n : Nat) (e : Int) (c : Cursor) : Scan (Number × Cursor) :=
  if c.digits.isEmpty then
    .error (c.peekFault (if c.rest.isEmpty then .endInValue else .invalidNumber))
  else
    let (m, taken, _) := significand n c.digits
    afterDigits negative m (e - taken) c.pastDigits

/-- A number whose sign has been taken. Integers that 64 bits cannot hold are doubles, and so is
the negative zero. -/
def number (negative : Bool) (c : Cursor) : Scan (Number × Cursor) :=
  match c.rest, c.digits with
  | [], _ => .error (c.fault .endInValue)
  | _, [] => .error (c.peekFault .invalidNumber)
  | _, '0' :: _ :: _ => .error (c.next.peekFault .invalidNumber)
  | _, ds =>
    let (n, _, left) := significand 0 ds
    let behind := c.pastDigits
    match behind.rest with
    | '.' :: _ => fractionPart negative n left behind.next
    | 'e' :: _ | 'E' :: _ => exponentPart negative n left behind.next
    | _ =>
      if left ≠ 0 then real negative n left behind
      else if !negative then .ok (.whole n, behind)
      else if n = 0 ∨ twoTo 63 < n then .ok (.real (-Float.ofNat n), behind)
      else .ok (.whole (-(n : Int)), behind)

/-- The kind of the value that follows. Reading stands behind an atom, but before the bracket of a
container. -/
def kind (c : Cursor) : Scan (Kind × Cursor) :=
  let c := c.skip
  let keyword (a : Atom) (more : List Char) : Scan (Kind × Cursor) :=
    (c.next.word more).map (.atom a, ·)
  let numeral (negative : Bool) (c : Cursor) : Scan (Kind × Cursor) :=
    (c.number negative).map fun (n, c) => (.atom (.number n), c)
  match c.rest with
  | [] => .error (c.fault .endInValue)
  | 'n' :: _ => keyword .null ['u', 'l', 'l']
  | 't' :: _ => keyword (.bool true) ['r', 'u', 'e']
  | 'f' :: _ => keyword (.bool false) ['a', 'l', 's', 'e']
  | '"' :: _ => c.next.string.map fun (s, c) => (.atom (.string s), c)
  | '-' :: _ => numeral true c.next
  | '[' :: _ => .ok (.list, c)
  | '{' :: _ => .ok (.object, c)
  | ch :: _ =>
    if Reading.isDigit ch then numeral false c else .error (c.peekFault .expectedValue)

end Cursor
end Docket.Json
