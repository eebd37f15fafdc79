import Docket.Number.Reading
import Docket.Number.Single
import Docket.Pdf.Object

/-! The written form of objects, on texts with one character a byte. Every reader gives
what it has read and the rest, or nothing. -/
namespace Docket.Pdf

/-- Bytes as characters. -/
def textOf (bytes : Bytes) : List Char := bytes.map fun b => Char.ofNat b.toNat

/-- Characters of one byte as bytes. -/
def bytesOf (cs : List Char) : Bytes := cs.map fun c => c.toNat.toUInt8

namespace Syntax

abbrev Reader (β : Type) := List Char → Option (β × List Char)

def isEol (c : Char) : Bool := c == '\n' || c == '\r'

def isSpace (c : Char) : Bool :=
  c == ' ' || c == '\t' || isEol c || c == '\x00' || c == '\x0c'

def isDelimiter (c : Char) : Bool := "()<>[]\x7b\x7d/%".toList.contains c

def isRegular (c : Char) : Bool := !isSpace c && !isDelimiter c

/-- Skips space and comments. A comment ends with its line; without an end it is none. -/
def skipWhere (space : Char → Bool) : Bool → List Char → List Char
  | _, [] => []
  | true, c :: rest => skipWhere space (!isEol c) rest
  | false, c :: rest =>
    if space c then skipWhere space false rest
    else if c = '%' && rest.any isEol then skipWhere space true rest
    else c :: rest

def skip (cs : List Char) : List Char := skipWhere isSpace false cs

/-- A word at the front of a text. -/
def word (w : String) (cs : List Char) : Option (List Char) :=
  if w.toList.isPrefixOf cs then some (cs.drop w.length) else none

def hexValue? (c : Char) : Option Nat :=
  if c.isDigit then some (c.toNat - 48)
  else if 'a' ≤ c ∧ c ≤ 'f' then some (c.toNat - 87)
  else if 'A' ≤ c ∧ c ≤ 'F' then some (c.toNat - 55)
  else none

/-- A natural number below a limit. -/
def natural (limit : Nat) : Reader Nat := fun cs =>
  let ds := cs.takeWhile Reading.isDigit
  let n := Reading.natural ds
  if ds.isEmpty || limit ≤ n then none else some (n, cs.drop ds.length)

/-- Digits with a point as a number of single precision. -/
def realOf (negative : Bool) (whole fraction : List Char) : Float :=
  Single.ofFraction negative (Reading.natural (whole ++ fraction)) (tenTo fraction.length)

/-- A number with a point, or an integer of 64 bits. -/
def number : Reader (Object Float) := fun cs =>
  let (negative, body) := match cs with
    | '-' :: rest => (true, rest)
    | '+' :: rest => (false, rest)
    | _ => (false, cs)
  let whole := body.takeWhile Reading.isDigit
  match body.drop whole.length with
  | '.' :: rest =>
    let fraction := rest.takeWhile Reading.isDigit
    if whole.isEmpty && fraction.isEmpty then none
    else some (.real (realOf negative whole fraction), rest.drop fraction.length)
  | rest =>
    let n := Dyadic.signed negative (Reading.natural whole)
    if whole.isEmpty || n < -twoTo 63 || twoTo 63 ≤ n then none else some (.integer n, rest)

/-- The characters of a name; two hexadecimal digits behind a number sign stand for one. -/
def nameChars : List Char → List Char × List Char
  | [] => ([], [])
  | '#' :: a :: b :: rest =>
    match hexValue? a, hexValue? b with
    | some x, some y =>
      let (cs, rest) := nameChars rest
      (Char.ofNat (16 * x + y) :: cs, rest)
    | _, _ => ([], '#' :: a :: b :: rest)
  | c :: rest =>
    if c ≠ '#' && isRegular c then
      let (cs, rest) := nameChars rest
      (c :: cs, rest)
    else ([], c :: rest)

def name : Reader String
  | '/' :: rest =>
    let (cs, rest) := nameChars rest
    some (String.ofList cs, rest)
  | _ => none

/-- Deepest nesting of parentheses in a string. -/
def parenthesisLimit : Nat := 100

/-- The written characters of a string up to its closing parenthesis; `depth` parentheses are open
inside, and an escaped character closes none. -/
def literalBody (depth : Nat) (escaped : Bool) : List Char → Option (List Char × List Char)
  | [] => none
  | c :: rest =>
    let keep (depth : Nat) (escaped : Bool) :=
      (literalBody depth escaped rest).map fun (body, rest) => (c :: body, rest)
    if escaped then keep depth false
    else if c = '\\' then keep depth true
    else if c = ')' then
      match depth with
      | 0 => some ([], rest)
      | d + 1 => keep d false
    else if c = '(' then if parenthesisLimit ≤ depth then none else keep (depth + 1) false
    else keep depth false

def isOctal (c : Char) : Bool := '0' ≤ c && c ≤ '7'

/-- The character a letter behind a backslash stands for. -/
def escapeOf (c : Char) : Char :=
  match c with
  | 'n' => '\n'
  | 'r' => '\r'
  | 't' => '\t'
  | 'b' => '\x08'
  | 'f' => '\x0c'
  | c => c

/-- Resolves escapes: up to three octal digits, an end of line that is left out, a letter. -/
def unescape : List Char → List Char
  | [] => []
  | '\\' :: rest =>
    let octal := (rest.takeWhile isOctal).take 3
    if octal.isEmpty then
      match rest with
      | '\r' :: '\n' :: rest => unescape rest
      | c :: rest => if isEol c then unescape rest else escapeOf c :: unescape rest
      | [] => []
    else
      let code := octal.foldl (fun n c => 8 * n + (c.toNat - 48)) 0
      Char.ofNat (code % 256) :: unescape (rest.drop octal.length)
  | c :: rest => c :: unescape rest
termination_by cs => cs.length
decreasing_by all_goals simp only [List.length_cons, List.length_drop]; omega

def literal : Reader Bytes
  | '(' :: rest =>
    (literalBody 0 false rest).map fun (body, rest) => (bytesOf (unescape body), rest)
  | _ => none

/-- Hexadecimal digits with space between them. -/
def hexDigits : List Char → List Nat × List Char
  | [] => ([], [])
  | c :: rest =>
    if isSpace c then hexDigits rest
    else match hexValue? c with
      | some n =>
        let (ns, rest) := hexDigits rest
        (n :: ns, rest)
      | none => ([], c :: rest)

/-- Pairs of digits as bytes; a last digit alone is a high one. -/
def ofHexDigits : List Nat → Bytes
  | [] => []
  | [a] => [(16 * a).toUInt8]
  | a :: b :: rest => (16 * a + b).toUInt8 :: ofHexDigits rest

def hexadecimal : Reader Bytes
  | '<' :: rest =>
    match hexDigits rest with
    | (ns, '>' :: rest) => some (ofHexDigits ns, rest)
    | _ => none
  | _ => none

def constant : Reader (Object Float) := fun cs =>
  ((word "null" cs).map fun rest => (.null, rest)) <|>
  ((word "true" cs).map fun rest => (.bool true, rest)) <|>
  ((word "false" cs).map fun rest => (.bool false, rest))

/-- Number, generation and the letter R. -/
def reference : Reader (Object Float) := fun cs => do
  let (id, rest) ← natural (twoTo 32) cs
  let (_, rest) ← natural (twoTo 16) (skip rest)
  let rest ← word "R" (skip rest)
  return (.reference id, rest)

mutual
/-- An object; `references` tells whether it may be a reference. The first argument bounds the
steps. -/
def object (references : Bool) : Nat → Reader (Object Float)
  | 0, _ => none
  | n + 1, cs =>
    constant cs <|> (if references then reference cs else none) <|> number cs <|>
    ((name cs).map fun (s, rest) => (.name s, rest)) <|>
    ((literal cs).map fun (s, rest) => (.string s, rest)) <|>
    ((hexadecimal cs).map fun (s, rest) => (.string s, rest)) <|>
    array n cs <|> dictionary n cs

def array : Nat → Reader (Object Float)
  | 0, _ => none
  | n + 1, cs =>
    match cs with
    | '[' :: rest =>
      match items n (skip rest) with
      | (xs, ']' :: rest) => some (.array xs, rest)
      | _ => none
    | _ => none

/-- As many objects as can be read. -/
def items : Nat → List Char → List (Object Float) × List Char
  | 0, cs => ([], cs)
  | n + 1, cs =>
    match object true n cs with
    | some (o, rest) =>
      let (xs, rest) := items n (skip rest)
      (o :: xs, rest)
    | none => ([], cs)

def dictionary : Nat → Reader (Object Float)
  | 0, _ => none
  | n + 1, cs =>
    match word "<<" cs with
    | some rest =>
      match entries n (skip rest) with
      | (es, rest) => (word ">>" rest).map fun rest => (.dictionary es, rest)
    | none => none

/-- As many names with objects as can be read. -/
def entries : Nat → List Char → Dictionary Float × List Char
  | 0, cs => ([], cs)
  | n + 1, cs =>
    match name cs with
    | none => ([], cs)
    | some (k, rest) =>
      match object true n (skip rest) with
      | some (o, rest) =>
        let (es, rest) := entries n (skip rest)
        ((k, o) :: es, rest)
      | none => ([], cs)
end

/-- Steps that suffice for any object of a text. -/
def stepsFor (cs : List Char) : Nat := 2 * cs.length + 2

end Syntax

/-- One operation of a content stream. -/
structure Operation (α : Type) where
  operator : String
  operands : List (Object α)

namespace Operation
open Syntax

def isContentSpace (c : Char) : Bool := c == ' ' || c == '\t' || isEol c

def isOperatorChar (c : Char) : Bool := c.isAlpha || c == '*' || c == '\'' || c == '"'

def readOperands : Nat → List Char → List (Object Float) × List Char
  | 0, cs => ([], cs)
  | n + 1, cs =>
    match object false (stepsFor cs) cs with
    | some (o, rest) =>
      let (os, rest) := readOperands n (rest.dropWhile isContentSpace)
      (o :: os, rest)
    | none => ([], cs)

/-- Operands followed by an operator. -/
def read? (cs : List Char) : Option (Operation Float × List Char) :=
  let (operands, rest) := readOperands cs.length cs
  let operator := rest.takeWhile isOperatorChar
  if operator.isEmpty then none
  else some (⟨String.ofList operator, operands⟩, rest.drop operator.length)

def readFrom : Nat → List Char → Option (List (Operation Float))
  | 0, _ => some []
  | n + 1, cs =>
    let cs := skipWhere isContentSpace false cs
    if (word "BI" cs).isSome then none
    else match read? cs with
      | none => some []
      | some (op, rest) => (readFrom n rest).map (op :: ·)

/-- The operations of a content stream up to the first that cannot be read. There are none at all
if an inline image is among them. -/
def readAll? (data : Bytes) : Option (List (Operation Float)) :=
  let cs := textOf data
  readFrom (cs.length + 1) cs

end Operation
end Docket.Pdf
