import Docket.Formula.Builtin
import Docket.Formula.Reference

/-! Tokens of formula text. A lexeme keeps where its token starts and the characters it
was made of; between lexemes there is white space only. -/
namespace Docket.Formula

inductive Token
  | number (value : Float)
  | reference (r : Reference)
  | ident (name : String)
  | leftParen | rightParen | comma
  | plus | minus | star | slash | percent | caret | bang
  | gt | lt | ge | le | eq | ne | and | or
deriving DecidableEq

namespace Token

/-- The text of a token in messages. -/
def describe : Token → String
  | number x => FloatFormat.plain.write x
  | reference r => r.display
  | ident name => name
  | leftParen => "("
  | rightParen => ")"
  | comma => ","
  | plus => "+"
  | minus => "-"
  | star => "*"
  | slash => "/"
  | percent => "%"
  | caret => "^"
  | bang => "!"
  | gt => ">"
  | lt => "<"
  | ge => ">="
  | le => "<="
  | eq => "=="
  | ne => "!="
  | and => "&&"
  | or => "||"

end Token

/-- A token, its character offset and its characters. -/
structure Lexeme where
  token : Token
  start : Nat
  text : List Char

namespace Lexeme

/-- Digits with at most one point. -/
def numberText : Bool → List Char → List Char
  | _, [] => []
  | pointed, c :: rest =>
    if Reading.isDigit c then c :: numberText pointed rest
    else if c = '.' ∧ !pointed then c :: numberText true rest
    else []

def isIdentStart (c : Char) : Bool := Text.isAlphabetic c || c == '_'

def isIdentChar (c : Char) : Bool := Text.isAlphanumeric c || c == '_'

/-- The operator of one or two characters at the start. -/
def operator? (c : Char) (next : Option Char) : Option (Token × Nat) :=
  match c, next with
  | '(', _ => some (.leftParen, 1)
  | ')', _ => some (.rightParen, 1)
  | ',', _ => some (.comma, 1)
  | '+', _ => some (.plus, 1)
  | '-', _ => some (.minus, 1)
  | '*', _ => some (.star, 1)
  | '/', _ => some (.slash, 1)
  | '%', _ => some (.percent, 1)
  | '^', _ => some (.caret, 1)
  | '>', some '=' => some (.ge, 2)
  | '>', _ => some (.gt, 1)
  | '<', some '=' => some (.le, 2)
  | '<', some '>' => some (.ne, 2)
  | '<', _ => some (.lt, 1)
  | '=', some '=' => some (.eq, 2)
  | '=', _ => some (.eq, 1)
  | '!', some '=' => some (.ne, 2)
  | '!', _ => some (.bang, 1)
  | '&', some '&' => some (.and, 2)
  | '|', some '|' => some (.or, 2)
  | _, _ => none

/-- The token that starts with `c` at `position`, and how many characters it takes. -/
def readToken (position : Nat) (c : Char) (rest : List Char) : Except Error (Token × Nat) :=
  if Reading.isDigit c ∨ c = '.' then
    let text := numberText false (c :: rest)
    match Reading.magnitude? text with
    | some x => .ok (.number x, text.length)
    | none => .error (.unexpectedChar c position)
  else if c = '[' then
    match Text.cutFirst? ']' rest with
    | none => .error (.invalidReference (String.ofList (c :: rest)))
    | some (inner, _) =>
      match Reference.read? inner with
      | some r => .ok (.reference r, inner.length + 2)
      | none => .error (.invalidReference (String.ofList inner))
  else if isIdentStart c then
    let text := c :: rest.takeWhile isIdentChar
    .ok (.ident (String.ofList text), text.length)
  else
    match operator? c rest.head? with
    | some found => .ok found
    | none => .error (.unexpectedChar c position)

/-- The lexemes of a text that starts at `position`. -/
def scanFrom (position : Nat) : List Char → Except Error (List Lexeme)
  | [] => .ok []
  | c :: rest =>
    if Text.isBlank c then scanFrom (position + 1) rest
    else
      match readToken position c rest with
      | .error e => .error e
      | .ok (token, length) =>
        match scanFrom (position + 1 + (length - 1)) (rest.drop (length - 1)) with
        | .error e => .error e
        | .ok lexemes => .ok (⟨token, position, (c :: rest).take length⟩ :: lexemes)
termination_by cs => cs.length
decreasing_by all_goals simp only [List.length_cons, List.length_drop]; omega

end Lexeme

/-- The lexemes of a formula. -/
def scan (source : String) : Except Error (List Lexeme) := Lexeme.scanFrom 0 source.toList

end Docket.Formula
