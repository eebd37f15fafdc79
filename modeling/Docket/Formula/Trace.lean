import Docket.Formula.Scope

/-! A formula with its placeholders replaced by the values used. A placeholder is an
opening bracket, at least one character that is no bracket, and a closing bracket. -/
namespace Docket.Formula

/-- A stretch of formula text: plain, or a placeholder by its inner text. -/
inductive Piece
  | plain (c : Char)
  | placeholder (inner : List Char)
deriving DecidableEq

namespace Piece

def isBracket (c : Char) : Bool := c == '[' || c == ']'

/-- The inner text of a placeholder that has been opened. -/
def inner? (rest : List Char) : Option (List Char) :=
  let inner := rest.takeWhile (!isBracket ·)
  match inner, rest.dropWhile (!isBracket ·) with
  | [], _ => none
  | _ :: _, ']' :: _ => some inner
  | _, _ => none

/-- The pieces of a text from the left. -/
def ofChars : List Char → List Piece
  | [] => []
  | c :: rest =>
    match (if c = '[' then inner? rest else none) with
    | some inner => placeholder inner :: ofChars (rest.drop (inner.length + 1))
    | none => plain c :: ofChars rest
termination_by cs => cs.length
decreasing_by all_goals simp only [List.length_cons, List.length_drop]; omega

/-- The reference of a placeholder that is well formed. -/
def reference? : Piece → Option Reference
  | plain _ => none
  | placeholder inner => Reference.read? inner

/-- The text a piece stands for. -/
def source : Piece → List Char
  | plain c => [c]
  | placeholder inner => '[' :: inner ++ [']']

/-- A value as an operand; a minus sign is bound by parentheses. -/
def operand (x : Float) : List Char :=
  let text := (FloatFormat.plain.write x).toList
  if text.head? = some '-' then '(' :: text ++ [')'] else text

/-- The piece with its value in place of a reference. -/
def substituted (resolve : Resolver) (p : Piece) : List Char :=
  match p.reference? with
  | some r => operand ((resolve r).getD 0.0)
  | none => p.source

end Piece

/-- The formula text with every well-formed placeholder replaced by its value, 0 where it has
none. -/
def substitute (resolve : Resolver) (formula : String) : String :=
  String.ofList ((Piece.ofChars formula.toList).flatMap (·.substituted resolve))

/-- The references of a text that have no value, each once. -/
def unresolvedIn (resolve : Resolver) (formula : String) : Unresolved :=
  (Piece.ofChars formula.toList).foldl (fun seen p =>
    match p.reference? with
    | some r => if (resolve r).isNone then note r seen else seen
    | none => seen) []

/-- What became of a formula. -/
structure Outcome where
  value : Except Error Float
  substituted : String
  unresolved : Unresolved

/-- Reads and evaluates a formula. One that cannot be read notes the references of its text. -/
def run (formula : String) (scope : Scope) : Outcome :=
  let resolve := scope.resolve
  let (value, unresolved) := match parse formula with
    | .ok e => e.evaluate resolve []
    | .error e => (.error e, unresolvedIn resolve formula)
  ⟨value, substitute resolve formula, unresolved⟩

end Docket.Formula
