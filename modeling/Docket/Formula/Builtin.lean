import Docket.Number.Shortest
import Docket.Text.Case

/-! The functions a formula may call, their names in either case, and how many arguments
each takes; and why a formula has no value. -/
namespace Docket.Formula

inductive Builtin
  | choice | power | sqrt | abs | round | floor | ceil | max | min | sum | average | all | any
  | negation
deriving DecidableEq

/-- The least and, unless any number will do, the greatest number of arguments. -/
structure Arity where
  least : Nat
  most : Option Nat
deriving DecidableEq

namespace Arity

def accepts (a : Arity) (n : Nat) : Bool :=
  a.least ≤ n && match a.most with
    | some m => n ≤ m
    | none => true

def describe (a : Arity) : String :=
  match a.most with
  | some m => if m = a.least then toString a.least else s!"{a.least}-{m}"
  | none => s!"at least {a.least}"

end Arity

namespace Builtin

def name : Builtin → String
  | choice => "IF"
  | power => "POWER"
  | sqrt => "SQRT"
  | abs => "ABS"
  | round => "ROUND"
  | floor => "FLOOR"
  | ceil => "CEIL"
  | max => "MAX"
  | min => "MIN"
  | sum => "SUM"
  | average => "AVG"
  | all => "AND"
  | any => "OR"
  | negation => "NOT"

def every : List Builtin :=
  [choice, power, sqrt, abs, round, floor, ceil, max, min, sum, average, all, any, negation]

/-- Second names. -/
def aliases : List (String × Builtin) := [("CEILING", ceil), ("AVERAGE", average)]

/-- The function of a name in any case. -/
def named? (text : String) : Option Builtin :=
  let key := Text.upper text
  ((every.map fun f => (f.name, f)) ++ aliases).lookup key

def arity : Builtin → Arity
  | choice => ⟨3, some 3⟩
  | power => ⟨2, some 2⟩
  | sqrt | abs | floor | ceil | negation => ⟨1, some 1⟩
  | round => ⟨1, some 2⟩
  | max | min | sum | average | all | any => ⟨1, none⟩

end Builtin

/-- Why a formula has no value. -/
inductive Error
  | unexpectedChar (c : Char) (position : Nat)
  | invalidReference (text : String)
  | unexpectedToken (text : String) (position : Nat)
  | unexpectedEnd
  | unknownFunction (name : String)
  | arity (function : Builtin) (found : Nat)
  | domain (function : Builtin) (value : Float)
  | divisionByZero
  | nonFinite
  | empty
deriving DecidableEq

def Error.message : Error → String
  | unexpectedChar c p => s!"unexpected character '{c}' at position {p}"
  | invalidReference text => s!"invalid reference '{text}'"
  | unexpectedToken text p => s!"unexpected token '{text}' at position {p}"
  | unexpectedEnd => "unexpected end of formula"
  | unknownFunction name => s!"unknown function '{name}'"
  | arity f n => s!"{f.name} expects {f.arity.describe} argument(s), got {n}"
  | domain f x => s!"{f.name}: argument {FloatFormat.plain.write x} is outside the domain"
  | divisionByZero => "division by zero"
  | nonFinite => "result is not a finite number"
  | empty => "formula is empty"

/-- Accepts a number of arguments or says what the function takes. -/
def Builtin.checkArity (f : Builtin) (n : Nat) : Except Error Unit :=
  if f.arity.accepts n then .ok () else .error (.arity f n)

end Docket.Formula
