import Docket.Formula.Parser

/-! Values of expressions. A reference without a value counts as zero and is noted once;
only the branch a condition selects, and only the operand a connective still needs, is
evaluated. Notes made before an error stay. -/
namespace Docket.Formula

/-- Finds the value of a reference. -/
abbrev Resolver := Reference → Option Float

/-- References without a value, in the order they were first met. -/
abbrev Unresolved := List Reference

def note (r : Reference) (seen : Unresolved) : Unresolved :=
  if r ∈ seen then seen else seen ++ [r]

def truthy (x : Float) : Bool := x != 0.0

def flag (b : Bool) : Float := if b then 1.0 else 0.0

def UnaryOp.apply : UnaryOp → Float → Float
  | neg, x => -x
  | plus, x => x
  | not, x => flag (!truthy x)

def BinaryOp.apply : BinaryOp → Float → Float → Except Error Float
  | pow, a, b => .ok (a ^ b)
  | mul, a, b => .ok (a * b)
  | div, a, b => if b == 0.0 then .error .divisionByZero else .ok (a / b)
  | mod, a, b => if b == 0.0 then .error .divisionByZero else .ok (Rounding.remainder a b)
  | add, a, b => .ok (a + b)
  | sub, a, b => .ok (a - b)
  | gt, a, b => .ok (flag (a > b))
  | lt, a, b => .ok (flag (a < b))
  | ge, a, b => .ok (flag (a ≥ b))
  | le, a, b => .ok (flag (a ≤ b))
  | eq, a, b => .ok (flag (a == b))
  | ne, a, b => .ok (flag (a != b))
  | and, a, b => .ok (flag (truthy a && truthy b))
  | or, a, b => .ok (flag (truthy a || truthy b))

/-- The left operand that settles a connective without the right one. -/
def BinaryOp.settles : BinaryOp → Float → Bool
  | and, a => !truthy a
  | or, a => truthy a
  | _, _ => false

/-- Rounds to decimal places, a half away from zero; negative places are tens, hundreds, … -/
def roundTo (x : Float) (places : Int32) : Float :=
  if 0 ≤ places then
    let factor := Rounding.powi 10.0 places
    Rounding.round (x * factor) / factor
  else
    let factor := Rounding.powi 10.0 (-places)
    Rounding.round (x / factor) * factor

/-- A function of arguments that have values, the first apart. -/
def Builtin.apply (f : Builtin) (first : Float) (rest : List Float) : Except Error Float :=
  let all := first :: rest
  match f with
  | choice =>
    match rest with
    | [yes, no] => .ok (if truthy first then yes else no)
    | _ => .error (.arity f all.length)
  | power =>
    match rest with
    | second :: _ => .ok (first ^ second)
    | [] => .error (.arity f all.length)
  | sqrt => if first < 0.0 then .error (.domain f first) else .ok first.sqrt
  | abs => .ok first.abs
  | round =>
    let places := rest.headD 0.0
    if places.isFinite then .ok (roundTo first (Rounding.toInt32 places))
    else .error (.domain f places)
  | floor => .ok (Rounding.floor first)
  | ceil => .ok (Rounding.ceil first)
  | max => .ok (all.foldl Scalar.max (-1.0 / 0.0))
  | min => .ok (all.foldl Scalar.min (1.0 / 0.0))
  | sum => .ok (Scalar.sum all)
  | average => .ok (Scalar.sum all / Float.ofNat all.length)
  | Builtin.all => .ok (flag (all.all truthy))
  | any => .ok (flag (all.any truthy))
  | negation => .ok (flag (!truthy first))

namespace Expr

mutual
/-- The value of an expression and the references noted so far. -/
def eval (resolve : Resolver) : Expr → Unresolved → Except Error Float × Unresolved
  | literal x, seen => (.ok x, seen)
  | reference r, seen =>
    match resolve r with
    | some x => (.ok x, seen)
    | none => (.ok 0.0, note r seen)
  | unary op e, seen =>
    match eval resolve e seen with
    | (.ok x, seen) => (.ok (op.apply x), seen)
    | failed => failed
  | binary op left right, seen =>
    match eval resolve left seen with
    | (.ok a, seen) =>
      if op.settles a then (.ok (flag (truthy a)), seen)
      else
        match eval resolve right seen with
        | (.ok b, seen) => (op.apply a b, seen)
        | failed => failed
    | failed => failed
  | call .choice [condition, yes, no], seen =>
    match eval resolve condition seen with
    | (.ok c, seen) => if truthy c then eval resolve yes seen else eval resolve no seen
    | failed => failed
  | call f args, seen =>
    match f.checkArity args.length with
    | .error e => (.error e, seen)
    | .ok () =>
      match evalAll resolve args seen with
      | (.ok (first :: rest), seen) => (f.apply first rest, seen)
      | (.ok [], seen) => (.error (.arity f 0), seen)
      | (.error e, seen) => (.error e, seen)

/-- Values from left to right, up to the first error. -/
def evalAll (resolve : Resolver) : List Expr → Unresolved → Except Error (List Float) × Unresolved
  | [], seen => (.ok [], seen)
  | e :: es, seen =>
    match eval resolve e seen with
    | (.ok x, seen) =>
      match evalAll resolve es seen with
      | (.ok xs, seen) => (.ok (x :: xs), seen)
      | failed => failed
    | (.error e, seen) => (.error e, seen)
end

/-- The value if it is finite; `seen` holds what earlier evaluations noted. -/
def evaluate (resolve : Resolver) (e : Expr) (seen : Unresolved) :
    Except Error Float × Unresolved :=
  match e.eval resolve seen with
  | (.ok x, seen) => (if x.isFinite then .ok x else .error .nonFinite, seen)
  | failed => failed

end Expr
end Docket.Formula
