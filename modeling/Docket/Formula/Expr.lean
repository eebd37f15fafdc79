import Docket.Formula.Token

/-! Expression trees and the references in them. -/
namespace Docket.Formula

inductive UnaryOp
  | neg | plus | not
deriving DecidableEq

inductive BinaryOp
  | pow | mul | div | mod | add | sub | gt | lt | ge | le | eq | ne | and | or
deriving DecidableEq

inductive Expr
  | literal (value : Float)
  | reference (r : Reference)
  | unary (op : UnaryOp) (operand : Expr)
  | binary (op : BinaryOp) (left right : Expr)
  | call (function : Builtin) (args : List Expr)

namespace Expr

mutual
/-- All references, in the order of the source. -/
def references : Expr → List Reference
  | literal _ => []
  | reference r => [r]
  | unary _ e => references e
  | binary _ l r => references l ++ references r
  | call _ args => referencesAll args

def referencesAll : List Expr → List Reference
  | [] => []
  | e :: es => references e ++ referencesAll es
end

end Expr

/-- How tightly the operators bind that join their operands from the left. -/
inductive Level
  | or | and | comparison | additive | multiplicative
deriving DecidableEq

namespace Level

/-- The operators of a level. -/
def operator? : Level → Token → Option BinaryOp
  | .or, .or => some .or
  | .and, .and => some .and
  | .comparison, .gt => some .gt
  | .comparison, .lt => some .lt
  | .comparison, .ge => some .ge
  | .comparison, .le => some .le
  | .comparison, .eq => some .eq
  | .comparison, .ne => some .ne
  | .additive, .plus => some .add
  | .additive, .minus => some .sub
  | .multiplicative, .star => some .mul
  | .multiplicative, .slash => some .div
  | .multiplicative, .percent => some .mod
  | _, _ => none

/-- The next tighter level; below the last are unary operators. -/
def tighter? : Level → Option Level
  | .or => some .and
  | .and => some .comparison
  | .comparison => some .additive
  | .additive => some .multiplicative
  | .multiplicative => none

/-- The number of levels from this one down. -/
def height : Level → Nat
  | .or => 5
  | .and => 4
  | .comparison => 3
  | .additive => 2
  | .multiplicative => 1

theorem height_tighter {k l : Level} (h : k.tighter? = some l) : l.height < k.height := by
  cases k <;> cases h <;> decide

theorem height_pos (k : Level) : 0 < k.height := by cases k <;> decide

end Level

/-- The operator in front of an operand. -/
def Token.unary? : Token → Option UnaryOp
  | minus => some .neg
  | plus => some .plus
  | bang => some .not
  | _ => none

end Docket.Formula
