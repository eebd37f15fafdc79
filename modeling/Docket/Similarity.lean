import Docket.Scalar
import Docket.Text.Case
import Docket.Text.Trim

/-! How alike two texts are, from 0 to 1: alike but for case and outer space, one inside
the other, sharing words, or agreeing character by character. -/
namespace Docket.Similarity

variable {α : Type} [Scalar α]

/-- A text as it is compared. -/
def normal (s : String) : String := Text.lower (Text.trim s)

def share (part whole : Nat) : α := Scalar.ofNat part / Scalar.ofNat whole

/-- Least score of a text inside another. -/
def containment : α := Scalar.ratio 8 10

/-- A share of words counts from here on, exclusively. -/
def overlapFloor : α := Scalar.ratio 6 10

/-- The different words of a text. -/
def wordSet (s : String) : List String := (Text.words s).eraseDups

/-- The number of positions at which two texts agree. -/
def agreement : List Char → List Char → Nat
  | a :: as, b :: bs => (if a = b then 1 else 0) + agreement as bs
  | _, _ => 0

/-- The share of words two texts have in common, if one has several words and the share is
enough. -/
def overlap? (a b : String) : Option α :=
  let as := wordSet a
  let bs := wordSet b
  if 1 < as.length ∨ 1 < bs.length then
    let common := (as.filter (bs.contains ·)).length
    let s : α := share common (max as.length bs.length)
    if overlapFloor < s then some s else none
  else none

/-- The score of two normal texts. -/
def ofNormal (a b : String) : α :=
  if a.isEmpty || b.isEmpty then 0
  else if a = b then 1
  else if Text.contains a b || Text.contains b a then
    Scalar.max (share (min a.length b.length) (max a.length b.length)) containment
  else
    match overlap? a b with
    | some s => s
    | none => share (agreement a.toList b.toList) (max a.length b.length)

def score (expected found : String) : α := ofNormal (normal expected) (normal found)

end Docket.Similarity
