import Docket.Layout.Word

/-! The text inside a rectangle. -/
namespace Docket

/-- How words are gathered in a rectangle. -/
structure RegionRule (α : Type) where
  /-- Least part of a word's area that must lie inside. -/
  minCoverage : α
  /-- Height of a reading line. -/
  lineHeight : α

structure Region (α : Type) where
  text : String
  wordCount : Nat
  box : Option (Rect α)

namespace Region

variable {α : Type} [Scalar α]

/-- Slack of the comparison of coverages. -/
def slack : α := Scalar.ratio 1 1000000000

/-- The words that lie far enough inside. -/
def kept (rule : RegionRule α) (area : Rect α) (ws : List (Word α)) : List (Word α) :=
  ws.filter fun w => rule.minCoverage ≤ w.coverage area + slack

/-- The words inside a rectangle, in reading order. -/
def ordered (rule : RegionRule α) (area : Rect α) (ws : List (Word α)) : List (Word α) :=
  Word.sortReading rule.lineHeight (kept rule area ws)

def collect (rule : RegionRule α) (area : Rect α) (ws : List (Word α)) : Region α :=
  let inside := ordered rule area ws
  ⟨Word.joinTexts inside, inside.length, Word.boundingBox inside⟩

/-- Nothing but white space. -/
def isBlank (r : Region α) : Bool := Text.isBlankText r.text

end Region

def RegionRule.standard {α : Type} [Scalar α] : RegionRule α :=
  ⟨Scalar.ratio 3 10, Scalar.ofNat 5⟩

end Docket
