import Docket.Layout.Rect
import Docket.Text.Trim

/-! Words of a page and their reading order. -/
namespace Docket

/-- A word and the rectangle it fills. -/
structure Word (α : Type) where
  text : String
  box : Rect α

namespace Word

variable {α : Type} [Scalar α]

/-- The part of a word's area that lies in a region. A word without area counts fully when its
corner lies in the region. -/
def coverage (w : Word α) (region : Rect α) : α :=
  let area := w.box.area
  if area ≤ 0 then
    if region.containsPoint w.box.x w.box.y then 1 else 0
  else w.box.intersectionArea region / area

/-- The line of a word, for lines of the given height; without a height lines are one unit high. -/
def line (height : α) (w : Word α) : Int :=
  let height := if 0 < height then height else 1
  Scalar.nearest (w.box.y / height)

/-- By line, then from left to right. -/
def readingOrder (height : α) (a b : Word α) : Ordering :=
  (compare (a.line height) (b.line height)).then (Scalar.compare a.box.x b.box.x)

/-- Words in reading order; ties keep the order they come in. -/
def sortReading (height : α) (ws : List (Word α)) : List (Word α) :=
  ws.mergeSort fun a b => readingOrder height a b != .gt

/-- Texts joined by single spaces, empty ones left out. -/
def joinTexts (ws : List (Word α)) : String :=
  Text.joined " " ((ws.map (·.text)).filter (!·.isEmpty))

/-- The least rectangle around some words. -/
def boundingBox : List (Word α) → Option (Rect α)
  | [] => none
  | w :: ws => some (ws.foldl (fun box w => box.union w.box) w.box)

end Word
end Docket
