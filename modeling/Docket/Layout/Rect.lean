import Docket.Scalar

/-! Rectangles on a page. The origin is the top left corner of the page and y grows
downwards; a rectangle is given by its own top left corner and its size. -/
namespace Docket

structure Rect (α : Type) where
  x : α
  y : α
  width : α
  height : α
deriving DecidableEq

namespace Rect

variable {α : Type} [Scalar α]

def right (r : Rect α) : α := r.x + r.width

def bottom (r : Rect α) : α := r.y + r.height

/-- Negative sizes count as none. -/
def area (r : Rect α) : α := Scalar.max r.width 0 * Scalar.max r.height 0

def containsPoint (r : Rect α) (x y : α) : Bool :=
  r.x ≤ x && x ≤ r.right && r.y ≤ y && y ≤ r.bottom

/-- Area shared with another rectangle. -/
def intersectionArea (a b : Rect α) : α :=
  let x1 := Scalar.max a.x b.x
  let y1 := Scalar.max a.y b.y
  let x2 := Scalar.min a.right b.right
  let y2 := Scalar.min a.bottom b.bottom
  if x2 ≤ x1 ∨ y2 ≤ y1 then 0 else (x2 - x1) * (y2 - y1)

/-- The least rectangle that contains both. -/
def union (a b : Rect α) : Rect α :=
  let x := Scalar.min a.x b.x
  let y := Scalar.min a.y b.y
  let right := Scalar.max a.right b.right
  let bottom := Scalar.max a.bottom b.bottom
  ⟨x, y, right - x, bottom - y⟩

/-- Distance between the top left corners. -/
def originDistance (a b : Rect α) : α :=
  let dx := a.x - b.x
  let dy := a.y - b.y
  Scalar.sqrt (dx * dx + dy * dy)

end Rect
end Docket
