import Docket.Layout.Rect

/-! The map from the places of a template to the places of a document. -/
namespace Docket

/-- Scales, then shifts. -/
structure Transformation (α : Type) where
  offsetX : α
  offsetY : α
  scaleX : α
  scaleY : α
  /-- How far the offsets of the anchors spread, from 0 to 1. -/
  distortion : α
  /-- How far the map is trusted, from 0 to 1. -/
  confidence : α

namespace Transformation

variable {α : Type} [Scalar α]

/-- The map that moves nothing. -/
def unmoved (confidence : α) : Transformation α := ⟨0, 0, 1, 1, 0, confidence⟩

def identity : Transformation α := unmoved 1

/-- Whether every place stays where it is. -/
def isIdentity (t : Transformation α) : Bool :=
  t.offsetX == 0 && t.offsetY == 0 && t.scaleX == 1 && t.scaleY == 1

def apply (t : Transformation α) (r : Rect α) : Rect α :=
  ⟨r.x * t.scaleX + t.offsetX, r.y * t.scaleY + t.offsetY, r.width * t.scaleX,
    r.height * t.scaleY⟩

end Transformation
end Docket
