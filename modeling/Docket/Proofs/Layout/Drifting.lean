import Docket.Proofs.Layout.Coverage
import Docket.Calibration.Transformation

/-! Words and rectangles that drift together. Positive scales stretch the two axes, each by its own
factor, and the offsets shift them. The parts of a word that lie in a region stay what they were, so
the same words are kept. To move together is to drift without a change of scale. -/
namespace Docket

variable {K : Type} [ExactNumber K]

namespace Span

def scaled (factor shift : K) (s : Span K) : Span K :=
  ⟨s.start * factor + shift, s.stop * factor + shift⟩

section Scaled
variable {factor : K} (positive : 0 < factor) (shift : K) (s other : Span K)

theorem length_scaled : (s.scaled factor shift).length = s.length * factor := by
  simp only [length, scaled]
  ring

include positive

theorem overlap_scaled :
    (s.scaled factor shift).overlap (other.scaled factor shift) = s.overlap other * factor := by
  have starts : max (s.start * factor + shift) (other.start * factor + shift) =
      max s.start other.start * factor + shift := by
    rw [max_add_add_right, max_mul_of_nonneg _ _ positive.le]
  have stops : min (s.stop * factor + shift) (other.stop * factor + shift) =
      min s.stop other.stop * factor + shift := by
    rw [min_add_add_right, min_mul_of_nonneg _ _ positive.le]
  simp only [overlap, scaled, starts, stops]
  rw [add_sub_add_right_eq_sub, ← sub_mul, max_mul_of_nonneg _ _ positive.le, zero_mul]

theorem part_scaled : (s.scaled factor shift).part (other.scaled factor shift) = s.part other := by
  rw [part, overlap_scaled positive, length_scaled, mul_div_mul_right _ _ positive.ne', part]

theorem within_scaled :
    (s.scaled factor shift).Within (other.scaled factor shift) ↔ s.Within other := by
  simp only [Within, scaled, add_le_add_iff_right, mul_le_mul_iff_of_pos_right positive]

end Scaled
end Span

/-- Positive scales turn nothing over and make nothing flat. -/
structure Transformation.Upright (t : Transformation K) : Prop where
  across : 0 < t.scaleX
  down : 0 < t.scaleY

/-- A word drawn where a transformation takes it. -/
def Word.drifted (t : Transformation K) (w : Word K) : Word K := { w with box := t.apply w.box }

section Upright
variable {t : Transformation K}

theorem Rect.across_apply (t : Transformation K) (r : Rect K) :
    (t.apply r).across = r.across.scaled t.scaleX t.offsetX := by
  have stop : (t.apply r).right = r.right * t.scaleX + t.offsetX := by
    simp only [Transformation.apply, right]
    ring
  rw [across, stop]
  rfl

theorem Rect.down_apply (t : Transformation K) (r : Rect K) :
    (t.apply r).down = r.down.scaled t.scaleY t.offsetY := by
  have stop : (t.apply r).bottom = r.bottom * t.scaleY + t.offsetY := by
    simp only [Transformation.apply, bottom]
    ring
  rw [down, stop]
  rfl

variable (upright : t.Upright)
include upright

theorem Rect.within_apply (r outer : Rect K) :
    (t.apply r).Within (t.apply outer) ↔ r.Within outer := by
  simp only [Within, across_apply, down_apply, Span.within_scaled upright.across,
    Span.within_scaled upright.down]

theorem Rect.area_apply_pos (r : Rect K) : 0 < (t.apply r).area ↔ 0 < r.area := by
  rw [area_pos_iff, area_pos_iff]
  exact and_congr (mul_pos_iff_of_pos_right upright.across) (mul_pos_iff_of_pos_right upright.down)

theorem Word.coverage_drifted (w : Word K) (region : Rect K) :
    (w.drifted t).coverage (t.apply region) = w.coverage region := by
  have area : 0 < (w.drifted t).box.area ↔ 0 < w.box.area := Rect.area_apply_pos upright w.box
  by_cases positive : 0 < w.box.area
  · rw [coverage_of_pos positive, coverage_of_pos (area.mpr positive)]
    simp only [drifted, Rect.across_apply, Rect.down_apply, Span.part_scaled upright.across,
      Span.part_scaled upright.down]
  · have corner : (⟨(w.drifted t).box.x, (w.drifted t).box.y, 0, 0⟩ : Rect K) =
        t.apply ⟨w.box.x, w.box.y, 0, 0⟩ := by
      simp only [drifted, Transformation.apply, zero_mul]
    rw [coverage_of_flat positive, coverage_of_flat (mt area.mp positive), corner]
    simp only [Rect.within_apply upright]

theorem Region.kept_drifted (rule : RegionRule K) (area : Rect K) (ws : List (Word K)) :
    kept rule (t.apply area) (ws.map (·.drifted t)) = (kept rule area ws).map (·.drifted t) := by
  rw [kept, kept, List.filter_map]
  congr 1
  apply List.filter_congr
  intro w _
  simp only [Function.comp, Word.coverage_drifted upright]

end Upright

/-- A way across the page. -/
structure Move (K : Type) where
  right : K
  down : K

def Rect.moved (v : Move K) (r : Rect K) : Rect K :=
  ⟨r.x + v.right, r.y + v.down, r.width, r.height⟩

def Word.moved (v : Move K) (w : Word K) : Word K := { w with box := w.box.moved v }

/-- The drift that a move is. -/
def Move.transformation (v : Move K) : Transformation K := ⟨v.right, v.down, 1, 1, 0, 1⟩

theorem Move.upright (v : Move K) : v.transformation.Upright := ⟨zero_lt_one, zero_lt_one⟩

theorem Rect.moved_eq (v : Move K) (r : Rect K) : r.moved v = v.transformation.apply r := by
  simp only [moved, Move.transformation, Transformation.apply, mul_one]

theorem Word.moved_eq (v : Move K) (w : Word K) : w.moved v = w.drifted v.transformation := by
  rw [moved, drifted, Rect.moved_eq]

/-- A rectangle keeps the words it kept before both were moved. -/
theorem Region.kept_moved (v : Move K) (rule : RegionRule K) (area : Rect K) (ws : List (Word K)) :
    kept rule (area.moved v) (ws.map (·.moved v)) = (kept rule area ws).map (·.moved v) := by
  simp only [Word.moved_eq, Rect.moved_eq]
  exact kept_drifted v.upright rule area ws

/-- A rectangle holds the words it held before both were moved, but their lines may differ. -/
theorem Region.ordered_moved (v : Move K) (rule : RegionRule K) (area : Rect K)
    (ws : List (Word K)) :
    (ordered rule (area.moved v) (ws.map (·.moved v))).Perm
      ((ordered rule area ws).map (·.moved v)) := by
  have moved := ordered_perm rule (area.moved v) (ws.map (·.moved v))
  rw [kept_moved] at moved
  exact moved.trans ((ordered_perm rule area ws).map _).symm

end Docket
