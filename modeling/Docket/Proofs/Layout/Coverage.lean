import Docket.Proofs.Exact
import Docket.Layout.Region

/-! How much of a word lies in a rectangle. A rectangle is a stretch across the page and one down
it, and the part of a word inside is the part of the one stretch times that of the other. Each of
these is a fraction that is whole only for a stretch inside and that grows with what it lies in. A
word without area has no such parts; its corner is inside or not. -/
namespace Docket

/-- A stretch of an axis. It has none to it where the end lies before the start. -/
structure Span (K : Type) where
  start : K
  stop : K

theorem Region.ordered_perm {α : Type} [Scalar α] (rule : RegionRule α) (area : Rect α)
    (ws : List (Word α)) : (ordered rule area ws).Perm (kept rule area ws) :=
  List.mergeSort_perm ..

section Exact
variable {K : Type} [ExactNumber K]

namespace Span

def length (s : Span K) : K := s.stop - s.start

def Within (s outer : Span K) : Prop := outer.start ≤ s.start ∧ s.stop ≤ outer.stop

instance (s outer : Span K) : Decidable (s.Within outer) := inferInstanceAs (Decidable (_ ∧ _))

def overlap (s other : Span K) : K := max 0 (min s.stop other.stop - max s.start other.start)

/-- The part of a stretch that lies in another one. -/
def part (s other : Span K) : K := s.overlap other / s.length

theorem overlap_mono (s : Span K) {other outer : Span K} (within : other.Within outer) :
    s.overlap other ≤ s.overlap outer := by
  have starts : max s.start outer.start ≤ max s.start other.start := max_le_max_left _ within.1
  have stops : min s.stop other.stop ≤ min s.stop outer.stop := min_le_min_left _ within.2
  exact max_le_max_left _ (sub_le_sub stops starts)

theorem overlap_le_length {s : Span K} (positive : 0 < s.length) (other : Span K) :
    s.overlap other ≤ s.length := by
  apply max_le positive.le
  exact sub_le_sub (min_le_left _ _) (le_max_left _ _)

theorem overlap_eq_length_iff {s : Span K} (positive : 0 < s.length) (other : Span K) :
    s.overlap other = s.length ↔ s.Within other := by
  constructor
  · intro whole
    have shared : min s.stop other.stop - max s.start other.start = s.length := by
      rcases max_choice 0 (min s.stop other.stop - max s.start other.start) with none | some
      · exact absurd (none.symm.trans whole) positive.ne
      · exact some.symm.trans whole
    have starts := le_max_left s.start other.start
    have stops := min_le_left s.stop other.stop
    unfold length at shared
    constructor
    · linarith [le_max_right s.start other.start]
    · linarith [min_le_right s.stop other.stop]
  · rintro ⟨starts, stops⟩
    rw [overlap, min_eq_left stops, max_eq_left starts]
    exact max_eq_right positive.le

section Part
variable {s : Span K} (positive : 0 < s.length) (other : Span K)
include positive

theorem part_nonneg : 0 ≤ s.part other :=
  div_nonneg (le_max_left _ _) positive.le

theorem part_le_one : s.part other ≤ 1 :=
  (div_le_one positive).mpr (overlap_le_length positive other)

theorem part_eq_one_iff : s.part other = 1 ↔ s.Within other :=
  (div_eq_one_iff_eq positive.ne').trans (overlap_eq_length_iff positive other)

theorem part_mono {other outer : Span K} (within : other.Within outer) :
    s.part other ≤ s.part outer :=
  div_le_div_of_nonneg_right (s.overlap_mono within) positive.le

end Part
end Span

namespace Rect

def across (r : Rect K) : Span K := ⟨r.x, r.right⟩

def down (r : Rect K) : Span K := ⟨r.y, r.bottom⟩

/-- No edge lies further out. -/
def Within (r outer : Rect K) : Prop := r.across.Within outer.across ∧ r.down.Within outer.down

instance (r outer : Rect K) : Decidable (r.Within outer) := inferInstanceAs (Decidable (_ ∧ _))

@[simp] theorem length_across (r : Rect K) : r.across.length = r.width := add_sub_cancel_left ..

@[simp] theorem length_down (r : Rect K) : r.down.length = r.height := add_sub_cancel_left ..

theorem area_eq (r : Rect K) : r.area = max r.width 0 * max r.height 0 := by
  rw [area, Exact.max_eq, Exact.max_eq]

theorem area_pos_iff (r : Rect K) : 0 < r.area ↔ 0 < r.width ∧ 0 < r.height := by
  have sign (a : K) : 0 < max a 0 ↔ 0 < a := by simp
  have nonneg (a : K) : 0 ≤ max a 0 := le_max_right _ _
  rw [area_eq, ← sign r.width, ← sign r.height]
  constructor
  · intro positive
    exact ⟨(nonneg _).lt_of_ne' (left_ne_zero_of_mul positive.ne'),
      (nonneg _).lt_of_ne' (right_ne_zero_of_mul positive.ne')⟩
  · rintro ⟨across, down⟩
    exact mul_pos across down

theorem area_of_pos {r : Rect K} (across : 0 < r.width) (down : 0 < r.height) :
    r.area = r.width * r.height := by
  rw [area_eq, max_eq_left across.le, max_eq_left down.le]

theorem intersectionArea_eq (a b : Rect K) :
    a.intersectionArea b = a.across.overlap b.across * a.down.overlap b.down := by
  simp only [intersectionArea, Exact.max_eq, Exact.min_eq, Span.overlap, across, down]
  split
  · rename_i apart
    rcases apart with apart | apart
    · rw [max_eq_left (sub_nonpos.mpr apart), zero_mul]
    · rw [max_eq_left (sub_nonpos.mpr apart), mul_zero]
  · rename_i meet
    obtain ⟨across, down⟩ := not_or.mp meet
    rw [max_eq_right (sub_nonneg.mpr (not_le.mp across).le),
      max_eq_right (sub_nonneg.mpr (not_le.mp down).le)]

theorem containsPoint_iff (r : Rect K) (x y : K) :
    r.containsPoint x y = true ↔ Within ⟨x, y, 0, 0⟩ r := by
  have right : (⟨x, y, 0, 0⟩ : Rect K).right = x := add_zero x
  have bottom : (⟨x, y, 0, 0⟩ : Rect K).bottom = y := add_zero y
  simp only [containsPoint, Bool.and_eq_true, decide_eq_true_iff, Within, Span.Within, across, down,
    right, bottom, and_assoc]

theorem Within.trans {r middle outer : Rect K} (first : r.Within middle)
    (second : middle.Within outer) : r.Within outer :=
  ⟨⟨second.1.1.trans first.1.1, first.1.2.trans second.1.2⟩,
    ⟨second.2.1.trans first.2.1, first.2.2.trans second.2.2⟩⟩

end Rect

namespace Word

/-- The part of a word in a region is its part across times its part down. -/
theorem coverage_of_pos {w : Word K} (positive : 0 < w.box.area) (region : Rect K) :
    w.coverage region = w.box.across.part region.across * w.box.down.part region.down := by
  obtain ⟨across, down⟩ := w.box.area_pos_iff.mp positive
  rw [coverage, if_neg (not_le.mpr positive), Rect.intersectionArea_eq,
    Rect.area_of_pos across down, Span.part, Span.part, Rect.length_across, Rect.length_down,
    div_mul_div_comm]

theorem coverage_of_flat {w : Word K} (flat : ¬ 0 < w.box.area) (region : Rect K) :
    w.coverage region = if Rect.Within ⟨w.box.x, w.box.y, 0, 0⟩ region then 1 else 0 := by
  rw [coverage, if_pos (not_lt.mp flat)]
  simp only [Rect.containsPoint_iff]

theorem sides_pos {w : Word K} (positive : 0 < w.box.area) :
    0 < w.box.across.length ∧ 0 < w.box.down.length := by
  rw [Rect.length_across, Rect.length_down]
  exact w.box.area_pos_iff.mp positive

theorem coverage_nonneg (w : Word K) (region : Rect K) : 0 ≤ w.coverage region := by
  by_cases positive : 0 < w.box.area
  · obtain ⟨across, down⟩ := sides_pos positive
    rw [coverage_of_pos positive]
    exact mul_nonneg (Span.part_nonneg across _) (Span.part_nonneg down _)
  · rw [coverage_of_flat positive]
    split
    · exact zero_le_one
    · exact le_refl 0

theorem coverage_le_one (w : Word K) (region : Rect K) : w.coverage region ≤ 1 := by
  by_cases positive : 0 < w.box.area
  · obtain ⟨across, down⟩ := sides_pos positive
    rw [coverage_of_pos positive]
    exact mul_le_one₀ (Span.part_le_one across _) (Span.part_nonneg down _)
      (Span.part_le_one down _)
  · rw [coverage_of_flat positive]
    split
    · exact le_refl 1
    · exact zero_le_one

theorem coverage_eq_one_iff {w : Word K} (positive : 0 < w.box.area) (region : Rect K) :
    w.coverage region = 1 ↔ w.box.Within region := by
  obtain ⟨across, down⟩ := sides_pos positive
  rw [coverage_of_pos positive, Rect.Within, ← Span.part_eq_one_iff across,
    ← Span.part_eq_one_iff down]
  have nonneg := Span.part_nonneg across region.across
  have nonneg' := Span.part_nonneg down region.down
  have most := Span.part_le_one across region.across
  have most' := Span.part_le_one down region.down
  constructor
  · -- a product of two fractions is no greater than either of them
    intro whole
    have first := mul_le_of_le_one_right nonneg most'
    have second := mul_le_of_le_one_left nonneg' most
    rw [whole] at first second
    exact ⟨le_antisymm most first, le_antisymm most' second⟩
  · rintro ⟨first, second⟩
    rw [first, second, one_mul]

theorem coverage_mono (w : Word K) {region wider : Rect K} (within : region.Within wider) :
    w.coverage region ≤ w.coverage wider := by
  by_cases positive : 0 < w.box.area
  · obtain ⟨across, down⟩ := sides_pos positive
    rw [coverage_of_pos positive, coverage_of_pos positive]
    exact mul_le_mul (Span.part_mono across within.1) (Span.part_mono down within.2)
      (Span.part_nonneg down _) (Span.part_nonneg across _)
  · rw [coverage_of_flat positive, coverage_of_flat positive]
    split
    · rename_i inside
      rw [if_pos (inside.trans within)]
    · split
      · exact zero_le_one
      · exact le_refl 0

end Word

namespace Region

theorem kept_sublist (rule : RegionRule K) {region wider : Rect K} (within : region.Within wider)
    (ws : List (Word K)) : (kept rule region ws).Sublist (kept rule wider ws) := by
  apply List.monotone_filter_right
  intro w enough
  rw [decide_eq_true_iff] at enough ⊢
  exact enough.trans (add_le_add_left (w.coverage_mono within) _)

theorem ordered_subperm (rule : RegionRule K) {region wider : Rect K}
    (within : region.Within wider) (ws : List (Word K)) :
    (ordered rule region ws).Subperm (ordered rule wider ws) :=
  (ordered_perm rule region ws).subperm.trans
    ((kept_sublist rule within ws).subperm.trans (ordered_perm rule wider ws).symm.subperm)

/-- The part of a word that lies in a rectangle is a fraction, whole only for a word inside, and no
less in a wider rectangle. What a rectangle holds of any words therefore stays in a wider one. -/
theorem coverage_grows (region : Rect K) :
    (∀ w : Word K, 0 ≤ w.coverage region ∧ w.coverage region ≤ 1) ∧
      (∀ w : Word K, 0 < w.box.area → (w.coverage region = 1 ↔ w.box.Within region)) ∧
      ∀ wider, region.Within wider →
        (∀ w : Word K, w.coverage region ≤ w.coverage wider) ∧
          ∀ (rule : RegionRule K) (ws : List (Word K)),
            (ordered rule region ws).Subperm (ordered rule wider ws) := by
  refine ⟨?_, ?_, ?_⟩
  · intro w
    exact ⟨w.coverage_nonneg region, w.coverage_le_one region⟩
  · intro w positive
    exact Word.coverage_eq_one_iff positive region
  · intro wider within
    exact ⟨fun w => w.coverage_mono within, fun rule ws => ordered_subperm rule within ws⟩

end Region
end Exact

/-- A word at the corner of a region, with three quarters of it outside. -/
def Word.atCorner (K : Type) [ExactNumber K] : Word K := ⟨"Total", ⟨5, 5, 10, 10⟩⟩

theorem Region.coverage_grows_atCorner :
    0 < (Word.atCorner ℝ).box.area ∧ Rect.Within (⟨0, 0, 10, 10⟩ : Rect ℝ) ⟨0, 0, 20, 20⟩ ∧
      (Word.atCorner ℝ).coverage ⟨0, 0, 20, 20⟩ = 1 ∧
      (Word.atCorner ℝ).coverage ⟨0, 0, 10, 10⟩ ≤ 1 ∧
      (ordered .standard ⟨0, 0, 10, 10⟩ [Word.atCorner ℝ]).Subperm
        (ordered .standard ⟨0, 0, 20, 20⟩ [Word.atCorner ℝ]) := by
  have positive : 0 < (Word.atCorner ℝ).box.area := by
    rw [Rect.area_pos_iff]
    norm_num [Word.atCorner]
  have within : Rect.Within (⟨0, 0, 10, 10⟩ : Rect ℝ) ⟨0, 0, 20, 20⟩ := by
    norm_num [Rect.Within, Span.Within, Rect.across, Rect.down, Rect.right, Rect.bottom]
  have inside : (Word.atCorner ℝ).box.Within ⟨0, 0, 20, 20⟩ := by
    norm_num [Word.atCorner, Rect.Within, Span.Within, Rect.across, Rect.down, Rect.right,
      Rect.bottom]
  obtain ⟨fractions, -, grows⟩ := coverage_grows (⟨0, 0, 10, 10⟩ : Rect ℝ)
  obtain ⟨-, whole, -⟩ := coverage_grows (⟨0, 0, 20, 20⟩ : Rect ℝ)
  exact ⟨positive, within, (whole _ positive).mpr inside, (fractions _).2,
    (grows _ within).2 .standard _⟩

end Docket
