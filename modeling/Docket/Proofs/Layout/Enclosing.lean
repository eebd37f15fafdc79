import Docket.Proofs.Layout.Coverage
import Docket.Proofs.Layout.Phrases

/-! The box around words, in exact arithmetic. The union of two rectangles lies in another one
exactly if both of them do, so a box that is gathered union by union lies in a rectangle exactly if
all the words do. Two rectangles that lie in the same ones are equal. Neither the order of the words
nor the way they are grouped can therefore change their box. -/
namespace Docket

variable {K : Type} [ExactNumber K]

namespace Span

/-- The shortest stretch with both in it. -/
def hull (s other : Span K) : Span K := ⟨min s.start other.start, max s.stop other.stop⟩

theorem hull_within_iff (s other outer : Span K) :
    (s.hull other).Within outer ↔ s.Within outer ∧ other.Within outer := by
  unfold Within hull
  rw [le_min_iff, max_le_iff, and_and_and_comm]

theorem Within.antisymm {s other : Span K} (inside : s.Within other) (around : other.Within s) :
    s = other := by
  have starts : s.start = other.start := le_antisymm around.1 inside.1
  have stops : s.stop = other.stop := le_antisymm inside.2 around.2
  cases s
  cases other
  rw [mk.injEq]
  exact ⟨starts, stops⟩

end Span

namespace Rect

theorem across_union (a b : Rect K) : (a.union b).across = a.across.hull b.across := by
  simp only [across, right, union, Exact.min_eq, Exact.max_eq, Span.hull, add_sub_cancel]

theorem down_union (a b : Rect K) : (a.union b).down = a.down.hull b.down := by
  simp only [down, bottom, union, Exact.min_eq, Exact.max_eq, Span.hull, add_sub_cancel]

theorem union_within_iff (a b outer : Rect K) :
    (a.union b).Within outer ↔ a.Within outer ∧ b.Within outer := by
  unfold Within
  rw [across_union, down_union, Span.hull_within_iff, Span.hull_within_iff, and_and_and_comm]

theorem Within.refl (r : Rect K) : r.Within r := ⟨⟨le_rfl, le_rfl⟩, ⟨le_rfl, le_rfl⟩⟩

theorem eq_of_spans {r other : Rect K} (across : r.across = other.across)
    (down : r.down = other.down) : r = other := by
  have width : r.width = other.width := by rw [← length_across, across, length_across]
  have height : r.height = other.height := by rw [← length_down, down, length_down]
  have x : r.x = other.x := congrArg Span.start across
  have y : r.y = other.y := congrArg Span.start down
  cases r
  cases other
  rw [mk.injEq]
  exact ⟨x, y, width, height⟩

/-- A rectangle is fixed by those that it lies in. -/
theorem eq_of_within_iff {r other : Rect K}
    (same : ∀ outer, r.Within outer ↔ other.Within outer) : r = other := by
  have inside : r.Within other := (same other).mpr (.refl other)
  have around : other.Within r := (same r).mp (.refl r)
  exact eq_of_spans (inside.1.antisymm around.1) (inside.2.antisymm around.2)

/-- The points of a rectangle. There are none where a size is negative. -/
def points (r : Rect K) : Set (K × K) := {p | r.containsPoint p.1 p.2 = true}

/-- Neither size is negative. -/
structure Sized (r : Rect K) : Prop where
  width : 0 ≤ r.width
  height : 0 ≤ r.height

theorem mem_points {r : Rect K} {x y : K} :
    (x, y) ∈ r.points ↔ (r.x ≤ x ∧ x ≤ r.right) ∧ r.y ≤ y ∧ y ≤ r.bottom := by
  simp only [points, containsPoint, Set.mem_ofPred_eq, Bool.and_eq_true, decide_eq_true_iff,
    and_assoc]

theorem Sized.edges {r : Rect K} (sized : r.Sized) : r.x ≤ r.right ∧ r.y ≤ r.bottom :=
  ⟨le_add_of_nonneg_right sized.width, le_add_of_nonneg_right sized.height⟩

theorem Sized.of_within {r outer : Rect K} (sized : r.Sized) (within : r.Within outer) :
    outer.Sized := by
  obtain ⟨across, down⟩ := sized.edges
  obtain ⟨⟨left, right⟩, top, bottom⟩ := within
  constructor
  · rw [← length_across]
    exact sub_nonneg.mpr (left.trans (across.trans right))
  · rw [← length_down]
    exact sub_nonneg.mpr (top.trans (down.trans bottom))

/-- All points of a rectangle lie in another one exactly if none of its edges lies further out. -/
theorem points_subset_iff {r : Rect K} (sized : r.Sized) (outer : Rect K) :
    r.points ⊆ outer.points ↔ r.Within outer := by
  constructor
  · intro subset
    -- the corners at the top left and at the bottom right have an edge of either axis each
    obtain ⟨across, down⟩ := sized.edges
    have first : (r.x, r.y) ∈ r.points := mem_points.mpr ⟨⟨le_rfl, across⟩, le_rfl, down⟩
    have last : (r.right, r.bottom) ∈ r.points := mem_points.mpr ⟨⟨across, le_rfl⟩, down, le_rfl⟩
    obtain ⟨⟨left, -⟩, top, -⟩ := mem_points.mp (subset first)
    obtain ⟨⟨-, right⟩, -, bottom⟩ := mem_points.mp (subset last)
    exact ⟨⟨left, right⟩, top, bottom⟩
  · rintro within ⟨x, y⟩ known
    have inside := (r.containsPoint_iff x y).mp known
    exact (outer.containsPoint_iff x y).mpr (inside.trans within)

end Rect

namespace Word

theorem foldl_union_within_iff (ws : List (Word K)) (start outer : Rect K) :
    (ws.foldl (fun box w => box.union w.box) start).Within outer ↔
      start.Within outer ∧ ∀ w ∈ ws, w.box.Within outer := by
  induction ws generalizing start with
  | nil => simp
  | cons w ws ih =>
    rw [List.foldl_cons, ih, Rect.union_within_iff, and_assoc, List.forall_mem_cons]

/-- The box around words is the rectangle that lies in just those that all the words lie in. -/
theorem boundingBox_eq_some_iff {ws : List (Word K)} {box : Rect K} :
    boundingBox ws = some box ↔
      ws ≠ [] ∧ ∀ outer, box.Within outer ↔ ∀ w ∈ ws, w.box.Within outer := by
  cases ws with
  | nil => simp [boundingBox]
  | cons w ws =>
    have gathered (outer : Rect K) :
        (ws.foldl (fun box w => box.union w.box) w.box).Within outer ↔
          ∀ v ∈ w :: ws, v.box.Within outer := by
      rw [foldl_union_within_iff, List.forall_mem_cons]
    rw [boundingBox, Option.some_inj]
    constructor
    · rintro rfl
      exact ⟨List.cons_ne_nil w ws, gathered⟩
    · rintro ⟨-, told⟩
      exact Rect.eq_of_within_iff fun outer => (gathered outer).trans (told outer).symm

theorem boundingBox_perm {ws ws' : List (Word K)} (perm : ws'.Perm ws) :
    boundingBox ws' = boundingBox ws := by
  have empty : ws' = [] ↔ ws = [] := by rw [← List.perm_nil, perm.congr_left, List.perm_nil]
  refine Option.ext fun box => ?_
  simp only [boundingBox_eq_some_iff, ne_eq, empty, perm.mem_iff]

theorem boundingBox_append {ws more : List (Word K)} {box box' : Rect K}
    (boxed : boundingBox ws = some box) (boxed' : boundingBox more = some box') :
    boundingBox (ws ++ more) = some (box.union box') := by
  obtain ⟨nonempty, around⟩ := boundingBox_eq_some_iff.mp boxed
  obtain ⟨-, around'⟩ := boundingBox_eq_some_iff.mp boxed'
  refine boundingBox_eq_some_iff.mpr ⟨List.append_ne_nil_of_left_ne_nil nonempty more, ?_⟩
  intro outer
  rw [Rect.union_within_iff, around, around', List.forall_mem_append]

/-- The least rectangle with all points of some words in it. -/
structure IsLeastAround (ws : List (Word K)) (box : Rect K) : Prop where
  sized : box.Sized
  around : ∀ w ∈ ws, w.box.points ⊆ box.points
  least : ∀ outer : Rect K, (∀ w ∈ ws, w.box.points ⊆ outer.points) → box.points ⊆ outer.points

theorem isLeastAround_of_boundingBox {ws : List (Word K)} {box : Rect K}
    (boxed : boundingBox ws = some box) (sized : ∀ w ∈ ws, w.box.Sized) :
    IsLeastAround ws box := by
  obtain ⟨nonempty, told⟩ := boundingBox_eq_some_iff.mp boxed
  have inside : ∀ w ∈ ws, w.box.Within box := (told box).mp (.refl box)
  obtain ⟨first, known⟩ := List.exists_mem_of_ne_nil ws nonempty
  have whole : box.Sized := (sized first known).of_within (inside first known)
  refine ⟨whole, ?_, ?_⟩
  · intro w known
    exact (Rect.points_subset_iff (sized w known) box).mpr (inside w known)
  · intro outer holds
    rw [Rect.points_subset_iff whole, told]
    intro w known
    exact (Rect.points_subset_iff (sized w known) outer).mp (holds w known)

/-- Words have a box, which is the least rectangle around them. It is the same in every order of the
words, and its union with the box of more words is the box of them all. -/
theorem boundingBox_least {ws : List (Word K)} (nonempty : ws ≠ [])
    (sized : ∀ w ∈ ws, w.box.Sized) :
    ∃ box, boundingBox ws = some box ∧ IsLeastAround ws box ∧
      (∀ ws', ws'.Perm ws → boundingBox ws' = some box) ∧
      ∀ more, more ≠ [] →
        ∃ box', boundingBox more = some box' ∧ boundingBox (ws ++ more) = some (box.union box') := by
  have boxes {ws : List (Word K)} (nonempty : ws ≠ []) : ∃ box, boundingBox ws = some box :=
    Option.isSome_iff_exists.mp (Phrase.isSome_boundingBox_of_ne_nil nonempty)
  obtain ⟨box, boxed⟩ := boxes nonempty
  refine ⟨box, boxed, isLeastAround_of_boundingBox boxed sized, ?_, ?_⟩
  · intro ws' perm
    exact (boundingBox_perm perm).trans boxed
  · intro more some
    obtain ⟨box', boxed'⟩ := boxes some
    exact ⟨box', boxed', boundingBox_append boxed boxed'⟩

def onGrid (text : String) (x y width height : ℕ) : Word K := ⟨text, ⟨x, y, width, height⟩⟩

theorem sized_onGrid (text : String) (x y width height : ℕ) :
    (onGrid text x y width height : Word K).box.Sized :=
  ⟨Nat.cast_nonneg width, Nat.cast_nonneg height⟩

/-- Two words of one line and one below them. -/
def invoice (K : Type) [ExactNumber K] : List (Word K) :=
  [onGrid "Invoice" 50 102 40 10, onGrid "Total" 95 100 30 11, onGrid "Due" 50 120 20 10]

theorem boundingBox_least_invoice :
    invoice ℝ ≠ [] ∧ (∀ w ∈ invoice ℝ, w.box.Sized) ∧
      IsLeastAround (invoice ℝ) ⟨50, 100, 75, 30⟩ ∧
      boundingBox (invoice ℝ).reverse = some ⟨50, 100, 75, 30⟩ ∧
      boundingBox (invoice ℝ ++ [atCorner ℝ]) = some ⟨5, 5, 120, 125⟩ := by
  have nonempty : invoice ℝ ≠ [] := List.cons_ne_nil _ _
  have sized : ∀ w ∈ invoice ℝ, w.box.Sized := by simp [invoice, sized_onGrid]
  have whole : boundingBox (invoice ℝ) = some ⟨50, 100, 75, 30⟩ := by
    norm_num [boundingBox, invoice, onGrid, Rect.union, Rect.right, Rect.bottom, Exact.min_eq,
      Exact.max_eq]
  obtain ⟨box, boxed, least, reordered, grouped⟩ := boundingBox_least nonempty sized
  obtain rfl : (⟨50, 100, 75, 30⟩ : Rect ℝ) = box := Option.some.inj (whole.symm.trans boxed)
  obtain ⟨box', boxed', joined⟩ := grouped [atCorner ℝ] (List.cons_ne_nil _ _)
  obtain rfl : (atCorner ℝ).box = box' := Option.some.inj boxed'
  refine ⟨nonempty, sized, least, reordered _ (List.reverse_perm _), joined.trans ?_⟩
  norm_num [atCorner, Rect.union, Rect.right, Rect.bottom, Exact.min_eq, Exact.max_eq]

end Word
end Docket
