import Docket.Pdf.Document
import Docket.Proofs.Number.Comparing

/-! Where a page takes its box from. The dictionaries above a page are searched from the page
upwards, and the first of them that holds four numbers gives the box. However the parents of a
document are linked, no more than 33 dictionaries are searched. -/
namespace Docket.Pdf

/-- Whatever the two floats are, the lesser is at most the greater, unless neither is a number. -/
theorem min_le_max (x y : Float) :
    Scalar.min x y ≤ Scalar.max x y ∨ x.isNaN = true ∧ y.isNaN = true := by
  have self {z : Float} (number : z.isNaN = false) : z ≤ z :=
    (Double.le_iff_rank z z).mpr ⟨number, number, le_rfl⟩
  have isNumber (z : Float) : Scalar.isNumber z = !z.isNaN := by
    rw [Scalar.isNumber, Bool.eq_iff_iff, Double.beq_iff_rank]
    simp
  rw [Scalar.min, Scalar.max, isNumber]
  cases x' : x.isNaN <;> cases y' : y.isNaN
  · left
    simp only [Bool.not_false, if_true]
    split_ifs with less more more
    · exact Double.float_le_trans (Double.float_le_of_lt less) (Double.float_le_of_lt more)
    · exact Double.float_le_of_lt less
    · exact Double.float_le_of_lt more
    · exact self y'
  · exact .inl (by simpa using self x')
  · have none : ¬ x < y ∧ ¬ y < x := by
      simp only [Double.lt_iff_rank, x', Bool.true_eq_false, false_and, and_false, not_false_iff,
        and_self]
    exact .inl (by simpa [none] using self y')
  · exact .inr ⟨rfl, rfl⟩

namespace Document

variable {α : Type}

/-- The dictionary that is reached from a node by so many steps to the parent. The steps may lead
back to one that was passed before. -/
def above? (doc : Document α) (id : Nat) : Nat → Option (Dictionary α)
  | 0 => doc.dictionary? id
  | k + 1 => ((doc.above? id k).bind parent?).bind doc.dictionary?

/-- All steps but the first are steps from the parent. -/
theorem above?_succ (doc : Document α) (id k : Nat) :
    doc.above? id (k + 1) =
      ((doc.dictionary? id).bind parent?).bind fun up => doc.above? up k := by
  induction k with
  | zero => rfl
  | succ k ih =>
    rw [above?, ih]
    cases (doc.dictionary? id).bind parent? <;> rfl

theorem getElem?_ancestors (doc : Document α) (n id k : Nat) :
    (doc.ancestors n id)[k]? = if k < n then doc.above? id k else none := by
  induction n generalizing id k with
  | zero => simp [ancestors]
  | succ n ih =>
    rw [ancestors]
    cases found : doc.dictionary? id with
    | none =>
      cases k with
      | zero => simp [above?, found]
      | succ k => simp [above?_succ, found]
    | some entries =>
      cases k with
      | zero => simp [above?, found]
      | succ k =>
        rw [List.getElem?_cons_succ, above?_succ, found, Option.bind_some]
        cases parent? entries with
        | none => simp
        | some up => simp [ih]

theorem length_ancestors_le (doc : Document α) (n id : Nat) : (doc.ancestors n id).length ≤ n := by
  by_contra more
  have past := getElem?_ancestors doc n id n
  rw [if_neg (lt_irrefl n), List.getElem?_eq_none_iff] at past
  omega

theorem mem_ancestors_iff {doc : Document α} {page : Nat} {entries : Dictionary α} :
    entries ∈ doc.ancestors boxDepth page ↔ ∃ k < 33, doc.above? page k = some entries := by
  rw [List.mem_iff_getElem?]
  refine exists_congr fun k => ?_
  rw [getElem?_ancestors, boxDepth]
  split_ifs with within <;> simp [within]

theorem array?_eq_some {o : Object α} {items : List (Object α)} :
    o.array? = some items ↔ o = .array items := by
  cases o <;> simp [Object.array?]

variable [Scalar α]

/-- The box that a dictionary gives of its own. -/
def boxIn? (doc : Document α) (entries : Dictionary α) : Option (PageBox α) :=
  (((entries.lookup "MediaBox").bind doc.resolve).bind Object.array?).bind PageBox.ofObjects?

theorem pageBox_eq (doc : Document α) (page : Nat) :
    doc.pageBox page = ((doc.ancestors boxDepth page).findSome? doc.boxIn?).getD .standard := rfl

/-- The box of a dictionary is an array, or leads to one, and these are the numbers in the array.
Between the numbers there may be anything else. -/
def HoldsCorners (doc : Document α) (entries : Dictionary α) (x1 y1 x2 y2 : α) : Prop :=
  ∃ o items, entries.lookup "MediaBox" = some o ∧ doc.resolve o = some (.array items) ∧
    items.filterMap Object.number? = [x1, y1, x2, y2]

theorem ofObjects?_eq_some {items : List (Object α)} {box : PageBox α} :
    PageBox.ofObjects? items = some box ↔
      ∃ x1 y1 x2 y2, items.filterMap Object.number? = [x1, y1, x2, y2] ∧
        PageBox.ofCorners x1 y1 x2 y2 = box := by
  rw [PageBox.ofObjects?]
  split
  · next numbers => simp [numbers]
  · next other =>
    refine ⟨fun none => (Option.some_ne_none _ none.symm).elim, ?_⟩
    rintro ⟨x1, y1, x2, y2, numbers, -⟩
    exact absurd numbers (other x1 y1 x2 y2)

theorem boxIn?_eq_some {doc : Document α} {entries : Dictionary α} {box : PageBox α} :
    doc.boxIn? entries = some box ↔
      ∃ x1 y1 x2 y2, doc.HoldsCorners entries x1 y1 x2 y2 ∧
        PageBox.ofCorners x1 y1 x2 y2 = box := by
  simp only [boxIn?, HoldsCorners, Option.bind_eq_some_iff, array?_eq_some, ofObjects?_eq_some]
  constructor
  · rintro ⟨items, ⟨_, ⟨o, held, led⟩, rfl⟩, x1, y1, x2, y2, numbers, made⟩
    exact ⟨x1, y1, x2, y2, ⟨o, items, held, led, numbers⟩, made⟩
  · rintro ⟨x1, y1, x2, y2, ⟨o, items, held, led, numbers⟩, made⟩
    exact ⟨items, ⟨_, ⟨o, held, led⟩, rfl⟩, x1, y1, x2, y2, numbers, made⟩

/-- Of the first 33 dictionaries from a page upwards, this many steps up stands the first that holds
four numbers. -/
structure IsNearest (doc : Document α) (page k : Nat) (x1 y1 x2 y2 : α) : Prop where
  within : k < 33
  holds : ∃ entries, doc.above? page k = some entries ∧ doc.HoldsCorners entries x1 y1 x2 y2
  nearer : ∀ j < k, ∀ entries, doc.above? page j = some entries →
    ∀ a b c d, ¬ doc.HoldsCorners entries a b c d

/-- None of the first 33 dictionaries from a page upwards holds four numbers. -/
def HoldsNone (doc : Document α) (page : Nat) : Prop :=
  ∀ k < 33, ∀ entries, doc.above? page k = some entries →
    ∀ x1 y1 x2 y2, ¬ doc.HoldsCorners entries x1 y1 x2 y2

theorem boxIn?_eq_none {doc : Document α} {entries : Dictionary α} :
    doc.boxIn? entries = none ↔ ∀ x1 y1 x2 y2, ¬ doc.HoldsCorners entries x1 y1 x2 y2 := by
  simp only [Option.eq_none_iff_forall_ne_some, ne_eq, boxIn?_eq_some]
  exact ⟨fun none x1 y1 x2 y2 holds => none _ ⟨x1, y1, x2, y2, holds, rfl⟩,
    fun none _ ⟨x1, y1, x2, y2, holds, _⟩ => none x1 y1 x2 y2 holds⟩

theorem findSome?_ancestors {doc : Document α} {page : Nat} {box : PageBox α}
    (found : (doc.ancestors boxDepth page).findSome? doc.boxIn? = some box) :
    ∃ k x1 y1 x2 y2, doc.IsNearest page k x1 y1 x2 y2 ∧
      PageBox.ofCorners x1 y1 x2 y2 = box := by
  obtain ⟨passed, entries, rest, parted, gives, nearer⟩ := List.findSome?_eq_some_iff.mp found
  have stands (k : Nat) : (passed ++ entries :: rest)[k]? =
      if k < 33 then doc.above? page k else none := by
    rw [← parted, getElem?_ancestors, boxDepth]
  have here := stands passed.length
  rw [List.getElem?_append_right le_rfl, Nat.sub_self, List.getElem?_cons_zero] at here
  obtain ⟨within, reached⟩ := Option.ite_none_right_eq_some.mp here.symm
  obtain ⟨x1, y1, x2, y2, holds, made⟩ := boxIn?_eq_some.mp gives
  -- as many dictionaries were passed over as there are steps to the one that gives the box
  refine ⟨passed.length, x1, y1, x2, y2, ⟨within, ⟨entries, reached, holds⟩, ?_⟩, made⟩
  intro j before other reached'
  have there := stands j
  rw [List.getElem?_append_left before, if_pos (before.trans within), reached'] at there
  exact boxIn?_eq_none.mp (nearer other (List.mem_of_getElem? there))

/-- At most 33 dictionaries are searched for the box of a page. It is that of the nearest one which
holds four numbers, at most 32 steps above the page, with its corners put in order; an A4 page if
there is none. Whatever else the nearer ones hold for a box is passed over. -/
theorem pageBox_nearest (doc : Document Float) (page : Nat) :
    (doc.ancestors boxDepth page).length ≤ 33 ∧
    ((∃ k x1 y1 x2 y2, doc.IsNearest page k x1 y1 x2 y2 ∧
      doc.pageBox page =
        ⟨Scalar.min x1 x2, Scalar.min y1 y2, Scalar.max x1 x2, Scalar.max y1 y2⟩ ∧
      ((doc.pageBox page).left ≤ (doc.pageBox page).right ∨
        x1.isNaN = true ∧ x2.isNaN = true) ∧
      ((doc.pageBox page).bottom ≤ (doc.pageBox page).top ∨
        y1.isNaN = true ∧ y2.isNaN = true)) ∨
    doc.HoldsNone page ∧ doc.pageBox page = ⟨0, 0, 595, 842⟩) := by
  refine ⟨doc.length_ancestors_le boxDepth page, ?_⟩
  have searched := doc.pageBox_eq page
  cases found : (doc.ancestors boxDepth page).findSome? doc.boxIn? with
  | some box =>
    rw [found, Option.getD_some] at searched
    obtain ⟨k, x1, y1, x2, y2, nearest, made⟩ := findSome?_ancestors found
    rw [searched, ← made]
    exact .inl ⟨k, x1, y1, x2, y2, nearest, rfl, min_le_max x1 x2, min_le_max y1 y2⟩
  | none =>
    rw [found, Option.getD_none] at searched
    refine .inr ⟨fun k within entries reached => ?_, searched⟩
    exact boxIn?_eq_none.mp
      (List.findSome?_eq_none_iff.mp found entries (mem_ancestors_iff.mpr ⟨k, within, reached⟩))

end Document
end Docket.Pdf
