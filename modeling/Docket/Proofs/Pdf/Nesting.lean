import Mathlib
import Docket.Proofs.Exact
import Docket.Proofs.Pdf.Saving

/-! The matrices in force on a page. A restore belongs to the save before it from which all that
stands in between is balanced, and undoes what was put before the matrix of the page since then. What
no restore undoes stays in force, and the matrix of the page is the product of the matrices in
force, the latest first. -/
namespace Docket.Pdf

namespace Matrix

variable {K : Type} [ExactNumber K]

/-- Of a product the left map comes first. -/
instance monoid : Monoid (Matrix K) where
  mul := andThen
  one := identity
  mul_assoc := by
    intro m n k
    change (m.andThen n).andThen k = m.andThen (n.andThen k)
    simp only [andThen, mk.injEq]
    refine ⟨?_, ?_, ?_, ?_, ?_, ?_⟩ <;> ring
  one_mul := by
    intro m
    change identity.andThen m = m
    simp [andThen, identity]
  mul_one := by
    intro m
    change m.andThen identity = m
    simp [andThen, identity]

theorem map_identity (x y : K) : (1 : Matrix K).map x y = (x, y) := by
  change (identity : Matrix K).map x y = (x, y)
  simp [map, identity]

theorem map_andThen (m n : Matrix K) (x y : K) :
    (m * n).map x y = n.map (m.map x y).1 (m.map x y).2 := by
  change (m.andThen n).map x y = n.map (m.map x y).1 (m.map x y).2
  simp only [map, andThen, Prod.mk.injEq]
  constructor <;> ring

/-- A point mapped by one matrix after the other. -/
def mapEach (ms : List (Matrix K)) (p : K × K) : K × K := ms.foldl (fun p m => m.map p.1 p.2) p

theorem map_prod (ms : List (Matrix K)) (x y : K) : ms.prod.map x y = mapEach ms (x, y) := by
  induction ms generalizing x y with
  | nil => exact map_identity x y
  | cons m ms ih =>
    rw [List.prod_cons, map_andThen]
    exact ih _ _

end Matrix

namespace Drawing

section Nesting
variable {α : Type} {ops : List (Operation α)} {i j k : Nat}

theorem saves_append (xs ys : List (Operation α)) : saves (xs ++ ys) = saves xs + saves ys :=
  List.countP_append

theorem restores_append (xs ys : List (Operation α)) :
    restores (xs ++ ys) = restores xs + restores ys :=
  List.countP_append

theorem balanced_nil : Balanced ([] : List (Operation α)) := by
  refine ⟨?_, rfl⟩
  intro before first
  rw [List.prefix_nil.mp first]
  exact Nat.le_refl 0

theorem balanced_other {op : Operation α} (save : op.operator ≠ "q") (restore : op.operator ≠ "Q") :
    Balanced [op] := by
  have opens : saves [op] = 0 := by simp [saves, save]
  have closes : restores [op] = 0 := by simp [restores, restore]
  refine ⟨?_, by omega⟩
  intro before first
  have fewer : restores before ≤ restores [op] := first.countP_le
  omega

theorem Balanced.append {xs ys : List (Operation α)} (front : Balanced xs) (back : Balanced ys) :
    Balanced (xs ++ ys) := by
  have even := front.even
  constructor
  · intro before first
    rcases List.prefix_or_prefix_of_prefix first (List.prefix_append xs ys) with within | beyond
    · exact front.covered before within
    · obtain ⟨more, rfl⟩ := beyond
      have covered := back.covered more ((List.prefix_append_right_inj xs).mp first)
      rw [restores_append, saves_append]
      omega
  · have even' := back.even
    rw [saves_append, restores_append]
    omega

theorem Balanced.enclosed (balanced : Balanced ops) {save restore : Operation α}
    (opens : save.operator = "q") (closes : restore.operator = "Q") :
    Balanced (save :: ops ++ [restore]) := by
  have even := balanced.even
  have one : saves [save] = 1 ∧ restores [save] = 0 := by simp [saves, restores, opens]
  have last : saves [restore] = 0 ∧ restores [restore] = 1 := by simp [saves, restores, closes]
  constructor
  · intro before first
    rcases List.prefix_concat_iff.mp first with rfl | first
    · rw [restores_append, saves_append, restores_cons, saves_cons]
      omega
    · rcases List.prefix_cons_iff.mp first with rfl | ⟨inner, rfl, within⟩
      · exact Nat.le_refl 0
      · have covered := balanced.covered inner within
        rw [restores_cons, saves_cons]
        omega
  · rw [restores_append, saves_append, restores_cons, saves_cons]
    omega

/-- What stands between two places. -/
def between (ops : List (Operation α)) (i j : Nat) : List (Operation α) :=
  (ops.take j).drop (i + 1)

/-- At `i` a save, and at `j` the restore that belongs to it. -/
structure Matches (ops : List (Operation α)) (i j : Nat) : Prop where
  before : i < j
  save : ops[i]?.map (·.operator) = some "q"
  restore : ops[j]?.map (·.operator) = some "Q"
  balanced : Balanced (between ops i j)

theorem matches_iff (ops : List (Operation α)) (i j : Nat) :
    Matches ops i j ↔ i < j ∧ ops[i]?.map (·.operator) = some "q" ∧
      ops[j]?.map (·.operator) = some "Q" ∧ Balanced (between ops i j) :=
  ⟨fun ⟨before, save, restore, balanced⟩ => ⟨before, save, restore, balanced⟩,
    fun ⟨before, save, restore, balanced⟩ => ⟨before, save, restore, balanced⟩⟩

instance (ops : List (Operation α)) (i j : Nat) : Decidable (Matches ops i j) :=
  decidable_of_iff _ (matches_iff ops i j).symm

/-- Whether a later restore goes back to before the operation at `k`. -/
def Undone (ops : List (Operation α)) (k : Nat) : Prop :=
  ∃ i < k, ∃ j < ops.length, k < j ∧ Matches ops i j

instance (ops : List (Operation α)) (k : Nat) : Decidable (Undone ops k) :=
  inferInstanceAs (Decidable (∃ i < k, ∃ j < ops.length, k < j ∧ Matches ops i j))

theorem parts_at {op : Operation α} (stands : ops[i]? = some op) :
    ops = ops.take i ++ op :: ops.drop (i + 1) := by
  obtain ⟨within, rfl⟩ := List.getElem?_eq_some_iff.mp stands
  rw [← List.drop_eq_getElem_cons within, List.take_append_drop]

theorem exists_at {operator : String} (stands : ops[i]?.map (·.operator) = some operator) :
    ∃ op, ops[i]? = some op ∧ op.operator = operator ∧ i < ops.length := by
  obtain ⟨op, known, same⟩ := Option.map_eq_some_iff.mp stands
  exact ⟨op, known, same, (List.getElem?_eq_some_iff.mp known).1⟩

theorem between_split {op : Operation α} (stands : ops[i]? = some op) {i' : Nat} (low : i' < i)
    (high : i < j) : between ops i' j = between ops i' i ++ op :: between ops i j := by
  have within := (List.getElem?_eq_some_iff.mp stands).1
  have inside : (ops.take j)[i]? = some op := by rw [List.getElem?_take_of_lt high, stands]
  have parts := parts_at inside
  rw [List.take_take, Nat.min_eq_left high.le] at parts
  have whole : between ops i' j = (ops.take i ++ op :: (ops.take j).drop (i + 1)).drop (i' + 1) :=
    congrArg (List.drop (i' + 1)) parts
  have reaches : i' + 1 ≤ (ops.take i).length := by
    rw [List.length_take]
    omega
  rw [whole, List.drop_append_of_le_length reaches]
  rfl

theorem between_start (ops : List (Operation α)) (i : Nat) {j j' : Nat} (shorter : j' ≤ j) :
    between ops i j' <+: between ops i j :=
  (List.take_prefix_take_left shorter).drop (i + 1)

/-- Two pairs do not cross, and a restore belongs to one save only. -/
theorem Matches.not_crossing (pair : Matches ops i j) {i' j' : Nat} (other : Matches ops i' j')
    (low : i' < i) (high : i < j') : j < j' := by
  by_contra inside
  obtain ⟨save, stands, opens, -⟩ := exists_at pair.save
  have even := other.balanced.even
  have parts := between_split stands low high
  have front := other.balanced.covered (between ops i' i)
    (by rw [parts]; exact List.prefix_append _ _)
  have back := pair.balanced.covered (between ops i j')
    (between_start ops i (Nat.le_of_not_lt inside))
  have one : saves [save] = 1 ∧ restores [save] = 0 := by simp [saves, restores, opens]
  rw [parts, saves_append, restores_append, saves_cons, restores_cons] at even
  omega

theorem matches_of_parts {front inner : List (Operation α)} {save restore : Operation α}
    (opens : save.operator = "q") (closes : restore.operator = "Q") (balanced : Balanced inner) :
    Matches (front ++ save :: inner ++ [restore]) front.length (front ++ save :: inner).length := by
  refine ⟨?_, ?_, ?_, ?_⟩
  · simp
  · simp [opens]
  · simp [closes]
  · rw [between, List.take_left]
    simpa using balanced

theorem matches_append (within : j < ops.length) (more : List (Operation α)) :
    Matches (ops ++ more) i j ↔ Matches ops i j := by
  have same (k : Nat) (short : k ≤ j) : (ops ++ more)[k]? = ops[k]? :=
    List.getElem?_append_left (by omega)
  have between : between (ops ++ more) i j = between ops i j := by
    rw [Drawing.between, List.take_append_of_le_length within.le]
    rfl
  rw [matches_iff, matches_iff, same j le_rfl, between]
  constructor
  · rintro ⟨before, rest⟩
    rw [same i before.le] at rest
    exact ⟨before, rest⟩
  · rintro ⟨before, rest⟩
    rw [← same i before.le] at rest
    exact ⟨before, rest⟩

theorem undone_snoc {op : Operation α} (loose : ∀ i, ¬ Matches (ops ++ [op]) i ops.length) :
    Undone (ops ++ [op]) k ↔ Undone ops k := by
  have length : (ops ++ [op]).length = ops.length + 1 := List.length_append
  constructor
  · rintro ⟨i, low, j, within, high, pair⟩
    have inner : j < ops.length := by
      by_contra last
      obtain rfl : j = ops.length := by omega
      exact loose i pair
    exact ⟨i, low, j, inner, high, (matches_append inner _).mp pair⟩
  · rintro ⟨i, low, j, within, high, pair⟩
    exact ⟨i, low, j, by omega, high, (matches_append within _).mpr pair⟩

theorem undone_take (pair : Matches ops i j) (last : j + 1 = ops.length) (low : k < i) :
    Undone ops k ↔ Undone (ops.take i) k := by
  have before := pair.before
  have length : (ops.take i).length = i := by
    rw [List.length_take]
    omega
  have parts : ops.take i ++ ops.drop i = ops := List.take_append_drop i ops
  constructor
  · rintro ⟨i', low', j', within, high, other⟩
    have inner : j' < i := by
      by_contra beyond
      have different : j' ≠ i := by
        rintro rfl
        have save := pair.save
        simp [other.restore] at save
      have crossing := pair.not_crossing other (by omega) (by omega)
      omega
    rw [← parts, matches_append (by omega)] at other
    exact ⟨i', low', j', by omega, high, other⟩
  · rintro ⟨i', low', j', within, high, other⟩
    rw [← matches_append within (ops.drop i), parts] at other
    exact ⟨i', low', j', by omega, high, other⟩

end Nesting

section InForce
variable {α : Type} [Scalar α] {ops : List (Operation α)} {i j : Nat}

/-- The matrix that an operation puts before the matrix of the page. -/
def concatenated? (op : Operation α) : Option (Matrix α) :=
  if op.operator = "cm" then matrixOf op.operands else none

/-- The matrix of the operation at `k`, unless it is undone. -/
def inForceAt (ops : List (Operation α)) (k : Nat) : Option (Matrix α) :=
  if Undone ops k then none else ops[k]?.bind concatenated?

def inForce (ops : List (Operation α)) : List (Matrix α) :=
  (List.range ops.length).filterMap (inForceAt ops)

theorem inForce_snoc {op : Operation α} (loose : ∀ i, ¬ Matches (ops ++ [op]) i ops.length) :
    inForce (ops ++ [op]) = inForce ops ++ (concatenated? op).toList := by
  have earlier : ∀ k ∈ List.range ops.length, inForceAt (ops ++ [op]) k = inForceAt ops k := by
    intro k known
    have within := List.mem_range.mp known
    simp only [inForceAt, undone_snoc loose, List.getElem?_append_left within]
  have here : inForceAt (ops ++ [op]) ops.length = concatenated? op := by
    have last : ¬ Undone (ops ++ [op]) ops.length := by
      rintro ⟨i, low, j, within, high, pair⟩
      rw [List.length_append, List.length_singleton] at within
      omega
    simp [inForceAt, last]
  have length : (ops ++ [op]).length = ops.length + 1 := List.length_append
  rw [inForce, length, List.range_succ, List.filterMap_append, List.filterMap_congr earlier]
  simp only [List.filterMap_cons, List.filterMap_nil, here]
  cases concatenated? op <;> rfl

theorem not_concatenated {operator : String} (other : operator ≠ "cm")
    (stands : ops[i]?.map (·.operator) = some operator) : ops[i]?.bind concatenated? = none := by
  obtain ⟨op, known, same, -⟩ := exists_at stands
  rw [known, Option.bind_some, concatenated?, if_neg (by rw [same]; exact other)]

theorem inForce_restored (pair : Matches ops i j) (last : j + 1 = ops.length) :
    inForce ops = inForce (ops.take i) := by
  have before := pair.before
  have length : (ops.take i).length = i := by
    rw [List.length_take]
    omega
  have earlier : ∀ k ∈ List.range i, inForceAt ops k = inForceAt (ops.take i) k := by
    intro k known
    have low := List.mem_range.mp known
    simp only [inForceAt, undone_take pair last low, List.getElem?_take_of_lt low]
  have later : ∀ k ∈ (List.range (ops.length - i)).map (i + ·), inForceAt ops k = none := by
    intro k known
    obtain ⟨n, short, rfl⟩ := List.mem_map.mp known
    have within := List.mem_range.mp short
    rw [inForceAt]
    split
    · rfl
    · rename_i standing
      -- what is not undone from the save on is the save and its restore
      by_cases first : n = 0
      · rw [first, Nat.add_zero]
        exact not_concatenated (by decide) pair.save
      · by_cases end' : i + n = j
        · rw [end']
          exact not_concatenated (by decide) pair.restore
        · exact absurd ⟨i, by omega, j, by omega, by omega, pair⟩ standing
  have places : ops.length = i + (ops.length - i) := by omega
  rw [inForce, places, List.range_add, List.filterMap_append, List.filterMap_congr earlier,
    List.filterMap_eq_nil_iff.mpr later, List.append_nil, inForce, length]

end InForce

section Running
variable {α : Type} [Scalar α] {glyphs : GlyphReader α}

theorem perform_save {op : Operation α} (opens : op.operator = "q") (d : Drawing α) :
    perform glyphs d op = d.change .save := by
  obtain ⟨operator, operands⟩ := op
  cases opens
  rfl

theorem perform_restore {op : Operation α} (closes : op.operator = "Q") (d : Drawing α) :
    perform glyphs d op = d.change .restore := by
  obtain ⟨operator, operands⟩ := op
  cases closes
  rfl

/-- Only a restore and a matrix change the matrix of the page. -/
theorem ctm_perform {op : Operation α} (other : op.operator ≠ "Q") (d : Drawing α) :
    (perform glyphs d op).state.ctm =
      (concatenated? op).elim d.state.ctm fun m => m.andThen d.state.ctm := by
  obtain ⟨operator, operands⟩ := op
  unfold perform
  dsimp only
  split
  all_goals try rfl
  · exact absurd rfl other
  · unfold withMatrix concatenated?
    dsimp only
    cases matrixOf operands <;> rfl
  · exact (setMatrix_alongside operands d).ctm
  · exact (showOperand_alongside operands 0 d).ctm
  · split
    · exact (showItems_alongside _ d).ctm
    · rfl
  · exact (showOperand_alongside operands 0 _).ctm
  · exact (showOperand_alongside operands 2 _).ctm
  · rw [concatenated?, if_neg (by assumption)]
    rfl

/-- Where matrices are saved, the last was saved by a save that nothing has restored since. -/
theorem exists_save (ops : List (Operation α)) {d : Drawing α} (fresh : d.state.saved = [])
    (some : (run glyphs ops d).state.saved ≠ []) :
    ∃ front save inner, ops = front ++ save :: inner ∧ save.operator = "q" ∧ Balanced inner := by
  rcases List.eq_nil_or_concat ops with rfl | ⟨earlier, op, rfl⟩
  · exact absurd fresh some
  rw [List.concat_eq_append] at some ⊢
  have saved := saved_perform glyphs (run glyphs earlier d) op
  have step : run glyphs (earlier ++ [op]) d = perform glyphs (run glyphs earlier d) op :=
    run_append ..
  rw [step, saved, savedAfter] at some
  by_cases opens : op.operator = "q"
  · exact ⟨earlier, op, [], rfl, opens, balanced_nil⟩
  rw [if_neg opens] at some
  have before : (run glyphs earlier d).state.saved ≠ [] := by
    intro none
    rw [none] at some
    simp at some
  obtain ⟨front, save, inner, rfl, opened, balanced⟩ := exists_save earlier fresh before
  by_cases closes : op.operator = "Q"
  · -- the restore takes that save away; below lies the one open before it
    rw [if_pos closes, run_append, run, List.foldl_cons, perform_save opened] at some
    have kept := balanced.saved_run glyphs ((run glyphs front d).change .save)
    rw [run] at kept
    rw [kept] at some
    obtain ⟨front', save', inner', rfl, opened', balanced'⟩ := exists_save front fresh some
    refine ⟨front', save', inner' ++ (save :: inner ++ [op]), ?_, opened',
      balanced'.append (balanced.enclosed opened closes)⟩
    simp
  · refine ⟨front, save, inner ++ [op], by simp, opened,
      balanced.append (balanced_other opens closes)⟩
termination_by ops.length

/-- A restore goes back to the matrix of the page before the save it belongs to. -/
theorem ctm_restored {ops : List (Operation α)} {op : Operation α} {i : Nat}
    (pair : Matches (ops ++ [op]) i ops.length) (d : Drawing α) :
    (run glyphs (ops ++ [op]) d).state.ctm = (run glyphs (ops.take i) d).state.ctm := by
  obtain ⟨save, stands, opens, -⟩ := exists_at pair.save
  rw [List.getElem?_append_left pair.before] at stands
  have closes : op.operator = "Q" := by
    have restore := pair.restore
    simpa using restore
  have balanced : Balanced (ops.drop (i + 1)) := by
    have inner := pair.balanced
    rwa [between, List.take_left] at inner
  have saved := balanced.saved_run glyphs ((run glyphs (ops.take i) d).change .save)
  have parts : run glyphs ops d =
      run glyphs (ops.drop (i + 1)) ((run glyphs (ops.take i) d).change .save) := by
    conv_lhs => rw [parts_at stands]
    rw [run_append, run, List.foldl_cons, perform_save opens]
    rfl
  have last : run glyphs (ops ++ [op]) d = (run glyphs ops d).change .restore := by
    rw [run_append]
    exact perform_restore closes _
  rw [last, change, TextState.restore, parts, saved]
  rfl

/-- A restore without a save of its own finds no matrix saved. -/
theorem saved_of_loose {ops : List (Operation α)} {op : Operation α} (closes : op.operator = "Q")
    (loose : ∀ i, ¬ Matches (ops ++ [op]) i ops.length) {d : Drawing α}
    (fresh : d.state.saved = []) : (run glyphs ops d).state.saved = [] := by
  by_contra some
  obtain ⟨front, save, inner, rfl, opens, balanced⟩ := exists_save ops fresh some
  exact loose front.length (matches_of_parts opens closes balanced)

theorem perform_loose {op : Operation α} (closes : op.operator = "Q") {d : Drawing α}
    (none : d.state.saved = []) : perform glyphs d op = d := by
  rw [perform_restore closes, change, TextState.restore, none]

end Running

variable {K : Type} [ExactNumber K] {glyphs : GlyphReader K}

theorem ctm_run (ops : List (Operation K)) {d : Drawing K} (fresh : d.state.saved = []) :
    (run glyphs ops d).state.ctm = (inForce ops).reverse.prod * d.state.ctm := by
  rcases List.eq_nil_or_concat ops with rfl | ⟨earlier, op, rfl⟩
  · exact (one_mul d.state.ctm).symm
  rw [List.concat_eq_append]
  by_cases matched : ∃ i, Matches (earlier ++ [op]) i earlier.length
  · obtain ⟨i, pair⟩ := matched
    have shorter : (earlier ++ [op]).take i = earlier.take i :=
      List.take_append_of_le_length pair.before.le
    have length : earlier.length + 1 = (earlier ++ [op]).length := by simp
    rw [ctm_restored pair, inForce_restored pair length, shorter]
    have low := pair.before
    exact ctm_run (earlier.take i) fresh
  · have loose := not_exists.mp matched
    have step : run glyphs (earlier ++ [op]) d = perform glyphs (run glyphs earlier d) op :=
      run_append ..
    have before := ctm_run earlier fresh
    rw [step, inForce_snoc loose]
    by_cases closes : op.operator = "Q"
    · have none : concatenated? op = none := by simp [concatenated?, closes]
      rw [perform_loose closes (saved_of_loose closes loose fresh), none, before]
      simp
    · rw [ctm_perform closes, before]
      cases concatenated? op with
      | none => simp
      | some m =>
        simp only [Option.elim_some, Option.toList_some, List.reverse_append,
          List.reverse_singleton, List.singleton_append, List.prod_cons, mul_assoc]
        rfl
termination_by ops.length

/-- The matrix of a page is the product of the matrices in force, the latest first, and maps a point
as these do one after the other. A restore without a save of its own changes nothing. -/
theorem ctm_eq_inForce (ops : List (Operation K)) (left top : K) :
    let page := run glyphs ops (start left top)
    page.state.ctm = (inForce ops).reverse.prod ∧
      (∀ x y, page.state.ctm.map x y = Matrix.mapEach (inForce ops).reverse (x, y)) ∧
      ∀ front op back, ops = front ++ op :: back → op.operator = "Q" →
        (∀ i, ¬ Matches ops i front.length) →
          run glyphs (front ++ [op]) (start left top) = run glyphs front (start left top) := by
  have product : (run glyphs ops (start left top)).state.ctm = (inForce ops).reverse.prod :=
    (ctm_run ops rfl).trans (mul_one _)
  refine ⟨product, ?_, ?_⟩
  · intro x y
    rw [product]
    exact Matrix.map_prod _ x y
  · rintro front op back rfl closes loose
    have loose' (i : Nat) : ¬ Matches (front ++ [op]) i front.length := by
      intro pair
      apply loose i
      rw [List.append_cons]
      exact (matches_append (by simp) _).mpr pair
    rw [run_append]
    exact perform_loose closes (saved_of_loose closes loose' rfl)

/-- What the inner pair encloses is undone; a restore too many undoes nothing. -/
example :
    let ops : List (Operation Float) := [⟨"cm", []⟩, ⟨"q", []⟩, ⟨"cm", []⟩, ⟨"Q", []⟩, ⟨"Q", []⟩]
    (List.range ops.length).filter (fun k => Undone ops k) = [2] := by
  decide

end Drawing
end Docket.Pdf
