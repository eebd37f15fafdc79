import Docket.Proofs.Calibration.Recovery

/-! The scale of an axis as a middle of ratios. At least half of the ratios are no greater than the
scale and at least half no less, so a ratio that most pairs share is the scale, whatever the others
say. A ratio is made only of a distance that is wide enough, and so nothing is divided by zero: it
does not matter what that would give. -/
namespace Docket.Statistics

section Lists
variable {β : Type}

theorem countP_eq_sum (keep : β → Bool) (xs : List β) :
    xs.countP keep = ∑ i : Fin xs.length, if keep xs[i] then 1 else 0 := by
  induction xs with
  | nil => rfl
  | cons x xs ih =>
    show _ = ∑ i : Fin (xs.length + 1), if keep (x :: xs)[i] then 1 else 0
    rw [Fin.sum_univ_succ, List.countP_cons, ih, Nat.add_comm]
    rfl

/-- Every two places make one pair, the earlier one first. -/
theorem countP_pairs (keep : β × β → Bool) (xs : List β) :
    (pairs xs).countP keep = (Finset.univ.filter fun p : Fin xs.length × Fin xs.length =>
      p.1 < p.2 ∧ keep (xs[p.1], xs[p.2]) = true).card := by
  rw [Finset.card_filter, Fintype.sum_prod_type]
  induction xs with
  | nil => rfl
  | cons x xs ih =>
    show _ = ∑ i : Fin (xs.length + 1), ∑ j : Fin (xs.length + 1), _
    rw [pairs, List.countP_append, List.countP_map, ih, countP_eq_sum]
    simp only [Fin.sum_univ_succ]
    simp [-Finset.sum_boole]

/-- Two properties that together hold more often than there are members meet in one. -/
theorem exists_of_length_lt {xs : List β} {p q : β → Bool}
    (more : xs.length < xs.countP p + xs.countP q) : ∃ x ∈ xs, p x = true ∧ q x = true := by
  by_contra none
  have apart : xs.countP q ≤ xs.countP fun x => decide ¬ p x = true := by
    refine List.countP_mono_left fun x known there => ?_
    exact decide_eq_true fun here => none ⟨x, known, here, there⟩
  have all := List.length_eq_countP_add_countP p (l := xs)
  omega

end Lists

variable {K : Type} [ExactNumber K]

/-- At least half of some values are no greater than a value, and at least half no less. -/
structure Middle (xs : List K) (m : K) : Prop where
  below : xs.length ≤ 2 * xs.countP (· ≤ m)
  above : xs.length ≤ 2 * xs.countP (m ≤ ·)

theorem lt_countP_le {xs : List K} (ascends : xs.Pairwise (· ≤ ·)) {i : Nat}
    (inside : i < xs.length) {m : K} (most : xs[i] ≤ m) : i < xs.countP (· ≤ m) := by
  have ordered := List.pairwise_iff_getElem.mp ascends
  have first : (xs.take (i + 1)).countP (· ≤ m) = (xs.take (i + 1)).length := by
    refine List.countP_eq_length.mpr fun x known => decide_eq_true ?_
    obtain ⟨k, before, rfl⟩ := List.mem_take_iff_getElem.mp known
    rcases Nat.lt_or_ge k i with less | same
    · exact (ordered k i (by omega) inside less).trans most
    · have here : k = i := by omega
      subst here
      exact most
  have part := (List.take_sublist (i + 1) xs).countP_le (p := (· ≤ m))
  rw [first, List.length_take] at part
  omega

theorem length_le_countP_ge {xs : List K} (ascends : xs.Pairwise (· ≤ ·)) {i : Nat}
    (inside : i < xs.length) {m : K} (least : m ≤ xs[i]) :
    xs.length ≤ i + xs.countP (m ≤ ·) := by
  have ordered := List.pairwise_iff_getElem.mp ascends
  have last : (xs.drop i).countP (m ≤ ·) = (xs.drop i).length := by
    refine List.countP_eq_length.mpr fun x known => decide_eq_true ?_
    obtain ⟨k, behind, rfl⟩ := List.mem_drop_iff_getElem.mp known
    rcases Nat.eq_zero_or_pos k with rfl | later
    · simpa using least
    · exact least.trans (ordered i (i + k) inside (by omega) (by omega))
  have part := (List.drop_sublist i xs).countP_le (p := (m ≤ ·))
  rw [last, List.length_drop] at part
  omega

theorem middle_of_ascending {xs : List K} (ascends : xs.Pairwise (· ≤ ·)) {low high : Nat} {m : K}
    (few : low < xs.length) (inside : high < xs.length) (least : xs[low] ≤ m) (most : m ≤ xs[high])
    (before : xs.length ≤ 2 * (low + 1)) (behind : 2 * high ≤ xs.length) : Middle xs m := by
  have below := lt_countP_le ascends few least
  have above := length_le_countP_ge ascends inside most
  exact ⟨by omega, by omega⟩

theorem middle_median {xs : List K} (some : xs ≠ []) : ∃ m, median xs = .some m ∧ Middle xs m := by
  have perm := ascending_perm xs
  have ascends := ascending_ascends xs
  have positive : 0 < (ascending xs).length :=
    perm.length_eq ▸ List.length_pos_of_ne_nil some
  suffices found : ∃ m, median xs = .some m ∧ Middle (ascending xs) m by
    obtain ⟨m, told, below, above⟩ := found
    rw [perm.length_eq, perm.countP_eq] at below above
    exact ⟨m, told, below, above⟩
  unfold median
  generalize ascending xs = s at ascends positive
  dsimp only
  split
  · have low : s.length / 2 - 1 < s.length := by omega
    have high : s.length / 2 < s.length := by omega
    have ordered := List.pairwise_iff_getElem.mp ascends _ _ low high (by omega)
    rw [List.getElem?_eq_getElem low, List.getElem?_eq_getElem high]
    refine ⟨_, rfl, ?_⟩
    rw [Exact.two_eq]
    exact middle_of_ascending ascends low high (by linarith) (by linarith) (by omega) (by omega)
  · have inside : s.length / 2 < s.length := by omega
    rw [List.getElem?_eq_getElem inside]
    refine ⟨_, rfl, ?_⟩
    exact middle_of_ascending ascends inside inside le_rfl le_rfl (by omega) (by omega)

namespace Middle

variable {xs : List K} {m : K} (middle : Middle xs m)
include middle

theorem exists_le (some : xs ≠ []) : ∃ x ∈ xs, x ≤ m := by
  have count := List.length_pos_of_ne_nil some
  have below := middle.below
  obtain ⟨x, known, least⟩ := List.countP_pos_iff.mp (by omega : 0 < xs.countP (· ≤ m))
  exact ⟨x, known, of_decide_eq_true least⟩

theorem exists_ge (some : xs ≠ []) : ∃ x ∈ xs, m ≤ x := by
  have count := List.length_pos_of_ne_nil some
  have above := middle.above
  obtain ⟨x, known, most⟩ := List.countP_pos_iff.mp (by omega : 0 < xs.countP (m ≤ ·))
  exact ⟨x, known, of_decide_eq_true most⟩

/-- What most values agree on is their only middle. -/
theorem eq_of_most {r : K} (most : xs.length < 2 * xs.countP (· = r)) : m = r := by
  obtain ⟨below, above⟩ := middle
  have lower : xs.length < xs.countP (· ≤ m) + xs.countP (· = r) := by omega
  have upper : xs.length < xs.countP (m ≤ ·) + xs.countP (· = r) := by omega
  obtain ⟨x, -, least, here⟩ := exists_of_length_lt lower
  obtain ⟨y, -, greatest, there⟩ := exists_of_length_lt upper
  rw [decide_eq_true_iff] at least here greatest there
  exact le_antisymm (there ▸ greatest) (here ▸ least)

end Middle

section Telling

/-- The pairs of places that tell a ratio, the earlier one first: their configured coordinates are
far enough apart. -/
def telling (minDistance : K) (places : List (K × K)) :
    Finset (Fin places.length × Fin places.length) :=
  Finset.univ.filter fun p => p.1 < p.2 ∧ minDistance ≤ |places[p.2].1 - places[p.1].1|

/-- The found distance of two places over the configured one. -/
def ratioOf (places : List (K × K)) (p : Fin places.length × Fin places.length) : K :=
  |places[p.2].2 - places[p.1].2| / |places[p.2].1 - places[p.1].1|

def ratios (minDistance : K) (places : List (K × K)) : List K :=
  (pairs places).filterMap fun (a, b) => distanceRatio? minDistance a b

theorem countP_ratios (minDistance : K) (places : List (K × K)) (keep : K → Bool) :
    (ratios minDistance places).countP keep =
      ((telling minDistance places).filter fun p => keep (ratioOf places p) = true).card := by
  rw [ratios, ratios_eq, widePairs, List.countP_map, List.countP_filter, countP_pairs, telling,
    Finset.filter_filter]
  congr 1
  apply Finset.filter_congr
  intro p _
  simp only [Bool.and_eq_true, decide_eq_true_eq, Function.comp, ratioOf]
  rw [and_assoc, and_comm (a := keep _ = true)]

theorem length_ratios (minDistance : K) (places : List (K × K)) :
    (ratios minDistance places).length = (telling minDistance places).card := by
  have all := countP_ratios minDistance places fun _ => true
  rwa [List.countP_true, Finset.filter_true_of_mem fun _ _ => rfl] at all

theorem mem_ratios {minDistance : K} {places : List (K × K)} {x : K} :
    x ∈ ratios minDistance places ↔ ∃ p ∈ telling minDistance places, ratioOf places p = x := by
  have count := countP_ratios minDistance places (· = x)
  have listed : x ∈ ratios minDistance places ↔ 0 < (ratios minDistance places).countP (· = x) := by
    simp [List.countP_pos_iff]
  rw [listed, count, Finset.card_pos, Finset.filter_nonempty_iff]
  simp only [decide_eq_true_eq]

theorem ratios_ne_nil {minDistance : K} {places : List (K × K)}
    (some : (telling minDistance places).Nonempty) : ratios minDistance places ≠ [] := by
  rw [← List.length_pos_iff, length_ratios]
  exact some.card_pos

theorem scale_of_none {minDistance : K} {places : List (K × K)}
    (none : telling minDistance places = ∅) : scale minDistance places = 1 := by
  have nil : ratios minDistance places = [] := by
    rw [← List.length_eq_zero_iff, length_ratios, none, Finset.card_empty]
  rw [ratios] at nil
  rw [scale, nil]
  rfl

theorem middle_scale {minDistance : K} {places : List (K × K)}
    (some : (telling minDistance places).Nonempty) :
    Middle (ratios minDistance places) (scale minDistance places) := by
  obtain ⟨m, found, middle⟩ := middle_median (ratios_ne_nil some)
  have scaled : scale minDistance places = m := by
    rw [ratios] at found
    rw [scale, found]
    rfl
  rwa [scaled]

end Telling

section Dividing

/-- Exact numbers with another division. -/
@[reducible] def dividing (div : K → K → K) : Scalar K := { (Exact.scalar : Scalar K) with div }

variable {div : K → K → K}

theorem insertDescending_dividing (x : K) (ys : List K) :
    @insertDescending K (dividing div) x ys = insertDescending x ys := by
  induction ys with
  | nil => rfl
  | cons y ys ih =>
    unfold insertDescending
    rw [ih]

theorem ascending_dividing (xs : List K) : @ascending K (dividing div) xs = ascending xs := by
  unfold ascending
  simp only [insertDescending_dividing]

variable (divides : ∀ a b, b ≠ 0 → div a b = a / b)
include divides

theorem distanceRatio?_dividing {minDistance : K} (positive : 0 < minDistance) (a b : K × K) :
    @distanceRatio? K (dividing div) minDistance a b = distanceRatio? minDistance a b := by
  have ratio : minDistance ≤ |b.1 - a.1| →
      div |b.2 - a.2| |b.1 - a.1| = |b.2 - a.2| / |b.1 - a.1| :=
    fun wide => divides _ _ (positive.trans_le wide).ne'
  rw [distanceRatio?_eq, ← ite_congr rfl (fun wide => congrArg some (ratio wide)) fun _ => rfl]
  rfl

theorem median_dividing (xs : List K) : @median K (dividing div) xs = median xs := by
  have half (a b : K) : div (a + b) Scalar.two = (a + b) / Scalar.two :=
    divides _ _ (Exact.two_eq (K := K) ▸ two_ne_zero)
  unfold median
  rw [ascending_dividing]
  dsimp only
  refine ite_congr rfl (fun _ => ?_) fun _ => rfl
  split
  · exact congrArg some (half _ _)
  · rfl

/-- A scale does not depend on what a division by zero would give. -/
theorem scale_dividing {minDistance : K} (positive : 0 < minDistance) (places : List (K × K)) :
    @scale K (dividing div) minDistance places = scale minDistance places := by
  unfold scale
  simp only [distanceRatio?_dividing divides positive, median_dividing divides]

end Dividing

/-- The scale of an axis is 1 where no two places are far enough apart to tell a ratio. Else it lies
among the ratios of the pairs that are, at least half of them no greater and at least half no less;
a ratio that most of them have is the scale. Nothing is divided by zero. -/
theorem scale_robust {minDistance : K} (positive : 0 < minDistance) (places : List (K × K)) :
    let told := telling minDistance places
    let s := scale minDistance places
    (told = ∅ → s = 1) ∧
      (∀ some : told.Nonempty,
        (told.inf' some (ratioOf places) ≤ s ∧ s ≤ told.sup' some (ratioOf places)) ∧
          told.card ≤ 2 * (told.filter fun p => ratioOf places p ≤ s).card ∧
          told.card ≤ 2 * (told.filter fun p => s ≤ ratioOf places p).card) ∧
      (∀ r, told.card < 2 * (told.filter fun p => ratioOf places p = r).card → s = r) ∧
      (∀ p ∈ told, |places[p.2].1 - places[p.1].1| ≠ 0) ∧
      ∀ div : K → K → K, (∀ a b, b ≠ 0 → div a b = a / b) →
        @scale K (dividing div) minDistance places = s := by
  intro told s
  refine ⟨scale_of_none, fun some => ?_, fun r most => ?_, fun p known => ?_, fun div divides => ?_⟩
  · have middle : Middle (ratios minDistance places) s := middle_scale some
    have several := ratios_ne_nil some
    obtain ⟨x, below, least⟩ := middle.exists_le several
    obtain ⟨y, above, greatest⟩ := middle.exists_ge several
    obtain ⟨p, first, rfl⟩ := mem_ratios.mp below
    obtain ⟨q, second, rfl⟩ := mem_ratios.mp above
    have low := middle.below
    have high := middle.above
    rw [length_ratios, countP_ratios] at low high
    simp only [decide_eq_true_eq] at low high
    exact ⟨⟨(Finset.inf'_le _ first).trans least, greatest.trans (Finset.le_sup' _ second)⟩,
      low, high⟩
  · have some : told.Nonempty := by
      have part := Finset.card_filter_le told fun p => ratioOf places p = r
      rw [← Finset.card_pos]
      omega
    refine (middle_scale some).eq_of_most ?_
    rw [length_ratios, countP_ratios]
    simpa only [decide_eq_true_eq] using most
  · have wide := (Finset.mem_filter.mp known).2.2
    exact (positive.trans_le wide).ne'
  · exact scale_dividing divides positive places

/-- Five places of a doubling, of which the last was found elsewhere. -/
def strayed : List (ℚ × ℚ) := [(0, 0), (100, 200), (200, 400), (300, 600), (400, 500)]

theorem scale_robust_strayed :
    (0 : ℚ) < 10 ∧ (telling 10 strayed).Nonempty ∧
      (telling 10 strayed).card <
        2 * ((telling 10 strayed).filter fun p => ratioOf strayed p = 2).card ∧
      scale 10 strayed = 2 ∧
      @scale ℚ (dividing fun a b => if b = 0 then 7 else a / b) 10 strayed = 2 := by
  have positive : (0 : ℚ) < 10 := by decide
  have most : (telling 10 strayed).card <
      2 * ((telling 10 strayed).filter fun p => ratioOf strayed p = 2).card := by decide +kernel
  obtain ⟨-, -, agreed, -, same⟩ := scale_robust positive strayed
  have two := agreed 2 most
  refine ⟨positive, by decide +kernel, most, two, ?_⟩
  rw [same _ fun a b nonzero => if_neg nonzero, two]

end Docket.Statistics
