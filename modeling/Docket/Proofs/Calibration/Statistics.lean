import Docket.Proofs.Exact
import Docket.Calibration.Statistics

/-! Exact means, medians and scales of places that a drift has moved. -/
namespace Docket.Statistics

section Order
variable {α : Type} [Scalar α]

theorem insertDescending_perm (x : α) (ys : List α) : (insertDescending x ys).Perm (x :: ys) := by
  induction ys with
  | nil => exact List.Perm.refl _
  | cons y ys ih =>
    unfold insertDescending
    split
    · exact (List.Perm.cons y ih).trans (List.Perm.swap x y ys)
    · exact List.Perm.refl _

theorem ascending_perm (xs : List α) : (ascending xs).Perm xs := by
  have inserted (start : List α) :
      (xs.foldl (fun sorted x => insertDescending x sorted) start).Perm (xs.reverse ++ start) := by
    induction xs generalizing start with
    | nil => exact List.Perm.refl _
    | cons x xs ih =>
      rw [List.foldl_cons, List.reverse_cons, List.append_assoc]
      exact (ih _).trans ((insertDescending_perm x start).append_left _)
  have sorted := inserted []
  rw [List.append_nil] at sorted
  exact ((List.reverse_perm _).trans sorted).trans (List.reverse_perm _)

theorem mem_pairs {β : Type} {xs : List β} {p : β × β} (known : p ∈ pairs xs) :
    p.1 ∈ xs ∧ p.2 ∈ xs := by
  induction xs with
  | nil => cases known
  | cons x xs ih =>
    rw [pairs, List.mem_append, List.mem_map] at known
    rcases known with ⟨y, later, rfl⟩ | known
    · exact ⟨List.mem_cons_self, List.mem_cons_of_mem _ later⟩
    · exact ⟨List.mem_cons_of_mem _ (ih known).1, List.mem_cons_of_mem _ (ih known).2⟩

theorem pairs_map {β γ : Type} (f : β → γ) (xs : List β) :
    pairs (xs.map f) = (pairs xs).map (Prod.map f f) := by
  induction xs with
  | nil => rfl
  | cons x xs ih =>
    simp only [List.map_cons, pairs, ih, List.map_append, List.map_map]
    rfl

theorem pairs_subset {β : Type} {xs ys : List β} (part : xs.Sublist ys) : pairs xs ⊆ pairs ys := by
  induction part with
  | slnil => exact List.Subset.refl _
  | cons y _ ih => exact fun p known => List.mem_append_right _ (ih known)
  | cons_cons y part ih =>
    intro p known
    rcases List.mem_append.mp known with first | later
    · exact List.mem_append_left _ (List.map_subset _ part.subset first)
    · exact List.mem_append_right _ (ih later)

end Order

section Exact
variable {K : Type} [ExactNumber K]

theorem mean_eq (xs : List K) : mean xs = xs.sum / xs.length := by
  cases xs with
  | nil => simp [mean]
  | cons x xs =>
    rw [← Exact.sum_eq]
    rfl

theorem mean_affine {β : Type} (f : β → K) (a b : K) {xs : List β} (nonempty : xs ≠ []) :
    mean (xs.map fun x => a * f x + b) = a * mean (xs.map f) + b := by
  have count : (xs.length : K) ≠ 0 := by simpa using nonempty
  have sum : (xs.map fun x => a * f x + b).sum = a * (xs.map f).sum + xs.length * b := by
    rw [List.sum_map_add, List.sum_map_mul_left, List.map_const', List.sum_replicate,
      nsmul_eq_mul]
  rw [mean_eq, mean_eq, List.length_map, List.length_map, sum, add_div, mul_div_assoc,
    mul_div_cancel_left₀ _ count]

/-- Some pair of places is wide enough to tell a ratio. -/
def Wide (minDistance : K) (xs : List K) : Prop :=
  ∃ p ∈ pairs xs, minDistance ≤ |p.2 - p.1|

instance (minDistance : K) (xs : List K) : Decidable (Wide minDistance xs) :=
  inferInstanceAs (Decidable (∃ p ∈ pairs xs, minDistance ≤ |p.2 - p.1|))

/-- No pair that is wide enough coincides, so every ratio has a divisor. -/
def Parted (minDistance : K) (xs : List K) : Prop :=
  ∀ p ∈ pairs xs, minDistance ≤ |p.2 - p.1| → p.1 ≠ p.2

theorem distanceRatio?_eq (minDistance : K) (a b : K × K) :
    distanceRatio? minDistance a b =
      if minDistance ≤ |b.1 - a.1| then some (|b.2 - a.2| / |b.1 - a.1|) else none := rfl

theorem median_of_equal {x : K} {xs : List K} (nonempty : xs ≠ []) (equal : ∀ y ∈ xs, y = x) :
    median xs = some x := by
  have sorted : ascending xs = List.replicate xs.length x :=
    List.eq_replicate_iff.mpr ⟨(ascending_perm xs).length_eq,
      fun y known => equal y ((ascending_perm xs).mem_iff.mp known)⟩
  have positive : 0 < xs.length := List.length_pos_of_ne_nil nonempty
  simp only [median, sorted, List.length_replicate]
  split
  · rw [List.getElem?_replicate_of_lt (by omega), List.getElem?_replicate_of_lt (by omega)]
    simp only [Exact.two_eq, add_self_div_two]
  · rw [List.getElem?_replicate_of_lt (by omega)]

theorem distanceRatio?_line {minDistance s o x y : K} (positive : 0 < s)
    (parted : minDistance ≤ |y - x| → x ≠ y) :
    distanceRatio? minDistance (x, s * x + o) (y, s * y + o) =
      if minDistance ≤ |y - x| then some s else none := by
  rw [distanceRatio?_eq]
  split
  · rename_i apart
    have width : |y - x| ≠ 0 := abs_ne_zero.mpr (sub_ne_zero.mpr (parted apart).symm)
    have found : s * y + o - (s * x + o) = s * (y - x) := by ring
    rw [found, abs_mul, abs_of_pos positive, mul_div_cancel_right₀ _ width]
  · rfl

/-- The scale of places on a line of positive slope is the slope if a pair tells it. -/
theorem scale_line {minDistance s : K} (o : K) {xs : List K} (positive : 0 < s)
    (parted : Parted minDistance xs) :
    scale minDistance (xs.map fun x => (x, s * x + o)) = if Wide minDistance xs then s else 1 := by
  have ratios : (pairs (xs.map fun x => (x, s * x + o))).filterMap
      (fun q => distanceRatio? minDistance q.1 q.2) =
        (pairs xs).filterMap fun p => if minDistance ≤ |p.2 - p.1| then some s else none := by
    rw [pairs_map, List.filterMap_map]
    exact List.filterMap_congr fun p known => distanceRatio?_line positive (parted p known)
  show (median ((pairs (xs.map fun x => (x, s * x + o))).filterMap
    fun q => distanceRatio? minDistance q.1 q.2)).getD 1 = _
  rw [ratios]
  split
  · rename_i wide
    obtain ⟨p, known, apart⟩ := wide
    rw [median_of_equal (x := s)]
    · rfl
    · exact List.ne_nil_of_mem (List.mem_filterMap.mpr ⟨p, known, if_pos apart⟩)
    · intro y told
      obtain ⟨p, _, ratio⟩ := List.mem_filterMap.mp told
      split at ratio
      · exact (Option.some.inj ratio).symm
      · cases ratio
  · rename_i narrow
    have none : ((pairs xs).filterMap fun p =>
        if minDistance ≤ |p.2 - p.1| then some s else none) = [] := by
      refine List.filterMap_eq_nil_iff.mpr fun p known => if_neg fun apart => ?_
      exact narrow ⟨p, known, apart⟩
    rw [none]
    rfl

theorem insertDescending_descends (x : K) {ys : List K} (descends : ys.Pairwise (· ≥ ·)) :
    (insertDescending x ys).Pairwise (· ≥ ·) := by
  induction ys with
  | nil => exact List.pairwise_singleton _ _
  | cons y ys ih =>
    obtain ⟨first, rest⟩ := List.pairwise_cons.mp descends
    unfold insertDescending
    split
    · rename_i less
      refine List.pairwise_cons.mpr ⟨fun z known => ?_, ih rest⟩
      rcases List.mem_cons.mp ((insertDescending_perm x ys).mem_iff.mp known) with rfl | later
      · exact le_of_lt less
      · exact first z later
    · rename_i not_less
      refine List.pairwise_cons.mpr ⟨fun z known => ?_, descends⟩
      have top : y ≤ x := not_lt.mp not_less
      rcases List.mem_cons.mp known with rfl | later
      · exact top
      · exact le_trans (first z later) top

theorem ascending_ascends (xs : List K) : (ascending xs).Pairwise (· ≤ ·) := by
  have inserted (start : List K) (descends : start.Pairwise (· ≥ ·)) :
      (xs.foldl (fun sorted x => insertDescending x sorted) start).Pairwise (· ≥ ·) := by
    induction xs generalizing start with
    | nil => exact descends
    | cons x xs ih => exact ih _ (insertDescending_descends x descends)
  exact List.pairwise_reverse.mpr (inserted [] List.Pairwise.nil)

theorem getElem_pos_iff {xs : List K} (ascends : xs.Pairwise (· ≤ ·)) (nonneg : ∀ x ∈ xs, 0 ≤ x)
    (i : Nat) (inside : i < xs.length) : 0 < xs[i] ↔ xs.countP (· = 0) ≤ i := by
  induction xs generalizing i with
  | nil => cases inside
  | cons x xs ih =>
    obtain ⟨first, rest⟩ := List.pairwise_cons.mp ascends
    have later := ih rest fun y known => nonneg y (List.mem_cons_of_mem x known)
    rw [List.countP_cons]
    by_cases zero : x = 0
    · cases i with
      | zero => simp [zero]
      | succ i => simpa [zero] using later i (Nat.lt_of_succ_lt_succ inside)
    · have positive : 0 < x := lt_of_le_of_ne (nonneg x List.mem_cons_self) (Ne.symm zero)
      have none : xs.countP (· = 0) = 0 := by
        refine List.countP_eq_zero.mpr fun y known => ?_
        simpa using (lt_of_lt_of_le positive (first y known)).ne'
      have all : ∀ y ∈ x :: xs, 0 < y := by
        intro y known
        rcases List.mem_cons.mp known with rfl | known
        · exact positive
        · exact lt_of_lt_of_le positive (first y known)
      simpa [none, zero] using all _ (List.getElem_mem inside)

/-- Of values that are not negative the middle is positive unless more than half of them vanish. -/
theorem median_getD_nonneg_iff {xs : List K} (nonneg : ∀ x ∈ xs, 0 ≤ x) :
    0 ≤ (median xs).getD 1 ∧ (0 < (median xs).getD 1 ↔ 2 * xs.countP (· = 0) ≤ xs.length) := by
  have perm := ascending_perm xs
  have known : ∀ x ∈ ascending xs, 0 ≤ x := fun x inside => nonneg x (perm.mem_iff.mp inside)
  have positive := getElem_pos_iff (ascending_ascends xs) known
  have ordered := List.pairwise_iff_getElem.mp (ascending_ascends xs)
  rw [← perm.countP_eq, ← perm.length_eq]
  revert known positive ordered
  unfold median
  generalize ascending xs = s
  intro known positive ordered
  dsimp only
  split
  · rename_i even
    rcases Nat.eq_zero_or_pos s.length with nil | some
    · rw [List.length_eq_zero_iff.mp nil]
      simp
    · have low : s.length / 2 - 1 < s.length := by omega
      have high : s.length / 2 < s.length := by omega
      have least := known _ (List.getElem_mem low)
      have between := ordered _ _ low high (by omega)
      have middle := positive _ high
      rw [List.getElem?_eq_getElem low, List.getElem?_eq_getElem high]
      simp only [Option.getD_some, Exact.two_eq]
      refine ⟨by linarith, ?_⟩
      have half : 2 * s.countP (· = 0) ≤ s.length ↔ s.countP (· = 0) ≤ s.length / 2 := by omega
      rw [half, ← middle]
      constructor
      · intro sum
        linarith
      · intro above
        linarith
  · rename_i odd
    have inside : s.length / 2 < s.length := by omega
    rw [List.getElem?_eq_getElem inside, Option.getD_some, positive _ inside]
    exact ⟨known _ (List.getElem_mem inside), by omega⟩

/-- The pairs of places that are wide enough to tell a ratio. -/
def widePairs (minDistance : K) (places : List (K × K)) : List ((K × K) × (K × K)) :=
  (pairs places).filter fun p => minDistance ≤ |p.2.1 - p.1.1|

/-- At most half of the wide pairs are found at one coordinate. -/
def Told (minDistance : K) (places : List (K × K)) : Prop :=
  2 * (widePairs minDistance places).countP (fun p => p.1.2 = p.2.2) ≤
    (widePairs minDistance places).length

instance (minDistance : K) (places : List (K × K)) : Decidable (Told minDistance places) :=
  inferInstanceAs (Decidable (_ ≤ _))

theorem ratios_eq (minDistance : K) (places : List (K × K)) :
    ((pairs places).filterMap fun (a, b) => distanceRatio? minDistance a b) =
      (widePairs minDistance places).map fun p => |p.2.2 - p.1.2| / |p.2.1 - p.1.1| := by
  rw [widePairs, ← List.filterMap_eq_map, List.filterMap_filter]
  refine List.filterMap_congr fun p _ => ?_
  simp [distanceRatio?_eq]

/-- No scale is negative, and one is 0 only where most wide pairs are found at one coordinate. -/
theorem scale_pos_iff {minDistance : K} (positive : 0 < minDistance) (places : List (K × K)) :
    0 ≤ scale minDistance places ∧
      (0 < scale minDistance places ↔ Told minDistance places) := by
  have nonneg : ∀ x ∈ (widePairs minDistance places).map
      (fun p => |p.2.2 - p.1.2| / |p.2.1 - p.1.1|), 0 ≤ x := by
    intro x known
    obtain ⟨p, -, rfl⟩ := List.mem_map.mp known
    exact div_nonneg (abs_nonneg _) (abs_nonneg _)
  have vanish : ((widePairs minDistance places).map
      fun p => |p.2.2 - p.1.2| / |p.2.1 - p.1.1|).countP (· = 0) =
        (widePairs minDistance places).countP fun p => p.1.2 = p.2.2 := by
    rw [List.countP_map]
    refine List.countP_congr fun p known => ?_
    have wide : minDistance ≤ |p.2.1 - p.1.1| := by
      simpa using (List.mem_filter.mp known).2
    have width : |p.2.1 - p.1.1| ≠ 0 := (lt_of_lt_of_le positive wide).ne'
    simp only [Function.comp, div_eq_zero_iff, width, or_false, abs_eq_zero,
      sub_eq_zero, eq_comm]
  have middle := median_getD_nonneg_iff nonneg
  rw [vanish, List.length_map, ← ratios_eq] at middle
  exact middle

end Exact
end Docket.Statistics
