import Docket.Proofs.Calibration.Moving
import Docket.Proofs.Calibration.Reordering

/-! How many offsets of anchors can be outliers. With exact square roots the squared distances from
the mean come to as many squared deviations as there are values. No value lies further out than the
others balance, and few lie far out, so a high threshold is passed by none of few values. Distances
are told in deviations, which shift and stretch as the values do. -/
namespace Docket.Statistics

section Sums
variable {α K : Type} [ExactNumber K]

theorem sum_map_nonneg {f : α → K} (nonneg : ∀ x, 0 ≤ f x) (xs : List α) : 0 ≤ (xs.map f).sum := by
  apply List.sum_nonneg
  intro y known
  obtain ⟨x, -, rfl⟩ := List.mem_map.mp known
  exact nonneg x

/-- Values beyond a bound come to more than as many bounds. -/
theorem countP_mul_lt_sum {f : α → K} {bound : K} {beyond : α → Bool} (nonneg : ∀ x, 0 ≤ f x)
    (above : ∀ x, beyond x = true → bound < f x) {xs : List α} (some : 0 < xs.countP beyond) :
    xs.countP beyond * bound < (xs.map f).sum := by
  induction xs with
  | nil => cases some
  | cons x xs ih =>
    rw [List.map_cons, List.sum_cons]
    by_cases here : beyond x = true
    · rw [List.countP_cons_of_pos here, Nat.cast_succ, add_one_mul, add_comm (f x)]
      rcases Nat.eq_zero_or_pos (xs.countP beyond) with none | more
      · rw [none, Nat.cast_zero, zero_mul]
        exact add_lt_add_of_le_of_lt (sum_map_nonneg nonneg xs) (above x here)
      · exact add_lt_add (ih more) (above x here)
    · rw [List.countP_cons_of_neg here] at some ⊢
      exact (ih some).trans_le (le_add_of_nonneg_left (nonneg x))

theorem sq_sum_le (xs : List α) (f : α → K) :
    (xs.map f).sum ^ 2 ≤ xs.length * (xs.map fun x => f x ^ 2).sum := by
  have bound := sq_sum_le_card_mul_sum_sq (s := Finset.univ)
    (f := fun i : Fin xs.length => f xs[i.val])
  rwa [Finset.card_univ, Fintype.card_fin, Fin.sum_univ_fun_getElem,
    Fin.sum_univ_fun_getElem xs fun x => f x ^ 2] at bound

end Sums

variable {K : Type} [ExactNumber K]

/-- The squared distances from the mean. -/
def spread (xs : List K) : K := (xs.map fun x => (x - mean xs) ^ 2).sum

theorem spread_nonneg (xs : List K) : 0 ≤ spread xs := sum_map_nonneg (fun _ => sq_nonneg _) xs

theorem sum_sub_mean (xs : List K) : (xs.map fun x => x - mean xs).sum = 0 := by
  cases xs with
  | nil => rfl
  | cons x xs =>
    have centred := mean_add (-mean (x :: xs)) (List.cons_ne_nil x xs)
    rw [add_neg_cancel, mean_eq, div_eq_zero_iff, List.length_map] at centred
    have count : ((x :: xs).length : K) ≠ 0 := by simpa using Nat.cast_add_one_ne_zero xs.length
    simpa only [sub_eq_add_neg] using centred.resolve_right count

theorem mean_mul (c : K) (xs : List K) : mean (xs.map (c * ·)) = c * mean xs := by
  rw [mean_eq, mean_eq, List.sum_map_mul_left, List.map_id', List.length_map, mul_div_assoc]

/-- A value is balanced by the others, so its distance is bounded by theirs. -/
theorem sq_sub_mean_le {xs : List K} {x : K} (known : x ∈ xs) :
    xs.length * (x - mean xs) ^ 2 ≤ (xs.length - 1) * spread xs := by
  have perm := List.perm_cons_erase known
  have balanced := (perm.map fun y => y - mean xs).sum_eq
  have spread_eq := (perm.map fun y => (y - mean xs) ^ 2).sum_eq
  have count : (xs.length : K) = (xs.erase x).length + 1 := by
    rw [perm.length_eq, List.length_cons, Nat.cast_succ]
  have others := sq_sum_le (xs.erase x) fun y => y - mean xs
  rw [sum_sub_mean, List.map_cons, List.sum_cons] at balanced
  rw [List.map_cons, List.sum_cons] at spread_eq
  rw [← neg_eq_of_add_eq_zero_right balanced.symm, neg_sq] at others
  rw [spread, spread_eq, count, add_sub_cancel_right]
  linarith

theorem variance_nonneg (xs : List K) : 0 ≤ spread xs / xs.length :=
  div_nonneg (spread_nonneg xs) (Nat.cast_nonneg _)

theorem deviation_eq {xs : List K} (nonempty : xs ≠ []) :
    deviation xs = ExactNumber.root (spread xs / xs.length) := by
  have some : xs.isEmpty = false := by simpa using nonempty
  have squares : (fun x => Scalar.square (x - mean xs)) = fun x => (x - mean xs) ^ 2 := by
    funext x
    exact (sq _).symm
  rw [deviation, if_neg (by simp [some]), spread, ← Exact.sum_eq, ← squares]
  rfl

theorem lt_score_iff {threshold : K} (nonneg : 0 ≤ threshold) (xs : List K) (x : K) :
    threshold < score (mean xs) (deviation xs) x ↔
      0 < deviation xs ∧ threshold ^ 2 * deviation xs ^ 2 < (x - mean xs) ^ 2 := by
  unfold score
  split
  · rename_i positive
    have size : Scalar.abs ((x - mean xs) / deviation xs) = |x - mean xs| / deviation xs := by
      rw [← abs_of_pos positive, ← abs_div, abs_of_pos positive]
      rfl
    rw [size, lt_div_iff₀ positive, ← mul_pow, sq_lt_sq,
      abs_of_nonneg (mul_nonneg nonneg positive.le)]
    exact (and_iff_right positive).symm
  · rename_i even
    exact iff_of_false (not_lt.mpr nonneg) fun far => even far.1

/-- Whether a value lies further out than the threshold. -/
def isBeyond (threshold : K) (xs : List K) (x : K) : Bool :=
  threshold < score (mean xs) (deviation xs) x

theorem isBeyond_iff {threshold : K} (nonneg : 0 ≤ threshold) (xs : List K) (x : K) :
    isBeyond threshold xs x = true ↔
      0 < deviation xs ∧ threshold ^ 2 * deviation xs ^ 2 < (x - mean xs) ^ 2 :=
  decide_eq_true_iff.trans (lt_score_iff nonneg xs x)

section Roots
variable [ExactRoots K]

theorem deviation_nonneg (xs : List K) : 0 ≤ deviation xs := by
  by_cases nonempty : xs = []
  · rw [nonempty]
    exact le_refl 0
  · rw [deviation_eq nonempty]
    exact ExactRoots.root_nonneg _ (variance_nonneg xs)

/-- The distances come to as many squared deviations as there are values. -/
theorem length_mul_deviation_sq (xs : List K) : xs.length * deviation xs ^ 2 = spread xs := by
  by_cases nonempty : xs = []
  · rw [nonempty, List.length_nil, Nat.cast_zero, zero_mul]
    rfl
  · have count : (xs.length : K) ≠ 0 := by simpa using nonempty
    rw [deviation_eq nonempty, sq, ExactRoots.root_mul_root _ (variance_nonneg xs)]
    exact mul_div_cancel₀ _ count

theorem deviation_mul (c : K) (xs : List K) :
    deviation (xs.map (c * ·)) = |c| * deviation xs := by
  cases xs with
  | nil => exact (mul_zero _).symm
  | cons x xs =>
    have spread_mul : spread ((x :: xs).map (c * ·)) = c ^ 2 * spread (x :: xs) := by
      rw [spread, spread, mean_mul, List.map_map, ← List.sum_map_mul_left]
      congr 1
      apply List.map_congr_left
      intro y _
      rw [Function.comp, ← mul_sub, mul_pow]
    have squares : deviation ((x :: xs).map (c * ·)) ^ 2 = (|c| * deviation (x :: xs)) ^ 2 := by
      have count : ((x :: xs).length : K) ≠ 0 := by simpa using Nat.cast_add_one_ne_zero xs.length
      apply mul_left_cancel₀ count
      have told := length_mul_deviation_sq ((x :: xs).map (c * ·))
      rw [List.length_map] at told
      rw [told, spread_mul, mul_pow, sq_abs, ← length_mul_deviation_sq]
      ring
    have nonneg := mul_nonneg (abs_nonneg c) (deviation_nonneg (x :: xs))
    exact (sq_eq_sq₀ (deviation_nonneg _) nonneg).mp squares

/-- A value far out needs others to balance it. -/
theorem sq_add_one_lt_length {threshold : K} (nonneg : 0 ≤ threshold) {xs : List K} {x : K}
    (known : x ∈ xs) (far : isBeyond threshold xs x = true) : threshold ^ 2 + 1 < xs.length := by
  obtain ⟨positive, beyond⟩ := (isBeyond_iff nonneg xs x).mp far
  have count : (0 : K) < xs.length := Nat.cast_pos.mpr (List.length_pos_of_mem known)
  have balanced := sq_sub_mean_le known
  rw [← length_mul_deviation_sq, ← mul_assoc, mul_comm _ (xs.length : K), mul_assoc] at balanced
  have bound := beyond.trans_le (le_of_mul_le_mul_left balanced count)
  have less := lt_of_mul_lt_mul_right bound (sq_nonneg (deviation xs))
  linarith

/-- Few values lie far out. -/
theorem countP_isBeyond_lt {threshold : K} (positive : 0 < threshold) {xs : List K}
    (nonempty : xs ≠ []) : (xs.countP (isBeyond threshold xs) : K) < xs.length / threshold ^ 2 := by
  rw [lt_div_iff₀ (pow_pos positive 2)]
  rcases Nat.eq_zero_or_pos (xs.countP (isBeyond threshold xs)) with none | some
  · rw [none, Nat.cast_zero, zero_mul]
    exact Nat.cast_pos.mpr (List.length_pos_of_ne_nil nonempty)
  · obtain ⟨x, -, far⟩ := List.countP_pos_iff.mp some
    have told := isBeyond_iff positive.le xs
    have sum := countP_mul_lt_sum (fun y => sq_nonneg (y - mean xs))
      (fun y far => ((told y).mp far).2) some
    have total : (xs.map fun y => (y - mean xs) ^ 2).sum = xs.length * deviation xs ^ 2 :=
      (length_mul_deviation_sq xs).symm
    rw [total, ← mul_assoc] at sum
    exact lt_of_mul_lt_mul_right sum (sq_nonneg _)

end Roots

theorem score_mul {c : K} (nonzero : c ≠ 0) (mean deviation x : K) :
    score (c * mean) (|c| * deviation) (c * x) = score mean deviation x := by
  have size : |(c * x - c * mean) / (|c| * deviation)| = |(x - mean) / deviation| := by
    rw [← mul_sub, abs_div, abs_mul, abs_mul, abs_abs,
      mul_div_mul_left _ _ (abs_ne_zero.mpr nonzero), ← abs_div]
  have sign : 0 < |c| * deviation ↔ 0 < deviation := mul_pos_iff_of_pos_left (abs_pos.mpr nonzero)
  simp only [score, sign]
  exact if_congr Iff.rfl size rfl

/-- The flags that one axis gives. -/
def flagsOn (threshold : K) (axis : K × K → K) (offsets : List (K × K)) : List Bool :=
  offsets.map fun o => 3 ≤ offsets.length && isBeyond threshold (offsets.map axis) (axis o)

/-- An offset is flagged for one axis or for the other. -/
theorem outliers_eq_zipWith (threshold : K) (offsets : List (K × K)) :
    outliers threshold offsets = List.zipWith (· || ·) (flagsOn threshold Prod.fst offsets)
      (flagsOn threshold Prod.snd offsets) := by
  rw [outliers_eq, flagsOn, flagsOn, List.zipWith_map, List.zipWith_self]
  apply List.map_congr_left
  intro o _
  exact Bool.and_or_distrib_left ..

theorem length_outliers (threshold : K) (offsets : List (K × K)) :
    (outliers threshold offsets).length = offsets.length := by
  rw [outliers_eq, List.length_map]

theorem beyond_of_mem_outliers {threshold : K} {offsets : List (K × K)}
    (flagged : true ∈ outliers threshold offsets) :
    ∃ axis, ∃ o ∈ offsets, isBeyond threshold (offsets.map axis) (axis o) = true := by
  rw [outliers_eq] at flagged
  obtain ⟨o, known, far⟩ := List.mem_map.mp flagged
  rcases Bool.or_eq_true_iff.mp (Bool.and_eq_true_iff.mp far).2 with across | down
  · exact ⟨Prod.fst, o, known, across⟩
  · exact ⟨Prod.snd, o, known, down⟩

theorem count_flagsOn_le (threshold : K) (axis : K × K → K) (offsets : List (K × K)) :
    (flagsOn threshold axis offsets).count true ≤
      (offsets.map axis).countP (isBeyond threshold (offsets.map axis)) := by
  rw [flagsOn, List.count, List.countP_map, List.countP_map]
  apply List.countP_mono_left
  intro o _ flagged
  exact (Bool.and_eq_true_iff.mp (eq_of_beq flagged)).2

section Roots
variable [ExactRoots K]

theorem isBeyond_mul (threshold : K) {c : K} (nonzero : c ≠ 0) (xs : List K) (x : K) :
    isBeyond threshold (xs.map (c * ·)) (c * x) = isBeyond threshold xs x := by
  rw [isBeyond, mean_mul, deviation_mul, score_mul nonzero, isBeyond]

theorem flagsOn_mul (threshold : K) {c : K} (nonzero : c ≠ 0) (offsets : List (K × K))
    {axis : K × K → K} (scales : ∀ o : K × K, axis (c * o.1, c * o.2) = c * axis o) :
    flagsOn threshold axis (offsets.map fun o => (c * o.1, c * o.2)) =
      flagsOn threshold axis offsets := by
  have values : (offsets.map fun o => (c * o.1, c * o.2)).map axis =
      (offsets.map axis).map (c * ·) := by
    rw [List.map_map, List.map_map]
    exact List.map_congr_left fun o _ => scales o
  rw [flagsOn, flagsOn, List.length_map, values, List.map_map]
  apply List.map_congr_left
  intro o _
  rw [Function.comp, scales, isBeyond_mul threshold nonzero]

theorem outliers_mul (threshold : K) {c : K} (nonzero : c ≠ 0) (offsets : List (K × K)) :
    outliers threshold (offsets.map fun o => (c * o.1, c * o.2)) = outliers threshold offsets := by
  rw [outliers_eq_zipWith, outliers_eq_zipWith, flagsOn_mul threshold nonzero offsets fun _ => rfl,
    flagsOn_mul threshold nonzero offsets fun _ => rfl]

/-- Every offset has its flag, which is raised for one axis or for the other. Some are raised only
among more than the squared threshold and one, fewer for an axis than the count over the squared
threshold, and the same ones after all offsets have been shifted or stretched. -/
theorem outliers_limited {threshold : K} (nonneg : 0 ≤ threshold) (offsets : List (K × K)) :
    (outliers threshold offsets).length = offsets.length ∧
      (true ∈ outliers threshold offsets → threshold ^ 2 + 1 < offsets.length) ∧
      (threshold = (CalibrationRule.standard : CalibrationRule K).outlierThreshold →
        offsets.length < 6 → true ∉ outliers threshold offsets) ∧
      (outliers threshold offsets = List.zipWith (· || ·) (flagsOn threshold Prod.fst offsets)
          (flagsOn threshold Prod.snd offsets) ∧
        (0 < threshold → offsets ≠ [] → ∀ axis ∈ [Prod.fst, Prod.snd],
          ((flagsOn threshold axis offsets).count true : K) < offsets.length / threshold ^ 2)) ∧
      (∀ right down : K,
        outliers threshold (offsets.map fun o => (o.1 + right, o.2 + down)) =
          outliers threshold offsets) ∧
      ∀ c : K, c ≠ 0 →
        outliers threshold (offsets.map fun o => (c * o.1, c * o.2)) =
          outliers threshold offsets := by
  have bound : true ∈ outliers threshold offsets → threshold ^ 2 + 1 < offsets.length := by
    intro flagged
    obtain ⟨axis, o, known, far⟩ := beyond_of_mem_outliers flagged
    have most := sq_add_one_lt_length nonneg (List.mem_map_of_mem known) far
    rwa [List.length_map] at most
  have flags := outliers_eq_zipWith threshold offsets
  refine ⟨length_outliers threshold offsets, bound, ?_, ⟨flags, ?_⟩, ?_, ?_⟩
  · intro standard few flagged
    have two : threshold = 2 := standard.trans (Nat.cast_ofNat (R := K))
    have most : (offsets.length : K) ≤ 5 := by exact_mod_cast Nat.lt_succ_iff.mp few
    have more := bound flagged
    rw [two] at more
    linarith
  · intro positive nonempty axis _
    have most : ((flagsOn threshold axis offsets).count true : K) ≤
        (offsets.map axis).countP (isBeyond threshold (offsets.map axis)) :=
      Nat.cast_le.mpr (count_flagsOn_le threshold axis offsets)
    have some : offsets.map axis ≠ [] := by simpa using nonempty
    have few := countP_isBeyond_lt positive some
    rw [List.length_map] at few
    exact most.trans_lt few
  · intro right down
    exact outliers_along threshold ⟨right, down⟩ offsets
  · intro c nonzero
    exact outliers_mul threshold nonzero offsets

end Roots

/-- Offsets of which one stands out. -/
noncomputable def lone : List (ℝ × ℝ) := [(0, 0), (0, 0), (0, 0), (0, 0), (0, 0), (6, 0)]

theorem outliers_limited_lone :
    (0 : ℝ) ≤ 2 ∧ true ∈ outliers 2 lone ∧ (2 : ℝ) ^ 2 + 1 < lone.length ∧
      ((flagsOn 2 Prod.fst lone).count true : ℝ) < lone.length / 2 ^ 2 ∧
      outliers 2 (lone.map fun o => (-1 * o.1, -1 * o.2)) = outliers 2 lone := by
  have nonneg : (0 : ℝ) ≤ 2 := zero_le_two
  have middle : mean (lone.map Prod.fst) = 1 := by
    rw [mean_eq]
    norm_num [lone]
  have squares : deviation (lone.map Prod.fst) ^ 2 = 5 := by
    have total := length_mul_deviation_sq (lone.map Prod.fst)
    rw [spread, middle] at total
    norm_num [lone] at total ⊢
    linarith
  have far : isBeyond 2 (lone.map Prod.fst) 6 = true := by
    rw [isBeyond_iff nonneg, middle, squares]
    refine ⟨(deviation_nonneg _).lt_of_ne fun zero => ?_, by norm_num⟩
    norm_num [← zero] at squares
  have flagged : true ∈ outliers 2 lone := by
    rw [outliers_eq]
    apply List.mem_map.mpr
    refine ⟨(6, 0), by simp [lone], ?_⟩
    have several : decide (3 ≤ lone.length) = true := rfl
    exact Bool.and_eq_true_iff.mpr ⟨several, Bool.or_eq_true_iff.mpr (.inl far)⟩
  obtain ⟨-, bound, -, ⟨-, few⟩, -, stretched⟩ := outliers_limited nonneg lone
  exact ⟨nonneg, flagged, bound flagged,
    few two_pos (List.cons_ne_nil _ _) Prod.fst List.mem_cons_self, stretched (-1) (by norm_num)⟩

end Docket.Statistics
