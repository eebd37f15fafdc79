import Mathlib

/-! Lists put in order by a number, as queries list their outputs and templates their anchors, or by
another key, as pages list their words; and lists of which every member is kept where it first
stands. -/
namespace Docket

section Firsts
variable {α : Type} [BEq α] [LawfulBEq α]

theorem nodup_eraseDups (as : List α) : as.eraseDups.Nodup := by
  match as with
  | [] => simp
  | a :: as =>
    rw [List.eraseDups_cons, List.nodup_cons, List.mem_eraseDups]
    exact ⟨by simp, nodup_eraseDups (as.filter fun b => !b == a)⟩
termination_by as.length
decreasing_by exact Nat.lt_succ_of_le (List.length_filter_le _ _)

theorem eraseDups_prefix (as bs : List α) : as.eraseDups <+: (as ++ bs).eraseDups := by
  rw [List.eraseDups_append]
  exact List.prefix_append _ _

theorem eraseDups_snoc [DecidableEq α] (as : List α) (a : α) :
    (as ++ [a]).eraseDups = if a ∈ as then as.eraseDups else as.eraseDups ++ [a] := by
  rw [List.eraseDups_append]
  by_cases known : a ∈ as <;> simp [List.removeAll, List.eraseDups_cons, known]

end Firsts

section Keys
variable {α γ : Type} [LinearOrder γ] {key : α → γ} {le : α → α → Bool}

/-- The members of a list in an order, equal ones as they came. -/
structure Arranged (le : α → α → Bool) (listed arranged : List α) : Prop where
  perm : arranged.Perm listed
  ascends : arranged.Pairwise fun a b => le a b = true
  ties : ∀ a, (arranged.filter fun b => le a b && le b a) = listed.filter fun b => le a b && le b a

variable (told : ∀ a b, le a b = true ↔ key a ≤ key b)
include told

theorem pairwise_mergeSort_key (listed : List α) :
    (listed.mergeSort le).Pairwise fun a b => le a b = true := by
  refine List.pairwise_mergeSort (fun a b c first second => ?_) (fun a b => ?_) listed
  · rw [told] at first second ⊢
    exact first.trans second
  · rw [Bool.or_eq_true, told, told]
    exact le_total _ _

/-- Members that came in order keep the order they came in. -/
theorem filter_mergeSort_of_pairwise {kept : α → Bool} {listed : List α}
    (ordered : (listed.filter kept).Pairwise fun a b => le a b = true) :
    (listed.mergeSort le).filter kept = listed.filter kept := by
  have trans (a b c : α) (first : le a b = true) (second : le b c = true) : le a c = true := by
    rw [told] at first second ⊢
    exact first.trans second
  have total (a b : α) : (le a b || le b a) = true := by
    rw [Bool.or_eq_true, told, told]
    exact le_total _ _
  have inside := (List.sublist_mergeSort trans total ordered List.filter_sublist).filter kept
  rw [List.filter_filter] at inside
  simp only [Bool.and_self] at inside
  exact (inside.eq_of_length ((List.mergeSort_perm listed le).filter _).length_eq.symm).symm

/-- Members that are equal in the order keep the order they came in. -/
theorem filter_mergeSort_key {kept : α → Bool}
    (equal : ∀ a b, kept a = true → kept b = true → key a = key b) (listed : List α) :
    (listed.mergeSort le).filter kept = listed.filter kept := by
  apply filter_mergeSort_of_pairwise told
  refine List.pairwise_of_forall_mem_list fun a first b second => (told a b).mpr ?_
  exact (equal a b (List.mem_filter.mp first).2 (List.mem_filter.mp second).2).le

theorem arranged_mergeSort (listed : List α) : Arranged le listed (listed.mergeSort le) := by
  refine ⟨List.mergeSort_perm listed le, pairwise_mergeSort_key told listed, fun a => ?_⟩
  refine filter_mergeSort_key told (fun b c first second => ?_) listed
  rw [Bool.and_eq_true, told, told] at first second
  exact (le_antisymm first.2 first.1).trans (le_antisymm second.1 second.2)

/-- Where no two members are equal in the order, it does not matter how they come. -/
theorem mergeSort_perm_eq {listed listed' : List α} (perm : listed'.Perm listed)
    (apart : listed.Pairwise fun a b => key a ≠ key b) :
    listed'.mergeSort le = listed.mergeSort le := by
  have sorted := (List.mergeSort_perm listed' le).trans
    (perm.trans (List.mergeSort_perm listed le).symm)
  refine sorted.eq_of_pairwise (fun a b first second below above => ?_)
    (pairwise_mergeSort_key told listed') (pairwise_mergeSort_key told listed)
  have differ : Std.Symm fun a b : α => key a ≠ key b := ⟨fun _ _ => Ne.symm⟩
  have among : a ∈ listed := perm.mem_iff.mp (List.mem_mergeSort.mp first)
  by_contra distinct
  exact apart.forall among (List.mem_mergeSort.mp second) distinct
    (le_antisymm ((told a b).mp below) ((told b a).mp above))

end Keys

variable {α : Type} {key : α → Nat} {listed sorted : List α}

/-- The members of a list by a number, equal ones as they came. -/
structure InOrder (key : α → Nat) (listed sorted : List α) : Prop where
  perm : sorted.Perm listed
  ascends : sorted.Pairwise fun a b => key a ≤ key b
  ties : ∀ n, (sorted.filter fun a => key a = n) = listed.filter fun a => key a = n

theorem inOrder_mergeSort (key : α → Nat) (listed : List α) :
    InOrder key listed (listed.mergeSort fun a b => key a ≤ key b) := by
  have told (a b : α) : decide (key a ≤ key b) = true ↔ key a ≤ key b := decide_eq_true_iff
  refine ⟨List.mergeSort_perm .., ?_, fun n => ?_⟩
  · simpa only [decide_eq_true_eq] using pairwise_mergeSort_key told listed
  · refine filter_mergeSort_key told (fun a b first second => ?_) listed
    exact (of_decide_eq_true first).trans (of_decide_eq_true second).symm

theorem InOrder.pairwise (order : InOrder key listed sorted) :
    sorted.Pairwise fun a b => decide (key a ≤ key b) = true := by
  simpa only [decide_eq_true_eq] using order.ascends

theorem InOrder.unique {sorted' : List α} (order : InOrder key listed sorted)
    (order' : InOrder key listed sorted') : sorted' = sorted := by
  have perm := order'.perm.trans order.perm.symm
  have ties (n : Nat) := (order'.ties n).trans (order.ties n).symm
  have ascends := order.ascends
  have ascends' := order'.ascends
  clear order order'
  induction sorted generalizing sorted' with
  | nil => exact perm.eq_nil
  | cons a rest ih =>
    cases sorted' with
    | nil => exact perm.nil_eq
    | cons b rest' =>
      obtain ⟨first, behind⟩ := List.pairwise_cons.mp ascends
      obtain ⟨first', behind'⟩ := List.pairwise_cons.mp ascends'
      -- each of the two first members is one of the other list, so neither number is less
      have level : key b = key a := by
        apply le_antisymm
        · rcases List.mem_cons.mp (perm.mem_iff.mpr List.mem_cons_self) with same | later
          · rw [same]
          · exact first' a later
        · rcases List.mem_cons.mp (perm.mem_iff.mp List.mem_cons_self) with same | later
          · rw [same]
          · exact first b later
      have heads := ties (key a)
      simp only [List.filter_cons, level, decide_true, if_true, List.cons.injEq] at heads
      obtain ⟨rfl, -⟩ := heads
      rw [ih perm.cons_inv (fun n => ?_) behind behind']
      have tails := ties n
      simp only [List.filter_cons] at tails
      split at tails
      · exact (List.cons.inj tails).2
      · exact tails

/-- Members told by other numbers that rise as the first ones do come in the same order. -/
theorem InOrder.map {β : Type} {key' : β → Nat} {g : α → β} {f : Nat → Nat}
    (told : ∀ a, key' (g a) = f (key a))
    (increasing : ∀ a ∈ listed, ∀ b ∈ listed, key a < key b → f (key a) < f (key b))
    (order : InOrder key listed sorted) : InOrder key' (listed.map g) (sorted.map g) := by
  refine ⟨order.perm.map g, ?_, fun n => ?_⟩
  · rw [List.pairwise_map]
    refine order.ascends.imp_of_mem fun {a b} known known' below => ?_
    rw [told, told]
    rcases below.lt_or_eq with less | same
    · exact (increasing a (order.perm.mem_iff.mp known) b (order.perm.mem_iff.mp known') less).le
    · rw [same]
  · simp only [List.filter_map, Function.comp_def]
    congr 1
    by_cases some : ∃ a ∈ listed, f (key a) = n
    · obtain ⟨a, among, rfl⟩ := some
      have alike {b : α} (known : b ∈ listed) :
          decide (key' (g b) = f (key a)) = decide (key b = key a) := by
        rw [told, decide_eq_decide]
        refine ⟨fun same => ?_, fun same => by rw [same]⟩
        rcases lt_trichotomy (key b) (key a) with less | equal | more
        · exact absurd same (increasing b known a among less).ne
        · exact equal
        · exact absurd same (increasing a among b known more).ne'
      have ties := order.ties (key a)
      rw [List.filter_congr fun b known => alike (order.perm.mem_iff.mp known),
        List.filter_congr fun b known => alike known]
      exact ties
    · have none {b : α} (known : b ∈ listed) : ¬ (decide (key' (g b) = n) = true) := by
        rw [decide_eq_true_eq, told]
        exact fun same => some ⟨b, known, same⟩
      rw [List.filter_eq_nil_iff.mpr fun b known => none (order.perm.mem_iff.mp known),
        List.filter_eq_nil_iff.mpr fun b known => none known]

end Docket
