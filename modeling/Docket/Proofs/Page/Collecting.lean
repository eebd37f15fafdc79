import Docket.Page.Basic
import Docket.Proofs.Lookup

/-! Documents read into stores. A store has a page exactly if the page could be read, and each page
that could not leaves one warning, in the order of the pages. Stores are sorted by page number, so
they are told by what they have under each number. -/
namespace Docket

variable {α : Type}

/-- The numbers of a document's pages. -/
def PageSource.Has (source : PageSource α) (page : Nat) : Prop := 1 ≤ page ∧ page ≤ source.count

instance (source : PageSource α) : DecidablePred source.Has := fun _ => instDecidableAnd

theorem PageSource.mem_range (source : PageSource α) (page : Nat) :
    page ∈ List.range' 1 source.count ↔ source.Has page := by
  rw [List.mem_range'_1, Has]
  omega

/-- The words of a page, none if it cannot be read. -/
def PageSource.read (source : PageSource α) (page : Nat) : List (Word α) :=
  (source.words page).toOption.getD []

namespace PageStore

theorem lookup_place (page other : Nat) (ws : List (Word α)) (pages : List (Nat × List (Word α))) :
    (place page ws pages).lookup other = if other = page then some ws else pages.lookup other := by
  induction pages with
  | nil => rw [place, lookup_entry]
  | cons entry rest ih =>
    obtain ⟨p, vs⟩ := entry
    unfold place
    split
    · rw [lookup_entry]
    · split
      · rename_i known
        subst p
        rw [lookup_entry, lookup_entry]
        split <;> rfl
      · rename_i apart
        rw [lookup_entry, ih, lookup_entry]
        by_cases here : other = p
        · rw [if_pos here, if_pos here, if_neg (here ▸ Ne.symm apart)]
        · rw [if_neg here, if_neg here]

@[simp] theorem words?_insert (s : PageStore α) (page other : Nat) (ws : List (Word α)) :
    (s.insert page ws).words? other = if other = page then some ws else s.words? other :=
  lookup_place page other ws s.pages

/-- The pages ascend, so that none is there twice. -/
def Sorted (s : PageStore α) : Prop := s.pages.Pairwise fun a b => a.1 < b.1

theorem mem_place {page : Nat} {ws : List (Word α)} {pages : List (Nat × List (Word α))}
    {entry : Nat × List (Word α)} (known : entry ∈ place page ws pages) :
    entry = (page, ws) ∨ entry ∈ pages := by
  induction pages with
  | nil => exact .inl (List.mem_singleton.mp known)
  | cons first rest ih =>
    unfold place at known
    split at known
    · exact List.mem_cons.mp known
    · split at known
      · exact (List.mem_cons.mp known).imp_right (List.mem_cons_of_mem _)
      · rcases List.mem_cons.mp known with rfl | later
        · exact .inr List.mem_cons_self
        · exact (ih later).imp_right (List.mem_cons_of_mem _)

theorem ascends_place {pages : List (Nat × List (Word α))}
    (sorted : pages.Pairwise fun a b => a.1 < b.1) (page : Nat) (ws : List (Word α)) :
    (place page ws pages).Pairwise fun a b => a.1 < b.1 := by
  induction pages with
  | nil => exact List.pairwise_singleton _ _
  | cons first rest ih =>
    obtain ⟨above, rest'⟩ := List.pairwise_cons.mp sorted
    unfold place
    split
    · rename_i less
      refine List.pairwise_cons.mpr ⟨fun entry known => ?_, sorted⟩
      rcases List.mem_cons.mp known with rfl | later
      · exact less
      · exact Nat.lt_trans less (above entry later)
    · split
      · rename_i same
        exact List.pairwise_cons.mpr ⟨fun entry known => same ▸ above entry known, rest'⟩
      · refine List.pairwise_cons.mpr ⟨fun entry known => ?_, ih rest'⟩
        rcases mem_place known with rfl | later
        · show first.1 < page
          omega
        · exact above entry later

theorem Sorted.insert {s : PageStore α} (sorted : s.Sorted) (page : Nat) (ws : List (Word α)) :
    (s.insert page ws).Sorted := ascends_place sorted page ws

theorem Sorted.once {s : PageStore α} (sorted : s.Sorted) : (s.pages.map Prod.fst).Nodup := by
  rw [List.Nodup, List.pairwise_map]
  exact sorted.imp Nat.ne_of_lt

theorem Sorted.ext {s t : PageStore α} (first : s.Sorted) (second : t.Sorted)
    (count : s.count = t.count) (words : ∀ page, s.words? page = t.words? page) : s = t := by
  have perm : s.pages.Perm t.pages := by
    refine (List.perm_ext_iff_of_nodup first.once.of_map second.once.of_map).mpr fun entry => ?_
    obtain ⟨page, ws⟩ := entry
    have same : s.pages.lookup page = t.pages.lookup page := words page
    rw [mem_iff_lookup first.once, mem_iff_lookup second.once, same]
  have pages : s.pages = t.pages := by
    refine perm.eq_of_pairwise (fun a b _ _ less greater => ?_) first second
    exact absurd less (Nat.lt_asymm greater)
  cases s
  cases t
  cases pages
  cases count
  rfl

section Collect
variable (source : PageSource α)

/-- The warning that a page leaves if it cannot be read. -/
def skipped? (page : Nat) : Option String :=
  match source.words page with
  | .ok _ => none
  | .error e => some s!"Page {page} skipped: {e.message}"

theorem take_eq (acc : PageStore α × List String) (page : Nat) :
    take source acc page =
      ((match (source.words page).toOption with
        | some ws => acc.1.insert page ws
        | none => acc.1), acc.2 ++ (skipped? source page).toList) := by
  unfold take skipped?
  cases source.words page with
  | ok ws => simp [Except.toOption]
  | error e => rfl

theorem words?_take (acc : PageStore α × List String) (page other : Nat) :
    (take source acc page).1.words? other =
      if other = page then (source.words page).toOption.or (acc.1.words? other)
      else acc.1.words? other := by
  rw [take_eq]
  cases (source.words page).toOption with
  | none => simp
  | some ws => simp

theorem words?_foldl_take (pages : List Nat) (acc : PageStore α × List String) (page : Nat) :
    (pages.foldl (take source) acc).1.words? page =
      if page ∈ pages then (source.words page).toOption.or (acc.1.words? page)
      else acc.1.words? page := by
  induction pages generalizing acc with
  | nil => rfl
  | cons p ps ih =>
    rw [List.foldl_cons, ih, words?_take]
    by_cases here : page = p
    · subst here
      by_cases later : page ∈ ps
      · simp [later, ← Option.or_assoc]
      · simp [later]
    · simp [here]

theorem warnings_foldl_take (pages : List Nat) (acc : PageStore α × List String) :
    (pages.foldl (take source) acc).2 = acc.2 ++ pages.filterMap (skipped? source) := by
  induction pages generalizing acc with
  | nil => simp
  | cons p ps ih =>
    rw [List.foldl_cons, ih, take_eq, List.append_assoc, List.filterMap_cons]
    cases skipped? source p <;> rfl

theorem count_foldl_take {pages : List Nat} {most : Nat} (within : ∀ p ∈ pages, p ≤ most)
    {acc : PageStore α × List String} (least : acc.1.count ≤ most) :
    (pages.foldl (take source) acc).1.count ≤ most := by
  induction pages generalizing acc with
  | nil => exact least
  | cons p ps ih =>
    refine ih (fun q later => within q (List.mem_cons_of_mem _ later)) ?_
    rw [take_eq]
    split
    · exact Nat.max_le.mpr ⟨least, within p List.mem_cons_self⟩
    · exact least

theorem sorted_foldl_take (pages : List Nat) {acc : PageStore α × List String}
    (sorted : acc.1.Sorted) : (pages.foldl (take source) acc).1.Sorted := by
  induction pages generalizing acc with
  | nil => exact sorted
  | cons p ps ih =>
    refine ih ?_
    rw [take_eq]
    split
    · exact sorted.insert p _
    · exact sorted

theorem sorted_empty : (empty : PageStore α).Sorted := List.Pairwise.nil

theorem sorted_collect : (collect source).1.Sorted := sorted_foldl_take source _ sorted_empty

theorem count_collect : (collect source).1.count = source.count := by
  refine Nat.max_eq_right (count_foldl_take source (fun p known => ?_) (Nat.zero_le _))
  exact ((source.mem_range p).mp known).2

theorem words?_collect (page : Nat) :
    (collect source).1.words? page =
      if source.Has page then (source.words page).toOption else none := by
  have whole := words?_foldl_take source (List.range' 1 source.count) (empty, []) page
  simp only [source.mem_range, show (empty : PageStore α).words? page = none from rfl, Option.or_none] at whole
  exact whole

theorem words?_collect_iff (page : Nat) (ws : List (Word α)) :
    (collect source).1.words? page = some ws ↔
      source.Has page ∧ source.words page = .ok ws := by
  rw [words?_collect]
  by_cases has : source.Has page
  · cases source.words page <;> simp [has, Except.toOption]
  · simp [has]

theorem warnings_collect :
    (collect source).2 = (List.range' 1 source.count).filterMap (skipped? source) :=
  warnings_foldl_take source _ (empty, [])

end Collect

theorem words_source (s : PageStore α) (page : Nat) :
    s.source.words page =
      if s.source.Has page then .ok ((s.words? page).getD []) else .error (.invalidPage page) := by
  have outside : (page = 0 ∨ s.count < page) ↔ ¬ s.source.Has page := by
    rw [PageSource.Has, show s.source.count = s.count from rfl]
    omega
  show (if page = 0 ∨ s.count < page then _ else _) = _
  rw [if_congr outside rfl rfl, ite_not]

theorem has_collect (source : PageSource α) (page : Nat) :
    (collect source).1.source.Has page ↔ source.Has page := by
  rw [PageSource.Has, PageSource.Has, show (collect source).1.source.count = source.count from
    count_collect source]

/-- A page that could not be read stands in the store as a blank one. -/
theorem words_source_collect (source : PageSource α) {page : Nat} (has : source.Has page) :
    (collect source).1.source.words page = .ok (source.read page) := by
  rw [words_source, if_pos ((has_collect source page).mpr has), words?_collect, if_pos has]
  rfl

end PageStore
end Docket
