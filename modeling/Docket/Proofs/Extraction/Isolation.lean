import Docket.Extraction.Result
import Docket.Proofs.Calibration.Sources

/-! What an extraction reads of a document: the pages of its fields and of its anchors. What any
other page gives shows only in the warning that the page itself leaves. -/
namespace Docket

variable {α : Type}

/-- The document with another outcome for one of its pages. -/
def PageSource.replace (source : PageSource α) (page : Nat)
    (outcome : Except PageError (List (Word α))) : PageSource α :=
  { source with words := Function.update source.words page outcome }

/-- The template has nothing on a page. -/
def Template.Spares (t : Template α) (page : Nat) : Prop :=
  (∀ f ∈ t.fields, f.page ≠ page) ∧ ∀ a ∈ t.anchors, a.page ≠ page

instance (t : Template α) (page : Nat) : Decidable (t.Spares page) := instDecidableAnd

theorem PageSource.words_replace (source : PageSource α) {page other : Nat}
    (apart : other ≠ page) (outcome : Except PageError (List (Word α))) :
    (source.replace page outcome).words other = source.words other := by
  show Function.update source.words page outcome other = _
  exact Function.update_of_ne apart outcome source.words

namespace PageStore

/-- The warning of one page among those of its document. -/
def noted (source : PageSource α) (page : Nat) : List String :=
  if source.Has page then (skipped? source page).toList else []

variable (source : PageSource α)

section Replace
variable {page : Nat} (outcome : Except PageError (List (Word α)))

theorem words?_collect_replace {other : Nat} (apart : other ≠ page) :
    (collect (source.replace page outcome)).1.words? other =
      (collect source).1.words? other := by
  rw [words?_collect, words?_collect, PageSource.words_replace source apart]
  rfl

theorem words_source_collect_replace {other : Nat} (apart : other ≠ page) :
    (collect (source.replace page outcome)).1.source.words other =
      (collect source).1.source.words other := by
  have has := (has_collect (source.replace page outcome) other).trans
    (has_collect source other).symm
  rw [words_source, words_source, if_congr has rfl rfl,
    words?_collect_replace source outcome apart]

theorem skips_replace {pages : List Nat} (apart : page ∉ pages) :
    pages.filterMap (skipped? (source.replace page outcome)) =
      pages.filterMap (skipped? source) := by
  refine List.filterMap_congr fun other known => ?_
  have other : other ≠ page := fun same => apart (same ▸ known)
  rw [skipped?, PageSource.words_replace source other]
  rfl

theorem range_around {count : Nat} (has : 1 ≤ page ∧ page ≤ count) :
    List.range' 1 count =
      List.range' 1 (page - 1) ++ page :: List.range' (page + 1) (count - page) := by
  have length : count = (page - 1) + ((count - page) + 1) := by omega
  have first : 1 + (page - 1) = page := by omega
  conv_lhs => rw [length, ← List.range'_append_1, first, List.range'_succ]

/-- The warnings of a document stand around that of any one page, and do not depend on it. -/
theorem warnings_collect_replace (page : Nat) : ∃ before behind,
    (collect source).2 = before ++ noted source page ++ behind ∧
      (collect (source.replace page outcome)).2 =
        before ++ noted (source.replace page outcome) page ++ behind := by
  rw [warnings_collect, warnings_collect]
  show ∃ before behind, (List.range' 1 source.count).filterMap _ = _ ∧
    (List.range' 1 source.count).filterMap _ = _
  by_cases has : source.Has page
  · have around (other : PageSource α) (same : other.Has page) :
        (List.range' 1 source.count).filterMap (skipped? other) =
          (List.range' 1 (page - 1)).filterMap (skipped? other) ++ noted other page ++
            (List.range' (page + 1) (source.count - page)).filterMap (skipped? other) := by
      rw [range_around has, List.filterMap_append, List.filterMap_cons, noted, if_pos same]
      cases skipped? other page <;> simp
    refine ⟨_, _, around source has, ?_⟩
    rw [around (source.replace page outcome) has, skips_replace, skips_replace]
    · exact fun known => by have := List.mem_range'_1.mp known; omega
    · exact fun known => by have := List.mem_range'_1.mp known; omega
  · have outside := mt (source.mem_range page).mp has
    refine ⟨(List.range' 1 source.count).filterMap (skipped? source), [], ?_, ?_⟩
    · simp [noted, has]
    · have has' : ¬ (source.replace page outcome).Has page := has
      simp [noted, has', skips_replace source outcome outside]

end Replace
end PageStore

namespace Extraction
variable [Scalar α] (gather : RegionRule α) (rule : CalibrationRule α)

theorem readField_congr {pages pages' : PageStore α} {f : Field α}
    (same : pages.words? f.page = pages'.words? f.page) (t : Transformation α) :
    readField gather pages t f = readField gather pages' t f := by
  unfold readField
  rw [same]

/-- Stores that agree on the pages of the fields and of the anchors give the same extraction. -/
theorem ofWords_congr {t : Template α} {pages pages' : PageStore α}
    (fields : ∀ f ∈ t.fields, pages.words? f.page = pages'.words? f.page)
    (anchors : ∀ a ∈ t.anchors, pages.source.words a.page = pages'.source.words a.page) :
    ofWords gather rule t pages = ofWords gather rule t pages' := by
  have outcomes (moved : Transformation α) :
      t.orderedFields.map (readField gather pages moved) =
        t.orderedFields.map (readField gather pages' moved) := by
    refine List.map_congr_left fun f known => readField_congr gather ?_ moved
    exact fields f (List.mem_mergeSort.mp known)
  simp only [ofWords, CalibrationReport.calibrate_congr rule gather anchors, outcomes]

theorem ofPages_eq (t : Template α) (source : PageSource α) :
    ofPages gather rule t source =
      { ofWords gather rule t (PageStore.collect source).1 with
        warnings := (PageStore.collect source).2 ++
          (ofWords gather rule t (PageStore.collect source).1).warnings } := rfl

/-- Reading a document keeps the pages that can be read, under the number of all, and warns of each
other in order. A page that the template has nothing on can give any words or any error: of the
extraction only the warning of that page can change. -/
theorem ofPages_elsewhere (t : Template α) (source : PageSource α) :
    (PageStore.collect source).1.count = source.count ∧
      (∀ page ws, (PageStore.collect source).1.words? page = some ws ↔
        source.Has page ∧ source.words page = .ok ws) ∧
      (PageStore.collect source).2 =
        (List.range' 1 source.count).filterMap (PageStore.skipped? source) ∧
      ∀ page outcome, t.Spares page →
        let other := source.replace page outcome
        let e := ofPages gather rule t source
        let e' := ofPages gather rule t other
        { e' with warnings := e.warnings } = e ∧
          ∃ before behind own,
            e.warnings = before ++ PageStore.noted source page ++ behind ++ own ∧
            e'.warnings = before ++ PageStore.noted other page ++ behind ++ own ∧
            (PageStore.collect source).2 = before ++ PageStore.noted source page ++ behind ∧
            (PageStore.collect other).2 = before ++ PageStore.noted other page ++ behind := by
  refine ⟨PageStore.count_collect source, PageStore.words?_collect_iff source,
    PageStore.warnings_collect source, ?_⟩
  rintro page outcome ⟨fields, anchors⟩ other e e'
  have same : ofWords gather rule t (PageStore.collect other).1 =
      ofWords gather rule t (PageStore.collect source).1 :=
    ofWords_congr gather rule
      (fun f known => PageStore.words?_collect_replace source outcome (fields f known))
      fun a known => PageStore.words_source_collect_replace source outcome (anchors a known)
  have told : e = _ := ofPages_eq gather rule t source
  have told' : e' = _ := ofPages_eq gather rule t other
  rw [same] at told'
  obtain ⟨before, behind, warnings, warnings'⟩ :=
    PageStore.warnings_collect_replace source outcome page
  rw [told, told']
  refine ⟨rfl, before, behind, (ofWords gather rule t (PageStore.collect source).1).warnings,
    ?_, ?_, warnings, warnings'⟩
  · rw [← warnings]
  · rw [← warnings']

def slip : Template ℚ :=
  { CalibrationReport.posters with
    fields := [⟨"Total", 1, ⟨70, 300, 100, 20⟩, .text, 0⟩]
    anchors := [{ CalibrationReport.label "Alpha" 50 50 with page := 3 }] }

def leaflet : PageSource ℚ := ⟨3, fun _ => .ok [⟨"Beta", ⟨75, 305, 60, 12⟩⟩]⟩

theorem ofPages_elsewhere_slip :
    slip.Spares 2 ∧
      let e := ofPages .standard .standard slip leaflet
      let e' := ofPages .standard .standard slip
        (leaflet.replace 2 (.error (.pageDecode 2 "torn")))
      { e' with warnings := e.warnings } = e ∧
        e'.warnings = "Page 2 skipped: failed to decode page 2: torn" :: e.warnings := by
  have spared : slip.Spares 2 := by decide
  obtain ⟨-, -, -, elsewhere⟩ := ofPages_elsewhere .standard .standard slip leaflet
  obtain ⟨same, before, behind, own, warnings, warnings', all, -⟩ :=
    elsewhere 2 (.error (.pageDecode 2 "torn")) spared
  have none : (PageStore.collect leaflet).2 = [] := by decide +kernel
  simp only [none, List.nil_eq, List.append_eq_nil_iff] at all
  obtain ⟨⟨rfl, read⟩, rfl⟩ := all
  refine ⟨spared, same, ?_⟩
  rw [warnings', warnings, read]
  rfl

end Extraction
end Docket
