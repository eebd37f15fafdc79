import Docket.Proofs.Calibration.Collapse
import Docket.Proofs.Page.Collecting

/-! What a calibration reads of a document: the pages of its anchors. A page that cannot be read
counts as one without words, where no anchor is found. That each page is asked for once shows only
in the warnings, of which every page that fails leaves one. -/
namespace Docket

variable {α : Type}

namespace AnchorMatch
variable [Scalar α]

theorem search_nil (rule : CalibrationRule α) (a : Anchor α) : search rule a [] = none := by
  unfold search
  dsimp only
  split
  · rfl
  · exact List.findSome?_eq_none_iff.mpr fun _ _ => rfl

theorem locate_nil (rule : CalibrationRule α) (gather : RegionRule α) (a : Anchor α) :
    locate rule gather a [] = notFound a := by
  have blank : (Region.collect gather a.rect []).isBlank = true := by
    simp [Region.isBlank, Region.collect, Region.ordered, Region.kept, Word.sortReading,
      Word.joinTexts, Text.joined, Text.isBlankText]
  have phrases : Phrase.build rule.phrases ([] : List (Word α)) = [] := by
    simp [Phrase.build, Phrase.lines, Phrase.cutBetween]
  simp only [locate, blank, phrases, search_nil]
  rfl

end AnchorMatch

namespace CalibrationReport

section Visits
variable (source : PageSource α)

/-- The warning that a page leaves if it cannot be read. -/
def unavailable? (page : Nat) : Option String :=
  match source.words page with
  | .ok _ => none
  | .error e => some s!"Anchor page {page} unavailable: {e.message}"

/-- Whether a page has been asked for. -/
def Visits.Seen (v : Visits α) (page : Nat) : Prop := (v.pages.lookup page).isSome = true

instance (v : Visits α) : DecidablePred v.Seen := fun _ => inferInstanceAs (Decidable (_ = true))

/-- What is remembered of the pages is what the document gives. -/
def Visits.Tells (v : Visits α) : Prop :=
  ∀ page words, v.pages.lookup page = some words → words = (source.words page).toOption

/-- A page has been asked for; only the first time it can leave a warning. -/
structure Visits.Asked (v : Visits α) (page : Nat) (v' : Visits α) : Prop where
  tells : v'.Tells source
  seen : ∀ other, v'.Seen other ↔ other = page ∨ v.Seen other
  warnings : v'.warnings =
    v.warnings ++ if v.Seen page then [] else (unavailable? source page).toList

variable {source}

theorem Visits.Tells.remember {v : Visits α} (tells : v.Tells source) (page : Nat)
    (warnings : List String) :
    Visits.Tells source ⟨(page, (source.words page).toOption) :: v.pages, warnings⟩ := by
  intro other words known
  dsimp only at known
  rw [lookup_entry] at known
  split at known
  · rename_i same
    rw [same]
    exact (Option.some.inj known).symm
  · exact tells other words known

theorem Visits.ask_asked [Scalar α] {v : Visits α} (tells : v.Tells source) (page : Nat) :
    (v.ask source page).1 = (source.words page).toOption ∧
      v.Asked source page (v.ask source page).2 := by
  cases known : v.pages.lookup page with
  | some words =>
    have seen : v.Seen page := by rw [Seen, known]; rfl
    have asked : v.ask source page = (words, v) := by rw [ask, known]
    rw [asked]
    refine ⟨tells page words known, tells, fun other => ?_, ?_⟩
    · exact ⟨.inr, fun either => either.elim (fun same => same ▸ seen) id⟩
    · rw [if_pos seen, List.append_nil]
  | none =>
    have fresh : ¬ v.Seen page := by rw [Seen, known]; exact Bool.false_ne_true
    have asked : v.ask source page = ((source.words page).toOption,
        ⟨(page, (source.words page).toOption) :: v.pages,
          v.warnings ++ (unavailable? source page).toList⟩) := by
      rw [ask, known, unavailable?]
      cases source.words page with
      | ok words => simp [Except.toOption]
      | error e => rfl
    rw [asked]
    refine ⟨rfl, tells.remember page _, fun other => ?_, ?_⟩
    · simp only [Seen, lookup_entry]
      by_cases same : other = page <;> simp [same]
    · rw [if_neg fresh]

/-- The pages that have not been asked for, each once, in the order of their first use. -/
def Visits.fresh (v : Visits α) (pages : List Nat) : List Nat :=
  (pages.filter fun page => ¬ v.Seen page).eraseDups

theorem Visits.Asked.fresh {v v' : Visits α} {page : Nat} (asked : v.Asked source page v')
    (pages : List Nat) :
    v.fresh (page :: pages) = (if v.Seen page then [] else [page]) ++ v'.fresh pages := by
  have later : pages.filter (fun other => ¬ v'.Seen other) =
      (pages.filter fun other => ¬ v.Seen other).filter (!· == page) := by
    rw [List.filter_filter]
    refine List.filter_congr fun other _ => ?_
    by_cases same : other = page <;> simp [asked.seen, same]
  unfold Visits.fresh
  rw [later, List.filter_cons]
  by_cases seen : v.Seen page
  · have apart : (pages.filter fun other => ¬ v.Seen other).filter (!· == page) =
        pages.filter fun other => ¬ v.Seen other := by
      refine List.filter_eq_self.mpr fun other known => ?_
      have new := of_decide_eq_true (List.mem_filter.mp known).2
      have other : other ≠ page := fun same => new (same ▸ seen)
      simpa using other
    rw [apart]
    simp [seen]
  · simp [seen, List.eraseDups_cons]

end Visits

section Calibrate
variable [Scalar α] (rule : CalibrationRule α) (gather : RegionRule α)

/-- Anchors located one by one are each located among the words of its page, and the pages asked
for on the way leave their warnings. -/
theorem locateAll_eq {source : PageSource α} (anchors : List (Anchor α)) {v : Visits α}
    (tells : v.Tells source) :
    (locateAll rule gather source anchors v).1 =
        anchors.map (fun a => AnchorMatch.locate rule gather a (source.read a.page)) ∧
      (locateAll rule gather source anchors v).2.warnings = v.warnings ++
        (v.fresh (anchors.map (·.page))).filterMap (unavailable? source) := by
  induction anchors generalizing v with
  | nil => exact ⟨rfl, (List.append_nil _).symm⟩
  | cons a rest ih =>
    obtain ⟨words, asked⟩ := Visits.ask_asked tells a.page
    obtain ⟨places, warnings⟩ := ih asked.tells
    simp only [locateAll]
    constructor
    · rw [places, List.map_cons, words, PageSource.read]
      cases (source.words a.page).toOption with
      | some ws => rfl
      | none =>
        have blank := AnchorMatch.locate_nil rule gather a
        exact congrArg (· :: _) blank.symm
    · rw [warnings, asked.warnings, List.map_cons, asked.fresh, List.filterMap_append,
        List.append_assoc]
      by_cases seen : v.Seen a.page
      · simp [seen]
      · simp only [seen, if_false, List.filterMap_cons, List.filterMap_nil]
        cases unavailable? source a.page <;> rfl

theorem estimate_behind (ms : List (AnchorMatch α)) {warnings : List String}
    (some : ms = [] → warnings = []) :
    estimate rule ms warnings =
      { estimate rule ms [] with warnings := warnings ++ (estimate rule ms []).warnings } := by
  unfold estimate
  split
  · rename_i none
    rw [some (List.isEmpty_iff.mp none)]
    rfl
  · dsimp only
    split <;> simp [discard]

/-- A calibration is the estimate of its anchors, each located among the words of its page, behind
the warnings of the pages that could not be read. -/
theorem calibrate_told (t : Template α) (source : PageSource α) :
    let r := estimate rule
      (t.orderedAnchors.map fun a => AnchorMatch.locate rule gather a (source.read a.page)) []
    calibrate rule gather t source =
      { r with
        warnings := (t.orderedAnchors.map (·.page)).eraseDups.filterMap (unavailable? source) ++
          r.warnings } := by
  have tells : Visits.Tells source (⟨[], []⟩ : Visits α) := by
    rintro page words ⟨⟩
  obtain ⟨places, warnings⟩ := locateAll_eq rule gather t.orderedAnchors tells
  have all (pages : List Nat) : (⟨[], []⟩ : Visits α).fresh pages = pages.eraseDups := by
    rw [Visits.fresh, List.filter_eq_self.mpr]
    exact fun page _ => by simp [Visits.Seen]
  rw [all, List.nil_append] at warnings
  show estimate rule (locateAll rule gather source t.orderedAnchors ⟨[], []⟩).1
    (locateAll rule gather source t.orderedAnchors ⟨[], []⟩).2.warnings = _
  rw [places, warnings]
  refine estimate_behind rule _ fun none => ?_
  rw [List.map_eq_nil_iff.mp none]
  rfl

/-- Documents that agree on the pages of the anchors are calibrated alike. -/
theorem calibrate_congr {t : Template α} {source source' : PageSource α}
    (same : ∀ a ∈ t.anchors, source.words a.page = source'.words a.page) :
    calibrate rule gather t source = calibrate rule gather t source' := by
  have agree : ∀ a ∈ t.orderedAnchors, source.words a.page = source'.words a.page :=
    fun a known => same a (List.mem_mergeSort.mp known)
  have places : t.orderedAnchors.map (fun a =>
        AnchorMatch.locate rule gather a (source.read a.page)) =
      t.orderedAnchors.map fun a => AnchorMatch.locate rule gather a (source'.read a.page) := by
    refine List.map_congr_left fun a known => ?_
    rw [PageSource.read, agree a known]
    rfl
  have warnings : (t.orderedAnchors.map (·.page)).eraseDups.filterMap (unavailable? source) =
      (t.orderedAnchors.map (·.page)).eraseDups.filterMap (unavailable? source') := by
    refine List.filterMap_congr fun page known => ?_
    obtain ⟨a, anchor, rfl⟩ := List.mem_map.mp (List.mem_eraseDups.mp known)
    rw [unavailable?, agree a anchor]
    rfl
  rw [calibrate_told, calibrate_told, places, warnings]

/-- A document without pages beyond its count is calibrated like the store that it is read into, but
for the warnings. Directly, each page of an anchor that cannot be read leaves one, in the order of
first use, in front of those of the estimate. -/
theorem calibrate_collected (t : Template α) (source : PageSource α)
    (outside : ∀ page, ¬ source.Has page → ∃ e, source.words page = .error e) :
    let direct := calibrate rule gather t source
    let collected := calibrate rule gather t (PageStore.collect source).1.source
    { collected with warnings := direct.warnings } = direct ∧
      direct.warnings =
        (t.orderedAnchors.map (·.page)).eraseDups.filterMap (unavailable? source) ++
          (estimate rule (t.orderedAnchors.map fun a =>
            AnchorMatch.locate rule gather a (source.read a.page)) []).warnings := by
  intro direct collected
  have read (page : Nat) : (PageStore.collect source).1.source.read page = source.read page := by
    by_cases has : source.Has page
    · rw [PageSource.read, PageStore.words_source_collect source has]
      rfl
    · obtain ⟨e, failed⟩ := outside page has
      have absent := mt (PageStore.has_collect source page).mp has
      rw [PageSource.read, PageSource.read, PageStore.words_source, if_neg absent, failed]
      rfl
  have told := calibrate_told rule gather t source
  have told' := calibrate_told rule gather t (PageStore.collect source).1.source
  simp only [read] at told'
  rw [show direct = _ from told, show collected = _ from told']
  exact ⟨rfl, rfl⟩

end Calibrate

/-- Two anchors on the second page and one between them on the first. -/
def posters : Template ℚ :=
  ⟨"posters", "", "", .standard, [],
    [{ label "Alpha" 50 50 with page := 2 }, label "Beta" 70 300,
      { label "Gamma" 50 500 with page := 2 }]⟩

theorem posters_ordered : posters.orderedAnchors = posters.anchors :=
  List.mergeSort_of_pairwise (by decide)

/-- A document whose second page cannot be read. -/
def torn : PageSource ℚ where
  count := 2
  words page :=
    if page = 1 then .ok [⟨"Beta", ⟨75, 305, 60, 12⟩⟩] else .error (.pageDecode page "torn")

theorem calibrate_collected_posters :
    (∀ page, ¬ torn.Has page → ∃ e, torn.words page = .error e) ∧
      let direct := calibrate .standard .standard posters torn
      let collected := calibrate .standard .standard posters (PageStore.collect torn).1.source
      { collected with warnings := direct.warnings } = direct ∧
        direct.warnings = ["Anchor page 2 unavailable: failed to decode page 2: torn"] := by
  have outside : ∀ page, ¬ torn.Has page → ∃ e, torn.words page = .error e := by
    intro page beyond
    have other : page ≠ 1 := fun same => beyond (by rw [same]; decide)
    exact ⟨_, if_neg other⟩
  obtain ⟨same, warnings⟩ :=
    calibrate_collected .standard .standard posters torn outside
  refine ⟨outside, same, ?_⟩
  rw [warnings, posters_ordered]
  decide +kernel

end CalibrationReport
end Docket
