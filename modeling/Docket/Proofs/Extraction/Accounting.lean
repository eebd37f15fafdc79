import Docket.Extraction.Result
import Docket.Proofs.Order
import Docket.Proofs.Query.Members
import Docket.Proofs.Text.Blank

/-! What an extraction says of each field. Every field of the template has a detail, in display
order, and what its text reads as is the value of its name, unless a later field has the same name. A
field without a value leaves one warning, and all warnings behind those of the calibration are of
this kind, in the order of the details. -/
namespace Docket

/-- Whether a field of the type may hold a value. -/
def FieldType.Admits (type : FieldType) : FieldValue → Prop
  | .text _ => type = .text
  | .date _ => type = .date
  | .number _ => type ≠ .text ∧ type ≠ .date

theorem FieldValue.admits_of_ofText? {s : String} {type : FieldType} {v : FieldValue}
    (read : ofText? s type = some v) : type.Admits v := by
  by_cases blank : (Text.trim s).isEmpty = true
  · simp [ofText?, blank] at read
  · simp only [ofText?, if_neg blank] at read
    cases type with
    | text =>
      cases read
      rfl
    | date =>
      obtain ⟨d, -, rfl⟩ := Option.map_eq_some_iff.mp read
      rfl
    | _ =>
      obtain ⟨x, -, rfl⟩ := Option.map_eq_some_iff.mp read
      exact ⟨by decide, by decide⟩

theorem FieldValue.ofText?_of_blank {s : String} (blank : Text.isBlankText s = true)
    (type : FieldType) : ofText? s type = none := by
  simp only [ofText?, Text.trim_of_blank blank]
  rfl

variable {α : Type}

namespace FieldDetail

/-- What the text of a field reads as. -/
def value? (d : FieldDetail α) : Option FieldValue := FieldValue.ofText? d.text d.type

/-- Why a field that has no value has none. -/
def miss (pages : PageStore α) (d : FieldDetail α) : FieldMiss :=
  if (pages.words? d.page).isNone then .noPage d.name d.page
  else if Text.isBlankText d.text then .noText d.name
  else .unreadable d.name d.text

end FieldDetail

namespace Extraction

/-- The outcome for a field is told by its detail. -/
structure ToldBy (pages : PageStore α) (o : FieldOutcome α) : Prop where
  value : o.value? = o.detail.value?
  found : o.detail.found = o.detail.value?.isSome
  warning : o.warning? = if o.detail.found then none else some (o.detail.miss pages).message

section Outcomes
variable {os : List (FieldOutcome α)} {pages : PageStore α} (told : ∀ o ∈ os, ToldBy pages o)
include told

theorem mem_valuesOf (name : String) (value : Option FieldValue) :
    (name, value) ∈ valuesOf os ↔
      ∃ d, (os.map (·.detail)).reverse.find? (·.name = name) = some d ∧ d.value? = value := by
  have find (ds : List (FieldDetail α)) :
      (ds.map fun d => (d.name, d.value?)).lookup name =
        (ds.find? (·.name = name)).map (·.value?) := by
    induction ds with
    | nil => rfl
    | cons d ds ih =>
      rw [List.map_cons, lookup_entry, ih, List.find?_cons]
      by_cases same : d.name = name
      · simp [same]
      · simp [same, Ne.symm same]
  have entries : os.map (fun o => (o.detail.name, o.value?)) =
      (os.map (·.detail)).map fun d => (d.name, d.value?) := by
    rw [List.map_map]
    exact List.map_congr_left fun o known => by rw [(told o known).value]; rfl
  have once : ((valuesOf os).map Prod.fst).Nodup :=
    (Json.sorted_sortedMembers _).imp fun less => less.ne
  rw [mem_iff_lookup once, valuesOf, Json.lookup_sortedMembers, entries, ← List.map_reverse, find,
    Option.map_eq_some_iff]

theorem warnings_told :
    os.filterMap FieldOutcome.warning? =
      ((os.map (·.detail)).filter (!·.found)).map fun d => (d.miss pages).message := by
  induction os with
  | nil => rfl
  | cons o os ih =>
    have first := (told o List.mem_cons_self).warning
    have rest := ih fun o known => told o (List.mem_cons_of_mem _ known)
    rw [List.map_cons]
    cases found : o.detail.found with
    | true =>
      rw [found, if_pos rfl] at first
      rw [List.filterMap_cons_none first, List.filter_cons_of_neg (by simp [found]), rest]
    | false =>
      rw [found, if_neg Bool.false_ne_true] at first
      rw [List.filterMap_cons_some first, List.filter_cons_of_pos (by simp [found]), List.map_cons,
        rest]

end Outcomes

variable [Scalar α]

/-- A detail tells of a field of the template. -/
structure Describes (gather : RegionRule α) (pages : PageStore α) (moved : Transformation α)
    (f : Field α) (d : FieldDetail α) : Prop where
  name : d.name = f.name
  page : d.page = f.page
  type : d.type = f.type
  configured : d.configured = f.rect
  effective : d.effective = moved.apply f.rect
  text : d.text = ((pages.words? f.page).map fun ws =>
    (Region.collect gather d.effective ws).text).getD ""
  value : (readField gather pages moved f).value? = d.value?

section Field
variable (gather : RegionRule α) (pages : PageStore α) (moved : Transformation α) (f : Field α)

/-- The detail of a field, but for the number of words and for whether there is a value. -/
def detailOf (n : Nat) (found : Bool) : FieldDetail α :=
  ⟨f.name, f.page, f.type, f.rect, moved.apply f.rect,
    ((pages.words? f.page).map fun ws =>
      (Region.collect gather (moved.apply f.rect) ws).text).getD "", n, found⟩

/-- A field has the value that its text reads as. Where it reads as none, the detail tells why. -/
theorem readField_cases : ∃ n,
    (∃ v, (detailOf gather pages moved f n true).value? = some v ∧
      readField gather pages moved f = ⟨detailOf gather pages moved f n true, .ok v⟩) ∨
    (detailOf gather pages moved f n false).value? = none ∧
      readField gather pages moved f = ⟨detailOf gather pages moved f n false,
        .error ((detailOf gather pages moved f n false).miss pages)⟩ := by
  cases there : pages.words? f.page with
  | none =>
    refine ⟨0, .inr ⟨?_, ?_⟩⟩
    · rw [detailOf, there]
      exact FieldValue.ofText?_of_blank rfl f.type
    · simp [readField, detailOf, FieldDetail.miss, there]
  | some ws =>
    refine ⟨(Region.collect gather (moved.apply f.rect) ws).wordCount, ?_⟩
    simp only [detailOf, FieldDetail.value?, FieldDetail.miss, readField, there, Option.map_some,
      Option.getD_some, Option.isNone_some, Bool.false_eq_true, if_false]
    generalize Region.collect gather (moved.apply f.rect) ws = region
    -- a blank text reads as no value, so it makes no difference that it is looked for first
    have same : Text.isBlankText region.text = region.isBlank := rfl
    rw [same]
    by_cases blank : region.isBlank = true
    · refine .inr ⟨FieldValue.ofText?_of_blank blank f.type, ?_⟩
      rw [if_pos blank, if_pos blank]
    · rw [if_neg blank, if_neg blank]
      cases FieldValue.ofText? region.text f.type with
      | none => exact .inr ⟨rfl, rfl⟩
      | some v => exact .inl ⟨v, rfl, rfl⟩

theorem toldBy_readField : ToldBy pages (readField gather pages moved f) := by
  obtain ⟨n, ⟨v, read, outcome⟩ | ⟨none, outcome⟩⟩ := readField_cases gather pages moved f
  · rw [outcome]
    exact ⟨read.symm, by rw [read]; rfl, rfl⟩
  · rw [outcome]
    exact ⟨none.symm, by rw [none]; rfl, rfl⟩

theorem describes_readField :
    Describes gather pages moved f (readField gather pages moved f).detail := by
  have value := (toldBy_readField gather pages moved f).value
  obtain ⟨n, ⟨v, -, outcome⟩ | ⟨-, outcome⟩⟩ := readField_cases gather pages moved f
  · rw [outcome] at value ⊢
    exact ⟨rfl, rfl, rfl, rfl, rfl, rfl, outcome ▸ value⟩
  · rw [outcome] at value ⊢
    exact ⟨rfl, rfl, rfl, rfl, rfl, rfl, outcome ▸ value⟩

end Field

/-- What an extraction under a calibration says of the fields of a template. -/
structure Accounts (gather : RegionRule α) (pages : PageStore α) (t : Template α)
    (calibration : CalibrationReport α) (e : Extraction α) : Prop where
  /-- Each field has one detail, in display order. -/
  details : ∃ ordered, InOrder Field.order t.fields ordered ∧
    List.Forall₂ (Describes gather pages calibration.transformation) ordered e.details
  found : ∀ d ∈ e.details, d.found = d.value?.isSome
  kinds : ∀ d ∈ e.details, ∀ v, d.value? = some v → d.type.Admits v
  names : ∀ name, name ∈ e.fields.map Prod.fst ↔ name ∈ t.fields.map (·.name)
  sorted : Json.Sorted e.fields
  /-- The value of a name is that of the last detail with the name. -/
  values : ∀ name value, (name, value) ∈ e.fields ↔
    ∃ d, e.details.reverse.find? (·.name = name) = some d ∧ d.value? = value
  warnings : e.warnings = calibration.warnings ++
    (e.details.filter (!·.found)).map fun d => (d.miss pages).message
  success : e.success = true ↔ t.fields = [] ∨ ∃ name v, (name, some v) ∈ e.fields

/-- No field of a template is passed over in silence. -/
theorem ofWords_accounts (gather : RegionRule α) (rule : CalibrationRule α) (t : Template α)
    (pages : PageStore α) :
    Accounts gather pages t (.calibrate rule gather t pages.source)
      (ofWords gather rule t pages) := by
  let moved := (CalibrationReport.calibrate rule gather t pages.source).transformation
  let outcomes := t.orderedFields.map (readField gather pages moved)
  have order : InOrder Field.order t.fields t.orderedFields := inOrder_mergeSort _ _
  have told : ∀ o ∈ outcomes, ToldBy pages o := by
    intro o known
    obtain ⟨f, -, rfl⟩ := List.mem_map.mp known
    exact toldBy_readField gather pages moved f
  have details : (ofWords gather rule t pages).details = outcomes.map (·.detail) := rfl
  constructor
  case details =>
    refine ⟨t.orderedFields, order, ?_⟩
    rw [details, List.map_map, List.forall₂_map_right_iff, List.forall₂_same]
    exact fun f _ => describes_readField gather pages moved f
  case found =>
    intro d known
    obtain ⟨o, among, rfl⟩ := List.mem_map.mp (details ▸ known)
    exact (told o among).found
  case kinds => exact fun d _ v read => FieldValue.admits_of_ofText? read
  case names =>
    intro name
    have named : outcomes.map (·.detail.name) = t.orderedFields.map (·.name) := by
      rw [List.map_map]
      exact List.map_congr_left fun f _ => (describes_readField gather pages moved f).name
    rw [← (order.perm.map _).mem_iff, ← named]
    refine (Json.mem_names_sortedMembers _ name).trans ?_
    rw [List.map_map]
    rfl
  case sorted => exact Json.sorted_sortedMembers _
  case values => exact mem_valuesOf told
  case warnings => exact congrArg _ (warnings_told told)
  case success =>
    rw [ofWords, Bool.or_eq_true, List.isEmpty_iff, List.any_eq_true]
    simp [Option.isSome_iff_exists]

end Extraction
end Docket
