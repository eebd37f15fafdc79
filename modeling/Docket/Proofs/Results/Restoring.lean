import Mathlib
import Docket.Results.Record
import Docket.Proofs.Calendar
import Docket.Proofs.Json.Records
import Docket.Proofs.Query.Members

/-! Records of documents read back, part by part. Doubles come back if the format restores them;
all else comes back but for the texts among the values of fields that write a date. -/
namespace Docket
open Json RecordReader Decoder

variable {depth : Nat}

def Rect.doubles (r : Rect Float) : List Float := [r.x, r.y, r.width, r.height]

theorem Rect.restores {r : Rect Float} (restored : ∀ x ∈ r.doubles, Restored x) :
    Rect.decoder.Restores (depth + 1) r.toJson r := by
  have number (x : Float) (known : x ∈ r.doubles) : float.Restores depth (.real x) x :=
    restores_float (restored x known)
  refine ((accepts_field (number r.x ?_)).map Rect.mk |>.field (number r.y ?_)
    |>.field (number r.width ?_) |>.field (number r.height ?_)).restores rfl "Rect" (by decide)
  all_goals simp [doubles]

def Transformation.doubles (t : Transformation Float) : List Float :=
  [t.offsetX, t.offsetY, t.scaleX, t.scaleY, t.distortion, t.confidence]

theorem Transformation.restores {t : Transformation Float}
    (restored : ∀ x ∈ t.doubles, Restored x) :
    Transformation.decoder.Restores (depth + 1) t.toJson t := by
  have number (x : Float) (known : x ∈ t.doubles) : float.Restores depth (.real x) x :=
    restores_float (restored x known)
  refine ((accepts_field (number t.offsetX ?_)).map Transformation.mk
    |>.field (number t.offsetY ?_) |>.field (number t.scaleX ?_) |>.field (number t.scaleY ?_)
    |>.field (number t.distortion ?_) |>.field (number t.confidence ?_)).restores rfl
    "CoordinateTransformation" (by decide)
  all_goals simp [doubles]

theorem MatchQuality.lookup_name (q : MatchQuality) : names.lookup q.name = some q := by
  cases q <;> decide

theorem MatchMethod.lookup_name (m : MatchMethod) : names.lookup m.name = some m := by
  cases m <;> decide

def AnchorMatch.doubles (m : AnchorMatch Float) : List Float :=
  m.similarity :: m.configured.doubles ++ m.found.toList.flatMap Rect.doubles

theorem AnchorMatch.restores {m : AnchorMatch Float} (restored : ∀ x ∈ m.doubles, Restored x)
    (page : m.page < twoTo 32) : AnchorMatch.decoder.Restores (depth + 2) m.toJson m := by
  have similarity := restored m.similarity (by simp [doubles])
  have configured : Rect.decoder.Restores (depth + 1) m.configured.toJson m.configured :=
    Rect.restores fun x known => restored x (by simp [doubles, known])
  have found : (Decoder.option Rect.decoder).Restores (depth + 1) (.optional Rect.toJson m.found)
      (m.found.map id) := by
    refine restores_optional (fun r there => Rect.restores fun x known => ?_)
      fun r _ => Value.heads_object _ (by decide)
    have all : x ∈ m.found.toList.flatMap Rect.doubles :=
      List.mem_flatMap.mpr ⟨r, Option.mem_toList.mpr there, known⟩
    exact restored x (List.mem_append_right _ all)
  exact ((accepts_field (restores_text m.name)).map AnchorMatch.mk
    |>.field (restores_text m.reference) |>.field (restores_text m.text)
    |>.field (restores_float similarity) |>.field (restores_boolean m.isTextMatch)
    |>.field (restores_variant m.quality.lookup_name)
    |>.field (restores_variant m.method.lookup_name)
    |>.field (restores_natural "u32" page (by decide)) |>.field configured |>.field found
    |>.field (restores_boolean m.isOutlier)).restores (by simp) "AnchorMatch" (by decide)

def CalibrationReport.doubles (r : CalibrationReport Float) : List Float :=
  r.transformation.doubles ++ r.anchors.flatMap AnchorMatch.doubles ++
    [r.extractionRate, r.matchRate, r.meanSimilarity, r.rawConfidence]

theorem CalibrationReport.restores {r : CalibrationReport Float}
    (restored : ∀ x ∈ r.doubles, Restored x) (pages : ∀ m ∈ r.anchors, m.page < twoTo 32) :
    CalibrationReport.decoder.Restores (depth + 4) r.toJson r := by
  have transformation : Transformation.decoder.Restores (depth + 3) r.transformation.toJson
      r.transformation :=
    Transformation.restores fun x known => restored x (by simp [doubles, known])
  have anchors : (Decoder.list AnchorMatch.decoder).Restores (depth + 3)
      (.array (r.anchors.map AnchorMatch.toJson)) r.anchors := by
    refine restores_all fun m known => AnchorMatch.restores (fun x inside => ?_) (pages m known)
    have all : x ∈ r.anchors.flatMap AnchorMatch.doubles := List.mem_flatMap.mpr ⟨m, known, inside⟩
    exact restored x (List.mem_append_left _ (List.mem_append_right _ all))
  have extraction := restored r.extractionRate (by simp [doubles])
  have matched := restored r.matchRate (by simp [doubles])
  have similarity := restored r.meanSimilarity (by simp [doubles])
  have raw := restored r.rawConfidence (by simp [doubles])
  exact ((accepts_field transformation).map CalibrationReport.mk |>.field anchors
    |>.field (restores_float extraction) |>.field (restores_float matched)
    |>.field (restores_float similarity) |>.field (restores_float raw)
    |>.option (fun (s : String) _ => restores_text s)
      (fun (s : String) _ => heads_string s (by decide))
    |>.field (restores_texts r.warnings)).restores (by simp) "CalibrationReport" (by decide)

theorem FieldType.lookup_name (t : FieldType) : names.lookup t.name = some t := by
  cases t <;> decide

def FieldDetail.doubles (d : FieldDetail Float) : List Float :=
  d.configured.doubles ++ d.effective.doubles

theorem FieldDetail.restores {d : FieldDetail Float} (restored : ∀ x ∈ d.doubles, Restored x)
    (page : d.page < twoTo 32) (words : d.wordCount < twoTo 64) :
    FieldDetail.decoder.Restores (depth + 2) d.toJson d := by
  have configured : Rect.decoder.Restores (depth + 1) d.configured.toJson d.configured :=
    Rect.restores fun x known => restored x (List.mem_append_left _ known)
  have effective : Rect.decoder.Restores (depth + 1) d.effective.toJson d.effective :=
    Rect.restores fun x known => restored x (List.mem_append_right _ known)
  exact ((accepts_field (restores_text d.name)).map FieldDetail.mk
    |>.field (restores_natural "u32" page (by decide))
    |>.field (restores_variant d.type.lookup_name) |>.field configured |>.field effective
    |>.field (restores_text d.text) |>.field (restores_natural "usize" words (by decide))
    |>.field (restores_boolean d.found)).restores rfl "FieldDetail" (by decide)

/-- What is read where a value has been written. -/
def FieldValue.settled : FieldValue → FieldValue
  | text s => (Date.read? s).elim (text s) date
  | v => v

theorem FieldValue.heads {v : FieldValue} (restored : ∀ x ∈ v.asNumber?, Restored x) :
    v.toJson.Heads (· ≠ 'n') := by
  cases v with
  | number x => exact heads_restored (restored x rfl) (by decide) rfl
  | date d => exact heads_string d.display (by decide)
  | text s => exact heads_string s (by decide)

theorem FieldValue.restores {v : FieldValue} (restored : ∀ x ∈ v.asNumber?, Restored x)
    (known : ∀ d, v = .date d → d.InCalendar) :
    FieldValue.decoder.Restores depth v.toJson v.settled := by
  cases v with
  | number x =>
    obtain ⟨n, value, written⟩ := Atom.written_restored (restored x rfl)
    exact restores_judged (heads_restored (restored x rfl) (by decide) rfl)
      (fun indent => congrArg String.toList (prettyAt_restored indent)) written
      (congrArg (fun x => Except.ok (FieldValue.number x)) value)
  | date d =>
    refine restores_judged (heads_string d.display (by decide))
      (fun indent => by rw [toJson, prettyAt]) (Atom.written_string d.display) ?_
    simp only [Atom.toValue, Date.read?_display (known d rfl)]
    rfl
  | text s =>
    refine restores_judged (heads_string s (by decide)) (fun indent => by rw [toJson, prettyAt])
      (Atom.written_string s) ?_
    simp only [Atom.toValue, settled]
    cases Date.read? s <;> rfl

theorem DocumentKind.lookup_name (k : DocumentKind) : names.lookup k.name = some k := by
  cases k <;> decide

namespace Extraction

def doubles (e : Extraction Float) : List Float :=
  e.fields.filterMap (fun m => m.2.bind FieldValue.asNumber?) ++
    e.details.flatMap FieldDetail.doubles ++ e.calibration.doubles

/-- The whole numbers of an extraction are of their words. -/
@[mk_iff]
structure Fits (e : Extraction Float) : Prop where
  details : ∀ d ∈ e.details, d.page < twoTo 32 ∧ d.wordCount < twoTo 64
  anchors : ∀ m ∈ e.calibration.anchors, m.page < twoTo 32
  milliseconds : e.milliseconds < twoTo 64

instance (e : Extraction Float) : Decidable e.Fits := decidable_of_iff' _ (fits_iff e)

/-- Values are sorted by field, and dates are days of the calendar. -/
@[mk_iff]
structure Formed (e : Extraction Float) : Prop where
  sorted : Sorted e.fields
  dates : ∀ m ∈ e.fields, ∀ d, m.2 = some (.date d) → d.InCalendar

def settled (e : Extraction Float) : Extraction Float :=
  { e with fields := e.fields.map fun m => (m.1, m.2.map FieldValue.settled) }

theorem restores {e : Extraction Float} (restored : ∀ x ∈ e.doubles, Restored x) (fits : e.Fits)
    (formed : e.Formed) : Extraction.decoder.Restores (depth + 5) e.toJson e.settled := by
  have values : ∀ m ∈ e.fields, (Decoder.option FieldValue.decoder).Restores (depth + 3)
      (.optional FieldValue.toJson m.2) (m.2.map FieldValue.settled) := by
    intro m known
    have numbers (v : FieldValue) (there : m.2 = some v) : ∀ x ∈ v.asNumber?, Restored x := by
      intro x number
      have listed : x ∈ e.fields.filterMap (fun m => m.2.bind FieldValue.asNumber?) :=
        List.mem_filterMap.mpr ⟨m, known, by rw [there]; exact number⟩
      exact restored x (List.mem_append_left _ (List.mem_append_left _ listed))
    refine restores_optional (fun v there => FieldValue.restores (numbers v there) ?_)
      fun v there => FieldValue.heads (numbers v there)
    rintro d rfl
    exact formed.dates m known d there
  -- A dictionary is read into sorted members, and the fields are sorted already.
  have fields := restores_dictionary values
  rw [sortedMembers_of_sorted (formed.sorted.map _)] at fields
  have details : (Decoder.list FieldDetail.decoder).Restores (depth + 4)
      (.array (e.details.map FieldDetail.toJson)) e.details := by
    refine restores_all fun d known => ?_
    obtain ⟨page, words⟩ := fits.details d known
    refine FieldDetail.restores (fun x inside => ?_) page words
    have all : x ∈ e.details.flatMap FieldDetail.doubles := List.mem_flatMap.mpr ⟨d, known, inside⟩
    exact restored x (List.mem_append_left _ (List.mem_append_right _ all))
  have calibration : CalibrationReport.decoder.Restores (depth + 4) e.calibration.toJson
      e.calibration :=
    CalibrationReport.restores (fun x known => restored x (List.mem_append_right _ known))
      fits.anchors
  exact ((accepts_field (restores_text e.templateId)).map Extraction.mk
    |>.field (restores_boolean e.success)
    |>.option (fun (k : DocumentKind) _ => restores_variant k.lookup_name)
      (fun (k : DocumentKind) _ => heads_string k.name (by decide))
    |>.field fields |>.field details |>.field calibration |>.field (restores_texts e.warnings)
    |>.field (restores_natural "u64" fits.milliseconds (by decide))).restores (by simp [settled])
    "ExtractionResult" (by decide)

end Extraction

namespace Calculation

def doubles (c : Calculation) : List Float := c.values.filterMap Prod.snd

/-- What is told of the outputs is sorted by output. -/
@[mk_iff]
structure Formed (c : Calculation) : Prop where
  values : Sorted c.values
  formulas : Sorted c.formulas
  errors : Sorted c.errors

theorem restores {c : Calculation} (restored : ∀ x ∈ c.doubles, Restored x) (formed : c.Formed)
    (time : c.milliseconds < twoTo 64) : Calculation.decoder.Restores (depth + 2) c.toJson c := by
  have number (m : String × Option Float) (known : m ∈ c.values) (x : Float)
      (there : m.2 = some x) : Restored x := restored x (List.mem_filterMap.mpr ⟨m, known, there⟩)
  have value (m : String × Option Float) (known : m ∈ c.values) :
      (Decoder.option float).Restores depth (.optional Value.real m.2) (m.2.map id) :=
    restores_optional (fun x there => restores_float (number m known x there))
      fun x there => heads_restored (number m known x there) (by decide) rfl
  have values := restores_dictionary value
  rw [sortedMembers_of_sorted (formed.values.map _)] at values
  have texts {ms : List (String × String)} (sorted : Sorted ms) :
      (dictionary text).Restores (depth + 1) (.object (ms.map fun m => (m.1, .string m.2)))
        (ms.map fun m => (m.1, id m.2)) := by
    have value : ∀ m ∈ ms, text.Restores depth (.string m.2) (id m.2) :=
      fun m _ => restores_text m.2
    have read := restores_dictionary value
    rwa [sortedMembers_of_sorted (sorted.map id)] at read
  exact ((accepts_field (restores_text c.queryId)).map Calculation.mk |>.field values
    |>.field (texts formed.formulas) |>.field (restores_texts c.warnings)
    |>.field (texts formed.errors)
    |>.option (fun (s : String) _ => restores_text s)
      (fun (s : String) _ => heads_string s (by decide))
    |>.field (restores_natural "u64" time (by decide))).restores (by simp) "CalculationResult"
    (by decide)

end Calculation

theorem Period.restores {p : Period} (year : -twoTo 31 ≤ p.year ∧ p.year < twoTo 31)
    (month : p.month < twoTo 32) : Period.decoder.Restores (depth + 1) p.toJson p := by
  have known : p.year ≤ twoTo 31 - 1 := by omega
  exact ((accepts_field (restores_integer "i32" year.1 known (by decide) (by decide))).map Period.mk
    |>.field (restores_natural "u32" month (by decide))).restores rfl "Period" (by decide)

theorem Timestamp.restores {t : Time}
    (range : Date.yearInRange (Timestamp.ofTime t).date.year = true) :
    Timestamp.decoder.Restores depth (.string (Timestamp.ofTime t).display) (.ofTime t) := by
  refine restores_string ?_
  rw [Timestamp.read_ofTime range]
  rfl

namespace DocumentRecord

def doubles (r : DocumentRecord) : List Float :=
  r.extraction.toList.flatMap Extraction.doubles ++ r.queries.flatMap Calculation.doubles

/-- The whole numbers of a record are of their words, and its moment has a year of the calendar. -/
@[mk_iff]
structure Fits (r : DocumentRecord) : Prop where
  year : ∀ p ∈ r.period, -twoTo 31 ≤ p.year ∧ p.year < twoTo 31
  month : ∀ p ∈ r.period, p.month < twoTo 32
  moment : Date.yearInRange r.processed.date.year = true
  extraction : ∀ e ∈ r.extraction, e.Fits
  queries : ∀ c ∈ r.queries, c.milliseconds < twoTo 64

instance (r : DocumentRecord) : Decidable r.Fits := decidable_of_iff' _ (fits_iff r)

@[mk_iff]
structure Formed (r : DocumentRecord) : Prop where
  moment : ∃ time, r.processed = .ofTime time
  extraction : ∀ e ∈ r.extraction, e.Formed
  queries : ∀ c ∈ r.queries, c.Formed

/-- What is read where a record has been written. -/
def settled (r : DocumentRecord) : DocumentRecord :=
  { r with extraction := r.extraction.map Extraction.settled }

theorem restores {r : DocumentRecord} (restored : ∀ x ∈ r.doubles, Restored x) (fits : r.Fits)
    (formed : r.Formed) : DocumentRecord.decoder.Restores (depth + 6) r.toJson r.settled := by
  have period : ∀ p ∈ r.period, Period.decoder.Restores (depth + 5) p.toJson p :=
    fun p known => Period.restores (fits.year p known) (fits.month p known)
  have moment : Timestamp.decoder.Restores (depth + 5) (.string r.processed.display)
      r.processed := by
    obtain ⟨time, same⟩ := formed.moment
    have range := fits.moment
    rw [same] at range ⊢
    exact Timestamp.restores range
  have extraction : ∀ e ∈ r.extraction,
      Extraction.decoder.Restores (depth + 5) e.toJson e.settled := by
    intro e known
    refine Extraction.restores (fun x inside => ?_) (fits.extraction e known)
      (formed.extraction e known)
    have all : x ∈ r.extraction.toList.flatMap Extraction.doubles :=
      List.mem_flatMap.mpr ⟨e, Option.mem_toList.mpr known, inside⟩
    exact restored x (List.mem_append_left _ all)
  have queries : (Decoder.list Calculation.decoder).Restores (depth + 5)
      (.array (r.queries.map Calculation.toJson)) r.queries := by
    refine restores_all fun c known => Calculation.restores (fun x inside => ?_)
      (formed.queries c known) (fits.queries c known)
    have all : x ∈ r.queries.flatMap Calculation.doubles := List.mem_flatMap.mpr ⟨c, known, inside⟩
    exact restored x (List.mem_append_right _ all)
  have ends := List.append_nil (memberOf "error" Value.string r.error)
  rw [toJson, ← ends]
  simp only [List.append_assoc, List.cons_append, List.nil_append]
  exact ((accepts_field (restores_path r.document)).map DocumentRecord.mk
    |>.field (restores_text r.templateId)
    |>.option period (fun (p : Period) _ => Value.heads_object _ (by decide)) |>.field moment
    |>.option extraction (fun (e : Extraction Float) _ => Value.heads_object _ (by decide))
    |>.field queries
    |>.option (fun (s : String) _ => restores_text s)
      (fun (s : String) _ => heads_string s (by decide))).restores (by simp [settled])
    "DocumentRecord" (by decide)

end DocumentRecord

end Docket
