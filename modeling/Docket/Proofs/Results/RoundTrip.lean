import Mathlib
import Docket.Proofs.Results.Processing
import Docket.Proofs.Results.Restoring
import Docket.Proofs.Results.Storing

/-! Records that were stored and loaded again. What a document's processing makes is sorted and
tells days of the calendar, so all of it comes back but for one thing: where a field holds a text
that writes a date, the record that is loaded holds the date. -/
namespace Docket
open Json

theorem FieldValue.inCalendar_ofText? {s : String} {type : FieldType} {d : Date}
    (read : ofText? s type = some (.date d)) : d.InCalendar := by
  by_cases blank : (Text.trim s).isEmpty = true
  · simp [ofText?, blank] at read
  · simp only [ofText?, if_neg blank] at read
    cases type with
    | date =>
      obtain ⟨day, found, same⟩ := Option.map_eq_some_iff.mp read
      cases same
      exact Date.inCalendar_of_first? found
    | _ => simp at read

theorem FieldValue.settled_eq_iff (v : FieldValue) :
    v.settled = v ↔ ∀ s, v = .text s → Date.read? s = none := by
  cases v with
  | text s =>
    cases read : Date.read? s <;> simp [settled, read]
  | _ => simp [settled]

def FieldValue.text? : FieldValue → Option String
  | text s => some s
  | _ => none

theorem FieldValue.text?_eq_some {v : FieldValue} {s : String} :
    v.text? = some s ↔ v = .text s := by
  cases v <;> simp [text?]

namespace Extraction

theorem settled_eq_iff (e : Extraction Float) :
    e.settled = e ↔ ∀ m ∈ e.fields, ∀ v ∈ m.2, v.settled = v := by
  have fields : e.settled = e ↔ e.settled.fields = e.fields := by
    refine ⟨congrArg Extraction.fields, fun same => ?_⟩
    obtain ⟨templateId, success, kind, fields, details, calibration, warnings, time⟩ := e
    simpa only [settled, mk.injEq, and_true, true_and] using same
  have entry (m : String × Option FieldValue) :
      (m.1, m.2.map FieldValue.settled) = m ↔ ∀ v ∈ m.2, v.settled = v := by
    obtain ⟨name, _ | v⟩ := m <;> simp
  have all := List.map_inj_left (f := fun m => (m.1, m.2.map FieldValue.settled)) (g := id)
    (l := e.fields)
  rw [List.map_id] at all
  exact fields.trans (all.trans (forall₂_congr fun m _ => entry m))

theorem inCalendar_readField (gather : RegionRule Float) (pages : PageStore Float)
    (t : Transformation Float) (f : Field Float) {d : Date}
    (told : (readField gather pages t f).value? = some (.date d)) : d.InCalendar := by
  simp only [readField] at told
  split at told
  · cases told
  · split at told
    · cases told
    · split at told
      · rename_i v read
        cases told
        exact FieldValue.inCalendar_ofText? read
      · cases told

theorem formed_ofWords (gather : RegionRule Float) (rule : CalibrationRule Float)
    (t : Template Float) (pages : PageStore Float) : (ofWords gather rule t pages).Formed := by
  refine ⟨sorted_sortedMembers _, fun m known d there => ?_⟩
  obtain ⟨o, listed, rfl⟩ := List.mem_map.mp (mem_of_mem_sortedMembers known)
  obtain ⟨f, -, rfl⟩ := List.mem_map.mp listed
  exact inCalendar_readField gather pages _ f there

theorem formed_ofDocument (gather : RegionRule Float) (rule : CalibrationRule Float)
    (t : Template Float) (document : Pdf.Document Float) :
    (ofDocument gather rule t document).Formed := by
  obtain ⟨sorted, dates⟩ := formed_ofWords gather rule t (PageStore.collect document.source).1
  exact ⟨sorted, dates⟩

end Extraction

namespace Calculation

theorem Formed.step {inputs : Formula.Inputs} {p : Progress} (formed : p.result.Formed)
    (o : Output) : (step inputs p o).result.Formed := by
  obtain ⟨values, formulas, errors⟩ := formed
  unfold Calculation.step
  dsimp only
  split
  · exact ⟨sorted_insertSorted values _ _, sorted_insertSorted formulas _ _, errors⟩
  · exact ⟨sorted_insertSorted values _ _, sorted_insertSorted formulas _ _,
      sorted_insertSorted errors _ _⟩

theorem formed_run (q : Query) (inputs : Formula.Inputs) : (run q inputs).Formed := by
  have go (outputs : List Output) (p : Progress) (formed : p.result.Formed) :
      (outputs.foldl (step inputs) p).result.Formed := by
    induction outputs generalizing p with
    | nil => exact formed
    | cons o outputs ih => exact ih _ (formed.step o)
  have empty : (start q).result.Formed := ⟨.nil, .nil, .nil⟩
  obtain ⟨values, formulas, errors⟩ := go q.orderedOutputs (start q) empty
  rw [run, close]
  split
  · exact ⟨values, formulas, errors⟩
  · exact ⟨values, formulas, errors⟩

end Calculation

namespace DocumentRecord

/-- The record without the time that was taken. -/
def untimed (r : DocumentRecord) : DocumentRecord :=
  { r with
    extraction := r.extraction.map fun e => { e with milliseconds := 0 }
    queries := r.queries.map fun c => { c with milliseconds := 0 } }

/-- The records that processing on a machine gives, whatever time is taken. -/
inductive Produced : DocumentRecord → Prop
  | processed (s : Settings Float) (c : Catalog Float) (t : Template Float) (queries : List Query)
      (path : String) (period : Option Period) (m : Machine) (r : DocumentRecord)
      (made : r.untimed =
        ((process s c t queries path period : StateM Machine DocumentRecord).run m).1.untimed) :
      Produced r
  | failed (document templateId : String) (period : Option Period) (time : Time)
      (error : String) : Produced (.failed document templateId period (.ofTime time) error)

theorem formed_untimed {r : DocumentRecord} : r.untimed.Formed ↔ r.Formed := by
  have extraction : (∀ e ∈ r.untimed.extraction, e.Formed) ↔ ∀ e ∈ r.extraction, e.Formed := by
    simp only [untimed, Option.mem_map, forall_exists_index, and_imp, forall_apply_eq_imp_iff₂,
      Extraction.formed_iff]
  have queries : (∀ c ∈ r.untimed.queries, c.Formed) ↔ ∀ c ∈ r.queries, c.Formed := by
    simp only [untimed, List.forall_mem_map, Calculation.formed_iff]
  rw [formed_iff, formed_iff, extraction, queries]
  rfl

theorem formed_failed (document templateId : String) (period : Option Period) (time : Time)
    (error : String) : (failed document templateId period (.ofTime time) error).Formed :=
  ⟨⟨time, rfl⟩, (by rintro e ⟨⟩), (by rintro c ⟨⟩)⟩

theorem formed_process (s : Settings Float) (c : Catalog Float) (t : Template Float)
    (queries : List Query) (path : String) (period : Option Period) (m : Machine) :
    ((process s c t queries path period : StateM Machine DocumentRecord).run m).1.Formed := by
  rw [run_process]
  cases m.opening path with
  | error e => exact formed_failed path t.id period m.clock e.note
  | ok document =>
    refine ⟨⟨m.clock, rfl⟩, ?_, fun answer known => ?_⟩
    · rintro e ⟨⟩
      obtain ⟨sorted, dates⟩ := Extraction.formed_ofDocument s.extraction s.calibration t document
      exact ⟨sorted, dates⟩
    · obtain ⟨q, -, rfl⟩ := List.mem_map.mp known
      exact Calculation.formed_run q _

theorem Produced.formed {r : DocumentRecord} (produced : r.Produced) : r.Formed := by
  cases produced with
  | processed s c t queries path period m r made =>
    rw [← formed_untimed, made, formed_untimed]
    exact formed_process s c t queries path period m
  | failed document templateId period time error =>
    exact formed_failed document templateId period time error

/-- The texts among the values of the fields. -/
def texts (r : DocumentRecord) : List String :=
  r.extraction.toList.flatMap fun e => e.fields.filterMap fun m => m.2.bind FieldValue.text?

theorem mem_texts {r : DocumentRecord} {s : String} :
    s ∈ r.texts ↔ ∃ e ∈ r.extraction, ∃ m ∈ e.fields, m.2 = some (.text s) := by
  simp only [texts, List.mem_flatMap, Option.mem_toList, List.mem_filterMap,
    Option.bind_eq_some_iff, FieldValue.text?_eq_some]
  simp

theorem settled_eq_iff (r : DocumentRecord) :
    r.settled = r ↔ ∀ s ∈ r.texts, Date.read? s = none := by
  have part : r.settled = r ↔ ∀ e ∈ r.extraction, e.settled = e := by
    obtain ⟨document, templateId, period, processed, _ | e, queries, error⟩ := r <;> simp [settled]
  simp only [part, Extraction.settled_eq_iff, FieldValue.settled_eq_iff, mem_texts]
  constructor
  · rintro plain s ⟨e, there, m, known, text⟩
    exact plain e there m known _ text s rfl
  · rintro plain e there m known v value s rfl
    exact plain s ⟨e, there, m, known, value⟩

end DocumentRecord

namespace ResultStore
open Machine DocumentRecord

theorem run_load {m : Machine} {path text : String} (opened : m.Opens path (.text text)) :
    ((load path : StateM Machine (Except LoadError DocumentRecord)).run m).1 =
      (decodeText DocumentRecord.decoder text).mapError .record := by
  have read : (Host.readText path : StateM Machine (Except DiskError String)).run m =
      (.ok text, m) := Prod.ext ((run_readText_eq_ok m path text).mpr opened) rfl
  rw [load, run_bind_of read]
  rfl

theorem load_of_opens {r : DocumentRecord} (produced : r.Produced)
    (restored : ∀ x ∈ r.doubles, Restored x) (fits : r.Fits) {m : Machine} {path : String}
    (opened : m.Opens path (.text (pretty r.toJson))) :
    ((load path : StateM Machine (Except LoadError DocumentRecord)).run m).1 = .ok r.settled := by
  have read : DocumentRecord.decoder.Restores 6 r.toJson r.settled :=
    DocumentRecord.restores restored fits produced.formed
  rw [run_load opened, Decoder.decodeText_pretty read (by decide)]
  rfl

theorem load_settled (store : ResultStore) {r : DocumentRecord} (produced : r.Produced)
    (restored : ∀ x ∈ r.doubles, Restored x) (fits : r.Fits) {m m' : Machine} {path : String}
    (saved : (store.saving r).run m = (.ok path, m')) :
    ((load path : StateM Machine (Except LoadError DocumentRecord)).run m').1 = .ok r.settled := by
  have outcome := store.saved r m
  have load (opened : m'.Opens path (.text (pretty r.toJson))) :=
    load_of_opens produced restored fits opened
  generalize pretty r.toJson = text at load outcome
  rw [saved] at outcome
  cases outcome with
  | stored located there kept =>
    rw [← kept.home] at there
    exact load ((opens_iff m' _ _).mpr ⟨⟨_, located⟩, m.clock, there⟩)

/-- A record that was stored is loaded as it was, but that texts of fields which write a date have
become dates; without such texts it is the same record. -/
theorem load_save (store : ResultStore) {r : DocumentRecord} (produced : r.Produced)
    (restored : ∀ x ∈ r.doubles, Restored x) (fits : r.Fits) {m m' : Machine} {path : String}
    (saved : (store.saving r).run m = (.ok path, m')) :
    ((load path : StateM Machine (Except LoadError DocumentRecord)).run m').1 = .ok r.settled ∧
      (r.settled = r ↔ ∀ s ∈ r.texts, Date.read? s = none) :=
  ⟨load_settled store produced restored fits saved, r.settled_eq_iff⟩

/-- A document of one page that shows one line. -/
def note (line : String) : Pdf.Document Float where
  objects := [(1, .dictionary [("Pages", .reference 2)]),
    (2, .dictionary [("Kids", .array [.reference 3])]),
    (3, .dictionary [("Type", .name "Page"), ("Contents", .reference 4)]),
    (4, .stream [] s!"BT /F1 10 Tf 50 700 Td ({line}) Tj ET".toUTF8.toList)]
  trailer := [("Root", .reference 1)]

def notes : Template Float :=
  ⟨"notes", "Notes", "", .standard, [⟨"Remark", 1, ⟨40, 100, 200, 60⟩, .text, 0⟩], []⟩

def desk (line : String) : Machine where
  tree := ⟨[(["intake"], .folder 0),
    (["intake", "note.pdf"], .file 0 (.document (.ok (note line))) 0)], 1⟩
  home := []
  clock := 0
  processId := 0
  drawn := 0

/-- The record of a note in which the line is a field of text. -/
def noteRecord (line : String) : DocumentRecord :=
  ((process .standard ⟨[], [], []⟩ notes [] "intake/note.pdf" none :
    StateM Machine DocumentRecord).run (desk line)).1

theorem produced_noteRecord (line : String) : (noteRecord line).Produced :=
  .processed .standard ⟨[], [], []⟩ notes [] "intake/note.pdf" none (desk line) _ rfl

def stored (line : String) : Except DiskError String × Machine :=
  ((ResultStore.mk "results").saving (noteRecord line)).run (desk line)

def loaded (line : String) : Except LoadError DocumentRecord :=
  ((load "results/notes/note.json" :
    StateM Machine (Except LoadError DocumentRecord)).run (stored line).2).1

theorem load_save_paid :
    (noteRecord "paid").texts = ["paid"] ∧ loaded "paid" = .ok (noteRecord "paid") := by
  have facts : (noteRecord "paid").texts = ["paid"] ∧
      (stored "paid").1 = .ok "results/notes/note.json" ∧
      (∀ x ∈ (noteRecord "paid").doubles, Restored x) ∧ (noteRecord "paid").Fits := by
    decide +kernel
  obtain ⟨texts, placed, restored, fits⟩ := facts
  have saved : stored "paid" = (.ok "results/notes/note.json", (stored "paid").2) := by
    rw [← placed]
  obtain ⟨found, same⟩ := load_save ⟨"results"⟩ (produced_noteRecord "paid") restored fits saved
  have plain : ∀ s ∈ (noteRecord "paid").texts, Date.read? s = none := by
    rw [texts]
    decide
  rw [same.mpr plain] at found
  exact ⟨texts, found⟩

/-- A text that writes a date is loaded as that date. -/
theorem dated_not_loaded :
    (noteRecord "2024-3-5").Produced ∧
      (∀ x ∈ (noteRecord "2024-3-5").doubles, x.isFinite = true) ∧
      (stored "2024-3-5").1 = .ok "results/notes/note.json" ∧
      loaded "2024-3-5" ≠ .ok (noteRecord "2024-3-5") := by
  have facts : (noteRecord "2024-3-5").texts = ["2024-3-5"] ∧
      (stored "2024-3-5").1 = .ok "results/notes/note.json" ∧
      (∀ x ∈ (noteRecord "2024-3-5").doubles, Restored x ∧ x.isFinite = true) ∧
      (noteRecord "2024-3-5").Fits := by
    decide +kernel
  obtain ⟨texts, placed, doubles, fits⟩ := facts
  have saved : stored "2024-3-5" = (.ok "results/notes/note.json", (stored "2024-3-5").2) := by
    rw [← placed]
  have found := load_settled ⟨"results"⟩ (produced_noteRecord "2024-3-5")
    (fun x known => (doubles x known).1) fits saved
  have plain : loaded "2024-3-5" = .ok (noteRecord "2024-3-5") →
      ∀ s ∈ (noteRecord "2024-3-5").texts, Date.read? s = none := fun same =>
    (noteRecord "2024-3-5").settled_eq_iff.mp (Except.ok.inj (found.symm.trans same))
  rw [texts] at plain
  exact ⟨produced_noteRecord _, fun x known => (doubles x known).2, placed, fun same =>
    absurd (plain same "2024-3-5" (by simp)) (by decide)⟩

end ResultStore

end Docket
