import Docket.Proofs.Results.Processing
import Docket.Proofs.Results.Storing
import Docket.Proofs.Template.Validity

/-! Which template a batch works with. The name of a file routes it to a template, and the document
that is discovered carries the identifier of that template. Processing looks the identifier up, and
the first template that has it answers: the one the file was routed to exactly if no other template
of that identifier stands before it. -/
namespace Docket

namespace Catalog

variable {α : Type}

def First (c : Catalog α) (t : Template α) : Prop :=
  ∃ before after, c.templates = before ++ t :: after ∧ ∀ u ∈ before, u.id ≠ t.id

theorem template_eq_ok_iff {c : Catalog α} {id : String} {u : Template α} :
    c.template id = .ok u ↔ u.id = id ∧ c.First u := by
  have found : c.template id = .ok u ↔ c.templates.find? (·.id = id) = some u := by
    rw [template]
    cases c.templates.find? (·.id = id) <;> simp
  rw [found, List.find?_eq_some_iff_append]
  simp only [decide_eq_true_eq, Bool.not_eq_true', decide_eq_false_iff_not]
  constructor
  · rintro ⟨rfl, before, after, split, others⟩
    exact ⟨rfl, before, after, split, others⟩
  · rintro ⟨rfl, before, after, split, others⟩
    exact ⟨rfl, before, after, split, others⟩

/-- Looking up the identifier of one template gives another, or the same. -/
structure Resolves (c : Catalog α) (t u : Template α) : Prop where
  id : u.id = t.id
  first : c.First u
  same : u = t ↔ c.First t

theorem resolves_of_mem {c : Catalog α} {t : Template α} (known : t ∈ c.templates) :
    ∃ u, c.template t.id = .ok u ∧ c.Resolves t u := by
  have some : (c.templates.find? (·.id = t.id)).isSome = true :=
    List.find?_isSome.mpr ⟨t, known, by simp⟩
  obtain ⟨u, found⟩ := Option.isSome_iff_exists.mp some
  have looked : c.template t.id = .ok u := by rw [template, found]
  obtain ⟨id, first⟩ := template_eq_ok_iff.mp looked
  refine ⟨u, looked, id, first, fun same => same ▸ first, fun first => ?_⟩
  exact Except.ok.inj (looked.symm.trans (template_eq_ok_iff.mpr ⟨rfl, first⟩))

theorem first_of_distinct {c : Catalog α} (distinct : (c.templates.map (·.id)).Nodup)
    {t : Template α} (known : t ∈ c.templates) : c.First t := by
  obtain ⟨before, after, split⟩ := List.append_of_mem known
  refine ⟨before, after, split, fun u among same => ?_⟩
  rw [split, List.map_append, List.map_cons, List.nodup_append] at distinct
  exact distinct.2.2 u.id (List.mem_map_of_mem among) t.id List.mem_cons_self same

end Catalog

namespace Machine

def Gives {β : Type} (p : β → Prop) (x : StateM Machine β) : Prop := ∀ m, p (x.run m).1

theorem gives_any {β : Type} (x : StateM Machine β) : Gives (fun _ => True) x := fun _ => trivial

theorem gives_pure {β : Type} {p : β → Prop} {b : β} (holds : p b) :
    Gives p (pure b : StateM Machine β) := fun _ => holds

theorem gives_bind {β γ : Type} {p : β → Prop} {q : γ → Prop} {x : StateM Machine β}
    {f : β → StateM Machine γ} (first : Gives p x) (second : ∀ b, p b → Gives q (f b)) :
    Gives q (x >>= f) := fun m => second _ (first m) (x.run m).2

theorem gives_mapM {β γ : Type} {p : γ → Prop} {f : β → StateM Machine γ}
    (each : ∀ b, Gives p (f b)) (bs : List β) : Gives (fun cs => ∀ c ∈ cs, p c) (bs.mapM f) := by
  induction bs with
  | nil =>
    refine gives_pure ?_
    rintro c ⟨⟩
  | cons b bs ih =>
    rw [List.mapM_cons]
    refine gives_bind (each b) fun c holds => gives_bind ih fun cs rest => gives_pure ?_
    exact List.forall_mem_cons.mpr ⟨holds, rest⟩

end Machine

namespace Intake
open Machine

section Any
variable {α : Type}

theorem mem_of_foldl_longer {templates : List (Template α)} {best : Option (Template α)}
    {t : Template α} (chosen : templates.foldl longer best = some t) :
    best = some t ∨ t ∈ templates := by
  induction templates generalizing best with
  | nil => exact .inl chosen
  | cons next rest ih =>
    rcases ih chosen with same | later
    · unfold longer at same
      split at same
      · split at same
        · exact .inl same
        · exact .inr (List.mem_cons.mpr (.inl (Option.some.inj same).symm))
      · exact .inr (List.mem_cons.mpr (.inl (Option.some.inj same).symm))
    · exact .inr (List.mem_cons_of_mem next later)

theorem mem_of_templateFor {fileName : String} {templates : List (Template α)} {t : Template α}
    (routed : templateFor fileName templates = some t) : t ∈ templates := by
  rcases mem_of_foldl_longer routed with impossible | among
  · cases impossible
  · exact (List.mem_filter.mp among).1

def RoutedTo (templates : List (Template α)) (d : IntakeDocument) (t : Template α) : Prop :=
  ∃ name, Path.fileName? d.path = some name ∧ templateFor name templates = some t ∧
    d.templateId = t.id

theorem routed_of_document (templates : List (Template α)) (path : String) :
    Gives (fun found => ∀ d ∈ found, ∃ t, RoutedTo templates d t)
      (document? templates path : StateM Machine (Option IntakeDocument)) := by
  have nothing : Gives (fun found => ∀ d ∈ found, ∃ t, RoutedTo templates d t)
      (pure none : StateM Machine (Option IntakeDocument)) := by
    refine gives_pure ?_
    rintro d ⟨⟩
  refine gives_bind (gives_any _) fun regular _ => ?_
  split
  · split
    · exact nothing
    · rename_i name named
      split
      · exact nothing
      · rename_i t routed
        refine gives_bind (gives_any _) fun period _ => gives_pure fun d there => ?_
        obtain ⟨period, -, rfl⟩ := Option.map_eq_some_iff.mp there
        exact ⟨t, name, named, routed, rfl⟩
  · exact nothing

def visit (templates : List (Template α)) (p : Glob.PathPattern) :
    StateM Machine (List (Option IntakeDocument)) := do
  (← Glob.find p).mapM (document? templates)

theorem run_discover {folder pattern : String} {templates : List (Template α)}
    {p : Glob.PathPattern} (read : Glob.PathPattern.read (Path.join folder pattern) = .ok p)
    (m : Machine) :
    ((discover folder pattern templates :
      StateM Machine (Except Glob.PatternError (List IntakeDocument))).run m).1 =
      .ok ((((visit templates p).run m).1.filterMap id).mergeSort fun a b =>
        Path.le a.path b.path) := by
  rw [discover, read]
  rfl

-- Sorting does not compute, so a run on a given machine starts from documents already in order.
theorem discover_of_visited {folder pattern : String} {templates : List (Template α)}
    {m : Machine} {documents : List IntakeDocument}
    (visited : (Glob.PathPattern.read (Path.join folder pattern)).toOption.map (fun p =>
      ((visit templates p).run m).1.filterMap id) = some documents)
    (sorted : documents.Pairwise fun a b => Path.le a.path b.path = true) :
    ((discover folder pattern templates :
      StateM Machine (Except Glob.PatternError (List IntakeDocument))).run m).1 =
        .ok documents := by
  cases read : Glob.PathPattern.read (Path.join folder pattern) with
  | error e =>
    rw [read] at visited
    cases visited
  | ok p =>
    rw [read] at visited
    have found : ((visit templates p).run m).1.filterMap id = documents := Option.some.inj visited
    rw [run_discover read, found, List.mergeSort_of_pairwise sorted]

theorem routed_of_discover {folder pattern : String} {templates : List (Template α)}
    {m : Machine} {documents : List IntakeDocument}
    (found : ((discover folder pattern templates :
      StateM Machine (Except Glob.PatternError (List IntakeDocument))).run m).1 = .ok documents) :
    ∀ d ∈ documents, ∃ t, RoutedTo templates d t := by
  intro d listed
  cases read : Glob.PathPattern.read (Path.join folder pattern) with
  | error e =>
    rw [discover, read] at found
    cases found
  | ok p =>
    rw [run_discover read] at found
    cases found
    have each : Gives _ (visit templates p) := gives_bind (gives_any (Glob.find p)) fun paths _ =>
      gives_mapM (routed_of_document templates) paths
    obtain ⟨o, known, there⟩ := List.mem_filterMap.mp (List.mem_mergeSort.mp listed)
    exact each m o known d there

end Any
end Intake

namespace Batch
open Machine ResultStore

/-- The document is processed by the template `u`, and its record is stored under the identifier of
the template `t`. -/
structure Handled (s : Settings Float) (c : Catalog Float) (d : IntakeDocument)
    (t u : Template Float) : Prop where
  processed : ∀ m, (record s c d : StateM Machine DocumentRecord).run m =
    (DocumentRecord.process s c u (c.queriesFor t.id) d.path (some d.period) :
      StateM Machine DocumentRecord).run m
  stored : ∀ m m', let store : ResultStore := ⟨s.pipeline.output⟩
    let r := ((record s c d : StateM Machine DocumentRecord).run m).1
    r.templateId = t.id ∧ Saved (store.recordPath t.id d.path) (Json.pretty r.toJson) m'
      ((store.saving r).run m').2 ((store.saving r).run m').1

theorem handled_of_resolves (s : Settings Float) {c : Catalog Float} {d : IntakeDocument}
    {t u : Template Float} (carried : d.templateId = t.id) (looked : c.template t.id = .ok u)
    (resolves : c.Resolves t u) : Handled s c d t u := by
  constructor
  · intro m
    rw [record, carried, looked, ← resolves.id]
  · intro m m'
    have names := outcome_names s c d m.clock (m.opening d.path)
    have saved (r : DocumentRecord) := ResultStore.saved ⟨s.pipeline.output⟩ r m'
    rw [run_record]
    dsimp only
    generalize outcome s c d m.clock (m.opening d.path) = r at names
    obtain ⟨document, templateId⟩ := names
    rw [carried] at templateId
    refine ⟨templateId, ?_⟩
    have stored := saved r
    rw [document, templateId] at stored
    exact stored

/-- Every discovered document is processed by the first template that has the identifier of the one
its name routes it to, which is that one itself exactly if no other stands before it. -/
theorem handled_of_discover (s : Settings Float) (c : Catalog Float) (folder pattern : String)
    {m : Machine} {documents : List IntakeDocument}
    (found : ((Intake.discover folder pattern c.templates :
      StateM Machine (Except Glob.PatternError (List IntakeDocument))).run m).1 = .ok documents) :
    ∀ d ∈ documents, ∃ t u, Intake.RoutedTo c.templates d t ∧ c.Resolves t u ∧
      Handled s c d t u ∧ ((c.templates.map (·.id)).Nodup → u = t) := by
  intro d listed
  obtain ⟨t, name, named, routed, carried⟩ := Intake.routed_of_discover found d listed
  have known := Intake.mem_of_templateFor routed
  obtain ⟨u, looked, resolves⟩ := Catalog.resolves_of_mem known
  exact ⟨t, u, ⟨name, named, routed, carried⟩, resolves,
    handled_of_resolves s carried looked resolves,
    fun distinct => resolves.same.mpr (Catalog.first_of_distinct distinct known)⟩

def lineOf (id start field : String) : Template Float :=
  ⟨id, "", start, .standard, [⟨field, 1, ⟨40, 100, 200, 60⟩, .text, 0⟩], []⟩

def twins : Catalog Float := ⟨[lineOf "notes" "A_" "Remark", lineOf "notes" "B_" "Sender"], [], []⟩

def mailed : Machine where
  tree := ⟨[(["intake"], .folder 0), (["intake", "B_2024-03.pdf"], .file 0 (.text "") 0)], 1⟩
  home := []
  clock := 1000
  processId := 0
  drawn := 0

deriving instance DecidableEq for IntakeDocument

theorem discover_mailed :
    ((Intake.discover "intake" "*.pdf" twins.templates :
      StateM Machine (Except Glob.PatternError (List IntakeDocument))).run mailed).1 =
        .ok [⟨"intake/B_2024-03.pdf", "notes", ⟨2024, 3⟩⟩] :=
  Intake.discover_of_visited (by decide +kernel) (List.pairwise_singleton _ _)

theorem handled_of_discover_mailed :
    ∃ t u, Intake.RoutedTo twins.templates ⟨"intake/B_2024-03.pdf", "notes", ⟨2024, 3⟩⟩ t ∧
      twins.Resolves t u ∧
      Handled .standard twins ⟨"intake/B_2024-03.pdf", "notes", ⟨2024, 3⟩⟩ t u := by
  obtain ⟨t, u, routed, resolves, handled, -⟩ := handled_of_discover .standard twins "intake" "*.pdf"
    discover_mailed _ List.mem_cons_self
  exact ⟨t, u, routed, resolves, handled⟩

/-- A catalog that is accepted may have two templates of one identifier, and a file of the second is
then processed with the fields of the first. -/
theorem twins_mistaken :
    ¬ ∀ (c : Catalog Float) (name : String) (t : Template Float), c.validate = .ok () →
      Intake.templateFor name c.templates = some t →
      ∃ u, c.template t.id = .ok u ∧ u.fields = t.fields ∧ u.anchors = t.anchors := by
  intro agrees
  have accepted : twins.validate = .ok () :=
    Catalog.validate_eq_ok_iff.mpr (by decide +kernel)
  obtain ⟨u, looked, fields, -⟩ := agrees twins "B_2024-03.pdf" (lineOf "notes" "B_" "Sender")
    accepted rfl
  cases looked
  have names : ["Remark"] = ["Sender"] := congrArg (List.map Field.name) fields
  exact absurd names (by decide)

end Batch

end Docket
