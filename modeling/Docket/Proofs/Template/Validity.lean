import Docket.Catalog.Basic
import Docket.Proofs.Number.Comparing
import Docket.Proofs.Order

/-! Which templates have no issue. The fields and the anchors are looked at one by one. That names
differ is seen on the sorted names, where every occurrence of a name but the last stands before
another. -/
namespace Docket

/-- A rectangle of positive size on a page. All measures that are compared are numbers. -/
structure PageSize.Carries (s : PageSize Float) (r : Rect Float) : Prop where
  numbers : ∀ v ∈ [r.x, r.y, r.width, r.height, r.right, r.bottom, s.width, s.height],
    v.isNaN = false
  left : 0 ≤ r.x
  top : 0 ≤ r.y
  width : 0 < r.width
  height : 0 < r.height
  right : r.right ≤ s.width
  bottom : r.bottom ≤ s.height

theorem PageSize.holds_iff {s : PageSize Float} {r : Rect Float} :
    s.holds r = true ↔ s.Carries r := by
  simp only [holds, Bool.and_eq_true, decide_eq_true_eq]
  constructor
  · rintro ⟨⟨⟨⟨⟨left, top⟩, width⟩, height⟩, right⟩, bottom⟩
    refine ⟨?_, left, top, width, height, right, bottom⟩
    obtain ⟨-, x, -⟩ := (Double.le_iff_rank _ _).mp left
    obtain ⟨-, y, -⟩ := (Double.le_iff_rank _ _).mp top
    obtain ⟨-, wide, -⟩ := (Double.lt_iff_rank _ _).mp width
    obtain ⟨-, high, -⟩ := (Double.lt_iff_rank _ _).mp height
    obtain ⟨edge, pageWide, -⟩ := (Double.le_iff_rank _ _).mp right
    obtain ⟨foot, pageHigh, -⟩ := (Double.le_iff_rank _ _).mp bottom
    simp only [List.forall_mem_cons, x, y, wide, high, edge, foot, pageWide, pageHigh, true_and]
    rintro v ⟨⟩
  · rintro ⟨-, left, top, width, height, right, bottom⟩
    exact ⟨⟨⟨⟨⟨left, top⟩, width⟩, height⟩, right⟩, bottom⟩

/-- What is asked of a field with its name, and of an anchor with its reference. -/
structure PageSize.Places (s : PageSize Float) (text : String) (page : Nat) (r : Rect Float) :
    Prop where
  shown : Text.isBlankText text = false
  page : 1 ≤ page
  rect : s.Carries r

namespace Issue

def initial : Issue → Char
  | missingId => 'M'
  | unnamedField | fieldPage .. | fieldOutside _ => 'F'
  | duplicateField _ => 'D'
  | anchorWithoutText _ | anchorPage .. | anchorOutside _ => 'A'

theorem head?_message (i : Issue) : i.message.toList.head? = some i.initial := by
  have append {s : String} {c : Char} (first : s.toList.head? = some c) (t : String) :
      (s ++ t).toList.head? = some c := by
    rw [String.toList_append, List.head?_append, first]
    rfl
  cases i with
  | missingId | unnamedField => rfl
  | duplicateField => exact append rfl _
  | fieldPage | anchorPage => exact append (append (append rfl _) _) _
  | fieldOutside | anchorWithoutText | anchorOutside => exact append (append rfl _) _

theorem message_eq_duplicateField {i : Issue} {name : String} :
    i.message = (duplicateField name).message ↔ i = duplicateField name := by
  refine ⟨fun same => ?_, fun same => same ▸ rfl⟩
  have initial : i.initial = 'D' := by
    have first := head?_message i
    rw [same, head?_message] at first
    exact (Option.some.inj first).symm
  cases i with
  | duplicateField => exact congrArg duplicateField ((String.append_right_inj _).mp same)
  | _ => cases initial

end Issue

namespace Template

section Names
variable {names : List String}

/-- Of a name that occurs, all occurrences but the last stand before an equal one. -/
theorem count_repeated (sorted : names.Pairwise (· ≤ ·)) (name : String) :
    (repeated names).count name = names.count name - 1 := by
  induction names with
  | nil => rfl
  | cons a names ih =>
    obtain ⟨below, behind⟩ := List.pairwise_cons.mp sorted
    have rest := ih behind
    cases names with
    | nil =>
      have last : repeated [a] = [] := rfl
      rw [last, List.count_nil, List.count_singleton]
      split <;> rfl
    | cons b names =>
      rw [repeated, List.count_append, rest, List.count_cons (l := b :: names)]
      by_cases other : a = name
      · subst other
        by_cases same : a = b
        · subst same
          simp [Nat.add_comm]
        · -- the names behind are no less than `b`, so a run of equal names ends here
          have last : a ∉ b :: names := fun again => by
            have least : b ≤ a := by
              rcases List.mem_cons.mp again with rfl | later
              · exact le_rfl
              · exact (List.pairwise_cons.mp behind).1 a later
            exact same (le_antisymm (below b List.mem_cons_self) least)
          simp [same, List.count_eq_zero.mpr last]
      · split <;> simp [other]

theorem count_duplicates (names : List String) (name : String) :
    (duplicates names).count name = names.count name - 1 := by
  have told (a b : String) : decide (a ≤ b) = true ↔ a ≤ b := decide_eq_true_iff
  have sorted : (names.mergeSort (· ≤ ·)).Pairwise (· ≤ ·) := by
    simpa only [decide_eq_true_eq] using pairwise_mergeSort_key told names
  rw [duplicates, count_repeated sorted, (List.mergeSort_perm names _).count_eq]

theorem duplicates_eq_nil : duplicates names = [] ↔ names.Nodup := by
  rw [List.nodup_iff_count_le_one, List.eq_nil_iff_forall_not_mem]
  refine forall_congr' fun name => ?_
  rw [← List.count_eq_zero, count_duplicates]
  omega

end Names

section Any
variable {α : Type} [Scalar α]

theorem demand_eq_nil {kept : Bool} {issue : Issue} : demand kept issue = [] ↔ kept = true := by
  cases kept <;> simp [demand]

theorem mem_demand {kept : Bool} {issue i : Issue} :
    i ∈ demand kept issue ↔ kept = false ∧ i = issue := by
  cases kept <;> simp [demand]

theorem count_duplicateField (t : Template α) (name : String) :
    (t.issues.map Issue.message).count (Issue.duplicateField name).message =
      (t.fields.map (·.name)).count name - 1 := by
  have told : (t.issues.map Issue.message).count (Issue.duplicateField name).message =
      t.issues.count (.duplicateField name) := by
    rw [List.count_eq_countP, List.countP_map, List.count_eq_countP]
    exact List.countP_congr fun i _ => by simp [Issue.message_eq_duplicateField]
  have id : Issue.duplicateField name ∉ demand (!Text.isBlankText t.id) .missingId := by
    simp [mem_demand]
  have fields : Issue.duplicateField name ∉ t.fields.flatMap (fieldIssues t.pageSize) := by
    simp [fieldIssues, mem_demand]
  have anchors : Issue.duplicateField name ∉ t.anchors.flatMap (anchorIssues t.pageSize) := by
    simp [anchorIssues, mem_demand]
  have names : ((duplicates (t.fields.map (·.name))).map Issue.duplicateField).count
      (.duplicateField name) = (duplicates (t.fields.map (·.name))).count name :=
    List.count_map_of_injective _ _ (fun _ _ => Issue.duplicateField.inj) name
  rw [told, issues, List.count_append, List.count_append, List.count_append,
    List.count_eq_zero.mpr id, List.count_eq_zero.mpr fields, List.count_eq_zero.mpr anchors, names,
    count_duplicates]
  omega

end Any

/-- The layout of a template, as it must be. -/
structure WellFormed (t : Template Float) : Prop where
  id : Text.isBlankText t.id = false
  fields : ∀ f ∈ t.fields, t.pageSize.Places f.name f.page f.rect
  distinct : (t.fields.map (·.name)).Nodup
  anchors : ∀ a ∈ t.anchors, t.pageSize.Places a.reference a.page a.rect

theorem demands_eq_nil {s : PageSize Float} {text : String} {page : Nat} {r : Rect Float}
    {unshown unpaged outside : Issue} :
    demand (!Text.isBlankText text) unshown ++ demand (1 ≤ page) unpaged ++
      demand (s.holds r) outside = [] ↔ s.Places text page r := by
  simp only [List.append_eq_nil_iff, demand_eq_nil, Bool.not_eq_true', decide_eq_true_eq,
    PageSize.holds_iff]
  constructor
  · rintro ⟨⟨shown, page⟩, rect⟩
    exact ⟨shown, page, rect⟩
  · rintro ⟨shown, page, rect⟩
    exact ⟨⟨shown, page⟩, rect⟩

theorem issues_eq_nil {t : Template Float} : t.issues = [] ↔ t.WellFormed := by
  rw [issues, List.append_eq_nil_iff, List.append_eq_nil_iff, List.append_eq_nil_iff, demand_eq_nil,
    Bool.not_eq_true', List.flatMap_eq_nil_iff, List.map_eq_nil_iff, duplicates_eq_nil,
    List.flatMap_eq_nil_iff]
  simp only [fieldIssues, anchorIssues, demands_eq_nil]
  constructor
  · rintro ⟨⟨⟨id, fields⟩, distinct⟩, anchors⟩
    exact ⟨id, fields, distinct, anchors⟩
  · rintro ⟨id, fields, distinct, anchors⟩
    exact ⟨⟨⟨id, fields⟩, distinct⟩, anchors⟩

end Template

namespace Catalog

theorem validate_eq_ok_iff {α : Type} [Scalar α] {c : Catalog α} :
    c.validate = .ok () ↔ ∀ t ∈ c.templates, t.issues.isEmpty = true := by
  have none : c.validate = .ok () ↔ c.templates.find? (!·.issues.isEmpty) = none := by
    rw [validate]
    cases c.templates.find? (!·.issues.isEmpty) <;> simp
  rw [none, List.find?_eq_none]
  simp

/-- The templates that are accepted are the well-formed ones, and a name that occurs more than once
is told once less than it occurs. -/
theorem validate_judges :
    (∀ t : Template Float, t.issues = [] ↔ t.WellFormed) ∧
    (∀ (t : Template Float) (name : String),
      (t.issues.map Issue.message).count (Issue.duplicateField name).message =
        (t.fields.map (·.name)).count name - 1) ∧
    ∀ c : Catalog Float, c.validate = .ok () ↔ ∀ t ∈ c.templates, t.WellFormed := by
  refine ⟨fun t => Template.issues_eq_nil, Template.count_duplicateField, fun c => ?_⟩
  simp only [validate_eq_ok_iff, List.isEmpty_iff, Template.issues_eq_nil]

end Catalog
end Docket
