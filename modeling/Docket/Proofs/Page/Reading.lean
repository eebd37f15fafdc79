import Docket.Page.Record
import Docket.Proofs.Json.Records
import Docket.Proofs.Page.Collecting

/-! The two ways to read a store: the pages it holds, and the store as a document, in which a page
that it lacks is blank. They agree on the pages that are both held and within the count, and on
those that are neither. Reading the store into a new one settles the others for the document. -/
namespace Docket.PageStore
open Json RecordReader

variable {α : Type}

/-- A page has words in the store exactly if the store as a document gives them. -/
def Agrees (s : PageStore α) (page : Nat) : Prop :=
  ∀ ws, s.words? page = some ws ↔ s.source.words page = .ok ws

/-- All pages held are pages of the document. -/
def Within (s : PageStore α) : Prop := ∀ page ws, s.words? page = some ws → s.source.Has page

theorem words_source_iff (s : PageStore α) (page : Nat) (ws : List (Word α)) :
    s.source.words page = .ok ws ↔ s.source.Has page ∧ (s.words? page).getD [] = ws := by
  rw [words_source]
  split <;> simp [*]

theorem agrees_iff (s : PageStore α) (page : Nat) :
    s.Agrees page ↔ ((s.words? page).isSome ↔ s.source.Has page) := by
  simp only [Agrees, words_source_iff]
  cases s.words? page with
  | none =>
    refine ⟨fun same => ?_, fun same ws => ?_⟩
    · have blank := same []
      simpa using blank
    · simpa using fun has => absurd (same.mpr has) Bool.false_ne_true
  | some ws =>
    refine ⟨fun same => ?_, fun same ws' => ?_⟩
    · exact iff_of_true rfl ((same ws).mp rfl).1
    · simpa using fun _ => same.mp rfl

theorem Within.reads {s : PageStore α} (within : s.Within) {page : Nat} {ws : List (Word α)}
    (held : s.words? page = some ws) : s.source.words page = .ok ws := by
  rw [words_source_iff, held]
  exact ⟨within page ws held, rfl⟩

section Collect
variable (s : PageStore α)

/-- A store gives the words of each of its pages, so nothing is skipped. -/
theorem warnings_collect_source : (collect s.source).2 = [] := by
  rw [warnings_collect, List.filterMap_eq_nil_iff]
  intro page known
  have has := (s.source.mem_range page).mp known
  rw [skipped?, words_source, if_pos has]

theorem words?_collect_source (page : Nat) (ws : List (Word α)) :
    (collect s.source).1.words? page = some ws ↔ s.source.words page = .ok ws := by
  rw [words?_collect, words_source]
  split <;> simp [Except.toOption]

theorem words_source_collect_source (page : Nat) :
    (collect s.source).1.source.words page = s.source.words page := by
  by_cases has : s.source.Has page
  · rw [words_source_collect s.source has, words_source, if_pos has, PageSource.read, words_source,
      if_pos has]
    rfl
  · rw [words_source, words_source, if_neg has, if_neg (mt (has_collect s.source page).mp has)]

theorem agrees_collect_source (page : Nat) : (collect s.source).1.Agrees page := by
  intro ws
  rw [words?_collect_source, words_source_collect_source]

theorem words?_collect_source_eq_iff (page : Nat) :
    (collect s.source).1.words? page = s.words? page ↔ s.Agrees page := by
  rw [Option.ext_iff]
  simp only [words?_collect_source, Agrees]
  exact forall_congr' fun ws => iff_comm

variable {s}

theorem Sorted.collect_source_eq_iff (sorted : s.Sorted) :
    (collect s.source).1 = s ↔ ∀ page, s.Agrees page := by
  refine ⟨fun same page => ?_, fun agrees => ?_⟩
  · rw [← words?_collect_source_eq_iff, same]
  · exact (sorted_collect s.source).ext sorted (count_collect s.source) fun page =>
      (words?_collect_source_eq_iff s page).mpr (agrees page)

end Collect

theorem sorted_foldl_place {pages : List (Nat × List (Word α))}
    (sorted : pages.Pairwise fun a b => a.1 < b.1) (entries : List (Nat × List (Word α))) :
    (entries.foldl (fun s e => place e.1 e.2 s) pages).Pairwise fun a b => a.1 < b.1 := by
  induction entries generalizing pages with
  | nil => exact sorted
  | cons e rest ih => exact ih (ascends_place sorted e.1 e.2)

/-- What is read of a record has its pages in order, whatever order they stand in there. -/
theorem sorted_of_makes {pages : RecordReader (List (Nat × List (Word Float)))}
    {counted : RecordReader Nat} {s : PageStore Float}
    (makes : ((fun entries count => (⟨entries.foldl (fun s (page, ws) => place page ws s) [],
      count⟩ : PageStore Float)) <$> pages <*> counted).Makes s) : s.Sorted := by
  obtain ⟨stored, count, first, -, rfl⟩ := makes.seq
  obtain ⟨entries, -, rfl⟩ := first.map
  exact sorted_foldl_place List.Pairwise.nil entries

/-- What can be done to a store. -/
inductive Change
  | insert (page : Nat) (words : List (Word Float))
  | load (text : String)
  | restore (value : Value)
  | read (source : PageSource Float)
  | reread

namespace Change

/-- A record that cannot be read changes nothing. -/
def apply (s : PageStore Float) : Change → PageStore Float
  | insert page ws => s.insert page ws
  | load text => (decodeText decoder text).toOption.getD s
  | restore v => (decoder.convert v).toOption.getD s
  | read source => (collect source).1
  | reread => (collect s.source).1

def run (changes : List Change) : PageStore Float := changes.foldl apply empty

/-- Pages are counted from 1, and a record does not hold more than it counts. -/
def Fits : Change → Prop
  | insert page _ => 1 ≤ page
  | load text => ∀ s, decodeText decoder text = .ok s → s.Within
  | restore v => ∀ s, decoder.convert v = .ok s → s.Within
  | _ => True

theorem holds_attempt {ε : Type} {P : PageStore Float → Prop} {s : PageStore Float}
    {attempt : Except ε (PageStore Float)} (old : P s) (new : ∀ t, attempt = .ok t → P t) :
    P (attempt.toOption.getD s) := by
  cases attempt with
  | error e => exact old
  | ok t => exact new t rfl

theorem sorted_apply {s : PageStore Float} (sorted : s.Sorted) (c : Change) :
    (c.apply s).Sorted := by
  cases c with
  | insert page ws => exact sorted.insert page ws
  | load text =>
    exact holds_attempt sorted fun t read => sorted_of_makes (makes_of_decodeText read)
  | restore v =>
    exact holds_attempt sorted fun t read => sorted_of_makes (makes_of_convert read)
  | read source => exact sorted_collect source
  | reread => exact sorted_collect s.source

theorem within_collect (source : PageSource Float) : (collect source).1.Within :=
  fun page ws held =>
    (has_collect source page).mpr ((words?_collect_iff source page ws).mp held).1

theorem within_apply {s : PageStore Float} (within : s.Within) {c : Change} (fits : c.Fits) :
    (c.apply s).Within := by
  cases c with
  | insert page ws =>
    intro other vs held
    rw [apply, words?_insert] at held
    show 1 ≤ other ∧ other ≤ max s.count page
    split at held
    · rename_i same
      subst other
      exact ⟨fits, Nat.le_max_right _ _⟩
    · have has := within other vs held
      exact ⟨has.1, Nat.le_trans has.2 (Nat.le_max_left _ _)⟩
  | load text => exact holds_attempt within fits
  | restore v => exact holds_attempt within fits
  | read source => exact within_collect source
  | reread => exact within_collect s.source

theorem sorted_run (changes : List Change) : (run changes).Sorted :=
  List.foldlRecOn changes apply sorted_empty fun _ sorted c _ => sorted_apply sorted c

theorem within_run {changes : List Change} (fits : ∀ c ∈ changes, c.Fits) :
    (run changes).Within := by
  have start : (empty : PageStore Float).Within := fun _ _ held => nomatch held
  exact List.foldlRecOn changes apply start fun _ within c known =>
    within_apply within (fits c known)

/-- Of every store that changes can make, the document gives the words of each page within the
count, blank ones for a page that is not held. The two reads agree on a page if it is held exactly
when it is within the count; a page that is held is within it unless it was numbered 0 or loaded
with a smaller count. Reading the store as a document leaves no warning and what the document gives,
and makes both reads agree; where they agreed nothing changes. -/
theorem run_reads (changes : List Change) :
    let s := run changes
    let (s', warnings) := collect s.source
    (∀ page ws, s.source.words page = .ok ws ↔
        s.source.Has page ∧ (s.words? page).getD [] = ws) ∧
      (∀ page, s.Agrees page ↔ ((s.words? page).isSome ↔ s.source.Has page)) ∧
      ((∀ c ∈ changes, c.Fits) →
        ∀ page ws, s.words? page = some ws → s.source.words page = .ok ws) ∧
      warnings = [] ∧
      (∀ page, s'.source.words page = s.source.words page) ∧
      (∀ page, s'.Agrees page) ∧
      (∀ page, s'.words? page = s.words? page ↔ s.Agrees page) ∧
      (s' = s ↔ ∀ page, s.Agrees page) := by
  intro s
  exact ⟨words_source_iff s, agrees_iff s, fun fits _ _ => (within_run fits).reads,
    warnings_collect_source s, words_source_collect_source s, agrees_collect_source s,
    words?_collect_source_eq_iff s, (sorted_run changes).collect_source_eq_iff⟩

def third : List Change := [.insert 3 [⟨"Total", ⟨70, 300, 60, 12⟩⟩]]

theorem run_reads_third :
    (∀ c ∈ third, c.Fits) ∧
      (run third).source.words 3 = .ok [⟨"Total", ⟨70, 300, 60, 12⟩⟩] ∧
      (collect (run third).source).2 = [] := by
  have fits : ∀ c ∈ third, c.Fits := by
    intro c known
    obtain rfl := List.mem_singleton.mp known
    show 1 ≤ 3
    decide
  obtain ⟨-, -, kept, warnings, -⟩ := run_reads third
  exact ⟨fits, kept fits 3 _ rfl, warnings⟩

/-- The first page is blank in the document and not in the store, until the store is read anew. -/
theorem third_not_agrees :
    (run third).words? 1 = none ∧ (run third).source.words 1 = .ok [] ∧
      ¬ (run third).Agrees 1 ∧
      (collect (run third).source).1.words? 1 ≠ (run third).words? 1 := by
  have apart : ¬ (run third).Agrees 1 := fun same => nomatch (same []).mpr rfl
  exact ⟨rfl, rfl, apart, mt (words?_collect_source_eq_iff _ 1).mp apart⟩

end Change
end Docket.PageStore
