import Docket.Layout.Region
import Docket.Number.Shortest
import Docket.Proofs.Number.Nearest
import Docket.Proofs.Order

/-! The text of a rectangle, word after word as they are read. The line of a word is its top in line
heights, rounded, so a word further down is never on an earlier line. On words with finite corners the
comparison that sorts them is that of lines and then of left edges; such words have one reading order,
in which only words on one line at one left edge stand as the page has them. -/
namespace Docket

open Double

namespace Word

/-- Where a word is read: its line, then its left edge in the row of all doubles. -/
def place (height : Float) (w : Word Float) : ℤ ×ₗ ℤ ×ₗ ℤ ×ₗ ℤ :=
  toLex (w.line height, rank (unpacked w.box.x))

/-- On an earlier line, or on the same line and no further to the right. -/
def Precedes (height : Float) (a b : Word Float) : Prop :=
  a.line height < b.line height ∨ a.line height = b.line height ∧ a.box.x ≤ b.box.x

/-- On one line, at one left edge. -/
def Level (height : Float) (a b : Word Float) : Prop :=
  a.line height = b.line height ∧ (a.box.x == b.box.x) = true

instance (height : Float) : DecidableRel (Precedes height) := fun a b =>
  inferInstanceAs (Decidable (a.line height < b.line height ∨
    a.line height = b.line height ∧ a.box.x ≤ b.box.x))

instance (height : Float) : DecidableRel (Level height) := fun a b =>
  inferInstanceAs (Decidable (a.line height = b.line height ∧ (a.box.x == b.box.x) = true))

theorem place_eq_of_level {height : Float} {a b : Word Float} (level : Level height a b) :
    place height a = place height b :=
  congrArg toLex (Prod.ext level.1 ((beq_iff_rank _ _).mp level.2).2.2)

section Numbers
variable {height : Float} {a b : Word Float} (number : a.box.x.isNaN = false)
  (number' : b.box.x.isNaN = false)
include number number'

theorem precedes_iff : Precedes height a b ↔ place height a ≤ place height b := by
  simp only [Precedes, place, Prod.Lex.toLex_le_toLex, le_iff_rank, number, number', true_and]

theorem level_of_place_eq (same : place height a = place height b) : Level height a b :=
  have parts := Prod.ext_iff.mp (toLex_inj.mp same)
  ⟨parts.1, (beq_iff_rank _ _).mpr ⟨number, number', parts.2⟩⟩

theorem compare_gt_iff : Scalar.compare a.box.x b.box.x = .gt ↔
    rank (unpacked b.box.x) < rank (unpacked a.box.x) := by
  have less := lt_iff_rank_of_alike (number.trans number'.symm)
  have greater := lt_iff_rank_of_alike (number'.trans number.symm)
  rw [← greater, Scalar.compare]
  split
  · rename_i first
    exact iff_of_false (by decide) fun second => (less.mp first).asymm (greater.mp second)
  · split <;> simp_all

theorem readingOrder_iff :
    (readingOrder height a b != .gt) = true ↔ place height a ≤ place height b := by
  have edges := compare_gt_iff number number'
  rw [bne_iff_ne, place, place, Prod.Lex.toLex_le_toLex, readingOrder]
  simp only [ne_eq, Ordering.then_eq_gt, compare_gt_iff_gt, compare_eq_iff_eq, edges, not_or,
    not_lt, not_and]
  constructor
  · rintro ⟨lines, edges⟩
    exact lines.lt_or_eq.imp_right fun same => ⟨same, edges same⟩
  · rintro (less | ⟨same, edges⟩)
    · exact ⟨less.le, fun same => absurd same less.ne⟩
    · exact ⟨same.le, fun _ => edges⟩

end Numbers

variable {ws : List (Word Float)}

/-- The comparison that sorts is not transitive where an edge is no number, but on words with numbers
it is that of their places. -/
theorem sortReading_eq (height : Float) (numbers : ∀ w ∈ ws, w.box.x.isNaN = false) :
    sortReading height ws = ws.mergeSort fun a b => decide (place height a ≤ place height b) := by
  have same := List.map_mergeSort (f := id) (l := ws)
    (r := fun a b => readingOrder height a b != .gt)
    (s := fun a b => decide (place height a ≤ place height b)) fun a known b known' => by
      rw [Bool.eq_iff_iff, decide_eq_true_iff]
      exact readingOrder_iff (numbers a known) (numbers b known')
  rwa [List.map_id, List.map_id] at same

/-- A word that is no further down is on no later line. -/
theorem line_le (height : Float) {a b : Word Float} (finite : a.box.y.isFinite = true)
    (finite' : b.box.y.isFinite = true) (above : a.box.y ≤ b.box.y) :
    a.line height ≤ b.line height := by
  unfold line
  dsimp only
  split
  · rename_i positive
    exact nearest_le (div_le_div finite finite' positive above)
  · have positive : (0 : Float) < 1 := by decide +kernel
    exact nearest_le (div_le_div finite finite' positive above)

/-- Words put in reading order. -/
structure IsRead (height : Float) (ws ordered : List (Word Float)) : Prop where
  perm : ordered.Perm ws
  ascends : ordered.Pairwise (Precedes height)
  ties : ∀ a, (ordered.filter fun b => Level height a b) = ws.filter fun b => Level height a b

theorem isRead_sortReading (height : Float) (numbers : ∀ w ∈ ws, w.box.x.isNaN = false) :
    IsRead height ws (sortReading height ws) := by
  have told (a b : Word Float) :
      decide (place height a ≤ place height b) = true ↔ place height a ≤ place height b :=
    decide_eq_true_iff
  have perm : (sortReading height ws).Perm ws := List.mergeSort_perm ..
  have numbers' (w : Word Float) (known : w ∈ sortReading height ws) : w.box.x.isNaN = false :=
    numbers w (perm.mem_iff.mp known)
  refine ⟨perm, ?_, fun a => ?_⟩
  · have ascends := pairwise_mergeSort_key told ws
    rw [← sortReading_eq height numbers] at ascends
    refine ascends.imp_of_mem fun {a b} known known' below => ?_
    exact (precedes_iff (numbers' a known) (numbers' b known')).mpr (of_decide_eq_true below)
  · rw [sortReading_eq height numbers]
    refine filter_mergeSort_key told (fun b c first second => ?_) ws
    exact (place_eq_of_level (of_decide_eq_true first)).symm.trans
      (place_eq_of_level (of_decide_eq_true second))

/-- Where no two words are level, it does not matter how they come. -/
theorem sortReading_perm_eq (height : Float) {ws' : List (Word Float)}
    (numbers : ∀ w ∈ ws, w.box.x.isNaN = false) (perm : ws'.Perm ws)
    (apart : ws.Pairwise fun a b => ¬ Level height a b) :
    sortReading height ws' = sortReading height ws := by
  have numbers' (w : Word Float) (known : w ∈ ws') : w.box.x.isNaN = false :=
    numbers w (perm.mem_iff.mp known)
  rw [sortReading_eq height numbers, sortReading_eq height numbers']
  refine mergeSort_perm_eq (fun a b => decide_eq_true_iff) perm ?_
  exact apart.imp_of_mem fun {a b} known known' apart same =>
    apart (level_of_place_eq (numbers a known) (numbers b known') same)

end Word

namespace Region

/-- A region holds its words in reading order. -/
structure Reads (rule : RegionRule Float) (area : Rect Float) (ws : List (Word Float))
    (r : Region Float) : Prop where
  text : ∃ ordered, Word.IsRead rule.lineHeight (kept rule area ws) ordered ∧
    r.text = Text.joined " " ((ordered.map (·.text)).filter (!·.isEmpty))
  wordCount : r.wordCount = (kept rule area ws).length

/-- The text of a rectangle is that of its words in reading order, and it is the same however the
words are drawn unless two of them are level. -/
theorem collect_reads (rule : RegionRule Float) (area : Rect Float) {ws : List (Word Float)}
    (finite : ∀ w ∈ ws, w.box.x.isFinite = true ∧ w.box.y.isFinite = true) :
    Reads rule area ws (collect rule area ws) ∧
      (∀ a ∈ ws, ∀ b ∈ ws, a.box.y ≤ b.box.y →
        a.line rule.lineHeight ≤ b.line rule.lineHeight) ∧
      ((kept rule area ws).Pairwise (fun a b => ¬ Word.Level rule.lineHeight a b) →
        ∀ ws', ws'.Perm ws → (kept rule area ws').Perm (kept rule area ws) ∧
          collect rule area ws' = collect rule area ws) := by
  have numbers (w : Word Float) (known : w ∈ kept rule area ws) : w.box.x.isNaN = false :=
    isNaN_of_isFinite (finite w (List.mem_filter.mp known).1).1
  have read := Word.isRead_sortReading rule.lineHeight numbers
  refine ⟨⟨⟨_, read, rfl⟩, read.perm.length_eq⟩, fun a known b known' => ?_,
    fun apart ws' perm => ?_⟩
  · exact Word.line_le rule.lineHeight (finite a known).2 (finite b known').2
  · have inside : (kept rule area ws').Perm (kept rule area ws) := perm.filter _
    have same : ordered rule area ws' = ordered rule area ws :=
      Word.sortReading_perm_eq rule.lineHeight numbers inside apart
    exact ⟨inside, by rw [collect, collect, same]⟩

/-- Two lines, the first of them uneven. -/
def greeting : List (Word Float) :=
  [⟨"hello", ⟨10, 99, 40, 10⟩⟩, ⟨"world", ⟨60, 101, 40, 10⟩⟩, ⟨"second", ⟨10, 130, 40, 10⟩⟩]

/-- They read the same if they are drawn from the end. -/
theorem collect_reads_greeting :
    (∀ w ∈ greeting, w.box.x.isFinite = true ∧ w.box.y.isFinite = true) ∧
      (kept .standard ⟨0, 0, 200, 200⟩ greeting).Pairwise (fun a b => ¬ Word.Level 5 a b) ∧
      greeting.reverse.Perm greeting ∧
      (collect .standard ⟨0, 0, 200, 200⟩ greeting.reverse).text = "hello world second" := by
  have finite : ∀ w ∈ greeting, w.box.x.isFinite = true ∧ w.box.y.isFinite = true := by
    decide +kernel
  have inside : kept .standard ⟨0, 0, 200, 200⟩ greeting = greeting :=
    List.filter_eq_self.mpr (by decide +kernel)
  have apart : (kept .standard ⟨0, 0, 200, 200⟩ greeting).Pairwise
      (fun a b => ¬ Word.Level 5 a b) := by
    rw [inside]
    decide +kernel
  have perm := List.reverse_perm greeting
  obtain ⟨-, -, same⟩ := collect_reads .standard ⟨0, 0, 200, 200⟩ finite
  refine ⟨finite, apart, perm, ?_⟩
  rw [(same apart _ perm).2, collect, ordered, inside, Word.sortReading,
    List.mergeSort_of_pairwise (by decide +kernel)]
  decide +kernel

end Region
end Docket
