import Docket.Proofs.Layout.Coverage
import Docket.Proofs.Layout.Phrases
import Docket.Proofs.Layout.ReadingOrder
import Docket.Proofs.Number.Ordering

/-! Whether a region reads a phrase as it stands. Phrases go from left to right through their
line, however its words lie to each other. A region goes by the reading lines of the page, which
lie at fixed heights, so a phrase that crosses the edge of one is read line by line. -/
namespace Docket

open Double

namespace Phrase

/-- Words that go on with each other have left edges that are numbers. -/
theorem isNaN_of_continues {rule : PhraseRule Float} {a b : Word Float}
    (joined : continues rule a b = true) : a.box.x.isNaN = false ∧ b.box.x.isNaN = false := by
  unfold continues at joined
  dsimp only at joined
  split at joined
  · cases joined
  · rw [Bool.and_eq_true, Bool.and_eq_true] at joined
    have least := of_decide_eq_true joined.1.2
    have gap := ((le_iff_rank _ _).mp least).2.1
    exact ⟨(isNaN_of_add (isNaN_of_sub gap).2).1, (isNaN_of_sub gap).1⟩

theorem isNaN_of_isChain {rule : PhraseRule Float} {a b : Word Float} {rest : List (Word Float)}
    (chain : (a :: b :: rest).IsChain fun a b => continues rule a b = true) :
    ∀ w ∈ a :: b :: rest, w.box.x.isNaN = false := by
  induction rest generalizing a b with
  | nil =>
    obtain ⟨joined, -⟩ := List.isChain_cons_cons.mp chain
    simpa using isNaN_of_continues joined
  | cons c rest ih =>
    obtain ⟨joined, chain⟩ := List.isChain_cons_cons.mp chain
    intro w known
    rcases List.mem_cons.mp known with rfl | later
    · exact (isNaN_of_continues joined).1
    · exact ih chain w later

/-- The words of a phrase stand from left to right in the row of all doubles. -/
structure Rowed (ws : List (Word Float)) : Prop where
  number : ∀ w ∈ ws, w.box.x.isNaN = false
  ascends : ws.Pairwise fun a b => rank (unpacked a.box.x) ≤ rank (unpacked b.box.x)

theorem IsRun.rowed {rule : PhraseRule Float} {p : Phrase Float} (run : IsRun rule p) :
    (∃ w, p.words = [w]) ∨ Rowed p.words := by
  obtain ⟨nonempty, ordered, joined, -⟩ := run
  cases words : p.words with
  | nil => exact absurd words nonempty
  | cons a rest =>
    cases rest with
    | nil => exact .inl ⟨a, rfl⟩
    | cons b rest =>
      rw [words] at ordered joined
      have number := isNaN_of_isChain joined
      refine .inr ⟨number, ordered.imp_of_mem fun {v w} known known' below => ?_⟩
      rw [Scalar.order] at below
      exact rank_le_of_orderKey_le (number v known) (number w known')
        (not_lt.mp (mt compare_gt_iff_gt.mpr below))

theorem isRun_of_mem_build {rule : PhraseRule Float} {ws : List (Word Float)} {p : Phrase Float}
    (built : p ∈ build rule ws) : IsRun rule p := by
  rw [build_eq_flatten] at built
  obtain ⟨phrases, among, inside⟩ := List.mem_flatten.mp built
  obtain ⟨line, -, rfl⟩ := List.mem_map.mp among
  exact isRun_of_mem_ofLine (arranged_mergeSort byLeft_iff line).ascends inside

end Phrase

namespace Word

def byLine (height : Float) (a b : Word Float) : Bool := a.line height ≤ b.line height

theorem byLine_iff (height : Float) (a b : Word Float) :
    byLine height a b = true ↔ a.line height ≤ b.line height := decide_eq_true_iff

section Lines
variable {height : Float}

theorem place_le_iff (a b : Word Float) : place height a ≤ place height b ↔
    a.line height < b.line height ∨
      a.line height = b.line height ∧ rank (unpacked a.box.x) ≤ rank (unpacked b.box.x) :=
  Prod.Lex.toLex_le_toLex

theorem line_le_of_place_le {a b : Word Float} (below : place height a ≤ place height b) :
    a.line height ≤ b.line height := by
  rcases (place_le_iff a b).mp below with less | ⟨same, -⟩
  · exact less.le
  · exact same.le

end Lines

variable (height : Float) {ws : List (Word Float)}

/-- Words from left to right are read line by line, and on a line as they stand. -/
theorem arranged_sortReading (rowed : Phrase.Rowed ws) :
    Arranged (byLine height) ws (sortReading height ws) := by
  have told (a b : Word Float) :
      decide (place height a ≤ place height b) = true ↔ place height a ≤ place height b :=
    decide_eq_true_iff
  rw [sortReading_eq height rowed.number]
  refine ⟨List.mergeSort_perm .., ?_, fun a => filter_mergeSort_of_pairwise told ?_⟩
  · apply (pairwise_mergeSort_key told ws).imp
    intro a b below
    exact (byLine_iff height a b).mpr (line_le_of_place_le ((told a b).mp below))
  · apply (rowed.ascends.filter _).imp_of_mem
    intro b c known known' below
    have level {w : Word Float}
        (known : w ∈ ws.filter fun b => byLine height a b && byLine height b a) :
        w.line height = a.line height := by
      obtain ⟨first, second⟩ := Bool.and_eq_true_iff.mp (List.mem_filter.mp known).2
      exact le_antisymm ((byLine_iff height w a).mp second) ((byLine_iff height a w).mp first)
    have lines := (level known).trans (level known').symm
    exact (told b c).mpr ((place_le_iff b c).mpr (.inr ⟨lines, below⟩))

theorem sortReading_eq_self_iff (rowed : Phrase.Rowed ws) :
    sortReading height ws = ws ↔ ws.Pairwise fun a b => a.line height ≤ b.line height := by
  constructor
  · intro same
    have ascends := (arranged_sortReading height rowed).ascends
    rw [same] at ascends
    exact ascends.imp fun {a b} below => (byLine_iff height a b).mp below
  · intro ascends
    rw [sortReading_eq height rowed.number]
    apply List.mergeSort_of_pairwise
    apply (ascends.and rowed.ascends).imp
    rintro a b ⟨lines, edges⟩
    apply decide_eq_true ((place_le_iff a b).mpr _)
    exact lines.lt_or_eq.imp_right fun same => ⟨same, edges⟩

end Word

namespace Region

/-- A rectangle covers the words of a phrase and no others of the page. -/
def Covers (rule : RegionRule Float) (area : Rect Float) (ws : List (Word Float))
    (p : Phrase Float) : Prop :=
  (kept rule area ws).Perm p.words

variable {rule : RegionRule Float} {area : Rect Float} {ws : List (Word Float)} {p : Phrase Float}

theorem Covers.ordered_eq (covers : Covers rule area ws p) (rowed : Phrase.Rowed p.words)
    (apart : p.words.Pairwise fun a b => (a.box.x == b.box.x) = false) :
    ordered rule area ws = Word.sortReading rule.lineHeight p.words := by
  apply Word.sortReading_perm_eq rule.lineHeight rowed.number covers
  apply apart.imp
  intro a b differ level
  exact Bool.false_ne_true (differ.symm.trans level.2)

theorem text_collect (texts : ∀ w ∈ p.words, w.text ≠ "") (covers : Covers rule area ws p) :
    (collect rule area ws).text = Text.joined " " ((ordered rule area ws).map (·.text)) := by
  have inside : (ordered rule area ws).Perm p.words := (ordered_perm rule area ws).trans covers
  have whole : ((ordered rule area ws).map (·.text)).filter (!·.isEmpty) =
      (ordered rule area ws).map (·.text) := by
    apply List.filter_eq_self.mpr
    intro text known
    obtain ⟨w, among, rfl⟩ := List.mem_map.mp known
    simpa using texts w (inside.mem_iff.mp among)
  rw [collect, Word.joinTexts, whole]

/-- A region that covers a phrase reads its words line by line, and on a line as the phrase has
them. It reads the phrase as it stands exactly if no word is on an earlier line than one to its
left. -/
theorem collect_reads_phrase {spacing : PhraseRule Float} (built : p ∈ Phrase.build spacing ws)
    (texts : ∀ w ∈ p.words, w.text ≠ "")
    (apart : p.words.Pairwise fun a b => (a.box.x == b.box.x) = false)
    (covers : Covers rule area ws p) :
    (Arranged (Word.byLine rule.lineHeight) p.words (ordered rule area ws) ∧
      (collect rule area ws).text = Text.joined " " ((ordered rule area ws).map (·.text))) ∧
    (ordered rule area ws = p.words ↔
      p.words.Pairwise fun a b => a.line rule.lineHeight ≤ b.line rule.lineHeight) ∧
    ((p.words.Pairwise fun a b => a.line rule.lineHeight ≤ b.line rule.lineHeight) →
      (collect rule area ws).text = p.text) := by
  have text := text_collect texts covers
  have same : ordered rule area ws = p.words → (collect rule area ws).text = p.text := by
    intro same
    rw [text, same, Phrase.text]
  rcases (Phrase.isRun_of_mem_build built).rowed with ⟨w, single⟩ | rowed
  · have alone : ordered rule area ws = p.words := by
      rw [Covers, single, List.perm_singleton] at covers
      rw [ordered, covers, single, Word.sortReading, List.mergeSort_singleton]
    have level : p.words.Pairwise fun a b => a.line rule.lineHeight ≤ b.line rule.lineHeight := by
      rw [single]
      exact List.pairwise_singleton _ _
    rw [alone] at text ⊢
    refine ⟨⟨⟨.refl _, level.imp fun below => decide_eq_true below, fun _ => rfl⟩, text⟩, ?_, ?_⟩
    · exact iff_of_true rfl level
    · exact fun _ => same alone
  · have read := covers.ordered_eq rowed apart
    have order := Word.sortReading_eq_self_iff rule.lineHeight rowed
    rw [← read] at order
    refine ⟨⟨?_, text⟩, order, fun ascends => same (order.mpr ascends)⟩
    rw [read]
    exact Word.arranged_sortReading rule.lineHeight rowed

deriving instance DecidableEq for Word, Phrase

def word (text : String) (x y width : Float) : Word Float := ⟨text, ⟨x, y, width, 10⟩⟩

/-- A phrase that goes down over the edge of a line. -/
def sloping : Phrase Float :=
  ⟨[word "Invoice" 50 102 40, word "Total" 95 102 30, word "Due" 130 103 20], ⟨50, 102, 100, 11⟩⟩

theorem collect_reads_phrase_sloping :
    sloping ∈ Phrase.build Phrase.standard sloping.words ∧ (∀ w ∈ sloping.words, w.text ≠ "") ∧
      (sloping.words.Pairwise fun a b => (a.box.x == b.box.x) = false) ∧
      Covers .standard ⟨40, 95, 120, 30⟩ sloping.words sloping ∧
      (sloping.words.Pairwise fun a b => a.line 5 ≤ b.line 5) ∧
      (collect .standard ⟨40, 95, 120, 30⟩ sloping.words).text = "Invoice Total Due" := by
  have built : sloping ∈ Phrase.build Phrase.standard sloping.words := by
    rw [Phrase.build_of_ordered (by decide +kernel) (by decide +kernel)]
    decide +kernel
  have texts : ∀ w ∈ sloping.words, w.text ≠ "" := by decide +kernel
  have apart : sloping.words.Pairwise fun a b => (a.box.x == b.box.x) = false := by decide +kernel
  have covers : Covers .standard ⟨40, 95, 120, 30⟩ sloping.words sloping := by
    unfold Covers
    decide +kernel
  have ascends : sloping.words.Pairwise fun a b => a.line 5 ≤ b.line 5 := by decide +kernel
  obtain ⟨-, -, same⟩ := collect_reads_phrase built texts apart covers
  refine ⟨built, texts, apart, covers, ascends, (same ascends).trans ?_⟩
  decide +kernel

/-- A phrase with its middle word lower, over the edge of a line. -/
def sagging : Phrase Float :=
  ⟨[word "Invoice" 50 102 40, word "Total" 95 103 30, word "Due" 130 102 20], ⟨50, 102, 100, 11⟩⟩

/-- The same words from the top. -/
def drawn : List (Word Float) :=
  [word "Invoice" 50 102 40, word "Due" 130 102 20, word "Total" 95 103 30]

theorem sagging_built : sagging ∈ Phrase.build Phrase.standard drawn := by
  have line : Phrase.cutBetween (Phrase.onLine Phrase.standard) drawn = [drawn] := by
    decide +kernel
  have sorted : drawn.mergeSort Phrase.byLeft = sagging.words :=
    (mergeSort_perm_eq Phrase.byLeft_iff (by decide +kernel) (by decide +kernel)).trans
      (List.mergeSort_of_pairwise (by decide +kernel))
  rw [Phrase.build_eq_flatten, List.mergeSort_of_pairwise (by decide +kernel), line,
    List.map_singleton, Phrase.ofLine, sorted]
  decide +kernel

/-- The words of a phrase that differ by less than a line in height need not be read as they
stand. -/
theorem sagging_not_read :
    ¬ ∀ (ws : List (Word Float)) (p : Phrase Float), p ∈ Phrase.build Phrase.standard ws →
      (∀ w ∈ p.words, w.text ≠ "") →
      (p.words.Pairwise fun a b => (a.box.x == b.box.x) = false) →
      (p.words.Pairwise fun a b => Scalar.abs (a.box.y - b.box.y) <
        (RegionRule.standard : RegionRule Float).lineHeight) →
      ∀ area, Covers .standard area ws p → (collect .standard area ws).text = p.text := by
  intro agrees
  have inside : kept .standard ⟨40, 95, 120, 30⟩ drawn = drawn := by decide +kernel
  have covers : Covers .standard ⟨40, 95, 120, 30⟩ drawn sagging := by
    rw [Covers, inside]
    decide +kernel
  have read := agrees drawn sagging sagging_built (by decide +kernel) (by decide +kernel)
    (by decide +kernel) ⟨40, 95, 120, 30⟩ covers
  rw [collect, ordered, inside, Word.sortReading, List.mergeSort_of_pairwise (by decide +kernel)]
    at read
  revert read
  decide +kernel

end Region
end Docket
