import Mathlib
import Docket.Pdf.PageText
import Docket.Proofs.Calibration.Recovery
import Docket.Proofs.Pdf.Gathering

/-! The words of one string that is shown on a level line. Each glyph starts where the one before
has led, so inside a string no spacing opens a gap: its characters alone part the words. -/
namespace Docket.Pdf

open WordBuilder (IsShown)

section Runs
variable {β : Type}

/-- The longest runs of glyphs whose characters words hold. -/
def runs (shown : List (Char × β)) : List (List (Char × β)) :=
  (shown.splitOnP fun g => !decide (IsShown g.1)).filter (· ≠ [])

def spelling (run : List (Char × β)) : String := String.ofList (run.map Prod.fst)

theorem runs_nil : runs ([] : List (Char × β)) = [] := by simp [runs]

theorem runs_of_shown {run : List (Char × β)} (some : run ≠ []) (shown : ∀ g ∈ run, IsShown g.1) :
    runs run = [run] := by
  rw [runs, List.splitOnP_eq_singleton fun g known => by simp [shown g known]]
  simp [some]

theorem runs_append_cons {g : Char × β} (parts : ¬ IsShown g.1) (front back : List (Char × β)) :
    runs (front ++ g :: back) = runs front ++ runs back := by
  rw [runs, List.splitOnP_append_cons front back (by simp [parts]), List.filter_append]
  rfl

end Runs

variable {K : Type} [ExactNumber K]

namespace TextState

theorem advance_zero (s : TextState K) : s.advance 0 = s := by
  simp [advance, Matrix.translation, Matrix.andThen]

theorem advance_advance (s : TextState K) (x y : K) :
    (s.advance x).advance y = s.advance (x + y) := by
  simp only [advance, Matrix.translation, Matrix.andThen, TextState.mk.injEq, true_and, and_true,
    Matrix.mk.injEq]
  refine ⟨?_, ?_, ?_, ?_, ?_, ?_⟩ <;> ring

theorem pointAt_advance (s : TextState K) (x y : K) :
    (s.advance x).pointAt y = s.pointAt (x + y) := by
  simp only [pointAt, toPage, advance, Matrix.translation, Matrix.andThen, Matrix.map,
    Prod.mk.injEq]
  constructor <;> ring

theorem renderedSize_advance (s : TextState K) (x : K) :
    (s.advance x).renderedSize = s.renderedSize := by
  simp [renderedSize, toPage, advance, Matrix.translation, Matrix.andThen, Matrix.verticalScale]

theorem pointAt_fst_sub (s : TextState K) (x y : K) :
    (s.pointAt y).1 - (s.pointAt x).1 = (y - x) * s.toPage.a := by
  simp only [pointAt, Matrix.map]
  ring

/-- The line runs straight across the page. -/
def IsLevel (s : TextState K) : Prop := s.toPage.b = 0

theorem IsLevel.pointAt_snd {s : TextState K} (level : s.IsLevel) (x y : K) :
    (s.pointAt x).2 = (s.pointAt y).2 := by
  simp only [pointAt, Matrix.map, show s.toPage.b = 0 from level, mul_zero]

def glyphReach (s : TextState K) (g : Char × K) : K := s.glyphAdvance g.2 (g.1 == ' ')

/-- How far glyphs lead along the line. -/
def reach (s : TextState K) (shown : List (Char × K)) : K := (shown.map s.glyphReach).sum

theorem reach_snoc (s : TextState K) (run : List (Char × K)) (g : Char × K) :
    s.reach (run ++ [g]) = s.reach run + s.glyphReach g := by
  simp [reach]

/-- How far glyphs of a level line lead across the page. -/
def span (s : TextState K) (shown : List (Char × K)) : K :=
  (shown.map fun g => s.glyphReach g * s.toPage.a).sum

theorem span_eq (s : TextState K) (shown : List (Char × K)) :
    s.span shown = s.reach shown * s.toPage.a := by
  rw [span, reach, List.sum_map_mul_right]

end TextState

namespace Drawing
open TextState

theorem showGlyph_eq {s : TextState K} {x : K} {d : Drawing K} (state : d.state = s.advance x)
    (g : Char × K) :
    d.showGlyph g.1 g.2 = ⟨s.advance (x + s.glyphReach g), d.builder.push
      ⟨g.1, (s.pointAt x).1, (s.pointAt (x + s.glyphReach g)).1, (s.pointAt x).2,
        s.renderedSize⟩⟩ := by
  have reach : d.state.glyphAdvance g.2 (g.1 == ' ') = s.glyphReach g := by rw [state]; rfl
  unfold showGlyph
  simp only [reach]
  simp only [state, advance_advance, pointAt_advance, renderedSize_advance, add_zero]

/-- The word under way behind a run of glyphs that began at a distance along the line. -/
def pendingWord (s : TextState K) (x : K) (run : List (Char × K)) : Option (PendingWord K) :=
  if run = [] then none
  else some ⟨spelling run, (s.pointAt x).1, (s.pointAt (x + s.reach run)).1, (s.pointAt x).2,
    s.renderedSize⟩

/-- A drawing that has just shown a run of glyphs from a distance along the line on. -/
structure Along (s : TextState K) (x : K) (run : List (Char × K)) (d : Drawing K) : Prop where
  state : d.state = s.advance (x + s.reach run)
  pending : d.builder.pending = pendingWord s x run
  shown : ∀ g ∈ run, IsShown g.1

theorem continues_run {s : TextState K} (level : s.IsLevel) (visible : 0 < s.renderedSize)
    (text : String) (c : Char) (x0 x y z : K) :
    WordBuilder.continues ⟨text, x0, (s.pointAt y).1, (s.pointAt x).2, s.renderedSize⟩
      ⟨c, (s.pointAt y).1, z, (s.pointAt y).2, s.renderedSize⟩ = true := by
  have half : (0 : K) < s.renderedSize * Scalar.ratio 1 2 := by
    simpa [Scalar.ratio, Exact.ofNat_eq] using visible
  have quarter : (0 : K) ≤ s.renderedSize * Scalar.ratio 1 4 := by
    have small : (0 : K) ≤ Scalar.ratio 1 4 := by simp [Scalar.ratio, Exact.ofNat_eq]
    exact mul_nonneg (le_of_lt visible) small
  have still : Scalar.abs ((s.pointAt y).2 - (s.pointAt x).2) = 0 := by
    rw [level.pointAt_snd y x, sub_self]
    exact abs_zero
  simp only [WordBuilder.continues, still, Exact.max_eq, max_self, sub_self]
  simp [half, not_lt.mpr quarter, le_of_lt visible]

/-- What a word has of the run it comes from. -/
structure Spells (s : TextState K) (w : Word K) (run : List (Char × K)) : Prop where
  text : w.text = spelling run
  width : w.box.width = |s.span run|

theorem spells_place {s : TextState K} {x : K} {run : List (Char × K)} {p : PendingWord K}
    (pending : pendingWord s x run = some p) (b : WordBuilder K) : Spells s (b.place p) run := by
  unfold pendingWord at pending
  split at pending
  · cases pending
  · cases pending
    refine ⟨rfl, ?_⟩
    show |(s.pointAt (x + s.reach run)).1 - (s.pointAt x).1| = _
    rw [pointAt_fst_sub, add_sub_cancel_left, span_eq]

/-- Where a run ends, it has become a word unless it is empty. -/
theorem Along.flush {s : TextState K} {x : K} {run : List (Char × K)} {d : Drawing K}
    (along : Along s x run d) :
    ∃ ws, d.builder.flush.words = d.builder.words ++ ws ∧
      d.builder.flush.pending = none ∧ List.Forall₂ (Spells s) ws (runs run) := by
  rw [WordBuilder.flush_eq, along.pending]
  by_cases none : run = []
  · subst none
    exact ⟨[], rfl, rfl, by rw [runs_nil]; exact .nil⟩
  · obtain ⟨p, pending⟩ : ∃ p, pendingWord s x run = some p := ⟨_, if_neg none⟩
    refine ⟨[d.builder.place p], by rw [pending]; rfl, rfl, ?_⟩
    rw [runs_of_shown none along.shown]
    exact .cons (spells_place pending _) .nil

section Level
variable {s : TextState K} (level : s.IsLevel) (visible : 0 < s.renderedSize) {x : K}
  {run : List (Char × K)} {d : Drawing K}
include level visible

theorem push_run {b : WordBuilder K} (pending : b.pending = pendingWord s x run) {g : Char × K}
    (shown : IsShown g.1) :
    b.push ⟨g.1, (s.pointAt (x + s.reach run)).1, (s.pointAt (x + s.reach run + s.glyphReach g)).1,
        (s.pointAt (x + s.reach run)).2, s.renderedSize⟩ =
      { b with pending := pendingWord s x (run ++ [g]) } := by
  rw [WordBuilder.push_eq, if_pos shown, pending]
  cases run with
  | nil =>
    have idle : b.flush = b := by rw [WordBuilder.flush, pending]; rfl
    simp [idle, pendingWord, reach, WordBuilder.begin, spelling]
  | cons first rest =>
    have text : (spelling (first :: rest)).push g.1 = spelling (first :: rest ++ [g]) := by
      rw [← String.toList_inj]
      simp [spelling, String.toList_push]
    rw [pendingWord, if_neg (List.cons_ne_nil _ _), Option.filter,
      if_pos (continues_run level visible _ _ _ _ _ _)]
    simp only [WordBuilder.extend, Exact.max_eq, max_self, text]
    rw [pendingWord, if_neg (by simp), reach_snoc, add_assoc]

/-- A glyph that words hold lengthens the run, however far it leads. -/
theorem Along.extend (along : Along s x run d) {g : Char × K} (shown : IsShown g.1) :
    Along s x (run ++ [g]) (d.showGlyph g.1 g.2) ∧
      (d.showGlyph g.1 g.2).builder.words = d.builder.words := by
  rw [showGlyph_eq along.state, push_run level visible along.pending shown]
  refine ⟨⟨by rw [reach_snoc, add_assoc], rfl, fun g' known => ?_⟩, rfl⟩
  rcases List.mem_append.mp known with earlier | last
  · exact along.shown g' earlier
  · rwa [List.mem_singleton.mp last]

/-- The words of a run that has begun and of the glyphs that follow it. -/
theorem Along.words (along : Along s x run d) (shown : List (Char × K)) :
    ∃ ws, (shown.foldl (fun d (c, width) => d.showGlyph c width) d).builder.finish =
        d.builder.words ++ ws ∧ List.Forall₂ (Spells s) ws (runs (run ++ shown)) := by
  induction shown generalizing x run d with
  | nil =>
    obtain ⟨ws, words, -, spells⟩ := along.flush
    exact ⟨ws, words, by rwa [List.append_nil]⟩
  | cons g shown ih =>
    by_cases held : IsShown g.1
    · obtain ⟨further, same⟩ := along.extend level visible held
      obtain ⟨ws, words, spells⟩ := ih further
      rw [same] at words
      rw [List.append_assoc] at spells
      exact ⟨ws, words, spells⟩
    · obtain ⟨before, first, idle, spelled⟩ := along.flush
      have parted : d.showGlyph g.1 g.2 =
          ⟨s.advance (x + s.reach run + s.glyphReach g), d.builder.flush⟩ := by
        rw [showGlyph_eq along.state, WordBuilder.push_eq, if_neg held]
      have again : Along s (x + s.reach run + s.glyphReach g) [] (d.showGlyph g.1 g.2) := by
        rw [parted]
        exact ⟨by simp [reach], idle, by simp⟩
      obtain ⟨ws, words, spells⟩ := ih again
      have since : (d.showGlyph g.1 g.2).builder.words = d.builder.words ++ before := by
        rw [parted]
        exact first
      rw [since, List.append_assoc] at words
      refine ⟨before ++ ws, words, ?_⟩
      rw [runs_append_cons held]
      exact List.rel_append spelled spells

end Level

/-- A string that is shown on a level line becomes the words of its runs, whatever the widths of the
glyphs and the spacing; each is as wide as its glyphs lead across the page. -/
theorem words_of_string (glyphs : GlyphReader K) (bytes : Bytes) (d : Drawing K)
    (level : d.state.IsLevel) (visible : 0 < d.state.renderedSize)
    (idle : d.builder.pending = none) :
    ∃ ws, (perform glyphs d ⟨"Tj", [.string bytes]⟩).flush.builder.words = d.builder.words ++ ws ∧
      List.Forall₂ (Spells d.state) ws (runs (glyphs d.state.font bytes)) := by
  have along : Along d.state 0 [] d := by
    refine ⟨?_, idle, by simp⟩
    rw [reach, List.map_nil, List.sum_nil, add_zero, advance_zero]
  exact along.words level visible (glyphs d.state.font bytes)

/-- Latin characters, all of one width. -/
def evenly : GlyphReader ℚ := fun _ bytes => bytes.map fun b => (Char.ofNat b.toNat, 500)

/-- A text that is mirrored and shown backwards, with wide spaces between its words. -/
def mirrored : Drawing ℚ :=
  ⟨{ TextState.start with matrix := ⟨-2, 0, 0, 1, 300, 700⟩, charSpacing := -20, wordSpacing := 90 },
    .start 0 842⟩

/-- The bytes of a price with a no-break space, behind a name. -/
def price : Bytes := [65, 66, 32, 49, 160, 50]

theorem words_of_string_price :
    mirrored.state.IsLevel ∧ 0 < mirrored.state.renderedSize ∧ mirrored.builder.pending = none ∧
      ∃ a b, (perform evenly mirrored ⟨"Tj", [.string price]⟩).flush.builder.words = [a, b] ∧
        Spells mirrored.state a [('A', 500), ('B', 500)] ∧
        Spells mirrored.state b [('1', 500), ('\u00a0', 500), ('2', 500)] := by
  have level : mirrored.state.IsLevel := show mirrored.state.toPage.b = 0 by decide +kernel
  have visible : 0 < mirrored.state.renderedSize := by decide +kernel
  have parts : runs (evenly mirrored.state.font price) =
      [[('A', 500), ('B', 500)], [('1', 500), ('\u00a0', 500), ('2', 500)]] := by decide +kernel
  obtain ⟨ws, words, spells⟩ := words_of_string evenly price mirrored level visible rfl
  rw [parts] at spells
  cases spells with
  | cons first rest =>
    cases rest with
    | cons second rest =>
      cases rest
      exact ⟨level, visible, rfl, _, _, words, first, second⟩

end Drawing
end Docket.Pdf
