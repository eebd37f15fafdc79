import Mathlib
import Docket.Proofs.Calibration.Recovery
import Docket.Proofs.Pdf.Gathering

/-! How far the box of a word reaches, in exact arithmetic. It is as high as the largest of the
word's glyphs, and it goes from the start of the first glyph to the end of the last one. A glyph may
be drawn back over those before it, so this need not be as far as they all reach. -/
namespace Docket.Pdf

/-- The glyphs of one word in the order in which they are drawn. -/
structure Cluster (α : Type) where
  first : Glyph α
  others : List (Glyph α)

namespace Cluster
variable {α : Type}

def glyphs (c : Cluster α) : List (Glyph α) := c.first :: c.others

def last (c : Cluster α) : Glyph α := c.others.getLast?.getD c.first

def add (c : Cluster α) (g : Glyph α) : Cluster α := { c with others := c.others ++ [g] }

theorem glyphs_add (c : Cluster α) (g : Glyph α) : (c.add g).glyphs = c.glyphs ++ [g] := rfl

theorem last_add (c : Cluster α) (g : Glyph α) : (c.add g).last = g := by simp [last, add]

theorem first_mem (c : Cluster α) : c.first ∈ c.glyphs := List.mem_cons_self

theorem getLast?_glyphs (c : Cluster α) : c.glyphs.getLast? = some c.last := List.getLast?_cons

/-- A cluster comes from its first glyph by the addition of one glyph after another. -/
theorem induction_add {motive : Cluster α → Prop} (one : ∀ g, motive ⟨g, []⟩)
    (more : ∀ c g, motive c → motive (c.add g)) (c : Cluster α) : motive c := by
  obtain ⟨first, others⟩ := c
  induction others using List.reverseRecOn with
  | nil => exact one first
  | append_singleton others g ih => exact more ⟨first, others⟩ g ih

variable [Scalar α]

/-- The word that is under way when these glyphs have gone on with each other. -/
def pendingWord (c : Cluster α) : PendingWord α :=
  c.others.foldl WordBuilder.extend (WordBuilder.begin c.first)

theorem pendingWord_add (c : Cluster α) (g : Glyph α) :
    (c.add g).pendingWord = WordBuilder.extend c.pendingWord g := by
  simp [pendingWord, add]

theorem pendingWord_text (c : Cluster α) :
    c.pendingWord.text.toList = c.glyphs.map Glyph.char := by
  induction c using induction_add with
  | one g => simp [pendingWord, WordBuilder.begin, glyphs]
  | more c g ih =>
    rw [pendingWord_add, glyphs_add, WordBuilder.extend, String.toList_push, ih, List.map_append]
    rfl

theorem pendingWord_x0 (c : Cluster α) : c.pendingWord.x0 = c.first.x0 := by
  induction c using induction_add with
  | one g => rfl
  | more c g ih => rw [pendingWord_add, WordBuilder.extend, ih]; rfl

theorem pendingWord_x1 (c : Cluster α) : c.pendingWord.x1 = c.last.x1 := by
  induction c using induction_add with
  | one g => rfl
  | more c g ih => rw [pendingWord_add, last_add]; rfl

end Cluster

namespace WordBuilder

/-- The glyph of an entry, if words hold it. -/
def Entry.glyphs {α : Type} : Entry α → List (Glyph α)
  | glyph g => if IsShown g.char then [g] else []
  | stop => []

variable {K : Type} [ExactNumber K]

/-- The box of a word spans a glyph from end to end. -/
def Covers (left : K) (w : Word K) (g : Glyph K) : Prop :=
  w.box.x + left ≤ g.x0 ∧ g.x1 ≤ w.box.x + left + w.box.width

/-- A glyph starts behind the end of another by at most a quarter of its size, or before it by at
most its size. -/
def Follows (g next : Glyph K) : Prop :=
  -next.size ≤ next.x0 - g.x1 ∧ next.x0 - g.x1 ≤ next.size / 4

theorem follows_of_continues {p : PendingWord K} {g next : Glyph K} (behind : p.x1 = g.x1)
    (goesOn : continues p next = true) : Follows g next := by
  simp only [continues, Bool.not_eq_true', Bool.or_eq_false_iff, decide_eq_false_iff_not, not_lt]
    at goesOn
  obtain ⟨⟨-, gap⟩, back⟩ := goesOn
  rw [behind] at gap back
  refine ⟨back, gap.trans_eq ?_⟩
  simp [Scalar.ratio, Exact.ofNat_eq, div_eq_mul_inv]

theorem pendingWord_size (c : Cluster K) :
    IsGreatest {s | ∃ g ∈ c.glyphs, g.size = s} c.pendingWord.size := by
  induction c using Cluster.induction_add with
  | one g => simp [Cluster.pendingWord, begin, Cluster.glyphs]
  | more c g ih =>
    have sizes : {s | ∃ h ∈ (c.add g).glyphs, h.size = s} =
        {s | ∃ h ∈ c.glyphs, h.size = s} ∪ {g.size} := by
      ext s
      simp only [Cluster.glyphs_add, List.mem_append, List.mem_singleton, or_and_right, exists_or,
        exists_eq_left, Set.mem_ofPred_eq, Set.mem_union, Set.mem_singleton_iff, eq_comm (a := s)]
    have larger : (c.add g).pendingWord.size = max c.pendingWord.size g.size := by
      rw [Cluster.pendingWord_add, extend, Exact.max_eq]
    rw [sizes, larger]
    exact ih.union isGreatest_singleton

/-- What a word has of its glyphs. -/
structure Boxes (left : K) (w : Word K) (c : Cluster K) : Prop where
  text : w.text.toList = c.glyphs.map Glyph.char
  starts : w.box.x + left = min c.first.x0 c.last.x1
  ends : w.box.x + left + w.box.width = max c.first.x0 c.last.x1
  height : IsGreatest {s | ∃ g ∈ c.glyphs, g.size = s} w.box.height
  follows : c.glyphs.IsChain Follows

theorem boxes_place (b : WordBuilder K) {c : Cluster K} (follows : c.glyphs.IsChain Follows) :
    Boxes b.left (b.place c.pendingWord) c := by
  have start : (b.place c.pendingWord).box.x + b.left = min c.first.x0 c.last.x1 := by
    rw [place, Exact.min_eq, c.pendingWord_x0, c.pendingWord_x1, sub_add_cancel]
  have width : (b.place c.pendingWord).box.width = |c.first.x0 - c.last.x1| := by
    rw [abs_sub_comm, place, c.pendingWord_x0, c.pendingWord_x1]
    rfl
  refine ⟨c.pendingWord_text, start, ?_, pendingWord_size c, follows⟩
  rw [start, width, ← max_sub_min_eq_abs', add_sub_cancel]

/-- A word covers all of its glyphs exactly if none starts before the first and none ends behind the
last of them, or the other way about where the last one ends before the first. -/
theorem Boxes.covers_iff {left : K} {w : Word K} {c : Cluster K} (boxes : Boxes left w c)
    (forward : ∀ g ∈ c.glyphs, g.x0 ≤ g.x1) :
    (∀ g ∈ c.glyphs, Covers left w g) ↔
      (∀ g ∈ c.glyphs, c.first.x0 ≤ g.x0 ∧ g.x1 ≤ c.last.x1) ∨
        ∀ g ∈ c.glyphs, c.last.x1 ≤ g.x0 ∧ g.x1 ≤ c.first.x0 := by
  simp only [Covers, boxes.ends]
  simp only [boxes.starts]
  constructor
  · intro covers
    rcases le_total c.first.x0 c.last.x1 with ahead | back
    · rw [min_eq_left ahead, max_eq_right ahead] at covers
      exact .inl covers
    · rw [min_eq_right back, max_eq_left back] at covers
      exact .inr covers
  · rintro (within | within)
    · have ahead := (forward _ c.first_mem).trans (within _ c.first_mem).2
      rwa [min_eq_left ahead, max_eq_right ahead]
    · have back := (within _ c.first_mem).1
      rwa [min_eq_right back, max_eq_left back]

/-- A word builder and the glyphs of its words and of the word under way. -/
structure Holds (b : WordBuilder K) (done : List (Cluster K)) (under : Option (Cluster K)) :
    Prop where
  words : List.Forall₂ (Boxes b.left) b.words done
  pending : b.pending = under.map Cluster.pendingWord
  follows : ∀ c ∈ under, c.glyphs.IsChain Follows

namespace Holds
variable {b : WordBuilder K} {done : List (Cluster K)} {under : Option (Cluster K)}

theorem flush (holds : Holds b done under) : Holds b.flush (done ++ under.toList) none := by
  obtain ⟨words, pending, follows⟩ := holds
  rw [flush_eq, pending]
  refine ⟨?_, rfl, by simp⟩
  cases under with
  | none => simpa using words
  | some c => exact List.rel_append words (.cons (boxes_place b (follows c rfl)) .nil)

end Holds

/-- The glyphs that a word builder was given to hold are parted among its words in order, and those
that come last are the word under way. -/
def Parts (b : WordBuilder K) (gs : List (Glyph K)) : Prop :=
  ∃ done under, Holds b done under ∧
    done.flatMap Cluster.glyphs ++ under.toList.flatMap Cluster.glyphs = gs

namespace Parts
variable {b : WordBuilder K} {gs : List (Glyph K)}

theorem flush (parts : Parts b gs) : Parts b.flush gs := by
  obtain ⟨done, under, holds, rfl⟩ := parts
  exact ⟨done ++ under.toList, none, holds.flush, by simp⟩

/-- A glyph joins the word it goes on with or begins one of its own. -/
theorem push (parts : Parts b gs) {g : Glyph K} (shown : IsShown g.char) :
    Parts (b.push g) (gs ++ [g]) := by
  obtain ⟨done, under, holds, rfl⟩ := parts
  rw [push_eq, if_pos shown]
  cases goesOn : b.pending.filter (continues · g) with
  | some p =>
    obtain ⟨pending, continued⟩ := Option.filter_eq_some_iff.mp goesOn
    obtain ⟨c, rfl, rfl⟩ := Option.map_eq_some_iff.mp (holds.pending.symm.trans pending)
    refine ⟨done, some (c.add g), ⟨holds.words, ?_, ?_⟩, by simp [Cluster.glyphs_add]⟩
    · simp [Cluster.pendingWord_add]
    · rintro _ ⟨⟩
      -- the builder knows where the word ends, and that is where its last glyph does
      rw [Cluster.glyphs_add, List.isChain_append]
      refine ⟨holds.follows c rfl, List.isChain_singleton g, ?_⟩
      simp only [c.getLast?_glyphs, Option.mem_some_iff, List.head?_cons, forall_eq']
      exact follows_of_continues c.pendingWord_x1 continued
  | none =>
    refine ⟨done ++ under.toList, some ⟨g, []⟩, ⟨?_, rfl, ?_⟩, by simp [Cluster.glyphs]⟩
    · exact holds.flush.words
    · rintro _ ⟨⟩
      exact List.isChain_singleton g

theorem tell (parts : Parts b gs) (e : Entry K) : Parts (b.tell e) (gs ++ e.glyphs) := by
  cases e with
  | stop => exact (List.append_nil gs).symm ▸ parts.flush
  | glyph g =>
    rw [Entry.glyphs]
    split_ifs with shown
    · exact parts.push shown
    · rw [tell_of_parts (e := .glyph g) shown, List.append_nil]
      exact parts.flush

theorem gather (parts : Parts b gs) (es : List (Entry K)) :
    Parts (b.gather es) (gs ++ es.flatMap Entry.glyphs) := by
  induction es generalizing b gs with
  | nil => exact (List.append_nil gs).symm ▸ parts
  | cons e es ih =>
    rw [List.flatMap_cons, ← List.append_assoc]
    exact ih (parts.tell e)

end Parts

/-- The glyphs that words hold are parted among the words in order. Each word goes from the start of
its first glyph to the end of its last one and is as high as the largest; so it covers them all
exactly if none reaches beyond these two. -/
theorem finish_boxes (left top : K) (es : List (Entry K))
    (forward : ∀ g ∈ es.flatMap Entry.glyphs, g.x0 ≤ g.x1) :
    ∃ clusters : List (Cluster K),
      clusters.flatMap Cluster.glyphs = es.flatMap Entry.glyphs ∧
        List.Forall₂ (fun w c => Boxes left w c ∧
          ((∀ g ∈ c.glyphs, Covers left w g) ↔
            (∀ g ∈ c.glyphs, c.first.x0 ≤ g.x0 ∧ g.x1 ≤ c.last.x1) ∨
              ∀ g ∈ c.glyphs, c.last.x1 ≤ g.x0 ∧ g.x1 ≤ c.first.x0))
          ((start left top).gather es).finish clusters := by
  have fresh : Parts (start left top) [] := ⟨[], none, ⟨.nil, rfl, by simp⟩, rfl⟩
  obtain ⟨done, under, holds, glyphs⟩ := fresh.gather es
  have parted : (done ++ under.toList).flatMap Cluster.glyphs = es.flatMap Entry.glyphs := by
    rw [List.flatMap_append, glyphs, List.nil_append]
  have words : List.Forall₂ (Boxes left) ((start left top).gather es).finish
      (done ++ under.toList) := by
    have left' : ((start left top).gather es).flush.left = left := by
      rw [flush_eq, (edges_gather (start left top) es).1]
      rfl
    have flushed := holds.flush.words
    rwa [left'] at flushed
  have ahead : ∀ c ∈ done ++ under.toList, ∀ g ∈ c.glyphs, g.x0 ≤ g.x1 := fun c known g mem =>
    forward g (parted ▸ List.mem_flatMap.mpr ⟨c, known, mem⟩)
  have known := (List.forall₂_and_left _ _).mpr ⟨ahead, words.flip⟩
  exact ⟨done ++ under.toList, parted,
    (known.imp fun _ _ both => And.intro both.2 (both.2.covers_iff both.1)).flip⟩

theorem finish_boxes_accented :
    (∀ g ∈ [Entry.glyph (⟨'W', 100, 110, 700, 10⟩ : Glyph ℚ),
        .glyph ⟨'^', 101, 104, 700, 10⟩].flatMap Entry.glyphs, g.x0 ≤ g.x1) ∧
      ∃ clusters : List (Cluster ℚ), clusters.flatMap Cluster.glyphs =
          [Entry.glyph (⟨'W', 100, 110, 700, 10⟩ : Glyph ℚ),
            .glyph ⟨'^', 101, 104, 700, 10⟩].flatMap Entry.glyphs ∧
        List.Forall₂ (fun w c => Boxes 0 w c ∧
          ((∀ g ∈ c.glyphs, Covers 0 w g) ↔
            (∀ g ∈ c.glyphs, c.first.x0 ≤ g.x0 ∧ g.x1 ≤ c.last.x1) ∨
              ∀ g ∈ c.glyphs, c.last.x1 ≤ g.x0 ∧ g.x1 ≤ c.first.x0))
          ((start 0 842).gather [.glyph ⟨'W', 100, 110, 700, 10⟩,
            .glyph ⟨'^', 101, 104, 700, 10⟩]).finish clusters :=
  have forward : ∀ g ∈ [Entry.glyph (⟨'W', 100, 110, 700, 10⟩ : Glyph ℚ),
      .glyph ⟨'^', 101, 104, 700, 10⟩].flatMap Entry.glyphs, g.x0 ≤ g.x1 := by decide +kernel
  ⟨forward, finish_boxes 0 842 _ forward⟩

/-- An accent that is drawn back over a letter takes the end of the word with it. -/
theorem accent_narrows :
    ((start (0 : ℚ) 842).gather [.glyph ⟨'W', 100, 110, 700, 10⟩,
        .glyph ⟨'^', 101, 104, 700, 10⟩]).finish.map (fun w => (w.text, w.box)) =
        [("W^", ⟨100, 134, 4, 10⟩)] ∧
      ¬ Covers 0 ⟨"W^", ⟨100, 134, 4, 10⟩⟩ (⟨'W', 100, 110, 700, 10⟩ : Glyph ℚ) := by
  refine ⟨by decide +kernel, ?_⟩
  norm_num [Covers]

end WordBuilder
end Docket.Pdf
