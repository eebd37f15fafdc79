import Docket.Pdf.WordBuilder

/-! Glyphs that are gathered to words. The words spell the characters that are shown, each once and
in order; no word is empty; and what is gathered before and after a break has no word in common. -/
namespace Docket.Pdf.WordBuilder

variable {α : Type}

/-- What a word builder is told: a glyph, or that a word ends here. -/
inductive Entry (α : Type)
  | glyph (g : Glyph α)
  | stop

/-- A character that words hold: no control character, and of white space only what keeps digits
together. -/
def IsShown (c : Char) : Prop :=
  Text.isControl c = false ∧ (Text.isBlank c = true → c = '\u00a0' ∨ c = '\u202f')

theorem isSeparator_eq_false (c : Char) : isSeparator c = false ↔ IsShown c := by
  simp only [isSeparator, isNoBreakSpace, IsShown, Bool.or_eq_false_iff, Bool.and_eq_false_iff,
    Bool.not_eq_false', Bool.or_eq_true, beq_iff_eq]
  constructor
  · rintro ⟨space, control⟩
    refine ⟨control, fun blank => ?_⟩
    rcases space with h | h
    · rw [blank] at h
      cases h
    · exact h
  · rintro ⟨control, space⟩
    refine ⟨?_, control⟩
    cases blank : Text.isBlank c with
    | false => exact .inl rfl
    | true => exact .inr (space blank)

instance : DecidablePred IsShown := fun c => decidable_of_iff _ (isSeparator_eq_false c)

/-- The character that an entry adds to the words. -/
def Entry.shown : Entry α → List Char
  | glyph g => if IsShown g.char then [g.char] else []
  | stop => []

/-- An entry with different words on its two sides. -/
def Entry.Parts : Entry α → Prop
  | glyph g => ¬ IsShown g.char
  | stop => True

theorem begin_text (g : Glyph α) : (begin g).text ≠ "" := by
  intro empty
  have none := congrArg String.toList empty
  simp [begin] at none

variable [Scalar α]

def tell (b : WordBuilder α) : Entry α → WordBuilder α
  | .glyph g => b.push g
  | .stop => b.flush

def gather (b : WordBuilder α) (es : List (Entry α)) : WordBuilder α := es.foldl tell b

theorem flush_eq (b : WordBuilder α) :
    b.flush = ⟨b.left, b.top, b.words ++ (b.pending.map b.place).toList, none⟩ := by
  unfold flush
  cases b with
  | mk left top words pending => cases pending <;> simp

/-- A shown glyph extends the word it goes on with, if there is one, and begins a word otherwise. -/
theorem push_eq (b : WordBuilder α) (g : Glyph α) :
    b.push g =
      if IsShown g.char then
        match b.pending.filter (continues · g) with
        | some p => { b with pending := some (extend p g) }
        | none => { b.flush with pending := some (begin g) }
      else b.flush := by
  unfold push
  cases separator : isSeparator g.char with
  | true =>
    have hidden : ¬ IsShown g.char := by
      rw [← isSeparator_eq_false, separator]
      decide
    simp [hidden]
  | false =>
    have shown : IsShown g.char := (isSeparator_eq_false g.char).mp separator
    cases pending : b.pending with
    | none => simp [shown, flush_eq, pending]
    | some p => cases goesOn : continues p g <;> simp [shown, goesOn, Option.filter]

theorem tell_of_parts {e : Entry α} (parts : e.Parts) (b : WordBuilder α) :
    b.tell e = b.flush := by
  cases e with
  | stop => rfl
  | glyph g => rw [tell, push_eq, if_neg parts]

/-- The characters taken in so far. -/
def spelled (b : WordBuilder α) : List Char :=
  b.words.flatMap (·.text.toList) ++ b.pending.toList.flatMap (·.text.toList)

theorem spelled_flush (b : WordBuilder α) : b.flush.spelled = b.spelled := by
  rw [spelled, spelled, flush_eq]
  cases b.pending <;> simp [place]

theorem words_of_finish (b : WordBuilder α) :
    b.finish.flatMap (·.text.toList) = b.spelled := by
  rw [← spelled_flush, spelled, finish, flush_eq]
  simp

theorem spelled_tell (b : WordBuilder α) (e : Entry α) :
    (b.tell e).spelled = b.spelled ++ e.shown := by
  cases e with
  | stop => rw [tell, spelled_flush, Entry.shown, List.append_nil]
  | glyph g =>
    rw [tell, push_eq, Entry.shown]
    split
    · cases goesOn : b.pending.filter (continues · g) with
      | some p =>
        have pending : b.pending = some p := (Option.filter_eq_some_iff.mp goesOn).1
        simp [spelled, pending, extend, String.toList_push]
      | none =>
        rw [← spelled_flush b]
        simp [spelled, flush_eq, begin]
    · rw [spelled_flush, List.append_nil]

theorem spelled_gather (b : WordBuilder α) (es : List (Entry α)) :
    (b.gather es).spelled = b.spelled ++ es.flatMap Entry.shown := by
  induction es generalizing b with
  | nil => simp [gather]
  | cons e es ih =>
    have rest := ih (b.tell e)
    rw [spelled_tell, List.append_assoc] at rest
    exact rest

/-- Every word has a character, the one under way as well. -/
structure Filled (b : WordBuilder α) : Prop where
  words : ∀ w ∈ b.words, w.text ≠ ""
  pending : ∀ p ∈ b.pending, p.text ≠ ""

theorem extend_text (p : PendingWord α) (g : Glyph α) : (extend p g).text ≠ "" := by
  intro empty
  have none := congrArg String.toList empty
  simp [extend, String.toList_push] at none

theorem Filled.flush {b : WordBuilder α} (filled : Filled b) : Filled b.flush := by
  rw [flush_eq]
  refine ⟨fun w known => ?_, fun p known => by cases known⟩
  rcases List.mem_append.mp known with earlier | last
  · exact filled.words w earlier
  · obtain ⟨p, pending, rfl⟩ := Option.map_eq_some_iff.mp (Option.mem_toList.mp last)
    exact filled.pending p pending

theorem Filled.tell {b : WordBuilder α} (filled : Filled b) (e : Entry α) : Filled (b.tell e) := by
  cases e with
  | stop => exact filled.flush
  | glyph g =>
    rw [WordBuilder.tell, push_eq]
    split
    · split
      · rename_i p _
        refine ⟨filled.words, fun q known => ?_⟩
        cases Option.some.inj known
        exact extend_text p g
      · refine ⟨filled.flush.words, fun q known => ?_⟩
        cases Option.some.inj known
        exact begin_text g
    · exact filled.flush

theorem Filled.gather {b : WordBuilder α} (filled : Filled b) (es : List (Entry α)) :
    Filled (b.gather es) := by
  induction es generalizing b with
  | nil => exact filled
  | cons e es ih => exact ih (filled.tell e)

/-- A builder that has had some words before. -/
def after (ws : List (Word α)) (b : WordBuilder α) : WordBuilder α :=
  { b with words := ws ++ b.words }

theorem flush_after (ws : List (Word α)) (b : WordBuilder α) :
    (b.after ws).flush = b.flush.after ws := by
  simp only [flush_eq, after, List.append_assoc]
  rfl

theorem tell_after (ws : List (Word α)) (b : WordBuilder α) (e : Entry α) :
    (b.after ws).tell e = (b.tell e).after ws := by
  cases e with
  | stop => exact flush_after ws b
  | glyph g =>
    have same : (b.after ws).pending = b.pending := rfl
    simp only [tell, push_eq, flush_after, same]
    split
    · split <;> rfl
    · rfl

theorem gather_after (ws : List (Word α)) (b : WordBuilder α) (es : List (Entry α)) :
    (b.after ws).gather es = (b.gather es).after ws := by
  induction es generalizing b with
  | nil => rfl
  | cons e es ih =>
    have rest := ih (b.tell e)
    rw [← tell_after] at rest
    exact rest

/-- The page's edges stay. -/
theorem edges_tell (b : WordBuilder α) (e : Entry α) :
    (b.tell e).left = b.left ∧ (b.tell e).top = b.top := by
  cases e with
  | stop => rw [tell, flush_eq]; exact ⟨rfl, rfl⟩
  | glyph g =>
    rw [tell, push_eq, flush_eq]
    split
    · split <;> exact ⟨rfl, rfl⟩
    · exact ⟨rfl, rfl⟩

theorem edges_gather (b : WordBuilder α) (es : List (Entry α)) :
    (b.gather es).left = b.left ∧ (b.gather es).top = b.top := by
  induction es generalizing b with
  | nil => exact ⟨rfl, rfl⟩
  | cons e es ih =>
    have rest := ih (b.tell e)
    rw [(edges_tell b e).1, (edges_tell b e).2] at rest
    exact rest

theorem gather_append (b : WordBuilder α) (es fs : List (Entry α)) :
    b.gather (es ++ fs) = (b.gather es).gather fs := List.foldl_append

/-- A break starts over behind the words so far. -/
theorem finish_parted {e : Entry α} (parts : e.Parts) (left top : α) (es fs : List (Entry α)) :
    ((start left top).gather (es ++ e :: fs)).finish =
      ((start left top).gather es).finish ++ ((start left top).gather fs).finish := by
  let b := (start left top).gather es
  have again : b.flush = (start left top).after b.finish := by
    obtain ⟨left', top'⟩ := edges_gather (start left top) es
    rw [finish, flush_eq, left', top']
    simp [start, after]
  calc ((start left top).gather (es ++ e :: fs)).finish
      = ((b.tell e).gather fs).finish := by rw [gather_append]; rfl
    _ = (((start left top).gather fs).after b.finish).finish := by
      rw [tell_of_parts parts, again, gather_after]
    _ = b.finish ++ ((start left top).gather fs).finish := by
      rw [finish, flush_after]
      rfl

/-- Whatever a word builder is told, its words spell the shown characters in order and none of them
is empty; and around a break they are the words of the one side and those of the other. -/
theorem finish_spells (left top : α) (es : List (Entry α)) :
    let words := fun es => ((start left top).gather es).finish
    (words es).flatMap (·.text.toList) = es.flatMap Entry.shown ∧
      (∀ w ∈ words es, w.text ≠ "") ∧
      ∀ before e behind, es = before ++ e :: behind → e.Parts →
        words es = words before ++ words behind := by
  refine ⟨?_, ?_, ?_⟩
  · rw [words_of_finish, spelled_gather]
    rfl
  · have filled : Filled (start left top) := ⟨by simp [start], by simp [start]⟩
    exact (filled.gather es).flush.words
  · rintro before e behind rfl parts
    exact finish_parted parts left top before behind

end Docket.Pdf.WordBuilder
