import Docket.Text.Case
import Docket.Text.Trim
import Mathlib

/-! Small letters of a text and of what it starts with. Every character has its small form whatever
stands around it, the capital sigma apart, which has another one at the end of its word: a text
starts with a part of it in small letters too unless the part ends a word the text goes on with. -/
namespace Docket.Text

/-- Whether the nearest character that is not skipped is a cased letter. -/
def facesCased (cs : List Char) : Bool := (cs.dropWhile isCaseIgnorable).head?.any isCased

theorem isFinalSigma_eq (before after : List Char) :
    isFinalSigma before after = (facesCased before && !facesCased after) := by
  unfold isFinalSigma facesCased
  dsimp only
  cases before.dropWhile isCaseIgnorable <;> cases after.dropWhile isCaseIgnorable <;> rfl

theorem facesCased_append (p r : List Char) :
    facesCased (p ++ r) = if p.all isCaseIgnorable then facesCased r else facesCased p := by
  induction p with
  | nil => simp
  | cons c p ih =>
    cases skipped : isCaseIgnorable c
    · simp [facesCased, skipped]
    · simpa [facesCased, skipped] using ih

theorem facesCased_of_all {p : List Char} (skipped : p.all isCaseIgnorable = true) :
    facesCased p = false := by
  rw [facesCased, List.dropWhile_eq_nil_iff.mpr (List.all_eq_true.mp skipped)]
  rfl

/-- A capital sigma of `cs` ends a word behind `before`, but not with `after` behind `cs`. -/
def SplitsWord (before cs after : List Char) : Prop :=
  ∃ start rest, cs = start ++ capitalSigma :: rest ∧ rest.all isCaseIgnorable = true ∧
    facesCased (start.reverse ++ before) = true ∧ facesCased after = true

theorem splitsWord_cons {before after cs : List Char} {c : Char} :
    SplitsWord before (c :: cs) after ↔
      (c = capitalSigma ∧ cs.all isCaseIgnorable = true ∧ facesCased before = true ∧
        facesCased after = true) ∨ SplitsWord (c :: before) cs after := by
  constructor
  · rintro ⟨start, rest, parts, skipped, ends, goes⟩
    rcases List.cons_eq_append_iff.mp parts with ⟨rfl, same⟩ | ⟨start, rfl, same⟩
    · obtain ⟨rfl, rfl⟩ := List.cons.inj same
      exact .inl ⟨rfl, skipped, ends, goes⟩
    · exact .inr ⟨start, rest, same, skipped, by simpa using ends, goes⟩
  · rintro (⟨rfl, skipped, ends, goes⟩ | ⟨start, rest, rfl, skipped, ends, goes⟩)
    · exact ⟨[], cs, rfl, skipped, ends, goes⟩
    · exact ⟨c :: start, rest, rfl, skipped, by simpa using ends, goes⟩

/-- What stands behind a text matters to a sigma before it only if all of the text is skipped. -/
theorem isFinalSigma_append_eq_iff (before cs after : List Char) :
    isFinalSigma before cs = isFinalSigma before (cs ++ after) ↔
      ¬ (cs.all isCaseIgnorable = true ∧ facesCased before = true ∧ facesCased after = true) := by
  rw [isFinalSigma_eq, isFinalSigma_eq, facesCased_append]
  split
  · rename_i skipped
    rw [facesCased_of_all skipped]
    cases facesCased before <;> cases facesCased after <;> simp [skipped]
  · rename_i kept
    simp [kept]

theorem lowerFrom_append_iff (before cs after : List Char) :
    lowerFrom before cs <+: lowerFrom before (cs ++ after) ↔ ¬ SplitsWord before cs after := by
  induction cs generalizing before with
  | nil =>
    have none : ¬ SplitsWord before [] after := by
      rintro ⟨start, rest, parts, -⟩
      simp at parts
    exact iff_of_true List.nil_prefix none
  | cons c cs ih =>
    rw [splitsWord_cons, List.cons_append, lowerFrom, lowerFrom]
    -- no other character has a form that depends on what follows
    by_cases sigma : c = capitalSigma
    · subst sigma
      have forms (a b : Bool) : (if a then 'ς' else 'σ') = (if b then 'ς' else 'σ') ↔ a = b := by
        cases a <;> cases b <;> decide
      simp only [beq_self_eq_true, if_true, List.singleton_append, List.cons_prefix_cons, forms,
        isFinalSigma_append_eq_iff, ih, true_and, not_or]
    · rw [if_neg (by simpa using sigma), if_neg (by simpa using sigma),
        List.prefix_append_right_inj, ih]
      simp [sigma]

/-- A text that starts with another does so in small letters too, unless that splits a word. -/
theorem startsWith_lower_iff {text start : String} {after : List Char}
    (parts : text.toList = start.toList ++ after) :
    startsWith (lower text) (lower start) = true ↔ ¬ SplitsWord [] start.toList after := by
  rw [startsWith, List.isPrefixOf_iff_prefix, lower, lower, String.toList_ofList,
    String.toList_ofList, parts, lowerFrom_append_iff]

theorem startsWith_iff {text start : String} :
    startsWith text start = true ↔ ∃ after, text.toList = start.toList ++ after := by
  rw [startsWith, List.isPrefixOf_iff_prefix]
  exact ⟨fun ⟨after, parts⟩ => ⟨after, parts.symm⟩, fun ⟨after, parts⟩ => ⟨after, parts.symm⟩⟩

section Starts
variable {text start other : String}

/-- Of two starts of a text one starts the other: the shorter one, in characters or in bytes. -/
theorem startsWith_iff_length_le (first : startsWith text start = true)
    (second : startsWith text other = true) :
    startsWith other start = true ↔ start.length ≤ other.length := by
  rw [startsWith, List.isPrefixOf_iff_prefix] at first second ⊢
  rw [← String.length_toList, ← String.length_toList]
  exact ⟨List.IsPrefix.length_le, List.prefix_of_prefix_length_le first second⟩

theorem startsWith_of_utf8ByteSize_le (first : startsWith text start = true)
    (second : startsWith text other = true) (fewer : start.utf8ByteSize ≤ other.utf8ByteSize) :
    startsWith other start = true := by
  rw [startsWith, List.isPrefixOf_iff_prefix] at first second ⊢
  rcases List.prefix_or_prefix_of_prefix first second with inside | ⟨rest, parts⟩
  · exact inside
  · -- the rest of the start would have bytes of its own
    have bytes := congrArg String.utf8Len parts
    rw [String.utf8Len_append, ← String.utf8ByteSize_ofList,
      ← String.utf8ByteSize_ofList start.toList, String.ofList_toList, String.ofList_toList] at bytes
    have none : rest = [] := String.utf8Len_eq_zero.mp (by omega)
    rw [← parts, none, List.append_nil]

end Starts

theorem utf8Size_toLower :
    ∀ n < 128, (Char.ofNat n).toLower.utf8Size = (Char.ofNat n).utf8Size := by
  decide

theorem lowerFrom_of_ascii {cs : List Char} (ascii : ∀ c ∈ cs, c.toNat < 128)
    (before : List Char) : lowerFrom before cs = cs.map Char.toLower := by
  induction cs generalizing before with
  | nil => rfl
  | cons c cs ih =>
    obtain ⟨small, rest⟩ := List.forall_mem_cons.mp ascii
    have sigma : (c == capitalSigma) = false := by
      rw [beq_eq_false_iff_ne]
      rintro rfl
      revert small
      decide
    rw [lowerFrom, sigma, lowerChar, if_pos small, ih rest]
    rfl

theorem utf8ByteSize_lower_of_ascii {s : String} (ascii : ∀ c ∈ s.toList, c.toNat < 128) :
    (lower s).utf8ByteSize = s.utf8ByteSize := by
  have kept (cs : List Char) (ascii : ∀ c ∈ cs, c.toNat < 128) :
      String.utf8Len (cs.map Char.toLower) = String.utf8Len cs := by
    induction cs with
    | nil => rfl
    | cons c cs ih =>
      obtain ⟨small, rest⟩ := List.forall_mem_cons.mp ascii
      have same := utf8Size_toLower c.toNat small
      rw [Char.ofNat_toNat] at same
      rw [List.map_cons, String.utf8Len_cons, String.utf8Len_cons, same, ih rest]
  rw [lower, lowerFrom_of_ascii ascii, String.utf8ByteSize_ofList, kept s.toList ascii,
    ← String.utf8ByteSize_ofList, String.ofList_toList]

end Docket.Text
