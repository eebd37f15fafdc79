import Mathlib
import Docket.Similarity

/-! White space under trimming and case mapping. No letter that has a small form is white space, and
no small form is, so a text is blank exactly when its small letters are. -/
namespace Docket.Text

/-- The code points of white space. -/
def blanks : List Nat :=
  [9, 10, 11, 12, 13, 32, 0x85, 0xA0, 0x1680, 0x2000, 0x2001, 0x2002, 0x2003, 0x2004, 0x2005,
    0x2006, 0x2007, 0x2008, 0x2009, 0x200A, 0x2028, 0x2029, 0x202F, 0x205F, 0x3000]

theorem isBlank_iff (c : Char) : isBlank c = true ↔ c.toNat ∈ blanks := by
  simp only [isBlank, blanks, Bool.or_eq_true, Bool.and_eq_true, beq_iff_eq, decide_eq_true_eq,
    List.mem_cons, List.not_mem_nil, or_false]
  omega

theorem toNat_ofNat_of_mem_blanks {n : Nat} (blank : (Char.ofNat n).toNat ∈ blanks) :
    (Char.ofNat n).toNat = n := by
  rw [Char.toNat_ofNat] at blank ⊢
  split
  · rfl
  · rename_i invalid
    rw [if_neg invalid] at blank
    exact absurd blank (by decide)

theorem runs_apart : ∀ r ∈ lowerRuns, ∀ b ∈ blanks,
    r.holds b = false ∧ r.holds ((b : Int) - r.distance).toNat = false := by
  decide +kernel

theorem isBlank_of_holds {r : CaseRun} (known : r ∈ lowerRuns) {c : Char}
    (holds : r.holds c.toNat = true) :
    isBlank c = false ∧ isBlank (Char.ofNat ((c.toNat : Int) + r.distance).toNat) = false := by
  constructor
  · refine Bool.eq_false_iff.mpr fun blank => ?_
    have apart := (runs_apart r known _ ((isBlank_iff c).mp blank)).1
    rw [holds] at apart
    cases apart
  · refine Bool.eq_false_iff.mpr fun blank => ?_
    have among := (isBlank_iff _).mp blank
    have same := toNat_ofNat_of_mem_blanks among
    rw [same] at among
    have positive : 0 < ((c.toNat : Int) + r.distance).toNat :=
      (by decide : ∀ b ∈ blanks, 0 < b) _ among
    have apart := (runs_apart r known _ among).2
    have back : ((((c.toNat : Int) + r.distance).toNat : Int) - r.distance).toNat = c.toNat := by
      omega
    rw [back, holds] at apart
    cases apart

theorem isBlank_toLower : ∀ n < 128, isBlank (Char.ofNat n).toLower = isBlank (Char.ofNat n) := by
  decide +kernel

theorem all_isBlank_lowerChar (c : Char) : (lowerChar c).all isBlank = isBlank c := by
  unfold lowerChar
  split
  · rename_i ascii
    have lower := isBlank_toLower c.toNat ascii
    rw [Char.ofNat_toNat] at lower
    simp [lower]
  · unfold mapped
    dsimp only
    split
    · rename_i ns listed
      have sequence : c.toNat = 304 ∧ ns = [105, 775] := by
        obtain ⟨before, after, entries, -⟩ := List.lookup_eq_some_iff.mp listed
        have among : (c.toNat, ns) ∈ lowerSequences := by simp [entries]
        simpa [lowerSequences] using among
      obtain ⟨capital, rfl⟩ := sequence
      have small : ([105, 775].map Char.ofNat).all isBlank = false := by decide
      rw [small, eq_comm, ← Bool.not_eq_true, isBlank_iff, capital]
      decide
    · split
      · rename_i r found
        have holds : r.holds c.toNat = true := by simpa using List.find?_some found
        have apart := isBlank_of_holds (List.mem_of_find?_eq_some found) holds
        simp [apart.1, apart.2]
      · simp

theorem all_isBlank_lowerFrom (before cs : List Char) :
    (lowerFrom before cs).all isBlank = cs.all isBlank := by
  induction cs generalizing before with
  | nil => rfl
  | cons c cs ih =>
    rw [lowerFrom, List.all_append, ih, List.all_cons]
    congr 1
    split
    · rename_i sigma
      rw [beq_iff_eq] at sigma
      subst sigma
      split <;> decide
    · exact all_isBlank_lowerChar c

theorem isBlankText_lower (s : String) : isBlankText (lower s) = isBlankText s := by
  rw [isBlankText, lower, String.toList_ofList, all_isBlank_lowerFrom, isBlankText]

/-- Texts joined by single spaces are blank together where each is. -/
theorem isBlankText_joined (parts : List String) :
    isBlankText (joined " " parts) = parts.all isBlankText := by
  have intercalated (parts : List (List Char)) :
      (List.intercalate [' '] parts).all isBlank = parts.all (·.all isBlank) := by
    induction parts with
    | nil => rfl
    | cons first rest ih =>
      cases rest with
      | nil => simp [List.intercalate]
      | cons second rest =>
        have space : isBlank ' ' = true := by decide
        simp only [List.intercalate, List.intersperse_cons_cons, List.flatten_cons, List.all_append,
          List.all_cons, List.all_nil, space, Bool.and_true, Bool.true_and] at ih ⊢
        rw [ih]
  rw [isBlankText, joined, String.toList_intercalate]
  have space : " ".toList = [' '] := rfl
  rw [space, intercalated, List.all_map]
  rfl

theorem trimChars_trimChars (cs : List Char) : trimChars (trimChars cs) = trimChars cs := by
  have ends (cs : List Char) : trimEnd (trimEnd cs) = trimEnd cs := by
    rw [trimEnd, trimEnd, List.reverse_reverse, List.dropWhile_idempotent]
  have start : trimStart (trimChars cs) = trimChars cs := by
    have inside : trimChars cs <+: trimStart cs := by
      rw [← List.reverse_suffix, trimChars, trimEnd, List.reverse_reverse]
      exact List.dropWhile_suffix _
    refine List.dropWhile_eq_self_iff.mpr fun some => ?_
    have first := List.dropWhile_eq_self_iff.mp (List.dropWhile_idempotent isBlank cs)
      (some.trans_le inside.length_le)
    rwa [inside.getElem some]
  rw [trimChars, start, trimChars, ends]

/-- A text with white space around it, or without. -/
def Padded (core text : List Char) : Prop :=
  ∃ front back, (∀ c ∈ front ++ back, isBlank c = true) ∧ text = front ++ (core ++ back)

theorem padded_self (core : List Char) : Padded core core := ⟨[], [], by simp, by simp⟩

theorem Padded.trimChars {core text : List Char} (padded : Padded core text) :
    trimChars text = trimChars core := by
  obtain ⟨front, back, blank, rfl⟩ := padded
  obtain ⟨before, behind⟩ := List.forall_mem_append.mp blank
  have start : trimStart (front ++ (core ++ back)) = trimStart (core ++ back) :=
    List.dropWhile_append_of_pos before
  have last (cs : List Char) : trimEnd (cs ++ back) = trimEnd cs := by
    rw [trimEnd, trimEnd, List.reverse_append, List.dropWhile_append_of_pos]
    exact fun c known => behind c (List.mem_reverse.mp known)
  rw [Text.trimChars, Text.trimChars, start, trimStart, trimStart, List.dropWhile_append]
  split
  · rename_i none
    rw [List.isEmpty_iff.mp none, List.dropWhile_eq_nil_iff.mpr behind]
  · exact last _

theorem Padded.mem {core text : List Char} (padded : Padded core text) {c : Char}
    (visible : isBlank c = false) : c ∈ text ↔ c ∈ core := by
  obtain ⟨front, back, blank, rfl⟩ := padded
  have outside : c ∉ front ++ back := fun known => by
    rw [blank c known] at visible
    cases visible
  simp only [List.mem_append] at outside ⊢
  tauto

theorem padded_trimChars (cs : List Char) : Padded (trimChars cs) cs := by
  have back : ∃ back, (∀ c ∈ back, isBlank c = true) ∧ trimStart cs = trimChars cs ++ back := by
    refine ⟨((trimStart cs).reverse.takeWhile isBlank).reverse, fun c known => ?_, ?_⟩
    · exact List.mem_takeWhile_imp (List.mem_reverse.mp known)
    · rw [trimChars, trimEnd, ← List.reverse_append, List.takeWhile_append_dropWhile,
        List.reverse_reverse]
  obtain ⟨back, blank, parts⟩ := back
  refine ⟨cs.takeWhile isBlank, back, List.forall_mem_append.mpr ⟨fun c known => ?_, blank⟩, ?_⟩
  · exact List.mem_takeWhile_imp known
  · rw [← parts, trimStart, List.takeWhile_append_dropWhile]

theorem mem_trimChars {c : Char} (visible : isBlank c = false) (cs : List Char) :
    c ∈ trimChars cs ↔ c ∈ cs := ((padded_trimChars cs).mem visible).symm

theorem trimChars_of_visible {cs : List Char} (visible : ∀ c ∈ cs, isBlank c = false) :
    trimChars cs = cs := by
  obtain ⟨front, back, blank, parts⟩ := padded_trimChars cs
  have none : front ++ back = [] := List.eq_nil_iff_forall_not_mem.mpr fun c known => by
    have seen : c ∈ cs := by
      rw [parts]
      rcases List.mem_append.mp known with known | known <;> simp [known]
    have clash := visible c seen
    rw [blank c known] at clash
    cases clash
  obtain ⟨rfl, rfl⟩ := List.append_eq_nil_iff.mp none
  simpa using parts.symm

theorem trim_of_blank {s : String} (blank : isBlankText s = true) : trim s = "" := by
  have start : trimStart s.toList = [] := List.dropWhile_eq_nil_iff.mpr (List.all_eq_true.mp blank)
  rw [trim, trimChars, start]
  rfl

theorem isBlankText_trim (s : String) : isBlankText (trim s) = isBlankText s := by
  have ends (cs : List Char) : (cs.dropWhile isBlank).all isBlank = cs.all isBlank := by
    conv_rhs => rw [← List.takeWhile_append_dropWhile (p := isBlank) (l := cs), List.all_append,
      List.all_takeWhile, Bool.true_and]
  rw [isBlankText, trim, String.toList_ofList, trimChars, trimEnd, List.all_reverse, ends,
    List.all_reverse, trimStart, ends]
  rfl

end Docket.Text
