import Docket.Proofs.Intake.Rediscovery
import Docket.Proofs.Text.Lowering

/-! Which template a file name is given to. Names are compared in small letters, but of those that
match the template with the most bytes in its start as it is written is taken: the longest start is
the one taken where small letters neither split a word of the start nor change the order. -/
namespace Docket.Intake
open Docket.Text

variable {α : Type} {fileName : String} {templates : List (Template α)} {t u : Template α}

/-- Of the templates that match the one with the most bytes in its start, of equals the last. -/
def IsWidest (fileName : String) (templates : List (Template α)) (t : Template α) : Prop :=
  ∃ front back, templates = front ++ t :: back ∧ t.matchesName fileName = true ∧
    (∀ u ∈ front, u.matchesName fileName = true →
      u.namePrefix.utf8ByteSize ≤ t.namePrefix.utf8ByteSize) ∧
    ∀ u ∈ back, u.matchesName fileName = true →
      u.namePrefix.utf8ByteSize < t.namePrefix.utf8ByteSize

theorem IsWidest.mem (widest : IsWidest fileName templates t) : t ∈ templates := by
  obtain ⟨front, back, rfl, -⟩ := widest
  exact List.mem_append_right front List.mem_cons_self

theorem IsWidest.matches_name (widest : IsWidest fileName templates t) :
    t.matchesName fileName = true := by
  obtain ⟨-, -, -, suits, -⟩ := widest
  exact suits

theorem IsWidest.le (widest : IsWidest fileName templates t) (known : u ∈ templates)
    (suits : u.matchesName fileName = true) :
    u.namePrefix.utf8ByteSize ≤ t.namePrefix.utf8ByteSize := by
  obtain ⟨front, back, rfl, -, earlier, later⟩ := widest
  rcases List.mem_append.mp known with before | here
  · exact earlier u before suits
  · rcases List.mem_cons.mp here with rfl | behind
    · exact Nat.le_refl _
    · exact (later u behind suits).le

/-- What one more template changes. -/
theorem isWidest_snoc : IsWidest fileName (templates ++ [u]) t ↔
    (t = u ∧ u.matchesName fileName = true ∧ ∀ v ∈ templates, v.matchesName fileName = true →
      v.namePrefix.utf8ByteSize ≤ u.namePrefix.utf8ByteSize) ∨
    (IsWidest fileName templates t ∧ (u.matchesName fileName = true →
      u.namePrefix.utf8ByteSize < t.namePrefix.utf8ByteSize)) := by
  constructor
  · rintro ⟨front, back, parts, suits, earlier, later⟩
    rcases List.eq_nil_or_concat back with rfl | ⟨back, last, rfl⟩
    · obtain ⟨rfl, same⟩ := List.append_inj' parts rfl
      obtain rfl := List.head_eq_of_cons_eq same
      exact .inl ⟨rfl, suits, earlier⟩
    · have parts : templates ++ [u] = (front ++ t :: back) ++ [last] := by simpa using parts
      obtain ⟨rfl, same⟩ := List.append_inj' parts rfl
      obtain rfl := List.head_eq_of_cons_eq same
      refine .inr ⟨⟨front, back, rfl, suits, earlier, fun v known => ?_⟩, ?_⟩
      · exact later v (by simp [known])
      · exact later u (by simp)
  · rintro (⟨rfl, suits, earlier⟩ | ⟨⟨front, back, rfl, suits, earlier, later⟩, last⟩)
    · exact ⟨templates, [], rfl, suits, earlier, by simp⟩
    · refine ⟨front, back ++ [u], by simp, suits, earlier, fun v known => ?_⟩
      rcases List.mem_append.mp known with among | here
      · exact later v among
      · rw [List.mem_singleton.mp here]
        exact last

theorem templateFor_snoc (fileName : String) (templates : List (Template α)) (u : Template α) :
    templateFor fileName (templates ++ [u]) =
      if u.matchesName fileName then longer (templateFor fileName templates) u
      else templateFor fileName templates := by
  unfold templateFor
  split
  · rename_i suits
    simp [List.filter_append, suits]
  · rename_i apart
    simp [List.filter_append, apart]

theorem longer_eq_some_iff {best : Option (Template α)} : longer best u = some t ↔
    (t = u ∧ ∀ b, best = some b → b.namePrefix.utf8ByteSize ≤ u.namePrefix.utf8ByteSize) ∨
      (best = some t ∧ u.namePrefix.utf8ByteSize < t.namePrefix.utf8ByteSize) := by
  cases best with
  | none => simp [longer, eq_comm]
  | some b =>
    simp only [longer, Option.some.injEq, forall_eq']
    split
    · rename_i less
      simp only [Option.some.injEq, Nat.not_le_of_lt less, and_false, false_or]
      exact ⟨fun same => ⟨same, same ▸ less⟩, And.left⟩
    · rename_i not_less
      simp only [Option.some.injEq, Nat.not_lt.mp not_less, and_true]
      constructor
      · exact fun same => .inl same.symm
      · rintro (same | ⟨rfl, less⟩)
        · exact same.symm
        · exact absurd less not_less

theorem templateFor_eq_none_iff : templateFor fileName templates = none ↔
    ∀ t ∈ templates, t.matchesName fileName = false := by
  have taken (best : Option (Template α)) (u : Template α) : longer best u ≠ none := by
    unfold longer
    split
    · split <;> exact Option.some_ne_none _
    · exact Option.some_ne_none _
  induction templates using List.reverseRecOn with
  | nil => simp [templateFor]
  | append_singleton templates u ih =>
    rw [templateFor_snoc, List.forall_mem_append, List.forall_mem_singleton]
    cases suits : u.matchesName fileName with
    | false => simpa using ih
    | true => simp [taken]

theorem templateFor_eq_some_iff : templateFor fileName templates = some t ↔
    IsWidest fileName templates t := by
  induction templates using List.reverseRecOn generalizing t with
  | nil =>
    have none : ¬ IsWidest fileName [] t := fun widest => nomatch widest.mem
    exact iff_of_false (nomatch ·) none
  | append_singleton templates u ih =>
    -- the one taken so far stands for all that match
    have bounded (n : Nat) :
        (∀ b, templateFor fileName templates = some b → b.namePrefix.utf8ByteSize ≤ n) ↔
          ∀ v ∈ templates, v.matchesName fileName = true → v.namePrefix.utf8ByteSize ≤ n := by
      constructor
      · intro all v known suits
        cases taken : templateFor fileName templates with
        | none => rw [templateFor_eq_none_iff.mp taken v known] at suits; cases suits
        | some b => exact ((ih.mp taken).le known suits).trans (all b taken)
      · exact fun all b taken => all b (ih.mp taken).mem (ih.mp taken).matches_name
    rw [templateFor_snoc, isWidest_snoc, ← ih]
    by_cases suits : u.matchesName fileName = true
    · rw [if_pos suits, longer_eq_some_iff, bounded]
      simp [suits]
    · simp [suits]

/-- What a choice by the longest start promises: a start that stands in the name as it is written is
met, and the template taken matches and has, in small letters, as long a start as any that does. -/
structure ByLongestStart (fileName : String) (templates : List (Template α)) : Prop where
  literal : ∀ t ∈ templates, t.namePrefix ≠ "" → startsWith fileName t.namePrefix = true →
    ∃ u, templateFor fileName templates = some u
  suits : ∀ t, templateFor fileName templates = some t →
    t ∈ templates ∧ t.matchesName fileName = true
  longest : ∀ t, templateFor fileName templates = some t →
    ∀ u ∈ templates, u.matchesName fileName = true →
      (lower u.namePrefix).length ≤ (lower t.namePrefix).length
  none : templateFor fileName templates = none → ∀ t ∈ templates, t.matchesName fileName = false

theorem matchesName_iff : t.matchesName fileName = true ↔
    t.namePrefix ≠ "" ∧ startsWith (lower fileName) (lower t.namePrefix) = true := by
  simp [Template.matchesName]

theorem exists_templateFor_iff : (∃ t, templateFor fileName templates = some t) ↔
    ∃ t ∈ templates, t.matchesName fileName = true := by
  rw [← Option.isSome_iff_exists, Option.isSome_iff_ne_none, Ne, templateFor_eq_none_iff]
  simp

/-- Where small letters do no harm: a start that splits a word of the name has another template to
step in, and the small start of every template that matches starts that of the widest. -/
structure SmallStartsAgree (fileName : String) (templates : List (Template α)) : Prop where
  met : ∀ t ∈ templates, t.namePrefix ≠ "" → ∀ after,
    fileName.toList = t.namePrefix.toList ++ after → SplitsWord [] t.namePrefix.toList after →
    ∃ u ∈ templates, u.matchesName fileName = true
  nested : ∀ t, IsWidest fileName templates t → ∀ u ∈ templates, u.matchesName fileName = true →
    startsWith (lower t.namePrefix) (lower u.namePrefix) = true

theorem byLongestStart_iff :
    ByLongestStart fileName templates ↔ SmallStartsAgree fileName templates := by
  constructor
  · intro promise
    refine ⟨fun t known some after parts _ => ?_, fun t widest u known suits => ?_⟩
    · have begun := startsWith_iff.mpr ⟨after, parts⟩
      exact exists_templateFor_iff.mp (promise.literal t known some begun)
    · rw [startsWith_iff_length_le (matchesName_iff.mp suits).2
        (matchesName_iff.mp widest.matches_name).2]
      exact promise.longest t (templateFor_eq_some_iff.mpr widest) u known suits
  · rintro ⟨met, starts⟩
    refine ⟨fun t known some begun => exists_templateFor_iff.mpr ?_, fun t taken => ?_,
      fun t taken u known suits => ?_, templateFor_eq_none_iff.mp⟩
    · obtain ⟨after, parts⟩ := startsWith_iff.mp begun
      by_cases split : SplitsWord [] t.namePrefix.toList after
      · exact met t known some after parts split
      · exact ⟨t, known, matchesName_iff.mpr ⟨some, (startsWith_lower_iff parts).mpr split⟩⟩
    · have widest := templateFor_eq_some_iff.mp taken
      exact ⟨widest.mem, widest.matches_name⟩
    · have widest := templateFor_eq_some_iff.mp taken
      exact (startsWith_iff_length_le (matchesName_iff.mp suits).2
        (matchesName_iff.mp widest.matches_name).2).mp (starts t widest u known suits)

theorem smallStartsAgree_of_ascii
    (ascii : ∀ t ∈ templates, ∀ c ∈ t.namePrefix.toList, c.toNat < 128) :
    SmallStartsAgree fileName templates := by
  refine ⟨fun t known _ after _ split => ?_, fun t widest u known suits => ?_⟩
  · obtain ⟨start, rest, parts, -⟩ := split
    have sigma := ascii t known capitalSigma (by simp [parts])
    exact absurd sigma (by decide)
  · refine startsWith_of_utf8ByteSize_le (matchesName_iff.mp suits).2
      (matchesName_iff.mp widest.matches_name).2 ?_
    rw [utf8ByteSize_lower_of_ascii (ascii u known),
      utf8ByteSize_lower_of_ascii (ascii t widest.mem)]
    exact widest.le known suits

/-- The template taken is the widest of those that match, and there is none only if none matches.
That keeps the promise exactly if small letters do no harm, and they do none to starts in ASCII. -/
theorem templateFor_keeps (fileName : String) (templates : List (Template α)) :
    (∀ t, templateFor fileName templates = some t ↔ IsWidest fileName templates t) ∧
      (templateFor fileName templates = none ↔ ∀ t ∈ templates, t.matchesName fileName = false) ∧
      (ByLongestStart fileName templates ↔ SmallStartsAgree fileName templates) ∧
      ((∀ t ∈ templates, ∀ c ∈ t.namePrefix.toList, c.toNat < 128) →
        ByLongestStart fileName templates) :=
  ⟨fun _ => templateFor_eq_some_iff, templateFor_eq_none_iff, byLongestStart_iff,
    fun ascii => byLongestStart_iff.mpr (smallStartsAgree_of_ascii ascii)⟩

/-- A template without fields for names that start in a given way. -/
def startingWith (start : String) : Template Float := ⟨start, start, start, .standard, [], []⟩

/-- The sigma that ends the start has another small form than the one in the name, which no template
gets; and a Kelvin sign, one letter in three bytes, is taken before two letters. -/
theorem shortened_by_small_letters :
    ¬ ByLongestStart "ΑΣΑ_2024-01.pdf" [startingWith "ΑΣ"] ∧
      ¬ ByLongestStart "kk_2024-01.pdf" [startingWith "\u212A", startingWith "kk"] := by
  constructor
  · intro promise
    have alone : templateFor "ΑΣΑ_2024-01.pdf" [startingWith "ΑΣ"] = none := by
      rw [templateFor_eq_none_iff, List.forall_mem_singleton]
      decide
    obtain ⟨u, taken⟩ := promise.literal (startingWith "ΑΣ") List.mem_cons_self (by decide)
      (by decide)
    rw [alone] at taken
    cases taken
  · intro promise
    have kelvin : templateFor "kk_2024-01.pdf" [startingWith "\u212A", startingWith "kk"] =
        some (startingWith "\u212A") := by
      refine templateFor_eq_some_iff.mpr
        ⟨[], [startingWith "kk"], rfl, by decide, by simp, ?_⟩
      rw [List.forall_mem_singleton]
      decide
    have longest := promise.longest _ kelvin (startingWith "kk") (by simp) (by decide)
    revert longest
    decide

end Docket.Intake
