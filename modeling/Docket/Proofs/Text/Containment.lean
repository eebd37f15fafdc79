import Mathlib
import Docket.Text.Trim

/-! Texts inside others. What lies inside a text lies inside it still when both lose the white space at
their ends, and a run of texts lies inside the whole row when they are joined. -/
namespace Docket.Text

theorem contains_iff (text needle : String) :
    contains text needle = true ↔ needle.toList <:+: text.toList := by
  have part (cs : List Char) : hasPart needle.toList cs = true ↔ needle.toList <:+: cs := by
    induction cs with
    | nil => simp [hasPart]
    | cons c cs ih =>
      rw [hasPart, Bool.or_eq_true, ih, List.isPrefixOf_iff_prefix, List.infix_cons_iff]
  exact part text.toList

/-- Only the text itself lies inside it and is as long. -/
theorem eq_of_contains {text needle : String} (inside : contains text needle = true)
    (long : text.length ≤ needle.length) : needle = text := by
  rw [← String.length_toList, ← String.length_toList] at long
  exact String.toList_inj.mp (((contains_iff text needle).mp inside).eq_of_length_le long)

theorem isBlankText_of_infix {part text : String} (inside : part.toList <:+: text.toList)
    (blank : isBlankText text = true) : isBlankText part = true :=
  List.all_eq_true.mpr fun c known => List.all_eq_true.mp blank c (inside.subset known)

section Trimmed
variable {part cs : List Char}

theorem dropWhile_infix_dropWhile (p : Char → Bool) (inside : part <:+: cs) :
    part.dropWhile p <:+: cs.dropWhile p := by
  obtain ⟨before, after, rfl⟩ := inside
  rw [List.append_assoc, List.dropWhile_append]
  split
  · rw [List.dropWhile_append]
    split
    · rename_i none
      rw [List.isEmpty_iff.mp none]
      exact List.nil_infix
    · exact (List.prefix_append ..).isInfix
  · -- something before the part stays, and with it all of the part
    have stays : part <:+: before.dropWhile p ++ (part ++ after) :=
      ⟨before.dropWhile p, after, by rw [List.append_assoc]⟩
    exact (List.dropWhile_suffix p).isInfix.trans stays

theorem trimChars_infix_trimChars (inside : part <:+: cs) : trimChars part <:+: trimChars cs := by
  rw [trimChars, trimChars, trimEnd, trimEnd, List.reverse_infix]
  refine dropWhile_infix_dropWhile isBlank (List.reverse_infix.mpr ?_)
  exact dropWhile_infix_dropWhile isBlank inside

theorem trim_infix_trim {s t : String} (inside : s.toList <:+: t.toList) :
    (trim s).toList <:+: (trim t).toList := by
  rw [trim, trim, String.toList_ofList, String.toList_ofList]
  exact trimChars_infix_trimChars inside

end Trimmed

section Joined
variable (sep : String)

theorem joined_prefix_joined (run more : List String) :
    (joined sep run).toList <+: (joined sep (run ++ more)).toList := by
  rcases eq_or_ne run [] with rfl | some
  · rw [joined, String.intercalate_nil]
    exact List.nil_prefix
  · rcases eq_or_ne more [] with rfl | some'
    · rw [List.append_nil]
    · rw [joined, joined, String.intercalate_append_of_ne_nil some some', String.append_assoc,
        String.toList_append]
      exact List.prefix_append ..

theorem joined_suffix_joined (before run : List String) :
    (joined sep run).toList <:+ (joined sep (before ++ run)).toList := by
  rcases eq_or_ne run [] with rfl | some
  · rw [joined, String.intercalate_nil]
    exact List.nil_suffix
  · rcases eq_or_ne before [] with rfl | some'
    · rw [List.nil_append]
    · rw [joined, joined, String.intercalate_append_of_ne_nil some' some, String.toList_append]
      exact List.suffix_append ..

theorem joined_infix_joined {run parts : List String} (inside : run <:+: parts) :
    (joined sep run).toList <:+: (joined sep parts).toList := by
  obtain ⟨before, after, rfl⟩ := inside
  rw [List.append_assoc]
  exact (joined_prefix_joined sep run after).isInfix.trans
    (joined_suffix_joined sep before (run ++ after)).isInfix

end Joined

end Docket.Text
