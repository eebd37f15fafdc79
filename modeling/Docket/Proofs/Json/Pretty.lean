import Mathlib
import Docket.Json.Value

/-! The characters of a value written with one member a line. -/
namespace Docket.Json.Value

theorem prettyItems_eq_map (indent : String) (vs : List Value) :
    prettyItems indent vs = vs.map (prettyAt indent) := by
  induction vs with
  | nil => rfl
  | cons v vs ih => rw [prettyItems, ih, List.map_cons]

theorem prettyMembers_eq_map (indent : String) (ms : List (String × Value)) :
    prettyMembers indent ms = ms.map fun m => quote m.1 ++ ": " ++ prettyAt indent m.2 := by
  induction ms with
  | nil => rfl
  | cons m ms ih => rw [prettyMembers, ih, List.map_cons]

theorem intercalate_cons {α : Type} (sep first : List α) (more : List (List α)) :
    sep.intercalate (first :: more) = first ++ more.flatMap (sep ++ ·) := by
  induction more generalizing first with
  | nil => simp [List.intercalate]
  | cons second more ih =>
    have rest := ih second
    simp only [List.intercalate, List.intersperse_cons_cons, List.flatten_cons,
      List.flatMap_cons, List.append_assoc] at rest ⊢
    rw [rest]

/-- The characters before a line of a block that is not the first. -/
def lineBreak (indent : String) : List Char := '\n' :: indent.toList ++ "  ".toList

theorem toList_block (indent left right line : String) (lines : List String) :
    (block indent left right (line :: lines)).toList =
      left.toList ++ lineBreak indent ++ line.toList ++
        (lines.flatMap fun l => ',' :: lineBreak indent ++ l.toList) ++
        '\n' :: indent.toList ++ right.toList := by
  have texts : ((line :: lines).map fun l => indent ++ "  " ++ l).map String.toList =
      (indent.toList ++ "  ".toList ++ line.toList) ::
        lines.map fun l => indent.toList ++ "  ".toList ++ l.toList := by
    simp [Function.comp_def]
  rw [block, if_neg (by simp)]
  simp only [String.toList_append, String.toList_intercalate, texts, intercalate_cons]
  simp [lineBreak, List.flatMap_map]

/-- The characters that end a block of which the last line is known. -/
theorem block_suffix (indent left right : String) (front : List String) (last : String) :
    ∃ before, (block indent left right (front ++ [last])).toList =
      before ++ (last.toList ++ '\n' :: indent.toList ++ right.toList) := by
  cases front with
  | nil =>
    refine ⟨left.toList ++ lineBreak indent, ?_⟩
    rw [List.nil_append, toList_block]
    simp
  | cons line lines =>
    rw [List.cons_append, toList_block, List.flatMap_append]
    refine ⟨left.toList ++ lineBreak indent ++ line.toList ++
      (lines.flatMap fun l => ',' :: lineBreak indent ++ l.toList) ++ ',' :: lineBreak indent, ?_⟩
    simp

theorem pretty_suffix (ms : List (String × Value)) (key : String) (v : Value) :
    ∃ before, (pretty (.object (ms ++ [(key, v)]))).toList =
      before ++ ((prettyAt "  " v).toList ++ "\n\x7d".toList) := by
  rw [pretty, prettyAt, prettyMembers_eq_map, List.map_append]
  obtain ⟨before, text⟩ := block_suffix "" "\x7b" "\x7d"
    (ms.map fun m => quote m.1 ++ ": " ++ prettyAt ("" ++ "  ") m.2)
    (quote key ++ ": " ++ prettyAt "  " v)
  refine ⟨before ++ (quote key ++ ": ").toList, text.trans ?_⟩
  simp

end Docket.Json.Value
