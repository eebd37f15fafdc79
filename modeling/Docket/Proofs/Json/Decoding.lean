import Mathlib
import Docket.Proofs.Json.Numbers

/-! Values read back by their decoders, at any indentation and in front of anything that may follow
a value. Lists and objects are read by one step for each item, so what the steps do one by one is
what reading the container does. -/
namespace Docket.Json

/-- What is known of the first character of a value that is no space. -/
def Value.Heads (p : Char → Prop) (v : Value) : Prop :=
  ∀ indent, ∃ ch text, (prettyAt indent v).toList.dropWhile Cursor.isSpace = ch :: text ∧ p ch

/-- An indentation. -/
def Blank (indent : String) : Prop := ∀ ch ∈ indent.toList, Cursor.isSpace ch = true

theorem Blank.deeper {indent : String} (blank : Blank indent) : Blank (indent ++ "  ") := by
  intro ch known
  rw [String.toList_append, List.mem_append] at known
  rcases known with known | known
  · exact blank ch known
  · obtain rfl : ch = ' ' := by simpa using known
    rfl

/-- Wherever this value is written, reading gives this result and stops behind the value. -/
def Cursor.Reads {α : Type} (scan : Cursor → Scan (α × Cursor)) (v : Value) (a : α) : Prop :=
  ∀ (indent : String) (rest : List Char) (c : Cursor), Blank indent → Ends rest →
    c.Before ((prettyAt indent v).toList ++ rest) → ∃ c', scan c = .ok (a, c') ∧ c'.Before rest

namespace Decoder

variable {α β : Type} {depth : Nat}

/-- With room for so many containers, the decoder gives this result for this value. -/
structure Restores (d : Decoder α) (depth : Nat) (v : Value) (a : α) : Prop where
  opens : v.Heads (· ≠ ']')
  reads : ∀ n, depth ≤ n → Cursor.Reads (d.scan n) v a

theorem Restores.map {d : Decoder α} {v : Value} {a : α} (f : α → β)
    (restores : d.Restores depth v a) : (f <$> d).Restores depth v (f a) := by
  refine ⟨restores.opens, fun n room indent rest c blank ends before => ?_⟩
  obtain ⟨c', read, left⟩ := restores.reads n room indent rest c blank ends before
  refine ⟨c', ?_, left⟩
  show (d.scan n c).map _ = _
  rw [read]
  rfl

theorem restores_ofKind {read : Kind → Except Cause α} {v : Value} {text : List Char} {atom : Atom}
    {a : α} (opens : v.Heads (· ≠ ']')) (form : ∀ indent, (prettyAt indent v).toList = text)
    (written : atom.Written text) (known : read (.atom atom) = .ok a) :
    (ofKind read).Restores depth v a := by
  refine ⟨opens, fun n _ indent rest c _ ends before => ?_⟩
  rw [form] at before
  obtain ⟨c', kind, left⟩ := written rest c ends before
  refine ⟨c', ?_, left⟩
  simp only [ofKind, kind, bind, Except.bind, known]
  rfl

theorem heads_string (s : String) {p : Char → Prop} (quote : p '"') :
    (Value.string s).Heads p := by
  intro indent
  rw [prettyAt, Atom.toList_quote]
  exact ⟨'"', _, rfl, quote⟩

theorem restores_string {expected : String} {read : String → Except Cause α} {s : String} {a : α}
    (known : read s = .ok a) : (string expected read).Restores depth (.string s) a := by
  refine restores_ofKind (heads_string s (by decide)) (fun indent => ?_)
    (Atom.written_string s) known
  rw [prettyAt]

theorem restores_text (s : String) : text.Restores depth (.string s) s := restores_string rfl

theorem restores_path (s : String) : path.Restores depth (.string s) s := restores_string rfl

theorem heads_bool (b : Bool) : (Value.bool b).Heads (· ≠ ']') := by
  intro indent
  cases b with
  | true => exact ⟨'t', "rue".toList, by rw [prettyAt]; rfl, by decide⟩
  | false => exact ⟨'f', "alse".toList, by rw [prettyAt]; rfl, by decide⟩

theorem restores_boolean (b : Bool) : boolean.Restores depth (.bool b) b := by
  refine restores_ofKind (heads_bool b) (fun indent => ?_) (Atom.written_bool b) rfl
  rw [prettyAt]

theorem heads_whole (n : Int) : (Value.number (.whole n)).Heads (· ≠ ']') := by
  intro indent
  obtain ⟨ch, text, first, signs⟩ := Atom.signs_whole n
  have space : Cursor.isSpace ch = false := by
    rcases signs with rfl | digit
    · rfl
    · exact Atom.isSpace_of_isDigit digit
  refine ⟨ch, text, ?_, signs.other (by decide) rfl⟩
  rw [prettyAt]
  show (toString n).toList.dropWhile Cursor.isSpace = _
  rw [first, List.dropWhile_cons, space]
  rfl

theorem restores_integer {lo hi n : Int} (name : String) (low : lo ≤ n) (high : n ≤ hi)
    (signed : -twoTo 63 ≤ lo) (unsigned : hi < twoTo 64) :
    (integer lo hi name).Restores depth (.number (.whole n)) n := by
  refine restores_ofKind (heads_whole n) (fun indent => ?_)
    (Atom.written_whole (signed.trans low) (high.trans_lt unsigned)) ?_
  · rw [prettyAt]
    rfl
  · exact if_pos ⟨low, high⟩

theorem restores_natural {bits n : Nat} (name : String) (fits : n < twoTo bits)
    (words : bits ≤ 64) : (natural bits name).Restores depth (.natural n) n := by
  have bound : twoTo bits ≤ twoTo 64 := Nat.pow_le_pow_right (by decide) words
  have whole : (integer 0 (twoTo bits - 1) name).Restores depth (.number (.whole n)) n :=
    restores_integer name (by omega) (by omega) (by decide) (by omega)
  exact whole.map Int.toNat

theorem prettyAt_restored {x : Float} (indent : String) :
    prettyAt indent (.real x) = pretty (.real x) := by
  rw [pretty, Value.real]
  split <;> simp only [prettyAt]

theorem heads_restored {x : Float} (restored : Restored x) {mark : Char} (minus : mark ≠ '-')
    (digit : Reading.isDigit mark = false) : (Value.real x).Heads (· ≠ mark) := by
  intro indent
  obtain ⟨ch, text, first, signs⟩ := Atom.signs_restored restored
  rw [prettyAt_restored]
  exact ⟨ch, text, first, signs.other minus digit⟩

theorem restores_float {x : Float} (restored : Restored x) : float.Restores depth (.real x) x := by
  obtain ⟨n, value, written⟩ := Atom.written_restored restored
  exact restores_ofKind (heads_restored restored (by decide) rfl)
    (fun indent => congrArg String.toList (prettyAt_restored indent)) written
    (congrArg Except.ok value)

theorem restores_none (d : Decoder α) : (option d).Restores depth .null none := by
  refine ⟨fun indent => ⟨'n', "ull".toList, by rw [prettyAt]; rfl, by decide⟩,
    fun n _ indent rest c _ ends before => ?_⟩
  rw [prettyAt] at before
  obtain ⟨c', kind, left⟩ := Atom.written_null rest c ends before
  refine ⟨c', ?_, left⟩
  have stands : c.skip.rest = 'n' :: ("ull".toList ++ rest) := before.cons rfl
  simp only [option, stands, unit, ofKind, kind, bind, Except.bind]
  rfl

theorem restores_some {d : Decoder α} {v : Value} {a : α}
    (restores : d.Restores depth v a) (said : v.Heads (· ≠ 'n')) :
    (option d).Restores depth v (some a) := by
  refine ⟨restores.opens, fun n room indent rest c blank ends before => ?_⟩
  obtain ⟨c', read, left⟩ := restores.reads n room indent rest c blank ends before
  obtain ⟨ch, text, first, other⟩ := said indent
  have stands : c.skip.rest = ch :: (text ++ rest) := by
    rw [before, List.dropWhile_append, first]
    rfl
  refine ⟨c', ?_, left⟩
  simp only [option, stands]
  split
  · rename_i null
    exact absurd (List.cons.inj null).1 other
  · rw [read]
    rfl

theorem restores_optional {d : Decoder α} {f : β → Value} {g : β → α} {o : Option β}
    (each : ∀ b ∈ o, d.Restores depth (f b) (g b)) (said : ∀ b ∈ o, (f b).Heads (· ≠ 'n')) :
    (option d).Restores depth (.optional f o) (o.map g) := by
  cases o with
  | none => exact restores_none d
  | some b => exact restores_some (each b rfl) (said b rfl)

theorem restores_variant {variants : List (String × α)} {name : String} {a : α}
    (known : variants.lookup name = some a) :
    (variant variants).Restores depth (.string name) a := by
  -- A variant by its name alone is a string that is one of the names.
  have plain : (string "variant identifier" (named variants)).Restores 0 (.string name) a := by
    refine restores_string ?_
    simp only [named, known]
  refine ⟨plain.opens, fun n _ indent rest c blank ends before => ?_⟩
  obtain ⟨c', read, left⟩ := plain.reads 0 (Nat.le_refl 0) indent rest c.skip blank ends before.skip
  refine ⟨c', ?_, left⟩
  rw [prettyAt, Atom.toList_quote] at before
  have stands := before.cons rfl
  simp only [variant, stands]
  exact read

theorem value_atom (n : Nat) {c c' : Cursor} {a : Atom} (kind : c.kind = .ok (.atom a, c')) :
    c.value n = .ok (a.toValue, c') := by
  cases n <;> simp only [Cursor.value, kind, bind, Except.bind] <;> rfl

theorem restores_judged {judge : Value → Except Cause α} {v : Value} {text : List Char}
    {atom : Atom} {a : α} (opens : v.Heads (· ≠ ']'))
    (form : ∀ indent, (prettyAt indent v).toList = text) (written : atom.Written text)
    (known : judge atom.toValue = .ok a) : (judged judge).Restores depth v a := by
  refine ⟨opens, fun n _ indent rest c _ ends before => ?_⟩
  rw [form] at before
  obtain ⟨c', kind, left⟩ := written rest c ends before
  refine ⟨c', ?_, left⟩
  simp only [judged, value_atom n kind, bind, Except.bind, known]
  rfl

theorem decodeText_pretty {d : Decoder α} {v : Value} {a : α} (restores : d.Restores depth v a)
    (room : depth ≤ depthLimit) : decodeText d (pretty v) = .ok a := by
  have stands : (Cursor.ofText (pretty v)).Before ((prettyAt "" v).toList ++ []) := by
    rw [List.append_nil]
    exact Cursor.before_rest _
  have blank : Blank "" := fun ch known => by cases known
  obtain ⟨c', read, left⟩ := restores.reads depthLimit room "" [] _ blank trivial stands
  have ends : c'.skip.rest = [] := left
  simp only [decodeText, read, ends]
  rfl

end Decoder
end Docket.Json
