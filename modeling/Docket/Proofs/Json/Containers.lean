import Mathlib
import Docket.Proofs.Json.Decoding

/-! Lists and objects read back. Items are taken one by one into a state; a run of such steps over
the items, whatever the steps do, is what reading the container does. -/
namespace Docket.Json

open Value

namespace Cursor

theorem before_append {blank text : List Char} (spaces : ∀ ch ∈ blank, isSpace ch = true)
    {c : Cursor} : c.Before (blank ++ text) ↔ c.Before text := by
  rw [Before, Before, List.dropWhile_append_of_pos spaces]

theorem spaces_lineBreak {indent : String} (blank : Blank indent) :
    ∀ ch ∈ lineBreak indent, isSpace ch = true := by
  intro ch known
  have deeper := blank.deeper
  simp only [Blank, String.toList_append] at deeper
  rcases List.mem_cons.mp known with rfl | known
  · rfl
  · exact deeper ch known

/-- What follows an item of a block: the lines after it and the end of the block. -/
def blockRest (indent : String) (lines : List (List Char)) (closing : Char) (rest : List Char) :
    List Char :=
  (lines.flatMap fun l => ',' :: lineBreak indent ++ l) ++ '\n' :: indent.toList ++ closing :: rest

theorem ends_blockRest (indent : String) (lines : List (List Char)) (closing : Char)
    (rest : List Char) : Ends (blockRest indent lines closing rest) := by
  cases lines with
  | nil => exact .inr rfl
  | cons line lines => exact .inl rfl

theorem length_lt_blockRest (indent : String) (lines : List (List Char)) (closing : Char)
    (rest : List Char) : lines.length < (blockRest indent lines closing rest).length := by
  induction lines with
  | nil => simp [blockRest]
  | cons line lines ih =>
    simp only [blockRest, List.flatMap_cons, List.length_append, List.length_cons] at ih ⊢
    omega

theorem before_blockRest_nil {indent : String} (blank : Blank indent) {closing : Char}
    {rest : List Char} {c : Cursor} (before : c.Before (blockRest indent [] closing rest)) :
    c.Before (closing :: rest) := by
  have spaces : ∀ ch ∈ '\n' :: indent.toList, isSpace ch = true := by
    intro ch known
    rcases List.mem_cons.mp known with rfl | known
    · rfl
    · exact blank ch known
  exact (before_append spaces).mp before

/-- What stands in front of a line that is not the first. -/
theorem blockRest_cons (indent : String) (line : List Char) (lines : List (List Char))
    (closing : Char) (rest : List Char) :
    blockRest indent (line :: lines) closing rest =
      ',' :: (lineBreak indent ++ (line ++ blockRest indent lines closing rest)) := by
  simp [blockRest]

section Items
variable {indent : String} (blank : Blank indent) {text more : List Char} {c : Cursor}

theorem nextItem_end {rest : List Char} (first : Bool) (before : c.Before (']' :: rest)) :
    c.nextItem first = .ok none := by
  have stands : c.skip.rest = ']' :: rest := before.cons rfl
  simp only [nextItem, stands]

variable {ch : Char} {tail : List Char} (head : text.dropWhile isSpace = ch :: tail)
  (other : ch ≠ ']')
include blank head other

theorem nextItem_first (before : c.Before (lineBreak indent ++ (text ++ more))) :
    ∃ c', c.nextItem true = .ok (some c') ∧ c'.Before (text ++ more) := by
  have here := (before_append (spaces_lineBreak blank)).mp before
  have stands : c.skip.rest = ch :: (tail ++ more) := by
    rw [here, List.dropWhile_append, head]
    rfl
  refine ⟨c.skip, ?_, here.skip⟩
  simp [nextItem, stands]

theorem nextItem_next (before : c.Before (',' :: (lineBreak indent ++ (text ++ more)))) :
    ∃ c', c.nextItem false = .ok (some c') ∧ c'.Before (text ++ more) := by
  have comma := before.cons rfl
  have behind : c.skip.next.Before (lineBreak indent ++ (text ++ more)) := by
    rw [← next_rest comma]
    exact before_rest _
  have here := (before_append (spaces_lineBreak blank)).mp behind
  have stands : c.skip.next.skip.rest = ch :: (tail ++ more) := by
    rw [here, List.dropWhile_append, head]
    rfl
  refine ⟨c.skip.next.skip, ?_, here.skip⟩
  simp [nextItem, comma, stands, other]

end Items

section Keys
variable {indent : String} (blank : Blank indent) (key : String) {more : List Char} {c : Cursor}

theorem nextKey_end {rest : List Char} (first : Bool) (before : c.Before ('}' :: rest)) :
    c.nextKey first = .ok none := by
  have stands : c.skip.rest = '}' :: rest := before.cons rfl
  simp only [nextKey, stands]

theorem before_quote (before : c.Before ((quote key).toList ++ more)) :
    c.skip.rest = '"' :: (key.toList.flatMap escape ++ '"' :: more) := by
  rw [Atom.toList_quote, List.cons_append, List.append_assoc] at before
  exact before.cons rfl

include blank

theorem nextKey_first (before : c.Before (lineBreak indent ++ ((quote key).toList ++ more))) :
    ∃ c', c.nextKey true = .ok (some (key, c')) ∧ c'.rest = more := by
  have here := (before_append (spaces_lineBreak blank)).mp before
  have stands := before_quote key here
  obtain ⟨c', read, left⟩ := Atom.string_quoted key (next_rest stands)
  refine ⟨c', ?_, left⟩
  simp only [nextKey, stands, if_true, read]
  rfl

theorem nextKey_next
    (before : c.Before (',' :: (lineBreak indent ++ ((quote key).toList ++ more)))) :
    ∃ c', c.nextKey false = .ok (some (key, c')) ∧ c'.rest = more := by
  have comma := before.cons rfl
  have behind : c.skip.next.Before (lineBreak indent ++ ((quote key).toList ++ more)) := by
    rw [← next_rest comma]
    exact before_rest _
  have here := (before_append (spaces_lineBreak blank)).mp behind
  have stands := before_quote key here
  obtain ⟨c', read, left⟩ := Atom.string_quoted key (next_rest stands)
  refine ⟨c', ?_, left⟩
  simp only [nextKey, comma, stands, read]
  rfl

end Keys

theorem colon_before {c : Cursor} {text : List Char} (stands : c.rest = ':' :: ' ' :: text) :
    ∃ c', c.colon = .ok c' ∧ c'.Before text := by
  have colon : c.skip.rest = ':' :: ' ' :: text := by
    rw [skip_rest, stands]
    rfl
  have behind : c.skip.next.rest = ' ' :: text := next_rest colon
  refine ⟨c.skip.next, by simp only [Cursor.colon, colon], ?_⟩
  rw [Before, skip_rest, behind]
  rfl

end Cursor

namespace Container
open Cursor

theorem within_reads {α : Type} (k : Container) {inner : Nat → Cursor → Scan (α × Cursor)}
    {n : Nat} {a : α} {c d : Cursor} {rest : List Char} (read : inner n c.next = .ok (a, d))
    (before : d.Before (k.closing :: rest)) :
    ∃ c', k.within inner (n + 1) c = .ok (a, c') ∧ c'.Before rest := by
  have mark : isSpace k.closing = false := by cases k <;> rfl
  have stands := before.cons mark
  have closed : k.close d = .ok d.skip.next := by
    simp only [close, stands, if_true]
  have behind : d.skip.next.rest = rest := next_rest stands
  refine ⟨d.skip.next, ?_, behind ▸ before_rest d.skip.next⟩
  rw [within, enclose, read]
  simp only [closed]
  rfl

end Container

/-- Each item of a list leads from one state to the next. -/
inductive Walk {σ μ : Type} (step : σ → μ → σ → Prop) : σ → List μ → σ → Prop
  | nil (s : σ) : Walk step s [] s
  | cons {s s' s'' : σ} {m : μ} {ms : List μ} (first : step s m s') (more : Walk step s' ms s'') :
    Walk step s (m :: ms) s''

theorem Walk.append {σ μ : Type} {step : σ → μ → σ → Prop} {s s' s'' : σ} {ms ns : List μ}
    (first : Walk step s ms s') (second : Walk step s' ns s'') : Walk step s (ms ++ ns) s'' := by
  induction first with
  | nil s => exact second
  | cons head _ ih => exact .cons head (ih second)

theorem Walk.map {σ τ μ : Type} {step : σ → μ → σ → Prop} {step' : τ → μ → τ → Prop} (f : σ → τ)
    {s s' : σ} {ms : List μ} (walk : Walk step s ms s')
    (each : ∀ m ∈ ms, ∀ s s', step s m s' → step' (f s) m (f s')) : Walk step' (f s) ms (f s') := by
  induction walk with
  | nil s => exact .nil (f s)
  | @cons s s₁ s' m ms head _ ih =>
    have more := ih fun m known => each m (List.mem_cons_of_mem _ known)
    exact .cons (each m List.mem_cons_self s s₁ head) more

/-- Behind the key of this member, a step leads from one state to the next and stops behind the
member. -/
def Takes {σ : Type} (step : σ → String → Cursor → Scan (σ × Cursor)) (s : σ)
    (m : String × Value) (s' : σ) : Prop :=
  ∀ (indent : String) (rest : List Char) (c : Cursor), Blank indent → Ends rest →
    c.rest = ':' :: ' ' :: ((prettyAt indent m.2).toList ++ rest) →
    ∃ c', step s m.1 c = .ok (s', c') ∧ c'.Before rest

/-- A member as it stands in an object. -/
def memberText (indent : String) (m : String × Value) : List Char :=
  (quote m.1).toList ++ ':' :: ' ' :: (prettyAt indent m.2).toList

namespace Cursor

section Members
variable {σ : Type} {step : σ → String → Cursor → Scan (σ × Cursor)} {indent : String}
  (blank : Blank indent) {s s' : σ} {ms : List (String × Value)} {rest : List Char}
include blank

theorem foldMembers_takes (takes : Walk (Takes step) s ms s') {bound : List Char} {c : Cursor}
    (room : ms.length < bound.length)
    (before : c.Before
      (blockRest indent (ms.map (memberText (indent ++ "  "))) '}' rest)) :
    ∃ c', foldMembers step bound false s c = .ok (s', c') ∧ c'.Before ('}' :: rest) := by
  induction takes generalizing bound c with
  | nil s =>
    obtain ⟨b, bound, rfl⟩ := List.exists_cons_of_length_pos room
    have close := before_blockRest_nil blank before
    refine ⟨c, ?_, close⟩
    simp only [foldMembers, nextKey_end false close]
    rfl
  | @cons s s₁ s' m ms first more ih =>
    obtain ⟨b, bound, rfl⟩ := List.exists_cons_of_length_pos (Nat.zero_lt_of_lt room)
    rw [List.map_cons, blockRest_cons, memberText, List.append_assoc] at before
    obtain ⟨c₁, key, behind⟩ := nextKey_next blank m.1 before
    obtain ⟨c₂, member, next⟩ := first (indent ++ "  ") _ c₁ blank.deeper
      (ends_blockRest indent _ '}' rest) behind
    obtain ⟨c', read, left⟩ := ih (Nat.lt_of_succ_lt_succ room) next
    refine ⟨c', ?_, left⟩
    simp only [foldMembers, key, member, bind, Except.bind]
    exact read

/-- What follows the opening bracket of an object. -/
def objectRest (indent : String) (rest : List Char) : List (String × Value) → List Char
  | [] => '}' :: rest
  | m :: ms => lineBreak indent ++ (memberText (indent ++ "  ") m ++
      blockRest indent (ms.map (memberText (indent ++ "  "))) '}' rest)

theorem foldMembers_objectRest (takes : Walk (Takes step) s ms s') {c : Cursor}
    (stands : c.rest = objectRest indent rest ms) :
    ∃ c', foldMembers step c.rest true s c = .ok (s', c') ∧ c'.Before ('}' :: rest) := by
  cases takes with
  | nil =>
    have close : c.Before ('}' :: rest) := by
      have here := before_rest c
      rwa [stands] at here
    refine ⟨c, ?_, close⟩
    rw [stands]
    simp only [objectRest, foldMembers, nextKey_end true close]
    rfl
  | @cons _ s₁ _ m ms first more =>
    have before := before_rest c
    simp only [stands, objectRest, memberText, List.append_assoc] at before
    obtain ⟨c₁, key, behind⟩ := nextKey_first blank m.1 before
    obtain ⟨c₂, member, next⟩ := first (indent ++ "  ") _ c₁ blank.deeper
      (ends_blockRest indent _ '}' rest) behind
    -- The text that is left bounds the members: each of them has a line.
    have room : ms.length + 1 < c.rest.length := by
      have long := length_lt_blockRest indent (ms.map (memberText (indent ++ "  "))) '}' rest
      rw [List.length_map] at long
      simp only [stands, objectRest, lineBreak, List.length_append, List.length_cons] at long ⊢
      omega
    obtain ⟨b, bound, text⟩ := List.exists_cons_of_length_pos (Nat.zero_lt_of_lt room)
    rw [text] at room ⊢
    obtain ⟨c', read, left⟩ := foldMembers_takes blank more (Nat.lt_of_succ_lt_succ room) next
    refine ⟨c', ?_, left⟩
    simp only [foldMembers, key, member, bind, Except.bind]
    exact read

end Members

theorem toList_object (indent : String) (ms : List (String × Value)) (rest : List Char) :
    (prettyAt indent (.object ms)).toList ++ rest = '\x7b' :: objectRest indent rest ms := by
  have text (m : String × Value) :
      (quote m.1 ++ ": " ++ prettyAt (indent ++ "  ") m.2).toList =
        memberText (indent ++ "  ") m := by
    simp [memberText]
  rw [prettyAt, prettyMembers_eq_map]
  cases ms with
  | nil => simp [block, objectRest]
  | cons m ms =>
    rw [List.map_cons, toList_block, text]
    simp only [List.flatMap_map, text, objectRest, blockRest]
    simp

/-- What follows the opening bracket of a list. -/
def listRest (indent : String) (rest : List Char) : List Value → List Char
  | [] => ']' :: rest
  | v :: vs => lineBreak indent ++ ((prettyAt (indent ++ "  ") v).toList ++
      blockRest indent (vs.map fun v => (prettyAt (indent ++ "  ") v).toList) ']' rest)

theorem toList_array (indent : String) (vs : List Value) (rest : List Char) :
    (prettyAt indent (.array vs)).toList ++ rest = '[' :: listRest indent rest vs := by
  rw [prettyAt, prettyItems_eq_map]
  cases vs with
  | nil => simp [block, listRest]
  | cons v vs =>
    rw [List.map_cons, toList_block]
    simp only [List.flatMap_map, listRest, blockRest]
    simp

section List
variable {α : Type} {d : Decoder α} {depth n : Nat} (room : depth ≤ n) {indent : String}
  (blank : Blank indent) {vs : List Value} {as : List α}
  (all : List.Forall₂ (d.Restores depth) vs as) {rest : List Char}
include room blank all

/-- The step that `items` takes over an item. -/
def takeItem {α : Type} (item : Cursor → Scan (α × Cursor)) (as : List α) (c : Cursor) :
    Scan (List α × Cursor) := (item c).map fun (a, c) => (a :: as, c)

theorem foldItems_restores (seen : List α) {bound : List Char} {c : Cursor}
    (long : vs.length < bound.length)
    (before : c.Before (blockRest indent
      (vs.map fun v => (prettyAt (indent ++ "  ") v).toList) ']' rest)) :
    ∃ c', foldItems (takeItem (d.scan n)) bound false seen c = .ok (as.reverse ++ seen, c') ∧
      c'.Before (']' :: rest) := by
  induction all generalizing seen bound c with
  | nil =>
    obtain ⟨b, bound, rfl⟩ := List.exists_cons_of_length_pos long
    have close := before_blockRest_nil blank before
    refine ⟨c, ?_, close⟩
    simp only [foldItems, nextItem_end false close]
    rfl
  | @cons v a vs as first more ih =>
    obtain ⟨b, bound, rfl⟩ := List.exists_cons_of_length_pos (Nat.zero_lt_of_lt long)
    rw [List.map_cons, blockRest_cons] at before
    obtain ⟨ch, tail, head, other⟩ := first.opens (indent ++ "  ")
    obtain ⟨c₁, item, here⟩ := nextItem_next blank head other before
    obtain ⟨c₂, read, next⟩ := first.reads n room (indent ++ "  ") _ c₁ blank.deeper
      (ends_blockRest indent _ ']' rest) here
    obtain ⟨c', done, left⟩ := ih (a :: seen) (Nat.lt_of_succ_lt_succ long) next
    refine ⟨c', ?_, left⟩
    rw [List.reverse_cons, List.append_assoc]
    simp only [foldItems, item, takeItem, read, Except.map, bind, Except.bind]
    exact done

theorem items_restores {c : Cursor} (stands : c.rest = listRest indent rest vs) :
    ∃ c', items (d.scan n) c = .ok (as, c') ∧ c'.Before (']' :: rest) := by
  have folded : ∃ c', foldItems (takeItem (d.scan n)) c.rest true [] c = .ok (as.reverse, c') ∧
      c'.Before (']' :: rest) := by
    cases all with
    | nil =>
      have close : c.Before (']' :: rest) := by
        have here := before_rest c
        rwa [stands] at here
      refine ⟨c, ?_, close⟩
      rw [stands]
      simp only [listRest, foldItems, nextItem_end true close]
      rfl
    | @cons v a vs as first more =>
      have before := before_rest c
      rw [stands, listRest] at before
      obtain ⟨ch, tail, head, other⟩ := first.opens (indent ++ "  ")
      obtain ⟨c₁, item, here⟩ := nextItem_first blank head other before
      obtain ⟨c₂, read, next⟩ := first.reads n room (indent ++ "  ") _ c₁ blank.deeper
        (ends_blockRest indent _ ']' rest) here
      have long : vs.length + 1 < c.rest.length := by
        have lines := length_lt_blockRest indent
          (vs.map fun v => (prettyAt (indent ++ "  ") v).toList) ']' rest
        rw [List.length_map] at lines
        simp only [stands, listRest, lineBreak, List.length_append, List.length_cons] at lines ⊢
        omega
      obtain ⟨b, bound, text⟩ := List.exists_cons_of_length_pos (Nat.zero_lt_of_lt long)
      rw [text] at long ⊢
      obtain ⟨c', done, left⟩ := foldItems_restores room blank more [a]
        (Nat.lt_of_succ_lt_succ long) next
      refine ⟨c', ?_, left⟩
      rw [List.reverse_cons]
      simp only [foldItems, item, takeItem, read, Except.map, bind, Except.bind]
      exact done
  obtain ⟨c', read, left⟩ := folded
  refine ⟨c', ?_, left⟩
  show (foldItems (takeItem (d.scan n)) c.rest true [] c >>= _) = _
  rw [read]
  simp only [bind, Except.bind, List.reverse_reverse]
  rfl

end List

end Cursor

theorem Value.heads_array (vs : List Value) : (Value.array vs).Heads (· ≠ ']') := by
  intro indent
  have text := Cursor.toList_array indent vs []
  rw [List.append_nil] at text
  rw [text]
  exact ⟨'[', _, rfl, by decide⟩

theorem Value.heads_object (ms : List (String × Value)) {p : Char → Prop} (brace : p '\x7b') :
    (Value.object ms).Heads p := by
  intro indent
  have text := Cursor.toList_object indent ms []
  rw [List.append_nil] at text
  rw [text]
  exact ⟨'\x7b', _, rfl, brace⟩

namespace Decoder
open Cursor

variable {α β : Type} {d : Decoder α} {depth : Nat}

theorem restores_list {vs : List Value} {as : List α}
    (all : List.Forall₂ (d.Restores depth) vs as) :
    (list d).Restores (depth + 1) (.array vs) as := by
  refine ⟨heads_array vs, fun n room indent rest c blank ends before => ?_⟩
  obtain ⟨n, rfl⟩ := Nat.exists_eq_succ_of_ne_zero (Nat.ne_zero_of_lt room)
  rw [toList_array] at before
  have stands := before.cons rfl
  obtain ⟨d', inside, closes⟩ := items_restores (Nat.le_of_succ_le_succ room) blank all
    (next_rest stands)
  simp only [list, stands]
  exact Container.list.within_reads inside closes

theorem restores_all {f : α → Value} {as : List α} (each : ∀ a ∈ as, d.Restores depth (f a) a) :
    (list d).Restores (depth + 1) (.array (as.map f)) as :=
  restores_list (List.forall₂_map_left_iff.mpr (List.forall₂_same.mpr each))

theorem restores_texts (xs : List String) : (list text).Restores (depth + 1) (.texts xs) xs :=
  restores_all fun x _ => restores_text x

/-- The step that reading a dictionary takes over a member. -/
def takeEntry (value : Cursor → Scan (α × Cursor)) (as : List (String × α)) (name : String)
    (c : Cursor) : Scan (List (String × α) × Cursor) := do
  let (a, c) ← value (← c.colon)
  return ((name, a) :: as, c)

section Entries
variable {f : β → Value} {g : β → α} {ms : List (String × β)}
  (all : ∀ m ∈ ms, d.Restores depth (f m.2) (g m.2))
include all

theorem walk_takeEntry {n : Nat} (room : depth ≤ n) (seen : List (String × α)) :
    Walk (Takes (takeEntry (d.scan n))) seen (ms.map fun m => (m.1, f m.2))
      ((ms.map fun m => (m.1, g m.2)).reverse ++ seen) := by
  induction ms generalizing seen with
  | nil => exact .nil seen
  | cons m ms ih =>
    have first : Takes (takeEntry (d.scan n)) seen (m.1, f m.2) ((m.1, g m.2) :: seen) := by
      intro indent rest c blank ends stands
      obtain ⟨c₁, colon, here⟩ := colon_before stands
      obtain ⟨c', read, left⟩ :=
        (all m List.mem_cons_self).reads n room indent rest c₁ blank ends here
      refine ⟨c', ?_, left⟩
      simp only [takeEntry, colon, read, bind, Except.bind]
      rfl
    have more := ih (fun m known => all m (List.mem_cons_of_mem _ known)) ((m.1, g m.2) :: seen)
    rw [List.map_cons, List.map_cons, List.reverse_cons, List.append_assoc]
    exact .cons first more

theorem restores_dictionary :
    (dictionary d).Restores (depth + 1) (.object (ms.map fun m => (m.1, f m.2)))
      (sortedMembers (ms.map fun m => (m.1, g m.2))) := by
  apply Restores.map sortedMembers
  refine ⟨heads_object _ (by decide), fun n room indent rest c blank ends before => ?_⟩
  obtain ⟨n, rfl⟩ := Nat.exists_eq_succ_of_ne_zero (Nat.ne_zero_of_lt room)
  rw [toList_object] at before
  have stands := before.cons rfl
  have walk := walk_takeEntry all (Nat.le_of_succ_le_succ room) []
  obtain ⟨d', folded, closes⟩ := foldMembers_objectRest blank walk (next_rest stands)
  simp only [entries, stands]
  refine Container.object.within_reads ?_ closes
  show foldMembers (takeEntry (d.scan n)) c.skip.next.rest true [] c.skip.next >>= _ = _
  rw [folded, List.append_nil]
  simp only [bind, Except.bind, List.reverse_reverse]
  rfl

end Entries

end Decoder
end Docket.Json
