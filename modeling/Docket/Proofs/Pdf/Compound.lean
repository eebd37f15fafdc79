import Docket.Proofs.Pdf.Saving

/-! Operators that stand for others. Each comes to the same drawing as the operations it stands
for, from every drawing and with any operands, so nothing that follows can tell them apart. A string
can be shown in parts where its bytes are characters one by one. -/
namespace Docket.Pdf

variable {α : Type}

namespace Coding

/-- Each of these bytes is one character, whatever stands around it. -/
def Bytewise (coding : Coding) (known : UInt8 → Prop) : Prop :=
  ∃ char : UInt8 → Char, ∀ bytes, (∀ b ∈ bytes, known b) → coding.decode bytes = bytes.map char

theorem bytewise_table (t : ByteTable) : (table t).Bytewise fun b => (t.char? b).isSome := by
  refine ⟨fun b => (t.char? b).getD replacement, fun bytes known => ?_⟩
  show bytes.filterMap t.char? = _
  induction bytes with
  | nil => rfl
  | cons b rest ih =>
    obtain ⟨c, char⟩ := Option.isSome_iff_exists.mp (known b List.mem_cons_self)
    rw [List.filterMap_cons_some char, ih fun b later => known b (List.mem_cons_of_mem _ later),
      List.map_cons, char, Option.getD_some]

/-- Without an encoding only a mark in front makes a difference. -/
theorem bytewise_raw : raw.Bytewise (· ≠ 0xFE) := by
  refine ⟨fun b => Char.ofNat b.toNat, fun bytes known => ?_⟩
  show decodeRaw bytes = _
  unfold decodeRaw
  split
  · exact absurd rfl (known 0xFE List.mem_cons_self)
  · rfl

def IsSurrogate (u : Nat) : Prop := 0xD800 ≤ u ∧ u < 0xE000

theorem ofUnits_cons {u : Nat} (single : ¬ IsSurrogate u) (us : List Nat) :
    ofUnits (u :: us) = Char.ofNat u :: ofUnits us := by
  unfold IsSurrogate at single
  cases us with
  | nil => simp [ofUnits, single]
  | cons v us =>
    have high : ¬ (0xD800 ≤ u ∧ u < 0xDC00 ∧ 0xDC00 ≤ v ∧ v < 0xE000) := by omega
    rw [ofUnits, if_neg high, if_neg single]

theorem bytewise_map (m : UnicodeMap) :
    (map m).Bytewise fun b => ∃ u, m.get? [b] = some [u] ∧ ¬ IsSurrogate u := by
  refine ⟨fun b => Char.ofNat (((m.get? [b]).bind List.head?).getD 0), fun bytes known => ?_⟩
  show ofUnits (m.units [] bytes) = _
  induction bytes with
  | nil => rfl
  | cons b rest ih =>
    obtain ⟨u, code, single⟩ := known b List.mem_cons_self
    have first : m.units [] (b :: rest) = u :: m.units [] rest := by
      simp [UnicodeMap.units, code]
    rw [first, ofUnits_cons single, ih fun b later => known b (List.mem_cons_of_mem _ later),
      List.map_cons, code]
    rfl

end Coding

theorem Font.glyphs_append [Scalar α] (f : Font α) {known : UInt8 → Prop}
    (bytewise : f.coding.Bytewise known) {front back : Bytes} (first : ∀ b ∈ front, known b)
    (second : ∀ b ∈ back, known b) : f.glyphs (front ++ back) = f.glyphs front ++ f.glyphs back := by
  obtain ⟨char, decode⟩ := bytewise
  have glyphs (bytes : Bytes) (all : ∀ b ∈ bytes, known b) :
      f.glyphs bytes = bytes.map fun b => (char b, f.width b) := by
    have pairs : (bytes.map char).zip (bytes.map id) = bytes.map fun b => (char b, b) :=
      List.zip_map'
    rw [List.map_id] at pairs
    unfold Font.glyphs
    dsimp only
    rw [decode bytes all, List.length_map, if_pos rfl, pairs, List.map_map]
    rfl
  have whole : ∀ b ∈ front ++ back, known b := fun b either =>
    (List.mem_append.mp either).elim (first b) (second b)
  rw [glyphs front first, glyphs back second, glyphs _ whole, List.map_append]

namespace Drawing
variable [Scalar α] (glyphs : GlyphReader α) (d : Drawing α)

/-- Whatever follows, the state of the text and the words of the page end the same. -/
def Interchangeable (ops ops' : List (Operation α)) : Prop :=
  ∀ rest,
    (run glyphs (ops ++ rest) d).state = (run glyphs (ops' ++ rest) d).state ∧
      (run glyphs (ops ++ rest) d).builder.finish = (run glyphs (ops' ++ rest) d).builder.finish

variable {glyphs d}

theorem interchangeable_of_run {ops ops' : List (Operation α)}
    (same : run glyphs ops d = run glyphs ops' d) : Interchangeable glyphs d ops ops' := by
  intro rest
  rw [run_append, run_append, same]
  exact ⟨rfl, rfl⟩

theorem showText_append (front back : Bytes) (d : Drawing α)
    (parted : glyphs d.state.font (front ++ back) =
      glyphs d.state.font front ++ glyphs d.state.font back) :
    d.showText glyphs (front ++ back) = (d.showText glyphs front).showText glyphs back := by
  have font : (d.showText glyphs front).state.font = d.state.font :=
    congrArg TextState.Parameters.font (showText_alongside front d).parameters
  rw [showText, parted, List.foldl_append]
  show _ = (glyphs (d.showText glyphs front).state.font back).foldl _ (d.showText glyphs front)
  rw [font]
  rfl

/-- One item of a list of strings and distances, by itself. -/
def alone : Object α → Operation α
  | .string bytes => ⟨"Tj", [.string bytes]⟩
  | other => ⟨"TJ", [.array [other]]⟩

theorem perform_alone (d : Drawing α) (item : Object α) :
    perform glyphs d (alone item) = showItem glyphs d item := by
  cases item <;> rfl

theorem run_alone (items : List (Object α)) (d : Drawing α) :
    run glyphs (items.map alone) d = items.foldl (showItem glyphs) d := by
  rw [run, List.foldl_map]
  simp only [perform_alone]

/-- The operations that an operator stands for, where that does not depend on the drawing. -/
def expansion (op : Operation α) : List (Operation α) :=
  match op.operator with
  | "TD" => [⟨"TL", [.real (-operand op.operands 1)]⟩, ⟨"Td", op.operands⟩]
  | "'" => [⟨"T*", []⟩, ⟨"Tj", op.operands⟩]
  | "\"" =>
    [⟨"Tw", (op.operands[0]?).toList⟩, ⟨"Tc", (op.operands[1]?).toList⟩,
      ⟨"'", (op.operands[2]?).toList⟩]
  | "TJ" => (((op.operands[0]?).bind Object.array?).getD []).map alone
  | _ => [op]

theorem operand_toList (operands : List (Object α)) (i : Nat) :
    operand (operands[i]?).toList 0 = operand operands i := by
  unfold operand
  cases operands[i]? <;> rfl

theorem showOperand_toList (operands : List (Object α)) (i : Nat) (d : Drawing α) :
    d.showOperand glyphs (operands[i]?).toList 0 = d.showOperand glyphs operands i := by
  unfold showOperand
  cases operands[i]? <;> rfl

theorem run_nextLine {operands : List (Object α)} (still : operand operands 0 = (0 : α))
    (down : operand operands 1 = -d.state.leading) (ignored : List (Object α)) :
    run glyphs [⟨"T*", ignored⟩] d = run glyphs [⟨"Td", operands⟩] d := by
  show d.flush.change .nextLine =
    d.flush.change (.moveLine (operand operands 0) (operand operands 1))
  rw [still, down]
  rfl

theorem run_moveSetting {leading operands : List (Object α)}
    (set : operand leading 0 = -(operand operands 1 : α)) :
    run glyphs [⟨"TD", operands⟩] d = run glyphs [⟨"TL", leading⟩, ⟨"Td", operands⟩] d := by
  have moved : run glyphs [⟨"TD", operands⟩] d = d.flush.change fun s =>
      { s with leading := -operand operands 1 }.moveLine (operand operands 0)
        (operand operands 1) := rfl
  rw [moved, ← set]
  rfl

theorem run_spaced (operands : List (Object α)) :
    run glyphs [⟨"\"", operands⟩] d =
      run glyphs [⟨"Tw", (operands[0]?).toList⟩, ⟨"Tc", (operands[1]?).toList⟩,
        ⟨"'", (operands[2]?).toList⟩] d := by
  have parts : run glyphs [⟨"Tw", (operands[0]?).toList⟩, ⟨"Tc", (operands[1]?).toList⟩,
        ⟨"'", (operands[2]?).toList⟩] d =
      (d.flush.change fun s =>
        { s with
          wordSpacing := operand (operands[0]?).toList 0
          charSpacing := operand (operands[1]?).toList 0 }.nextLine).showOperand glyphs
        (operands[2]?).toList 0 := rfl
  rw [parts, operand_toList, operand_toList, showOperand_toList]
  rfl

theorem run_list (operands : List (Object α)) :
    run glyphs [⟨"TJ", operands⟩] d =
      run glyphs ((((operands[0]?).bind Object.array?).getD []).map alone) d := by
  rw [run_alone, run, List.foldl_cons, List.foldl_nil]
  unfold perform
  dsimp only
  cases (operands[0]?).bind Object.array? <;> rfl

theorem run_parted (front back : Bytes)
    (parted : glyphs d.state.font (front ++ back) =
      glyphs d.state.font front ++ glyphs d.state.font back) :
    run glyphs [⟨"Tj", [.string (front ++ back)]⟩] d =
      run glyphs [⟨"Tj", [.string front]⟩, ⟨"Tj", [.string back]⟩] d :=
  showText_append front back d parted

theorem run_expansion (op : Operation α) (d : Drawing α) :
    run glyphs (expansion op) d = perform glyphs d op := by
  obtain ⟨operator, operands⟩ := op
  unfold expansion
  dsimp only
  split
  · exact (run_moveSetting rfl).symm
  · rfl
  · exact (run_spaced operands).symm
  · exact (run_list operands).symm
  · rfl

/-- Operators can be replaced by what they stand for all over a page. -/
theorem run_expanded (ops : List (Operation α)) (d : Drawing α) :
    run glyphs (ops.flatMap expansion) d = run glyphs ops d := by
  induction ops generalizing d with
  | nil => rfl
  | cons op ops ih =>
    rw [List.flatMap_cons, run_append, run_expansion, ih]
    rfl

theorem words_expanded (left top : α) (ops : List (Operation α)) :
    words glyphs left top (ops.flatMap expansion) = words glyphs left top ops :=
  congrArg (·.builder.finish) (run_expanded ops (start left top))

/-- From every drawing and with any operands, each compound operator can be exchanged for the
operations it stands for; and in a font that reads each of these bytes as one character, a string
can be shown in two parts. -/
theorem compound_interchangeable (glyphs : GlyphReader α) (d : Drawing α) :
    (∀ leading operands, operand leading 0 = -(operand operands 1 : α) →
      Interchangeable glyphs d [⟨"TD", operands⟩] [⟨"TL", leading⟩, ⟨"Td", operands⟩]) ∧
    (∀ operands ignored, operand operands 0 = (0 : α) →
      operand operands 1 = -d.state.leading →
      Interchangeable glyphs d [⟨"T*", ignored⟩] [⟨"Td", operands⟩]) ∧
    (∀ operands, Interchangeable glyphs d [⟨"'", operands⟩] [⟨"T*", []⟩, ⟨"Tj", operands⟩]) ∧
    (∀ operands, Interchangeable glyphs d [⟨"\"", operands⟩]
      [⟨"Tw", (operands[0]?).toList⟩, ⟨"Tc", (operands[1]?).toList⟩,
        ⟨"'", (operands[2]?).toList⟩]) ∧
    (∀ operands, Interchangeable glyphs d [⟨"TJ", operands⟩]
      ((((operands[0]?).bind Object.array?).getD []).map alone)) ∧
    ∀ (f : Font α) (known : UInt8 → Prop), glyphs d.state.font = f.glyphs →
      f.coding.Bytewise known → ∀ front back, (∀ b ∈ front, known b) → (∀ b ∈ back, known b) →
        Interchangeable glyphs d [⟨"Tj", [.string (front ++ back)]⟩]
          [⟨"Tj", [.string front]⟩, ⟨"Tj", [.string back]⟩] := by
  refine ⟨fun leading operands set => ?_, fun operands ignored still down => ?_,
    fun operands => ?_, fun operands => ?_, fun operands => ?_, ?_⟩
  · exact interchangeable_of_run (run_moveSetting set)
  · exact interchangeable_of_run (run_nextLine still down ignored)
  · exact interchangeable_of_run rfl
  · exact interchangeable_of_run (run_spaced operands)
  · exact interchangeable_of_run (run_list operands)
  · intro f known font bytewise front back first second
    refine interchangeable_of_run (run_parted front back ?_)
    rw [font]
    exact f.glyphs_append bytewise first second

theorem compound_interchangeable_greeting :
    let glyphs : GlyphReader Float := fun _ => Font.unknown.glyphs
    let d : Drawing Float := start 0 842
    Interchangeable glyphs d [⟨"TD", [.real 3, .real 12]⟩]
        [⟨"TL", [.real (-12)]⟩, ⟨"Td", [.real 3, .real 12]⟩] ∧
      Interchangeable glyphs d [⟨"T*", []⟩] [⟨"Td", [.real 0, .real (-0)]⟩] ∧
      Interchangeable glyphs d [⟨"Tj", [.string [72, 105]]⟩]
        [⟨"Tj", [.string [72]]⟩, ⟨"Tj", [.string [105]]⟩] := by
  intro glyphs d
  obtain ⟨set, next, -, -, -, parted⟩ := compound_interchangeable glyphs d
  refine ⟨set _ _ rfl, next _ [] rfl rfl, ?_⟩
  exact parted .unknown _ rfl Coding.bytewise_raw [72] [105] (by simp) (by simp)

end Drawing
end Docket.Pdf
