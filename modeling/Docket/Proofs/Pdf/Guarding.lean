import Mathlib
import Docket.Proofs.Lookup
import Docket.Proofs.Pdf.Inheriting
import Docket.Proofs.Pdf.Saving

/-! The walk over a page with everything that could stop a program guarded: bytes and numbers looked
up by their place, the slice behind a byte order mark, and the difference of a code and the first
code of its font. Lengths are checked before anything is looked up or cut off, so neither of the
first two ever stops a page. The third does where the first code of a font is so low that the
difference does not fit in 64 bits. -/
namespace Docket.Pdf

/-- What stops a program, which then gives no words at all. -/
inductive Fault
  | missing
  | slice
  | overflow
deriving DecidableEq

/-- The item at a place. -/
def itemAt {β : Type} (xs : List β) (place : Nat) : Except Fault β :=
  match xs[place]? with
  | some x => .ok x
  | none => .error .missing

/-- What stands behind so many items. -/
def sliceFrom {β : Type} (xs : List β) (start : Nat) : Except Fault (List β) :=
  if start ≤ xs.length then .ok (xs.drop start) else .error .slice

def difference (a b : Int64) : Except Fault Int64 :=
  let exact := a.toInt - b.toInt
  if -2 ^ 63 ≤ exact ∧ exact < 2 ^ 63 then .ok (a - b) else .error .overflow

/-- The outcome unless one of the differences is beyond 64 bits. -/
def unlessBeyond {β : Type} (differences : List Int) (outcome : β) : Except Fault β :=
  if ∃ d ∈ differences, 2 ^ 63 ≤ d then .error .overflow else .ok outcome

section Outcomes
variable {β γ δ : Type} {ds es : List Int} {a : β} {b : γ} {next : β → Except Fault γ}

theorem unlessBeyond_nil (a : β) : unlessBeyond [] a = .ok a := by simp [unlessBeyond]

theorem unlessBeyond_bind (follows : next a = unlessBeyond es b) :
    (unlessBeyond ds a).bind next = unlessBeyond (ds ++ es) b := by
  unfold unlessBeyond at follows ⊢
  by_cases beyond : ∃ d ∈ ds, 2 ^ 63 ≤ d
  · have more : ∃ d ∈ ds ++ es, 2 ^ 63 ≤ d := by
      obtain ⟨d, known, far⟩ := beyond
      exact ⟨d, List.mem_append_left es known, far⟩
    rw [if_pos beyond, if_pos more]
    rfl
  · have rest : (∃ d ∈ ds ++ es, 2 ^ 63 ≤ d) ↔ ∃ d ∈ es, 2 ^ 63 ≤ d := by
      simp only [List.mem_append, or_and_right, exists_or, beyond, false_or]
    rw [if_neg beyond, Except.bind, follows]
    simp only [rest]

theorem unlessBeyond_map (f : β → γ) : (unlessBeyond ds a).map f = unlessBeyond ds (f a) := by
  unfold unlessBeyond
  split <;> rfl

theorem mapM_unlessBeyond {f : δ → Except Fault β} (distance : δ → Int) (g : δ → β) (xs : List δ)
    (each : ∀ x, f x = unlessBeyond [distance x] (g x)) :
    xs.mapM f = unlessBeyond (xs.map distance) (xs.map g) := by
  induction xs with
  | nil => exact (unlessBeyond_nil _).symm
  | cons x xs ih =>
    rw [List.mapM_cons, each x, ih]
    exact unlessBeyond_bind (unlessBeyond_map (g x :: ·))

end Outcomes

section Strings

/-- Bytes in twos; a last one alone is left out. -/
def twos : Bytes → List Bytes
  | a :: b :: rest => [a, b] :: twos rest
  | _ => []

def unitOf (two : Bytes) : Except Fault Nat :=
  (itemAt two 0).bind fun high => (itemAt two 1).map fun low => high.toNat * 256 + low.toNat

/-- Units of two bytes behind their mark, else one byte a character. -/
def guardedRaw (bytes : Bytes) : Except Fault (List Char) :=
  let single := bytes.map fun b => Char.ofNat b.toNat
  if bytes.length < 2 then .ok single
  else
    (itemAt bytes 0).bind fun first =>
      if first ≠ 0xFE then .ok single
      else
        (itemAt bytes 1).bind fun second =>
          if second ≠ 0xFF then .ok single
          else (sliceFrom bytes 2).bind fun rest => ((twos rest).mapM unitOf).map ofUnits

theorem units_twos (bytes : Bytes) : (twos bytes).mapM unitOf = .ok (unitsOf bytes) := by
  induction bytes using twos.induct with
  | case1 a b rest ih =>
    rw [twos, List.mapM_cons, ih]
    rfl
  | case2 bytes short =>
    rw [twos, unitsOf]
    · rfl
    · exact short
    · exact short

theorem guardedRaw_eq (bytes : Bytes) : guardedRaw bytes = .ok (decodeRaw bytes) := by
  match bytes with
  | [] => rfl
  | [_] => simp [guardedRaw, decodeRaw]
  | a :: b :: rest =>
    have long : ¬ (a :: b :: rest).length < 2 := by simp
    have sliced : sliceFrom (a :: b :: rest) 2 = .ok rest := by simp [sliceFrom]
    rw [guardedRaw, if_neg long]
    by_cases marked : a = 0xFE ∧ b = 0xFF
    · obtain ⟨rfl, rfl⟩ := marked
      simp only [itemAt, List.getElem?_cons_zero, List.getElem?_cons_succ, Except.bind, sliced,
        units_twos]
      rfl
    · have plain : decodeRaw (a :: b :: rest) =
          (a :: b :: rest).map fun b => Char.ofNat b.toNat := by
        rw [decodeRaw]
        rintro rest' same
        cases same
        exact marked ⟨rfl, rfl⟩
      rw [plain]
      simp only [itemAt, List.getElem?_cons_zero, List.getElem?_cons_succ, Except.bind]
      split_ifs with first second
      · rfl
      · rfl
      · exact absurd ⟨not_not.mp first, not_not.mp second⟩ marked

def Coding.guarded : Coding → Bytes → Except Fault (List Char)
  | raw, bytes => guardedRaw bytes
  | coding, bytes => .ok (coding.decode bytes)

theorem Coding.guarded_eq (coding : Coding) (bytes : Bytes) :
    coding.guarded bytes = .ok (coding.decode bytes) := by
  cases coding with
  | raw => exact guardedRaw_eq bytes
  | _ => rfl

end Strings

variable {α : Type}

namespace Font

/-- How far a code is from the first code of a font. -/
def distance (f : Font α) (code : UInt8) : Int := code.toNat - f.firstCode.toInt

theorem difference_code (f : Font α) (code : UInt8) :
    difference (Int64.ofNat code.toNat) f.firstCode =
      unlessBeyond [f.distance code] (Int64.ofNat code.toNat - f.firstCode) := by
  have small := code.toNat_lt
  have exact : (Int64.ofNat code.toNat).toInt = code.toNat :=
    Int64.toInt_ofNat_of_lt (by omega)
  have high := f.firstCode.toInt_lt
  have bounds : (-2 ^ 63 ≤ f.distance code ∧ f.distance code < 2 ^ 63) ↔
      ¬ ∃ d ∈ [f.distance code], 2 ^ 63 ≤ d := by
    simp only [List.mem_singleton, exists_eq_left, distance]
    omega
  rw [difference, unlessBeyond, exact, ← distance]
  simp only [bounds, ite_not]

variable [Scalar α]

def guardedWidth (f : Font α) (code : UInt8) : Except Fault α :=
  (difference (Int64.ofNat code.toNat) f.firstCode).map fun (index : Int64) =>
    let own := if (0 : Int) ≤ index.toInt then f.widths[index.toInt.toNat]? else none
    match own with
    | some w => if 0 < w then w else standardWidth
    | none => standardWidth

theorem guardedWidth_eq (f : Font α) (code : UInt8) :
    f.guardedWidth code = unlessBeyond [f.distance code] (f.width code) := by
  rw [guardedWidth, difference_code, unlessBeyond_map]
  rfl

/-- The glyphs of a string in a font that a page has or has not. -/
def guardedGlyphs (font : Option (Font α)) (bytes : Bytes) : Except Fault (List (Char × α)) :=
  ((font.getD .unknown).coding.guarded bytes).bind fun chars =>
    if chars.length = bytes.length then
      (chars.zip bytes).mapM fun (c, code) =>
        match font with
        | some f => (f.guardedWidth code).map fun width => (c, width)
        | none => .ok (c, standardWidth)
    else .ok (chars.map fun c => (c, standardWidth))

/-- The distances at which the widths of a string are looked up. -/
def distances (f : Font α) (bytes : Bytes) : List Int :=
  if (f.coding.decode bytes).length = bytes.length then bytes.map f.distance else []

theorem unknown_width (code : UInt8) : (unknown : Font α).width code = standardWidth := by
  simp [width, unknown]

theorem guardedGlyphs_eq (font : Option (Font α)) (bytes : Bytes) :
    guardedGlyphs font bytes = unlessBeyond (font.toList.flatMap (·.distances bytes))
      ((font.getD .unknown).glyphs bytes) := by
  rw [guardedGlyphs, Coding.guarded_eq, Except.bind, glyphs]
  dsimp only
  cases font with
  | none =>
    rw [Option.toList_none, List.flatMap_nil, unlessBeyond_nil, Option.getD_none]
    split
    · simp only [unknown_width]
      exact List.mapM_pure
    · rfl
  | some f =>
    rw [Option.toList_some, List.flatMap_singleton, Option.getD_some, distances]
    split
    · next paired =>
      rw [mapM_unlessBeyond (fun g => f.distance g.2) (fun g => (g.1, f.width g.2)) _ fun g => ?_]
      · have codes : ((f.coding.decode bytes).zip bytes).map (fun g => f.distance g.2) =
            bytes.map f.distance := by
          rw [← Function.comp_def, ← List.map_map, List.map_snd_zip paired.ge]
        rw [codes]
      · exact (congrArg _ (f.guardedWidth_eq g.2)).trans (unlessBeyond_map _)
    · exact (unlessBeyond_nil _).symm

end Font

section Numbers

/-- Six numbers by their places. -/
def matrixAt (v : List α) : Except Fault (Matrix α) :=
  (itemAt v 0).bind fun a => (itemAt v 1).bind fun b => (itemAt v 2).bind fun c =>
    (itemAt v 3).bind fun d => (itemAt v 4).bind fun e => (itemAt v 5).map fun f =>
      ⟨a, b, c, d, e, f⟩

/-- All items give a value exactly if no item is left out where those that give none are. -/
theorem mapM_eq_filterMap {β γ : Type} (f : β → Option γ) (xs : List β) :
    xs.mapM f = if (xs.filterMap f).length = xs.length then some (xs.filterMap f) else none := by
  induction xs with
  | nil => rfl
  | cons x xs ih =>
    rw [List.mapM_cons, ih]
    cases given : f x with
    | none =>
      have fewer := List.length_filterMap_le f xs
      have left : ¬ (xs.filterMap f).length = (x :: xs).length := by
        rw [List.length_cons]
        omega
      rw [List.filterMap_cons_none given, if_neg left]
      rfl
    | some y =>
      rw [List.filterMap_cons_some given]
      by_cases all : (xs.filterMap f).length = xs.length <;> simp [all]

variable [Scalar α]

/-- The first six operands as a matrix, if there are six and all are numbers. -/
def guardedMatrixOf (operands : List (Object α)) : Except Fault (Option (Matrix α)) :=
  if operands.length < 6 then .ok none
  else
    let v := (operands.take 6).filterMap Object.number?
    if v.length = 6 then (matrixAt v).map some else .ok none

theorem guardedMatrixOf_eq (operands : List (Object α)) :
    guardedMatrixOf operands = .ok (Drawing.matrixOf operands) := by
  have fewer := List.length_filterMap_le Object.number? (operands.take 6)
  rw [guardedMatrixOf, Drawing.matrixOf, mapM_eq_filterMap]
  dsimp only
  generalize (operands.take 6).filterMap Object.number? = v at fewer ⊢
  rw [List.length_take] at fewer ⊢
  by_cases few : operands.length < 6
  · rw [if_pos few]
    split
    · next numbers =>
      obtain ⟨-, same⟩ := Option.ite_none_right_eq_some.mp numbers
      have six := congrArg List.length (Option.some.inj same)
      simp only [List.length_cons, List.length_nil] at six
      omega
    · rfl
  · rw [if_neg few, Nat.min_eq_left (not_lt.mp few)]
    by_cases six : v.length = 6
    · rw [if_pos six, if_pos six]
      match v, six with
      | [a, b, c, d, e, f], _ => rfl
    · rw [if_neg six, if_neg six]

/-- A box by the places of its numbers. -/
def boxAt (v : List α) : Except Fault (PageBox α) :=
  (itemAt v 0).bind fun x1 => (itemAt v 2).bind fun x2 => (itemAt v 1).bind fun y1 =>
    (itemAt v 3).map fun y2 => .ofCorners x1 y1 x2 y2

def guardedOfObjects (items : List (Object α)) : Except Fault (Option (PageBox α)) :=
  let v := items.filterMap Object.number?
  if v.length = 4 then (boxAt v).map some else .ok none

theorem guardedOfObjects_eq (items : List (Object α)) :
    guardedOfObjects items = .ok (PageBox.ofObjects? items) := by
  rw [guardedOfObjects, PageBox.ofObjects?]
  generalize items.filterMap Object.number? = v
  split
  · rename_i four
    obtain ⟨x1, y1, x2, y2, rfl⟩ := List.length_eq_four.mp four
    rfl
  · rename_i other
    split
    · exact absurd rfl other
    · rfl

def Document.guardedBoxIn (doc : Document α) (entries : Dictionary α) :
    Except Fault (Option (PageBox α)) :=
  match ((entries.lookup "MediaBox").bind doc.resolve).bind Object.array? with
  | some items => guardedOfObjects items
  | none => .ok none

def Document.guardedBox (doc : Document α) (page : Nat) : Except Fault (PageBox α) :=
  ((doc.ancestors boxDepth page).findSomeM? doc.guardedBoxIn).map fun box? => box?.getD .standard

theorem findSomeM?_ok {β γ : Type} {f : β → Except Fault (Option γ)} {g : β → Option γ}
    (each : ∀ x, f x = .ok (g x)) (xs : List β) : xs.findSomeM? f = .ok (xs.findSome? g) := by
  induction xs with
  | nil => rfl
  | cons x xs ih =>
    rw [List.findSomeM?, each x, List.findSome?_cons]
    cases g x with
    | none => exact ih
    | some y => rfl

theorem Document.guardedBox_eq (doc : Document α) (page : Nat) :
    doc.guardedBox page = .ok (doc.pageBox page) := by
  have each (entries : Dictionary α) : doc.guardedBoxIn entries = .ok (doc.boxIn? entries) := by
    rw [guardedBoxIn, boxIn?]
    cases ((entries.lookup "MediaBox").bind doc.resolve).bind Object.array? with
    | none => rfl
    | some items => exact guardedOfObjects_eq items
  rw [guardedBox, findSomeM?_ok each, pageBox_eq]
  rfl

end Numbers

namespace Drawing

variable [Scalar α]

/-- Reads the glyphs of a string in a font, unless it is stopped. -/
abbrev GuardedReader (α : Type) := String → Bytes → Except Fault (List (Char × α))

section Operations
variable (read : GuardedReader α)

def guardedShowText (bytes : Bytes) (d : Drawing α) : Except Fault (Drawing α) :=
  (read d.state.font bytes).map fun shown =>
    shown.foldl (fun d (c, width) => d.showGlyph c width) d

def guardedShowItem (d : Drawing α) : Object α → Except Fault (Drawing α)
  | .string bytes => guardedShowText read bytes d
  | other =>
    match other.number? with
    | some n => .ok (d.change fun s => s.advance (s.kerningAdvance n))
    | none => .ok d

def guardedShowOperand (operands : List (Object α)) (i : Nat) (d : Drawing α) :
    Except Fault (Drawing α) :=
  match (operands[i]?).bind Object.string? with
  | some bytes => guardedShowText read bytes d
  | none => .ok d

def guardedWithMatrix (operands : List (Object α)) (f : Matrix α → TextState α → TextState α)
    (d : Drawing α) : Except Fault (Drawing α) :=
  (guardedMatrixOf operands).map fun
    | some m => d.change (f m)
    | none => d

/-- Performs one operation. Those that neither take a matrix nor show text look up nothing by its
place. -/
def guardedPerform (d : Drawing α) (op : Operation α) : Except Fault (Drawing α) :=
  let x := operand op.operands 0
  let y := operand op.operands 1
  match op.operator with
  | "cm" => guardedWithMatrix op.operands .concat d
  | "Tm" => guardedWithMatrix op.operands .setMatrix d.flush
  | "Tj" => guardedShowOperand read op.operands 0 d
  | "TJ" =>
    match (op.operands[0]?).bind Object.array? with
    | some items => items.foldlM (guardedShowItem read) d
    | none => .ok d
  | "'" => guardedShowOperand read op.operands 0 (d.flush.change .nextLine)
  | "\"" =>
    guardedShowOperand read op.operands 2
      (d.flush.change fun s => { s with wordSpacing := x, charSpacing := y }.nextLine)
  | _ => .ok (perform (fun _ _ => []) d op)

end Operations

/-- The strings that an operation shows. -/
def stringsOf (op : Operation α) : List Bytes :=
  match op.operator with
  | "Tj" | "'" => ((op.operands[0]?).bind Object.string?).toList
  | "\"" => ((op.operands[2]?).bind Object.string?).toList
  | "TJ" => (((op.operands[0]?).bind Object.array?).getD []).filterMap Object.string?
  | _ => []

/-- The font in force after an operation. -/
def fontAfter (font : String) (op : Operation α) : String :=
  if op.operator = "Tf" then ((op.operands[0]?).bind Object.name?).getD font else font

/-- The strings that operations show, each with the font in force. -/
def shownIn (font : String) : List (Operation α) → List (String × Bytes)
  | [] => []
  | op :: ops => (stringsOf op).map (font, ·) ++ shownIn (fontAfter font op) ops

theorem guardedWithMatrix_eq (operands : List (Object α))
    (f : Matrix α → TextState α → TextState α) (d : Drawing α) :
    guardedWithMatrix operands f d = .ok (d.withMatrix operands f) := by
  rw [guardedWithMatrix, guardedMatrixOf_eq, withMatrix]
  cases matrixOf operands <;> rfl

theorem font_showItem (glyphs : GlyphReader α) (d : Drawing α) (item : Object α) :
    (showItem glyphs d item).state.font = d.state.font :=
  congrArg TextState.Parameters.font (showItem_alongside d item).parameters

theorem font_perform (glyphs : GlyphReader α) (d : Drawing α) (op : Operation α) :
    (perform glyphs d op).state.font = fontAfter d.state.font op := by
  have adjusted : (perform glyphs d op).state.font = (adjust d.state.parameters op).font :=
    congrArg TextState.Parameters.font (parameters_perform d op)
  rw [adjusted, fontAfter]
  split_ifs with set
  · rw [adjust, set]
    rfl
  · exact adjust_same .font d.state.parameters op (by simpa [Parameter.operators] using set)

section Reading
variable {read : GuardedReader α} {glyphs : GlyphReader α} {distances : String → Bytes → List Int}
  (reads : ∀ font bytes,
    read font bytes = unlessBeyond (distances font bytes) (glyphs font bytes))
include reads

theorem guardedShowText_eq (bytes : Bytes) (d : Drawing α) :
    guardedShowText read bytes d =
      unlessBeyond (distances d.state.font bytes) (d.showText glyphs bytes) := by
  rw [guardedShowText, reads, unlessBeyond_map]
  rfl

theorem guardedShowItem_eq (d : Drawing α) (item : Object α) :
    guardedShowItem read d item =
      unlessBeyond (item.string?.toList.flatMap (distances d.state.font))
        (showItem glyphs d item) := by
  cases item with
  | string bytes =>
    rw [Object.string?, Option.toList_some, List.flatMap_singleton]
    exact guardedShowText_eq reads bytes d
  | integer n => exact (unlessBeyond_nil _).symm
  | real x => exact (unlessBeyond_nil _).symm
  | _ => exact (unlessBeyond_nil _).symm

theorem guardedShowItems_eq (items : List (Object α)) (d : Drawing α) :
    items.foldlM (guardedShowItem read) d =
      unlessBeyond ((items.filterMap Object.string?).flatMap (distances d.state.font))
        (items.foldl (showItem glyphs) d) := by
  induction items generalizing d with
  | nil => exact (unlessBeyond_nil d).symm
  | cons item items ih =>
    have strings : ((item :: items).filterMap Object.string?).flatMap (distances d.state.font) =
        item.string?.toList.flatMap (distances d.state.font) ++
          (items.filterMap Object.string?).flatMap (distances d.state.font) := by
      cases given : item.string? with
      | none => rw [List.filterMap_cons_none given]; rfl
      | some bytes => simp [given]
    rw [List.foldlM_cons, guardedShowItem_eq reads, strings, List.foldl_cons]
    refine unlessBeyond_bind ?_
    rw [ih, font_showItem]

theorem guardedShowOperand_eq (operands : List (Object α)) (i : Nat) (d : Drawing α) :
    guardedShowOperand read operands i d =
      unlessBeyond (((operands[i]?).bind Object.string?).toList.flatMap (distances d.state.font))
        (d.showOperand glyphs operands i) := by
  rw [guardedShowOperand, showOperand]
  cases (operands[i]?).bind Object.string? with
  | none => exact (unlessBeyond_nil d).symm
  | some bytes =>
    rw [Option.toList_some, List.flatMap_singleton]
    exact guardedShowText_eq reads bytes d

theorem guardedPerform_eq (d : Drawing α) (op : Operation α) :
    guardedPerform read d op =
      unlessBeyond ((stringsOf op).flatMap (distances d.state.font)) (perform glyphs d op) := by
  obtain ⟨operator, operands⟩ := op
  unfold guardedPerform
  dsimp only
  -- a matrix never stops the walk, an operator that shows strings does where one of them does
  split
  · exact (guardedWithMatrix_eq operands _ d).trans (unlessBeyond_nil _).symm
  · exact (guardedWithMatrix_eq operands _ d.flush).trans (unlessBeyond_nil _).symm
  · exact guardedShowOperand_eq reads operands 0 d
  · simp only [perform, stringsOf]
    cases (operands[0]?).bind Object.array? with
    | none => exact (unlessBeyond_nil d).symm
    | some items => exact guardedShowItems_eq reads items d
  · exact guardedShowOperand_eq reads operands 0 (d.flush.change .nextLine)
  · exact guardedShowOperand_eq reads operands 2 _
  · next others =>
    have silent : stringsOf ⟨operator, operands⟩ = [] := by
      unfold stringsOf
      split <;> first | contradiction | rfl
    have same : perform (fun _ _ => []) d ⟨operator, operands⟩ =
        perform glyphs d ⟨operator, operands⟩ := by
      unfold perform
      split <;> first | contradiction | rfl
    rw [silent, same]
    exact (unlessBeyond_nil _).symm

theorem guardedRun_eq (ops : List (Operation α)) (d : Drawing α) :
    ops.foldlM (guardedPerform read) d =
      unlessBeyond ((shownIn d.state.font ops).flatMap fun shown => distances shown.1 shown.2)
        (run glyphs ops d) := by
  induction ops generalizing d with
  | nil => exact (unlessBeyond_nil d).symm
  | cons op ops ih =>
    -- the strings of the later operations are read in the font that this one leaves
    have font : (perform glyphs d op).state.font = fontAfter d.state.font op :=
      font_perform glyphs d op
    rw [List.foldlM_cons, guardedPerform_eq reads, shownIn, List.flatMap_append, List.flatMap_map]
    refine unlessBeyond_bind ?_
    rw [ih, font]
    rfl

end Reading
end Drawing

namespace Document

variable [Scalar α]

/-- The fonts of a page, made ready to read strings. -/
def fontsOf (doc : Document α) (page : Nat) : List (String × Font α) :=
  (doc.fonts page).map fun (name, entries) => (name, Font.ofDictionary doc entries)

def guardedReader (doc : Document α) (page : Nat) : Drawing.GuardedReader α :=
  fun name bytes => Font.guardedGlyphs ((doc.fontsOf page).lookup name) bytes

/-- The words of a page, unless the walk over its operations is stopped. -/
def guardedWords (doc : Document α) (page : Nat) (ops : List (Operation α)) :
    Except Fault (List (Word α)) :=
  (doc.guardedBox page).bind fun box =>
    (ops.foldlM (Drawing.guardedPerform (doc.guardedReader page))
      (Drawing.start box.left box.top)).map fun d => d.builder.finish

/-- The distances at which the widths of a page are looked up. -/
def distances (doc : Document α) (page : Nat) (ops : List (Operation α)) : List Int :=
  (Drawing.shownIn "" ops).flatMap fun (name, bytes) =>
    ((doc.fontsOf page).lookup name).toList.flatMap (·.distances bytes)

theorem guardedWords_unless (doc : Document α) (page : Nat) (ops : List (Operation α)) :
    doc.guardedWords page ops = unlessBeyond (doc.distances page ops)
      (Drawing.words (doc.glyphReader page) (doc.pageBox page).left (doc.pageBox page).top ops) := by
  have reads (name : String) (bytes : Bytes) : doc.guardedReader page name bytes = _ :=
    Font.guardedGlyphs_eq ((doc.fontsOf page).lookup name) bytes
  rw [guardedWords, guardedBox_eq, Except.bind]
  rw [Drawing.guardedRun_eq reads, unlessBeyond_map]
  rfl

/-- Some string that is shown has a width for each of its bytes and a code so far above the first
code of its font that the difference of the two does not fit in 64 bits. -/
def Overflows (doc : Document α) (page : Nat) (ops : List (Operation α)) : Prop :=
  ∃ shown ∈ Drawing.shownIn "" ops, ∃ f, (doc.fontsOf page).lookup shown.1 = some f ∧
    (f.coding.decode shown.2).length = shown.2.length ∧
      ∃ code ∈ shown.2, f.firstCode.toInt + 2 ^ 63 ≤ code.toNat

theorem overflows_iff (doc : Document α) (page : Nat) (ops : List (Operation α)) :
    doc.Overflows page ops ↔ ∃ d ∈ doc.distances page ops, 2 ^ 63 ≤ d := by
  have beyond (f : Font α) (bytes : Bytes) : (∃ d ∈ f.distances bytes, 2 ^ 63 ≤ d) ↔
      (f.coding.decode bytes).length = bytes.length ∧
        ∃ code ∈ bytes, f.firstCode.toInt + 2 ^ 63 ≤ code.toNat := by
    have far (code : UInt8) :
        2 ^ 63 ≤ f.distance code ↔ f.firstCode.toInt + 2 ^ 63 ≤ code.toNat := by
      rw [Font.distance]
      omega
    rw [Font.distances]
    split_ifs with paired
    · simp only [List.mem_map, exists_exists_and_eq_and, far, paired, true_and]
    · simp [paired]
  simp only [Overflows, distances, List.mem_flatMap, Option.mem_toList]
  constructor
  · rintro ⟨shown, known, f, found, exceeds⟩
    obtain ⟨d, mem, far⟩ := (beyond f shown.2).mpr exceeds
    exact ⟨d, ⟨shown, known, f, found, mem⟩, far⟩
  · rintro ⟨d, ⟨shown, known, f, found, mem⟩, far⟩
    exact ⟨shown, known, f, found, (beyond f shown.2).mp ⟨d, mem, far⟩⟩

instance (doc : Document α) (page : Nat) (ops : List (Operation α)) :
    Decidable (doc.Overflows page ops) := decidable_of_iff' _ (doc.overflows_iff page ops)

/-- Nothing is looked up where it is not, and no slice starts too late: whatever the operations of a
page are, its words are told, unless the difference of a code and the first code of its font
overflows. -/
theorem guardedWords_eq (doc : Document α) (page : Nat) (ops : List (Operation α)) :
    doc.guardedWords page ops =
      if doc.Overflows page ops then .error .overflow
      else .ok (Drawing.words (doc.glyphReader page) (doc.pageBox page).left (doc.pageBox page).top
        ops) := by
  rw [guardedWords_unless, unlessBeyond]
  simp only [overflows_iff]

/-- The greatest first code that stops a page which shows the letter A, and the one after it. -/
theorem low_first_code_overflows :
    let font (first : Int) : Object Float := .dictionary [("Type", .name "Font"),
      ("FirstChar", .integer first), ("Widths", .array [.integer 500])]
    let doc (first : Int) : Document Float := ⟨[(1, .dictionary [("Resources",
      .dictionary [("Font", .dictionary [("F1", font first)])])])], []⟩
    let ops : List (Operation Float) := [⟨"Tf", [.name "F1", .integer 10]⟩, ⟨"Tj", [.string [65]]⟩]
    (doc (65 - 2 ^ 63)).guardedWords 1 ops = .error .overflow ∧
      (doc (66 - 2 ^ 63)).guardedWords 1 ops =
        .ok (Drawing.words ((doc (66 - 2 ^ 63)).glyphReader 1) 0 842 ops) := by
  intro font doc ops
  rw [guardedWords_unless, guardedWords_unless]
  exact ⟨if_pos (by decide +kernel), if_neg (by decide +kernel)⟩

/-- No page is stopped whose fonts begin at a code 256 or more above the least 64-bit number. -/
theorem guardedWords_of_first_codes {doc : Document α} {page : Nat}
    (above : ∀ font ∈ doc.fontsOf page, 256 - 2 ^ 63 ≤ font.2.firstCode.toInt)
    (ops : List (Operation α)) :
    doc.guardedWords page ops = .ok (Drawing.words (doc.glyphReader page) (doc.pageBox page).left
      (doc.pageBox page).top ops) := by
  rw [guardedWords_unless, unlessBeyond, if_neg]
  rw [← overflows_iff]
  rintro ⟨⟨name, bytes⟩, -, f, found, -, code, -, far⟩
  have low : 256 - 2 ^ 63 ≤ f.firstCode.toInt := above (name, f) (mem_of_lookup found)
  have small := code.toNat_lt
  omega

end Document
end Docket.Pdf
