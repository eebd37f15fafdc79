import Docket.Number.Shortest
import Docket.Pdf.PageText

/-! What saving and restoring keep. From a save to the restore that belongs to it, operations come
back to the matrix of the page and to the matrices saved before. The parameters of text are not
saved: they end as the operations in between leave them. -/
namespace Docket.Pdf

variable {α : Type}

namespace TextState

/-- The parameters of text, without the matrices. -/
structure Parameters (α : Type) where
  font : String
  fontSize : α
  charSpacing : α
  wordSpacing : α
  stretch : α
  leading : α
  rise : α

def parameters (s : TextState α) : Parameters α :=
  ⟨s.font, s.fontSize, s.charSpacing, s.wordSpacing, s.stretch, s.leading, s.rise⟩

theorem parameters_restore (s : TextState α) : s.restore.parameters = s.parameters := by
  unfold restore
  split <;> rfl

theorem saved_restore (s : TextState α) : s.restore.saved = s.saved.tail := by
  unfold restore
  split
  · rename_i saved
    rw [saved, List.tail_cons]
  · rename_i saved
    rw [saved, List.tail_nil]

end TextState

namespace Drawing
open TextState (Parameters)

/-- A drawing that differs from another only in its text matrices and words. -/
structure Alongside (d e : Drawing α) : Prop where
  ctm : e.state.ctm = d.state.ctm
  saved : e.state.saved = d.state.saved
  parameters : e.state.parameters = d.state.parameters

theorem Alongside.refl (d : Drawing α) : Alongside d d := ⟨rfl, rfl, rfl⟩

theorem Alongside.trans {d e f : Drawing α} (first : Alongside d e) (second : Alongside e f) :
    Alongside d f :=
  ⟨second.ctm.trans first.ctm, second.saved.trans first.saved,
    second.parameters.trans first.parameters⟩

def saves (ops : List (Operation α)) : Nat := ops.countP (·.operator = "q")

def restores (ops : List (Operation α)) : Nat := ops.countP (·.operator = "Q")

/-- No restore without a save before it, and as many of the one as of the other. -/
structure Balanced (ops : List (Operation α)) : Prop where
  covered : ∀ before, before <+: ops → restores before ≤ saves before
  even : saves ops = restores ops

theorem balanced_iff (ops : List (Operation α)) :
    Balanced ops ↔
      (∀ n ≤ ops.length, restores (ops.take n) ≤ saves (ops.take n)) ∧
        saves ops = restores ops := by
  constructor
  · intro balanced
    exact ⟨fun n _ => balanced.covered _ (List.take_prefix n ops), balanced.even⟩
  · rintro ⟨covered, even⟩
    refine ⟨fun before first => ?_, even⟩
    rw [List.prefix_iff_eq_take.mp first]
    exact covered before.length first.length_le

instance (ops : List (Operation α)) : Decidable (Balanced ops) :=
  decidable_of_iff _ (balanced_iff ops).symm

theorem saves_cons (op : Operation α) (ops : List (Operation α)) :
    saves (op :: ops) = saves [op] + saves ops := by
  rw [saves, ← List.singleton_append, List.countP_append]
  rfl

theorem restores_cons (op : Operation α) (ops : List (Operation α)) :
    restores (op :: ops) = restores [op] + restores ops := by
  rw [restores, ← List.singleton_append, List.countP_append]
  rfl

variable [Scalar α] {glyphs : GlyphReader α}

theorem showText_alongside (bytes : Bytes) (d : Drawing α) :
    Alongside d (d.showText glyphs bytes) := by
  unfold showText
  generalize glyphs d.state.font bytes = shown
  induction shown generalizing d with
  | nil => exact .refl d
  | cons g shown ih =>
    have first : Alongside d (d.showGlyph g.1 g.2) := ⟨rfl, rfl, rfl⟩
    exact first.trans (ih (d.showGlyph g.1 g.2))

theorem showItem_alongside (d : Drawing α) (item : Object α) :
    Alongside d (showItem glyphs d item) := by
  unfold showItem
  split
  · exact showText_alongside _ d
  · split <;> exact ⟨rfl, rfl, rfl⟩

theorem showItems_alongside (items : List (Object α)) (d : Drawing α) :
    Alongside d (items.foldl (showItem glyphs) d) := by
  induction items generalizing d with
  | nil => exact .refl d
  | cons item items ih => exact (showItem_alongside d item).trans (ih _)

theorem showOperand_alongside (operands : List (Object α)) (i : Nat) (d : Drawing α) :
    Alongside d (d.showOperand glyphs operands i) := by
  unfold showOperand
  split
  · exact showText_alongside _ d
  · exact .refl d

theorem setMatrix_alongside (operands : List (Object α)) (d : Drawing α) :
    Alongside d (d.flush.withMatrix operands .setMatrix) := by
  unfold withMatrix
  split <;> exact ⟨rfl, rfl, rfl⟩

/-- What an operation makes of the parameters of text. -/
def adjust (p : Parameters α) (op : Operation α) : Parameters α :=
  let x := operand op.operands 0
  let y := operand op.operands 1
  match op.operator with
  | "Tf" =>
    { p with
      font := ((op.operands[0]?).bind Object.name?).getD p.font
      fontSize := ((op.operands[1]?).bind Object.number?).getD p.fontSize }
  | "Tc" => { p with charSpacing := x }
  | "Tw" => { p with wordSpacing := x }
  | "Tz" => { p with stretch := x / Scalar.ofNat 100 }
  | "TL" => { p with leading := x }
  | "Ts" => { p with rise := x }
  | "TD" => { p with leading := -y }
  | "\"" => { p with wordSpacing := x, charSpacing := y }
  | _ => p

theorem parameters_perform (d : Drawing α) (op : Operation α) :
    (perform glyphs d op).state.parameters = adjust d.state.parameters op := by
  obtain ⟨operator, operands⟩ := op
  unfold perform
  dsimp only
  split
  all_goals try rfl
  · exact TextState.parameters_restore d.state
  · unfold withMatrix
    split <;> rfl
  · exact (setMatrix_alongside operands d).parameters
  · exact (showOperand_alongside operands 0 d).parameters
  · split
    · exact (showItems_alongside _ d).parameters
    · rfl
  · exact (showOperand_alongside operands 0 _).parameters
  · exact (showOperand_alongside operands 2 _).parameters
  · unfold adjust
    split <;> first | contradiction | rfl

/-- The matrices that are saved after an operation. -/
def savedAfter (s : TextState α) (op : Operation α) : List (Matrix α) :=
  if op.operator = "q" then s.ctm :: s.saved
  else if op.operator = "Q" then s.saved.tail
  else s.saved

theorem saved_perform (glyphs : GlyphReader α) (d : Drawing α) (op : Operation α) :
    (perform glyphs d op).state.saved = savedAfter d.state op := by
  obtain ⟨operator, operands⟩ := op
  unfold perform
  dsimp only
  split
  all_goals try rfl
  · exact TextState.saved_restore d.state
  · unfold withMatrix
    split <;> rfl
  · exact (setMatrix_alongside operands d).saved
  · exact (showOperand_alongside operands 0 d).saved
  · split
    · exact (showItems_alongside _ d).saved
    · rfl
  · exact (showOperand_alongside operands 0 _).saved
  · exact (showOperand_alongside operands 2 _).saved
  · rw [savedAfter, if_neg (by assumption), if_neg (by assumption)]

def run (glyphs : GlyphReader α) (ops : List (Operation α)) (d : Drawing α) : Drawing α :=
  ops.foldl (perform glyphs) d

theorem run_append (ops rest : List (Operation α)) (d : Drawing α) :
    run glyphs (ops ++ rest) d = run glyphs rest (run glyphs ops d) := List.foldl_append

theorem parameters_run (ops : List (Operation α)) (d : Drawing α) :
    (run glyphs ops d).state.parameters = ops.foldl adjust d.state.parameters := by
  induction ops generalizing d with
  | nil => rfl
  | cons op ops ih =>
    have rest := ih (perform glyphs d op)
    rw [parameters_perform] at rest
    exact rest

/-- An operation adds to the saved matrices on top, or takes from them while there are any, and
leaves alone those below. -/
theorem saved_step (glyphs : GlyphReader α) (d : Drawing α) (op : Operation α)
    (top base : List (Matrix α)) (saved : d.state.saved = top ++ base)
    (covered : restores [op] ≤ saves [op] + top.length) :
    ∃ top', (perform glyphs d op).state.saved = top' ++ base ∧
      top'.length + restores [op] = top.length + saves [op] := by
  have next := saved_perform glyphs d op
  by_cases save : op.operator = "q"
  · rw [savedAfter, if_pos save, saved] at next
    refine ⟨d.state.ctm :: top, next, ?_⟩
    simp [saves, restores, save]
  · by_cases restore : op.operator = "Q"
    · rw [savedAfter, if_neg save, if_pos restore, saved] at next
      cases top with
      | nil => simp [saves, restores, restore] at covered
      | cons m top => exact ⟨top, next, by simp [saves, restores, restore]⟩
    · rw [savedAfter, if_neg save, if_neg restore, saved] at next
      exact ⟨top, next, by simp [saves, restores, save, restore]⟩

theorem saved_run (glyphs : GlyphReader α) (ops : List (Operation α)) (d : Drawing α)
    (top base : List (Matrix α)) (saved : d.state.saved = top ++ base)
    (covered : ∀ before, before <+: ops → restores before ≤ saves before + top.length) :
    ∃ top', (run glyphs ops d).state.saved = top' ++ base ∧
      top'.length + restores ops = top.length + saves ops := by
  induction ops generalizing d top with
  | nil => exact ⟨top, saved, rfl⟩
  | cons op ops ih =>
    have first := covered [op] (List.cons_prefix_cons.mpr ⟨rfl, List.nil_prefix⟩)
    obtain ⟨middle, saved, count⟩ := saved_step glyphs d op top base saved first
    have rest (before : List (Operation α)) (known : before <+: ops) :
        restores before ≤ saves before + middle.length := by
      have whole := covered (op :: before) (List.cons_prefix_cons.mpr ⟨rfl, known⟩)
      rw [saves_cons, restores_cons] at whole
      omega
    obtain ⟨top', saved', count'⟩ := ih _ middle saved rest
    refine ⟨top', saved', ?_⟩
    rw [saves_cons, restores_cons]
    omega

theorem Balanced.saved_run {ops : List (Operation α)} (balanced : Balanced ops)
    (glyphs : GlyphReader α) (d : Drawing α) :
    (run glyphs ops d).state.saved = d.state.saved := by
  obtain ⟨top, saved, count⟩ := Drawing.saved_run glyphs ops d [] d.state.saved rfl
    fun before first => balanced.covered before first
  have even := balanced.even
  have none : top = [] := List.eq_nil_of_length_eq_zero (by rw [List.length_nil] at count; omega)
  rw [saved, none, List.nil_append]

inductive Parameter
  | font | fontSize | charSpacing | wordSpacing | stretch | leading | rise
deriving DecidableEq

/-- The operators that set a parameter. -/
def Parameter.operators : Parameter → List String
  | font | fontSize => ["Tf"]
  | charSpacing => ["Tc", "\""]
  | wordSpacing => ["Tw", "\""]
  | stretch => ["Tz"]
  | leading => ["TL", "TD"]
  | rise => ["Ts"]

/-- Whether a parameter is the same on two sides. -/
def Parameter.Same (p q : Parameters α) : Parameter → Prop
  | font => p.font = q.font
  | fontSize => p.fontSize = q.fontSize
  | charSpacing => p.charSpacing = q.charSpacing
  | wordSpacing => p.wordSpacing = q.wordSpacing
  | stretch => p.stretch = q.stretch
  | leading => p.leading = q.leading
  | rise => p.rise = q.rise

theorem adjust_same (x : Parameter) (p : Parameters α) (op : Operation α)
    (other : op.operator ∉ x.operators) : x.Same (adjust p op) p := by
  unfold adjust
  dsimp only
  split <;> cases x <;> first | rfl | simp_all [Parameter.operators]

theorem adjusted_same (x : Parameter) (p : Parameters α) (ops : List (Operation α))
    (others : ∀ op ∈ ops, op.operator ∉ x.operators) : x.Same (ops.foldl adjust p) p := by
  induction ops generalizing p with
  | nil => cases x <;> rfl
  | cons op ops ih =>
    have first := adjust_same x p op (others op List.mem_cons_self)
    have rest := ih (adjust p op) fun op known => others op (List.mem_cons_of_mem _ known)
    rw [List.foldl_cons]
    cases x <;> exact rest.trans first

/-- Around balanced operations, saving and restoring bring back the matrix of the page and the
matrices saved before. The parameters of text come out as the operations alone leave them, so one
that none of them sets is as it was. -/
theorem run_saved_restored (ops : List (Operation α)) (balanced : Balanced ops) (d : Drawing α)
    (xs ys : List (Object α)) :
    let after := run glyphs (⟨"q", xs⟩ :: ops ++ [⟨"Q", ys⟩]) d
    after.state.ctm = d.state.ctm ∧ after.state.saved = d.state.saved ∧
      after.state.parameters = (run glyphs ops d).state.parameters ∧
      ∀ x : Parameter, (∀ op ∈ ops, op.operator ∉ x.operators) →
        x.Same after.state.parameters d.state.parameters := by
  have inner := balanced.saved_run glyphs (d.change .save)
  have saved : (run glyphs ops (d.change .save)).state.saved = d.state.ctm :: d.state.saved := inner
  have whole : run glyphs (⟨"q", xs⟩ :: ops ++ [⟨"Q", ys⟩]) d =
      (run glyphs ops (d.change .save)).change .restore := by
    rw [List.cons_append, run, List.foldl_cons, List.foldl_append]
    rfl
  have parameters : (run glyphs (⟨"q", xs⟩ :: ops ++ [⟨"Q", ys⟩]) d).state.parameters =
      ops.foldl adjust d.state.parameters := by
    rw [parameters_run, List.cons_append, List.foldl_cons, List.foldl_append]
    rfl
  refine ⟨?_, ?_, ?_, fun x others => ?_⟩
  · rw [whole, change, TextState.restore, saved]
  · rw [whole, change, TextState.restore, saved]
  · rw [parameters, parameters_run]
  · rw [parameters]
    exact adjusted_same x _ ops others

def scaled : List (Operation Float) :=
  [⟨"cm", [.integer 2, .integer 0, .integer 0, .integer 2, .integer 10, .integer 10]⟩,
    ⟨"q", []⟩, ⟨"Ts", [.integer 3]⟩, ⟨"Q", []⟩]

theorem run_saved_restored_scaled :
    Balanced scaled ∧
      (run (fun _ _ => []) (⟨"q", []⟩ :: scaled ++ [⟨"Q", []⟩])
        (start 0 842 : Drawing Float)).state.ctm = .identity :=
  have balanced : Balanced scaled := by decide
  ⟨balanced, (run_saved_restored scaled balanced (start 0 842) [] []).1⟩

/-- Sets every parameter of text. -/
def headline : List (Operation Float) :=
  [⟨"Tf", [.name "F1", .integer 20]⟩, ⟨"Tc", [.integer 1]⟩, ⟨"Tw", [.integer 2]⟩,
    ⟨"Tz", [.integer 50]⟩, ⟨"TL", [.integer 14]⟩, ⟨"Ts", [.integer 3]⟩]

/-- Parameters set between a save and its restore are not restored. -/
theorem headline_not_restored :
    Balanced headline ∧
      let before : Drawing Float := start 0 842
      let after := run (fun _ _ => []) (⟨"q", []⟩ :: headline ++ [⟨"Q", []⟩]) before
      ∀ x : Parameter, ¬ x.Same after.state.parameters before.state.parameters := by
  refine ⟨by decide, fun x => ?_⟩
  cases x <;> unfold Parameter.Same <;> decide +kernel

end Drawing
end Docket.Pdf
