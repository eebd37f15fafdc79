import Docket.Proofs.Formula.Visits
import Docket.Proofs.Order
import Docket.Proofs.Query.Story

/-! What an output owes to the outputs before it, and to nothing else. Each step of a calculation
adds warnings behind those that are there and touches the entries of its own name alone, so the
outputs behind a point leave the warnings before it and all other names as they are. A reference to
an output that has not been computed has no value: the formula comes to what it comes to with zero
in its place, and a warning says so. -/
namespace Docket

namespace Formula

def zeroed (resolve : Resolver) (r : Reference) : Resolver := fun s =>
  if s = r then some 0.0 else resolve s

theorem zeroed_getD {resolve : Resolver} {r : Reference} (missing : resolve r = none)
    (s : Reference) : (zeroed resolve r s).getD 0.0 = (resolve s).getD 0.0 := by
  unfold zeroed
  split
  · rename_i same
    rw [same, missing]
    rfl
  · rfl

namespace Expr

variable {resolve other : Resolver}

mutual
theorem alike_of_getD (same : ∀ r, (other r).getD 0.0 = (resolve r).getD 0.0) (e : Expr) :
    Alike resolve other e e := by
  match e with
  | .literal x => exact ⟨rfl, rfl⟩
  | .reference r => exact ⟨by rw [value_reference, value_reference, same], rfl⟩
  | .unary op e => exact (alike_of_getD same e).unary op
  | .binary op l r => exact (alike_of_getD same l).binary fun _ _ _ => alike_of_getD same r
  | .call f args =>
    by_cases choice : ∃ c yes no, f = .choice ∧ args = [c, yes, no]
    · match f, args, choice with
      | .choice, [c, yes, no], _ =>
        exact (alike_of_getD same c).choice (fun _ _ _ => alike_of_getD same yes)
          fun _ _ _ => alike_of_getD same no
    · have plain : ∀ c yes no, f = .choice → args = [c, yes, no] → False :=
        fun c yes no is list => choice ⟨c, yes, no, is, list⟩
      exact Alike.call plain rfl fun _ => allAlike_of_getD same args
termination_by structural e

theorem allAlike_of_getD (same : ∀ r, (other r).getD 0.0 = (resolve r).getD 0.0)
    (es : List Expr) : AllAlike resolve other es es := by
  match es with
  | [] => exact ⟨rfl, rfl⟩
  | e :: es => exact AllAlike.cons (alike_of_getD same e) fun _ _ => allAlike_of_getD same es
termination_by structural es
end

theorem evaluate_eq (e : Expr) (seen : Unresolved) :
    e.evaluate resolve seen =
      ((e.value resolve).bind fun x => if x.isFinite then .ok x else .error .nonFinite,
        (e.visited resolve).foldl (noted resolve) seen) := by
  rw [evaluate, reads e]
  cases e.value resolve <;> rfl

theorem mem_note {r s : Reference} {seen : Unresolved} :
    r ∈ note s seen ↔ r = s ∨ r ∈ seen := by
  unfold note
  split
  · rename_i known
    constructor
    · exact .inr
    · rintro (rfl | seen)
      · exact known
      · exact seen
  · simp [or_comm]

theorem mem_noted {r s : Reference} {seen : Unresolved} (known : r ∈ seen) :
    r ∈ noted resolve seen s := by
  unfold noted
  split
  · exact known
  · exact mem_note.mpr (.inr known)

theorem mem_foldl_noted {r : Reference} {rs : List Reference} (missing : resolve r = none)
    {seen : Unresolved} (named : r ∈ rs ∨ r ∈ seen) : r ∈ rs.foldl (noted resolve) seen := by
  induction rs generalizing seen with
  | nil => exact named.resolve_left List.not_mem_nil
  | cons s rs ih =>
    refine ih ?_
    rcases named with named | known
    · rcases List.mem_cons.mp named with rfl | later
      · right
        rw [noted, missing]
        exact mem_note.mpr (.inl rfl)
      · exact .inl later
    · exact .inr (mem_noted known)

end Expr

theorem mem_unresolvedIn {resolve : Resolver} {r : Reference} (missing : resolve r = none)
    {formula : String} (written : ∃ p ∈ Piece.ofChars formula.toList, p.reference? = some r) :
    r ∈ unresolvedIn resolve formula := by
  rw [unresolvedIn]
  -- what was noted before is kept, so that the induction can go on behind the reference
  have named : (∃ p ∈ Piece.ofChars formula.toList, p.reference? = some r) ∨
      r ∈ ([] : Unresolved) := .inl written
  clear written
  generalize Piece.ofChars formula.toList = ps at named ⊢
  generalize ([] : Unresolved) = seen at named ⊢
  induction ps generalizing seen with
  | nil => simpa using named
  | cons p ps ih =>
    refine ih _ ?_
    rcases named with ⟨q, among, read⟩ | known
    · rcases List.mem_cons.mp among with rfl | later
      · right
        simp only [read, missing, Option.isNone_none, if_true]
        exact Expr.mem_note.mpr (.inl rfl)
      · exact .inl ⟨q, later, read⟩
    · right
      dsimp only
      split
      · split
        · exact Expr.mem_note.mpr (.inr known)
        · exact known
      · exact known

/-- Whether a reference has a part in what a formula comes to: evaluation visits it, or the formula
cannot be read and its text names it. -/
def Uses (resolve : Resolver) (formula : String) (r : Reference) : Prop :=
  match parse formula with
  | .ok e => r ∈ e.visited resolve
  | .error _ => ∃ p ∈ Piece.ofChars formula.toList, p.reference? = some r

/-- A reference counts as zero in a formula: it has no value, and the value and the text that the
formula comes to are those with zero in its place. -/
structure CountsAsZero (formula : String) (scope : Scope) (r : Reference) : Prop where
  missing : scope.resolve r = none
  value : (run formula scope).value =
    (parse formula).bind fun e => (e.evaluate (zeroed scope.resolve r) []).1
  text : (run formula scope).substituted = substitute (zeroed scope.resolve r) formula

theorem countsAsZero_of_missing {scope : Scope} {r : Reference} (missing : scope.resolve r = none)
    (formula : String) : CountsAsZero formula scope r := by
  have same := zeroed_getD missing
  refine ⟨missing, ?_, ?_⟩
  · unfold run
    cases parse formula with
    | error e => rfl
    | ok e =>
      show (e.evaluate scope.resolve []).1 = (e.evaluate (zeroed scope.resolve r) []).1
      rw [Expr.evaluate_eq, Expr.evaluate_eq, (Expr.alike_of_getD same e).value]
  · have piece (p : Piece) :
        p.substituted scope.resolve = p.substituted (zeroed scope.resolve r) := by
      unfold Piece.substituted
      split
      · rw [same]
      · rfl
    show substitute scope.resolve formula = _
    rw [substitute, substitute, funext piece]

theorem mem_unresolved {scope : Scope} {r : Reference} (missing : scope.resolve r = none)
    {formula : String} (used : Uses scope.resolve formula r) :
    r ∈ (run formula scope).unresolved := by
  unfold Uses at used
  unfold run
  cases parsed : parse formula with
  | error e =>
    rw [parsed] at used
    exact mem_unresolvedIn missing used
  | ok e =>
    rw [parsed] at used
    show r ∈ (e.evaluate scope.resolve []).2
    rw [Expr.evaluate_eq]
    exact Expr.mem_foldl_noted missing (.inl used)

end Formula

namespace Calculation
open Formula

/-- What a calculation has of an output name: its value, its formula and its error. -/
def entry (c : Calculation) (name : String) :
    Option (Option Float) × Option String × Option String :=
  (c.values.lookup name, c.formulas.lookup name, c.errors.lookup name)

theorem entry_step (inputs : Inputs) (p : Progress) {o : Output} {name : String}
    (other : name ≠ o.name) : (step inputs p o).result.entry name = p.result.entry name := by
  unfold step
  dsimp only
  split <;> simp [entry, Json.lookup_insertSorted, other]

theorem calculated_step (inputs : Inputs) (p : Progress) {o : Output} {name : String}
    (other : name ≠ o.name) : (step inputs p o).calculated.get? name = p.calculated.get? name := by
  unfold step
  dsimp only
  split <;> simp [other]

theorem warnings_step (inputs : Inputs) (p : Progress) (o : Output) :
    (step inputs p o).result.warnings = p.result.warnings ++
      (Formula.run o.formula ⟨inputs, p.calculated⟩).unresolved.map (unresolvedWarning o) := by
  unfold step
  dsimp only
  split <;> rfl

section Outputs
variable (inputs : Inputs) (os : List Output)

theorem warnings_grow (p : Progress) :
    p.result.warnings <+: (os.foldl (step inputs) p).result.warnings := by
  induction os generalizing p with
  | nil => exact List.prefix_refl _
  | cons o os ih =>
    refine List.IsPrefix.trans ?_ (ih (step inputs p o))
    rw [warnings_step]
    exact List.prefix_append _ _

variable {os} {name : String}

theorem entry_foldl (other : name ∉ os.map (·.name)) (p : Progress) :
    (os.foldl (step inputs) p).result.entry name = p.result.entry name := by
  induction os generalizing p with
  | nil => rfl
  | cons o os ih =>
    obtain ⟨here, later⟩ := not_or.mp (mt List.mem_cons.mpr other)
    rw [List.foldl_cons, ih later, entry_step inputs p here]

theorem calculated_foldl (other : name ∉ os.map (·.name)) (p : Progress) :
    (os.foldl (step inputs) p).calculated.get? name = p.calculated.get? name := by
  induction os generalizing p with
  | nil => rfl
  | cons o os ih =>
    obtain ⟨here, later⟩ := not_or.mp (mt List.mem_cons.mpr other)
    rw [List.foldl_cons, ih later, calculated_step inputs p here]

end Outputs

def Progress.under (id : String) (p : Progress) : Progress :=
  { p with result := { p.result with queryId := id } }

theorem step_under (inputs : Inputs) (id : String) (p : Progress) (o : Output) :
    step inputs (p.under id) o = (step inputs p o).under id := by
  have scope : (p.under id).calculated = p.calculated := rfl
  rw [step, step, scope]
  dsimp only
  split <;> rfl

theorem foldl_under (inputs : Inputs) (id : String) (os : List Output) (p : Progress) :
    os.foldl (step inputs) (p.under id) = (os.foldl (step inputs) p).under id := by
  induction os generalizing p with
  | nil => rfl
  | cons o os ih => rw [List.foldl_cons, List.foldl_cons, step_under, ih]

@[simp] theorem warnings_close (c : Calculation) : c.close.warnings = c.warnings := by
  unfold close
  split <;> rfl

@[simp] theorem entry_close (c : Calculation) (name : String) :
    c.close.entry name = c.entry name := by
  unfold close
  split <;> rfl

theorem run_eq_progress (q : Query) (inputs : Inputs) (k : Nat) :
    run q inputs =
      ((q.orderedOutputs.drop k).foldl (step inputs) (progress q inputs k)).result.close := by
  rw [progress, ← List.foldl_append, List.take_append_drop, run]

def firstOutputs (q : Query) (k : Nat) : Query := { q with outputs := q.orderedOutputs.take k }

theorem orderedOutputs_firstOutputs (q : Query) (k : Nat) :
    (firstOutputs q k).orderedOutputs = q.orderedOutputs.take k := by
  have sorted := (inOrder_mergeSort Output.order q.outputs).pairwise
  exact List.mergeSort_of_pairwise (sorted.sublist (List.take_sublist k _))

theorem run_firstOutputs {q q' : Query} {k : Nat}
    (same : q'.orderedOutputs.take k = q.orderedOutputs.take k) (inputs : Inputs) :
    run (firstOutputs q k) inputs = ((progress q' inputs k).under q.id).result.close := by
  have start : start (firstOutputs q k) = (start q').under q.id := rfl
  rw [run, orderedOutputs_firstOutputs, start, foldl_under, progress, same]

theorem resolve_calculated {q : Query} {inputs : Inputs} {k : Nat} {r : Reference}
    (calculated : r.kind = .calculated)
    (ahead : r.name ∉ (q.orderedOutputs.take k).map (·.name)) :
    (Scope.mk inputs (progress q inputs k).calculated).resolve r = none := by
  have known : (Scope.mk inputs (progress q inputs k).calculated).resolve r =
      (progress q inputs k).calculated.get? r.name := by
    simp only [Scope.resolve, calculated]
  rw [known, progress, calculated_foldl inputs ahead]
  rfl

theorem mem_warnings {q : Query} {inputs : Inputs} {k : Nat} {o : Output}
    (here : q.orderedOutputs[k]? = some o) {r : Reference}
    (noted : r ∈ (Formula.run o.formula ⟨inputs, (progress q inputs k).calculated⟩).unresolved) :
    unresolvedWarning o r ∈ (run q inputs).warnings := by
  -- the warning is there right behind this output, and those of the later ones come after it
  rw [run_eq_progress q inputs (k + 1), warnings_close]
  refine (warnings_grow inputs _ _).subset ?_
  rw [progress_succ, here]
  dsimp only
  rw [warnings_step]
  exact List.mem_append_right _ (List.mem_map_of_mem noted)

/-- The first outputs of a query, in their order, come to the same whatever outputs follow them:
their warnings stand before all others, and names that no later output has keep their values,
formulas and errors. A calculated name that has not come up counts as zero in the next output, with
a warning. -/
theorem run_causal (q : Query) (inputs : Inputs) (k : Nat) :
    let first := run (firstOutputs q k) inputs
    InOrder Output.order q.outputs q.orderedOutputs ∧
    (∀ q' : Query, q'.orderedOutputs.take k = q.orderedOutputs.take k →
      first.warnings <+: (run q' inputs).warnings ∧
      ∀ name ∉ (q'.orderedOutputs.drop k).map (·.name),
        (run q' inputs).entry name = first.entry name) ∧
    ∀ o, q.orderedOutputs[k]? = some o →
      ∀ r : Reference, r.kind = .calculated →
        r.name ∉ (q.orderedOutputs.take k).map (·.name) →
        let scope : Scope := ⟨inputs, (progress q inputs k).calculated⟩
        CountsAsZero o.formula scope r ∧
          (Uses scope.resolve o.formula r → unresolvedWarning o r ∈ (run q inputs).warnings) := by
  intro first
  refine ⟨inOrder_mergeSort Output.order q.outputs, ?_, ?_⟩
  · intro q' same
    have point : first = ((progress q' inputs k).under q.id).result.close :=
      run_firstOutputs same inputs
    rw [point, run_eq_progress q' inputs k]
    constructor
    · rw [warnings_close, warnings_close]
      exact warnings_grow inputs _ (progress q' inputs k)
    · intro name later
      rw [entry_close, entry_close, entry_foldl inputs later]
      rfl
  · intro o here r calculated ahead scope
    have missing : scope.resolve r = none := resolve_calculated calculated ahead
    exact ⟨countsAsZero_of_missing missing o.formula,
      fun used => mem_warnings here (mem_unresolved missing used)⟩

def net : Output := ⟨"Net", "[Input:Gross] - 5", .number, 0⟩

def tax : Output := ⟨"Tax", "[Calculated:Total] * [Input:Rate]", .number, 1⟩

def budget (total : String) : Query where
  id := "budget"
  name := ""
  templateId := none
  outputs := [net, tax, ⟨"Total", total, .number, 2⟩]
  constants := []

theorem budget_ordered (total : String) :
    (budget total).orderedOutputs = (budget total).outputs :=
  List.mergeSort_of_pairwise (by simp [budget, net, tax])

theorem run_causal_budget :
    let q := budget "1 / 0"
    let q' := budget "1 +"
    (q'.orderedOutputs.take 1 = q.orderedOutputs.take 1 ∧
      "Net" ∉ (q'.orderedOutputs.drop 1).map (·.name) ∧
      q.orderedOutputs[1]? = some tax ∧ "Total" ∉ (q.orderedOutputs.take 1).map (·.name)) ∧
    (run (firstOutputs q 1) .empty).warnings <+: (run q' .empty).warnings ∧
    (run q' .empty).entry "Net" = (run (firstOutputs q 1) .empty).entry "Net" ∧
    unresolvedWarning tax ⟨.calculated, "Total", none⟩ ∈ (run q .empty).warnings := by
  intro q q'
  have facts : q'.orderedOutputs.take 1 = q.orderedOutputs.take 1 ∧
      "Net" ∉ (q'.orderedOutputs.drop 1).map (·.name) ∧
      q.orderedOutputs[1]? = some tax ∧ "Total" ∉ (q.orderedOutputs.take 1).map (·.name) := by
    simp only [q, q', budget_ordered]
    exact ⟨rfl, by decide, rfl, by decide⟩
  obtain ⟨same, other, here, ahead⟩ := facts
  obtain ⟨-, earlier, next⟩ := run_causal q .empty 1
  obtain ⟨warnings, entries⟩ := earlier q' same
  have total := next tax here ⟨.calculated, "Total", none⟩ rfl ahead
  have parsed : parse tax.formula =
      .ok (.binary .mul (.reference ⟨.calculated, "Total", none⟩)
        (.reference ⟨.input, "Rate", none⟩)) := by cbv
  refine ⟨⟨same, other, here, ahead⟩, warnings, entries "Net" other, total.2 ?_⟩
  simp [Uses, parsed, Expr.visited]

end Calculation
end Docket
