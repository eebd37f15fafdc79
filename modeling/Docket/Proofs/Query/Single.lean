import Docket.Proofs.Number.Whole
import Docket.Query.Calculation

/-! A formula by itself and as the only output of a query. Both evaluate it over the same names, but
only the query rounds what it came to. So a failure is told alike, and a value is the same by both
ways exactly if rounding to the places of a result leaves it, as it leaves every whole number. -/
namespace Docket.Calculation
open Formula

/-- A calculation gives an output what its formula came to by itself. -/
def Agrees (trace : Outcome) (c : Calculation) (name : String) : Prop :=
  match trace.value with
  | .ok x => c.values = [(name, some x)] ∧ c.errors = []
  | .error e => c.values = [(name, none)] ∧ c.errors = [(name, e.message)]

section Single
variable {q : Query} {o : Output} {inputs : Inputs}

theorem run_single (single : q.outputs = [o]) :
    run q inputs = (step inputs (start q) o).result.close := by
  have ordered : q.orderedOutputs = [o] := by
    rw [Query.orderedOutputs, single, List.mergeSort_singleton]
  rw [run, ordered, List.foldl_cons, List.foldl_nil]

theorem close_values (c : Calculation) : c.close.values = c.values ∧ c.close.errors = c.errors := by
  rw [close]
  split <;> exact ⟨rfl, rfl⟩

theorem run_single_of_ok (single : q.outputs = [o]) {x : Float}
    (value : (Formula.run o.formula ⟨inputs, .empty⟩).value = .ok x) :
    (run q inputs).values = [(o.name, some (o.type.finish x))] ∧ (run q inputs).errors = [] := by
  have closed := close_values (step inputs (start q) o).result
  rw [run_single single, closed.1, closed.2, step]
  simp only [start, value, Json.insertSorted, and_self]

theorem run_single_of_error (single : q.outputs = [o]) {e : Error}
    (value : (Formula.run o.formula ⟨inputs, .empty⟩).value = .error e) :
    (run q inputs).values = [(o.name, none)] ∧
      (run q inputs).errors = [(o.name, e.message)] := by
  have closed := close_values (step inputs (start q) o).result
  rw [run_single single, closed.1, closed.2, step]
  simp only [start, value, Json.insertSorted, and_self]

/-- The only output of a query, a number, agrees with its formula by itself exactly if rounding
leaves the value; what it has is the value rounded. Failures always agree, and so do whole numbers. -/
theorem run_agrees_iff (single : q.outputs = [o]) (number : o.type = .number) (inputs : Inputs) :
    let trace := Formula.run o.formula ⟨inputs, .empty⟩
    (Agrees trace (run q inputs) o.name ↔ ∀ x, trace.value = .ok x → roundDecimal x places = x) ∧
      (∀ x, trace.value = .ok x →
        (run q inputs).values = [(o.name, some (roundDecimal x places))]) ∧
      (∀ e, trace.value = .error e → Agrees trace (run q inputs) o.name) ∧
      ∀ x, trace.value = .ok x → Double.Whole x → Agrees trace (run q inputs) o.name := by
  intro trace
  have finish (x : Float) : o.type.finish x = roundDecimal x places := by
    rw [number, OutputType.finish]
  have values (x : Float) (value : trace.value = .ok x) :
      (run q inputs).values = [(o.name, some (roundDecimal x places))] := by
    rw [(run_single_of_ok single value).1, finish]
  have agrees : Agrees trace (run q inputs) o.name ↔
      ∀ x, trace.value = .ok x → roundDecimal x places = x := by
    unfold Agrees
    cases value : trace.value with
    | error e => simpa using run_single_of_error single value
    | ok x =>
      simp [values x value, (run_single_of_ok single value).2]
  refine ⟨agrees, values, fun e failed => agrees.mpr ?_, fun x value whole => agrees.mpr ?_⟩
  · intro x value
    rw [failed] at value
    cases value
  · intro y other
    rw [value] at other
    cases other
    exact roundDecimal_whole whole places

end Single

def each : Output := ⟨"Each", "[Input:Total] / [Input:Count]", .number, 0⟩

def shares : Query := ⟨"shares", "", none, [each], []⟩

def totalOf (total : Float) : Inputs :=
  ⟨⟨[("Count", 3.0), ("Total", total)]⟩, .empty, .empty⟩

theorem each_value {total : Float} (finite : (total / 3.0).isFinite = true) :
    (Formula.run each.formula ⟨totalOf total, .empty⟩).value = .ok (total / 3.0) := by
  have parsed : parse each.formula =
      .ok (.binary .div (.reference ⟨.input, "Total", none⟩) (.reference ⟨.input, "Count", none⟩)) := by
    cbv
  have dividend : (Scope.mk (totalOf total) .empty).resolve ⟨.input, "Total", none⟩ = some total :=
    rfl
  have divisor : (Scope.mk (totalOf total) .empty).resolve ⟨.input, "Count", none⟩ = some 3.0 := rfl
  have nonzero : ((3.0 : Float) == 0.0) = false := by decide +kernel
  simp [Formula.run, parsed, Expr.evaluate, Expr.eval, BinaryOp.settles, BinaryOp.apply, dividend,
    divisor, nonzero, finite]

/-- Twelve in three shares comes out as four by both ways. -/
theorem run_agrees_iff_twelve :
    shares.outputs = [each] ∧ each.type = .number ∧
      Agrees (Formula.run each.formula ⟨totalOf 12.0, .empty⟩) (run shares (totalOf 12.0)) "Each" := by
  have four : (12.0 / 3.0 : Float) = Float.ofNat 4 := by decide +kernel
  have finite : (12.0 / 3.0 : Float).isFinite = true := by decide +kernel
  refine ⟨rfl, rfl, (run_agrees_iff rfl rfl (totalOf 12.0)).2.2.2 _ (each_value finite) ?_⟩
  exact ⟨4, by decide, Or.inl four⟩

/-- Ten in three shares keeps all its digits by itself and ten places in a query. -/
theorem thirds_differ :
    (Formula.run each.formula ⟨totalOf 10.0, .empty⟩).value = .ok 3.3333333333333335 ∧
      (run shares (totalOf 10.0)).values = [("Each", some 3.3333333333)] ∧
      ¬ Agrees (Formula.run each.formula ⟨totalOf 10.0, .empty⟩) (run shares (totalOf 10.0))
        "Each" := by
  have third : (10.0 / 3.0 : Float) = 3.3333333333333335 := by decide +kernel
  have finite : (10.0 / 3.0 : Float).isFinite = true := by decide +kernel
  have rounded : each.type.finish 3.3333333333333335 = 3.3333333333 := by decide +kernel
  have other : (3.3333333333 : Float) ≠ 3.3333333333333335 := by decide +kernel
  have value := each_value finite
  rw [third] at value
  have values : (run shares (totalOf 10.0)).values = [("Each", some 3.3333333333)] := by
    have only := (run_single_of_ok (q := shares) rfl value).1
    rwa [rounded] at only
  refine ⟨value, values, ?_⟩
  rw [Agrees, value]
  simp only [values, List.cons.injEq, Prod.mk.injEq, Option.some.injEq, and_true, true_and]
  exact fun same => other same.1

end Docket.Calculation
