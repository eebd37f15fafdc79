import Docket.Proofs.Order
import Docket.Query.Calculation

/-! The listing of a query's outputs. What a calculation does is told by the outputs in their order
and by nothing else of the listing: where outputs of different orders stand does not matter, nor do
the numbers that put them in order. -/
namespace Docket

/-- An output under another number. -/
def Output.renumbered (f : Nat → Nat) (o : Output) : Output := { o with order := f o.order }

/-- The same outputs in another listing, those of one order as they came. -/
structure Relisted (listed relisted : List Output) : Prop where
  perm : relisted.Perm listed
  ties : ∀ n, (relisted.filter fun o => o.order = n) = listed.filter fun o => o.order = n

variable {listed relisted sorted : List Output}

theorem Relisted.swap {o o' : Output} (apart : o.order ≠ o'.order) (rest : List Output) :
    Relisted (o :: o' :: rest) (o' :: o :: rest) := by
  refine ⟨.swap o o' rest, fun n => ?_⟩
  simp only [List.filter_cons]
  by_cases first : o.order = n
  · have second : o'.order ≠ n := fun same => apart (first.trans same.symm)
    simp [first, second]
  · simp [first]

theorem Relisted.inOrder (same : Relisted listed relisted)
    (order : InOrder Output.order listed sorted) : InOrder Output.order relisted sorted :=
  ⟨order.perm.trans same.perm.symm, order.ascends, fun n => (order.ties n).trans (same.ties n).symm⟩

namespace Query

theorem orderedOutputs_relisted (q : Query) (same : Relisted q.outputs relisted) {f : Nat → Nat}
    (increasing : ∀ o ∈ q.outputs, ∀ o' ∈ q.outputs, o.order < o'.order → f o.order < f o'.order) :
    orderedOutputs { q with outputs := relisted.map (·.renumbered f) } =
      q.orderedOutputs.map (·.renumbered f) := by
  have order : InOrder Output.order relisted q.orderedOutputs :=
    same.inOrder (inOrder_mergeSort Output.order q.outputs)
  have renumbered : InOrder Output.order (relisted.map (·.renumbered f))
      (q.orderedOutputs.map (·.renumbered f)) := by
    refine order.map (fun _ => rfl) fun o known o' known' => ?_
    exact increasing o (same.perm.mem_iff.mp known) o' (same.perm.mem_iff.mp known')
  exact renumbered.unique (inOrder_mergeSort Output.order _)

end Query

namespace Calculation
open Formula

theorem step_renumbered (inputs : Inputs) (p : Progress) (f : Nat → Nat) (o : Output) :
    step inputs p (o.renumbered f) = step inputs p o := rfl

/-- A query calculates the same from another listing of its outputs, as long as outputs of one order
stay as they came, and under other numbers that rise as the first ones do. -/
theorem run_relisted (q : Query) (same : Relisted q.outputs relisted) {f : Nat → Nat}
    (increasing : ∀ o ∈ q.outputs, ∀ o' ∈ q.outputs, o.order < o'.order → f o.order < f o'.order)
    (inputs : Inputs) :
    run { q with outputs := relisted.map (·.renumbered f) } inputs = run q inputs := by
  rw [run, run, q.orderedOutputs_relisted same increasing, List.foldl_map]
  simp only [step_renumbered]
  rfl

def share : Output := ⟨"Share", "[Calculated:Due] / 4", .number, 7⟩

def due : Output := ⟨"Due", "[Input:Gross] - 5", .number, 2⟩

def quarter : Query where
  id := "quarter"
  name := ""
  templateId := none
  outputs := [share, due, ⟨"Tax", "[Calculated:Share] * 2", .currency, 7⟩]
  constants := []

theorem run_relisted_quarter :
    let relisted := due :: share :: quarter.outputs.drop 2
    (Relisted quarter.outputs relisted ∧
      ∀ o ∈ quarter.outputs, ∀ o' ∈ quarter.outputs,
        o.order < o'.order → 10 * o.order + 1 < 10 * o'.order + 1) ∧
    run { quarter with outputs := relisted.map (·.renumbered (10 * · + 1)) } .empty =
      run quarter .empty := by
  intro relisted
  have same : Relisted quarter.outputs relisted := .swap (by decide) _
  have increasing : ∀ o ∈ quarter.outputs, ∀ o' ∈ quarter.outputs,
      o.order < o'.order → 10 * o.order + 1 < 10 * o'.order + 1 := by decide
  exact ⟨⟨same, increasing⟩, run_relisted quarter same increasing .empty⟩

end Calculation
end Docket
