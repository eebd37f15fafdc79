import Docket.Proofs.Formula.Visits
import Docket.Proofs.Order

/-! What an evaluator has noted after any number of expressions, whether they had values or failed.
Visiting a reference keeps the notes what they are: the references visited so far that have no value,
each where it was first met. An evaluation is a run of visits and a session a run of evaluations. -/
namespace Docket.Formula.Expr

variable (resolve : Resolver)

/-- The references of a list that have no value. -/
def missing (rs : List Reference) : List Reference := rs.filter fun r => (resolve r).isNone

/-- The notes of one evaluator that evaluates the expressions in turn. -/
def notes (es : List Expr) : Unresolved :=
  es.foldl (fun seen e => (e.evaluate resolve seen).2) []

variable {resolve}

theorem notes_snoc (es : List Expr) (e : Expr) :
    notes resolve (es ++ [e]) = (e.evaluate resolve (notes resolve es)).2 := by
  rw [notes, List.foldl_append]
  rfl

theorem missing_append (rs qs : List Reference) :
    missing resolve (rs ++ qs) = missing resolve rs ++ missing resolve qs := List.filter_append rs qs

theorem noted_missing (rs : List Reference) (r : Reference) :
    noted resolve (missing resolve rs).eraseDups r = (missing resolve (rs ++ [r])).eraseDups := by
  rw [missing_append]
  cases known : resolve r with
  | some x => simp [noted, missing, known]
  | none =>
    have new : missing resolve [r] = [r] := by simp [missing, known]
    rw [new, eraseDups_snoc]
    simp only [noted, known, note, List.mem_eraseDups]

theorem foldl_noted_missing (rs qs : List Reference) :
    qs.foldl (noted resolve) (missing resolve rs).eraseDups =
      (missing resolve (rs ++ qs)).eraseDups := by
  induction qs generalizing rs with
  | nil => rw [List.foldl_nil, List.append_nil]
  | cons q qs ih => rw [List.foldl_cons, noted_missing, ih, List.append_assoc, List.singleton_append]

theorem evaluate_notes (e : Expr) (seen : Unresolved) :
    (e.evaluate resolve seen).2 = (e.visited resolve).foldl (noted resolve) seen := by
  unfold evaluate
  rw [reads e]
  cases e.value resolve <;> rfl

/-- After a session, failed or not, exactly the visited references without a value are noted. -/
theorem notes_eq (es : List Expr) :
    notes resolve es = (missing resolve (es.flatMap (visited resolve))).eraseDups := by
  induction es using List.reverseRecOn with
  | nil => rfl
  | append_singleton es e ih =>
    rw [notes_snoc, evaluate_notes, ih, foldl_noted_missing, List.flatMap_append,
      List.flatMap_singleton]

/-- Each evaluation of a session leaves the notes that were there in front, none twice, and in all
they are the references without a value that the session has visited, in the order they were first
met. -/
theorem notes_exact (es : List Expr) (e : Expr) :
    let before := notes resolve es
    let after := (e.evaluate resolve before).2
    before <+: after ∧ after.Nodup ∧
      after = (missing resolve ((es ++ [e]).flatMap (visited resolve))).eraseDups := by
  dsimp only
  rw [← notes_snoc, notes_eq, notes_eq]
  refine ⟨?_, nodup_eraseDups _, rfl⟩
  rw [List.flatMap_append, missing_append]
  exact eraseDups_prefix _ _

/-- A sum that fails behind its first operand, then two names in the other order. -/
example :
    let price : Expr := .reference ⟨.input, "Price", none⟩
    let staff : Expr := .reference ⟨.input, "Staff", none⟩
    let failing : Expr := .binary .add (.binary .div staff (.literal 0.0)) price
    (notes (fun _ => none) [failing, .binary .add price staff]).map Reference.name =
      ["Staff", "Price"] := by
  decide +kernel

end Docket.Formula.Expr
