import Docket.Proofs.Query.Members

/-! What a calculation under way tells of its outputs. Its values, its errors and the names that
later formulas see are all determined by the past: what each output came to, the last of a name
counting for the values, any failure for the errors and the last success for later formulas. So
they tell one story exactly as long as no name has both failed and succeeded. -/
namespace Docket.Calculation
open Formula

/-- Errors are there for exactly the outputs without a value, and later formulas see exactly the
values. -/
structure OneStory (p : Progress) : Prop where
  errors : ∀ name, (∃ message, p.result.errors.lookup name = some message) ↔
    p.result.values.lookup name = some none
  calculated : ∀ name x, p.calculated.get? name = some x ↔
    p.result.values.lookup name = some (some x)

def outcome (inputs : Inputs) (p : Progress) (o : Output) : Option Float :=
  match (Formula.run o.formula ⟨inputs, p.calculated⟩).value with
  | .ok raw => some (o.type.finish raw)
  | .error _ => none

def progress (q : Query) (inputs : Inputs) (n : Nat) : Progress :=
  (q.orderedOutputs.take n).foldl (step inputs) (start q)

/-- What the outputs came to so far, the latest first. -/
def past (q : Query) (inputs : Inputs) : Nat → List (String × Option Float)
  | 0 => []
  | n + 1 =>
    match q.orderedOutputs[n]? with
    | some o => (o.name, outcome inputs (progress q inputs n) o) :: past q inputs n
    | none => past q inputs n

def successes (past : List (String × Option Float)) : List (String × Float) :=
  past.filterMap fun (name, value) => value.map (name, ·)

@[simp] theorem successes_success (name : String) (x : Float)
    (past : List (String × Option Float)) :
    successes ((name, some x) :: past) = (name, x) :: successes past := rfl

@[simp] theorem successes_failure (name : String) (past : List (String × Option Float)) :
    successes ((name, none) :: past) = successes past := rfl

/-- A calculation tells of a past what its parts remember of it. -/
structure Tells (p : Progress) (past : List (String × Option Float)) : Prop where
  values : ∀ name, p.result.values.lookup name = past.lookup name
  errors : ∀ name, (∃ message, p.result.errors.lookup name = some message) ↔ (name, none) ∈ past
  calculated : ∀ name, p.calculated.get? name = (successes past).lookup name

theorem start_tells (q : Query) : Tells (start q) [] := by
  constructor
  · intro name
    rfl
  · intro name
    simp [start]
  · intro name
    rfl

theorem step_tells {inputs : Inputs} {p : Progress} {past : List (String × Option Float)}
    (tells : Tells p past) (o : Output) :
    Tells (step inputs p o) ((o.name, outcome inputs p o) :: past) := by
  cases ran : (Formula.run o.formula ⟨inputs, p.calculated⟩).value with
  | ok raw =>
    simp only [step, outcome, ran]
    constructor
    · intro name
      simp only [Json.lookup_insertSorted, lookup_entry, tells.values]
    · intro name
      simp [tells.errors]
    · intro name
      simp only [Names.get?_insert, successes_success, lookup_entry, tells.calculated]
  | error e =>
    simp only [step, outcome, ran]
    constructor
    · intro name
      simp only [Json.lookup_insertSorted, lookup_entry, tells.values]
    · intro name
      by_cases h : name = o.name
      · simp [Json.lookup_insertSorted, h]
      · simp [Json.lookup_insertSorted, h, tells.errors]
    · intro name
      simp only [successes_failure, tells.calculated]

theorem orderedOutputs_length (q : Query) : q.orderedOutputs.length = q.outputs.length :=
  List.length_mergeSort ..

theorem progress_succ (q : Query) (inputs : Inputs) (n : Nat) :
    progress q inputs (n + 1) =
      match q.orderedOutputs[n]? with
      | some o => step inputs (progress q inputs n) o
      | none => progress q inputs n := by
  unfold progress
  rw [List.take_add_one, List.foldl_append]
  cases q.orderedOutputs[n]? <;> rfl

theorem progress_tells (q : Query) (inputs : Inputs) (n : Nat) :
    Tells (progress q inputs n) (past q inputs n) := by
  induction n with
  | zero => exact start_tells q
  | succ n ih =>
    rw [progress_succ, past]
    cases q.orderedOutputs[n]? with
    | none => exact ih
    | some o => exact step_tells ih o

/-- Every name either failed each time or succeeded each time. -/
def Settled (past : List (String × Option Float)) : Prop :=
  ∀ name x, (name, none) ∈ past → (name, some x) ∉ past

theorem mem_successes {past : List (String × Option Float)} {name : String} {x : Float} :
    (name, x) ∈ successes past ↔ (name, some x) ∈ past := by
  simp only [successes, List.mem_filterMap, Prod.exists]
  constructor
  · rintro ⟨key, value, known, same⟩
    cases value with
    | none => simp at same
    | some y =>
      simp only [Option.map_some, Option.some.injEq, Prod.mk.injEq] at same
      obtain ⟨rfl, rfl⟩ := same
      exact known
  · intro known
    exact ⟨name, some x, known, rfl⟩

theorem lookup_successes {past : List (String × Option Float)} (settled : Settled past)
    (name : String) (x : Float) :
    (successes past).lookup name = some x ↔ past.lookup name = some (some x) := by
  induction past with
  | nil => simp [successes]
  | cons e past ih =>
    obtain ⟨key, value⟩ := e
    have earlier : Settled past := fun n y failed success =>
      settled n y (List.mem_cons_of_mem _ failed) (List.mem_cons_of_mem _ success)
    cases value with
    | some y =>
      rw [successes_success, lookup_entry, lookup_entry]
      split
      · simp
      · exact ih earlier
    | none =>
      rw [successes_failure, lookup_entry]
      split
      · rename_i same
        subst same
        constructor
        · -- An earlier success of the name would leave it unsettled.
          intro found
          exact absurd (List.mem_cons_of_mem _ (mem_successes.mp (mem_of_lookup found)))
            (settled name x List.mem_cons_self)
        · intro found
          simp at found
      · exact ih earlier

/-- What a calculation tells is one story exactly while every name is settled. -/
theorem Tells.oneStory_iff {p : Progress} {past : List (String × Option Float)}
    (tells : Tells p past) : OneStory p ↔ Settled past := by
  constructor
  · intro story name x failed success
    obtain ⟨last, found⟩ := lookup_of_mem (mem_successes.mpr success)
    have value := (story.calculated name last).mp (by rw [tells.calculated, found])
    have none := (story.errors name).mp ((tells.errors name).mpr failed)
    rw [value] at none
    simp at none
  · intro settled
    constructor
    · intro name
      rw [tells.errors, tells.values]
      constructor
      · intro failed
        obtain ⟨last, found⟩ := lookup_of_mem failed
        cases last with
        | none => exact found
        | some x => exact absurd (mem_of_lookup found) (settled name x failed)
      · exact mem_of_lookup
    · intro name x
      rw [tells.calculated, tells.values]
      exact lookup_successes settled name x

/-- At every point of a run, values, errors and what later formulas see are one story exactly while
no name has failed and succeeded; the result has the values and errors of the last point. -/
theorem oneStory_iff_settled (q : Query) (inputs : Inputs) :
    (∀ n, OneStory (progress q inputs n) ↔ Settled (past q inputs n)) ∧
      (run q inputs).values = (progress q inputs q.outputs.length).result.values ∧
      (run q inputs).errors = (progress q inputs q.outputs.length).result.errors := by
  refine ⟨fun n => (progress_tells q inputs n).oneStory_iff, ?_⟩
  have whole : run q inputs = (progress q inputs q.outputs.length).result.close := by
    rw [progress, ← orderedOutputs_length, List.take_length, run]
  rw [whole, close]
  split <;> exact ⟨rfl, rfl⟩

def rates : Query where
  id := "rates"
  name := ""
  templateId := none
  outputs :=
    [⟨"Rate", "[Input:Tax] / [Input:Net]", .number, 0⟩, ⟨"Rate", "[Input:Tax]", .number, 1⟩]
  constants := []

theorem quotient_fails (calculated : Names) :
    (Formula.run "[Input:Tax] / [Input:Net]" ⟨.empty, calculated⟩).value =
      .error .divisionByZero := by
  have parsed : parse "[Input:Tax] / [Input:Net]" =
      .ok (.binary .div (.reference ⟨.input, "Tax", none⟩) (.reference ⟨.input, "Net", none⟩)) := by
    cbv
  have unknown (name : String) :
      (Scope.mk .empty calculated).resolve ⟨.input, name, none⟩ = none := rfl
  have zero : ((0.0 : Float) == 0.0) = true := by decide +kernel
  simp [Formula.run, parsed, Expr.evaluate, Expr.eval, BinaryOp.settles, BinaryOp.apply, unknown,
    zero]

theorem tax_known (calculated : Names) :
    (Formula.run "[Input:Tax]" ⟨.empty, calculated⟩).value = .ok 0.0 := by
  have parsed : parse "[Input:Tax]" = .ok (.reference ⟨.input, "Tax", none⟩) := by cbv
  have unknown : (Scope.mk .empty calculated).resolve ⟨.input, "Tax", none⟩ = none := rfl
  have finite : (0.0 : Float).isFinite = true := by decide +kernel
  simp [Formula.run, parsed, Expr.evaluate, Expr.eval, unknown, finite]

/-- A name that first fails and then succeeds has a value and keeps its error. -/
theorem rates_not_oneStory : ¬ OneStory (progress rates .empty rates.outputs.length) := by
  have first : rates.orderedOutputs[0]? =
      some ⟨"Rate", "[Input:Tax] / [Input:Net]", .number, 0⟩ := by cbv
  have second : rates.orderedOutputs[1]? = some ⟨"Rate", "[Input:Tax]", .number, 1⟩ := by cbv
  have known : past rates .empty rates.outputs.length =
      [("Rate", some (OutputType.number.finish 0.0)), ("Rate", none)] := by
    have length : rates.outputs.length = 2 := rfl
    simp only [length, past, first, second, outcome, quotient_fails, tax_known]
  rw [(progress_tells rates .empty rates.outputs.length).oneStory_iff, known]
  intro settled
  exact settled "Rate" (OutputType.number.finish 0.0) (by simp) (by simp)

end Docket.Calculation
