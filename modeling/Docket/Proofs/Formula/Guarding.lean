import Docket.Proofs.Formula.Visits
import Docket.Proofs.Number.Nearest

/-! Evaluation with everything that could stop a program guarded: arguments looked up by their
place, the arm of a choice behind its arguments, and the negation of a digit count. Arities are
checked before arguments are looked up, so neither of the first two ever stops an evaluation. The
third does for one count, the least one, whose negation does not fit in 32 bits; every digit count
from there downwards is narrowed to it. -/
namespace Docket.Formula

/-- What stops a program, which then gives neither a value nor an error. -/
inductive Fault
  | missing
  | unreachable
  | overflow
deriving DecidableEq

/-- The outcome unless the least of the 32-bit numbers is among the counts. -/
def unlessLeast {α : Type} (counts : List Int32) (outcome : α) : Except Fault α :=
  if Int32.minValue ∈ counts then .error .overflow else .ok outcome

section Outcomes
variable {α β : Type} {counts more : List Int32} {a : α} {b : β} {next : α → Except Fault β}

theorem unlessLeast_bind (follows : next a = unlessLeast more b) :
    (unlessLeast counts a).bind next = unlessLeast (counts ++ more) b := by
  unfold unlessLeast at follows ⊢
  by_cases least : Int32.minValue ∈ counts
  · simp [least, Except.bind]
  · simp [least, Except.bind, follows]

theorem unlessLeast_then (follows : next a = .ok b) :
    (unlessLeast counts a).bind next = unlessLeast counts b := by
  have whole : (unlessLeast counts a).bind next = unlessLeast (counts ++ []) b :=
    unlessLeast_bind follows
  rwa [List.append_nil] at whole

end Outcomes

/-- The value at a place. -/
def valueAt (values : List Float) (place : Nat) : Except Fault Float :=
  match values[place]? with
  | some x => .ok x
  | none => .error .missing

def negated (n : Int32) : Except Fault Int32 :=
  if n = Int32.minValue then .error .overflow else .ok (-n)

def guardedRound (x : Float) (places : Int32) : Except Fault Float :=
  if 0 ≤ places then
    let factor := Rounding.powi 10.0 places
    .ok (Rounding.round (x * factor) / factor)
  else
    (negated places).map fun opposite =>
      let factor := Rounding.powi 10.0 opposite
      Rounding.round (x / factor) * factor

theorem clamp_eq_least {lo hi : Int} (ends : lo < hi) (n : Int) :
    Rounding.clamp lo hi n = lo ↔ n ≤ lo := by
  unfold Rounding.clamp
  split_ifs <;> omega

/-- All from the least 32-bit number downwards goes to it. -/
theorem toInt32_eq_minValue {x : Float} {d : Dyadic} (value : Dyadic.ofFloat? x = some d) :
    Rounding.toInt32 x = Int32.minValue ↔ d.negative = true ∧ 2 ^ 31 ≤ d.truncated := by
  have width : (twoTo 31 : Int) = 2 ^ 31 := rfl
  have ends : -(2 ^ 31 : Int) < 2 ^ 31 - 1 := by decide
  obtain ⟨low, high⟩ := Double.clamp_bounds ends.le (Dyadic.signed d.negative d.truncated)
  rw [Rounding.toInt32, Rounding.toRange, value, ← Int32.toInt_inj, width]
  dsimp only
  rw [Int32.toInt_ofInt_of_le low (Int.lt_of_le_sub_one high), Int32.toInt_minValue,
    clamp_eq_least ends]
  cases d.negative
  · have above : ¬ (d.truncated : Int) ≤ -2 ^ 31 := by omega
    exact iff_of_false above (by simp)
  · simp [Dyadic.signed]

theorem guardedRound_eq (x : Float) (places : Int32) :
    guardedRound x places = unlessLeast [places] (roundTo x places) := by
  unfold guardedRound roundTo unlessLeast negated
  by_cases least : places = Int32.minValue
  · subst least
    rfl
  · have other : Int32.minValue ∉ [places] := by simpa [eq_comm] using least
    rw [if_neg least, if_neg other]
    split <;> rfl

namespace Builtin

/-- The digit count that a function rounds to. -/
def digitCounts : Builtin → List Float → List Int32
  | round, values =>
    let places := values[1]?.getD 0.0
    if places.isFinite then [Rounding.toInt32 places] else []
  | _, _ => []

/-- A function of the values of its arguments. -/
def guardedApply (f : Builtin) (values : List Float) : Except Fault (Except Error Float) :=
  (valueAt values 0).bind fun first =>
    match f with
    | choice => .error .unreachable
    | power => (valueAt values 1).map fun second => .ok (first ^ second)
    | round =>
      let places := values[1]?.getD 0.0
      if places.isFinite then (guardedRound first (Rounding.toInt32 places)).map .ok
      else .ok (.error (.domain f places))
    | _ => .ok (f.apply first (values.drop 1))

theorem guardedApply_eq {f : Builtin} (other : f ≠ choice) {first : Float} {rest : List Float}
    (accepted : f.checkArity (rest.length + 1) = .ok ()) :
    f.guardedApply (first :: rest) =
      unlessLeast (f.digitCounts (first :: rest)) (f.apply first rest) := by
  cases f with
  | choice => exact absurd rfl other
  | power =>
    match rest, accepted with
    | second :: rest, _ => rfl
  | round =>
    have places : rest.headD 0.0 = rest[0]?.getD 0.0 := by cases rest <;> rfl
    simp only [guardedApply, digitCounts, apply, valueAt, List.getElem?_cons_zero,
      List.getElem?_cons_succ, Except.bind, places]
    split
    · rw [guardedRound_eq, unlessLeast, unlessLeast]
      split <;> rfl
    · rfl
  | _ => rfl

end Builtin

namespace Expr
variable (resolve : Resolver)

mutual
/-- Evaluation by the places of the arguments. -/
def guarded : Expr → Unresolved → Except Fault (Except Error Float × Unresolved)
  | literal x, seen => .ok (.ok x, seen)
  | reference r, seen =>
    match resolve r with
    | some x => .ok (.ok x, seen)
    | none => .ok (.ok 0.0, note r seen)
  | unary op e, seen =>
    (guarded e seen).bind fun
      | (.ok x, seen) => .ok (.ok (op.apply x), seen)
      | failed => .ok failed
  | binary op left right, seen =>
    (guarded left seen).bind fun
      | (.ok a, seen) =>
        if op.settles a then .ok (.ok (flag (truthy a)), seen)
        else
          (guarded right seen).bind fun
            | (.ok b, seen) => .ok (op.apply a b, seen)
            | failed => .ok failed
      | failed => .ok failed
  | call f args, seen =>
    match f.checkArity args.length with
    | .error e => .ok (.error e, seen)
    | .ok () =>
      if f = .choice then
        (guardedAt args 0 seen).bind fun
          | (.ok c, seen) => guardedAt args (if truthy c then 1 else 2) seen
          | failed => .ok failed
      else
        (guardedAll args seen).bind fun
          | (.ok values, seen) => (f.guardedApply values).map fun result => (result, seen)
          | (.error e, seen) => .ok (.error e, seen)

/-- The argument at a place alone. -/
def guardedAt : List Expr → Nat → Unresolved → Except Fault (Except Error Float × Unresolved)
  | [], _, _ => .error .missing
  | e :: _, 0, seen => guarded e seen
  | _ :: es, place + 1, seen => guardedAt es place seen

/-- The values of all arguments. -/
def guardedAll : List Expr → Unresolved → Except Fault (Except Error (List Float) × Unresolved)
  | [], seen => .ok (.ok [], seen)
  | e :: es, seen =>
    (guarded e seen).bind fun
      | (.ok x, seen) =>
        (guardedAll es seen).bind fun
          | (.ok xs, seen) => .ok (.ok (x :: xs), seen)
          | failed => .ok failed
      | (.error e, seen) => .ok (.error e, seen)
end

mutual
/-- The digit counts that evaluation rounds to, in the order and as lazily as it does. -/
def digitCounts : Expr → List Int32
  | literal _ => []
  | reference _ => []
  | unary _ e => digitCounts e
  | binary op left right =>
    digitCounts left ++
      match left.value resolve with
      | .ok a => if op.settles a then [] else digitCounts right
      | .error _ => []
  | call .choice [condition, yes, no] =>
    digitCounts condition ++
      match condition.value resolve with
      | .ok c => if truthy c then digitCounts yes else digitCounts no
      | .error _ => []
  | call f args =>
    match f.checkArity args.length with
    | .ok () =>
      allDigitCounts args ++
        match values resolve args with
        | .ok xs => f.digitCounts xs
        | .error _ => []
    | .error _ => []

def allDigitCounts : List Expr → List Int32
  | [] => []
  | e :: es =>
    digitCounts e ++
      match e.value resolve with
      | .ok _ => allDigitCounts es
      | .error _ => []
end

/-- Nothing but the least digit count stops the evaluation, and else it goes as without guards. -/
def Stops (e : Expr) : Prop :=
  ∀ seen, e.guarded resolve seen = unlessLeast (e.digitCounts resolve) (e.eval resolve seen)

variable {resolve}

theorem stops_reference (r : Reference) : Stops resolve (reference r) := by
  intro seen
  rw [guarded, eval]
  cases resolve r <;> rfl

theorem Stops.unary {e : Expr} (inner : Stops resolve e) (op : UnaryOp) :
    Stops resolve (unary op e) := by
  intro seen
  rw [guarded, inner seen, digitCounts, eval]
  refine unlessLeast_then ?_
  rcases e.eval resolve seen with ⟨_ | x, later⟩ <;> rfl

theorem Stops.binary {l r : Expr} (left : Stops resolve l) (right : Stops resolve r)
    (op : BinaryOp) : Stops resolve (binary op l r) := by
  intro seen
  rw [guarded, left seen, digitCounts, eval, reads l]
  refine unlessLeast_bind ?_
  cases l.value resolve with
  | error e => rfl
  | ok a =>
    dsimp only
    split
    · rfl
    · rw [right]
      refine unlessLeast_then ?_
      rcases r.eval resolve _ with ⟨_ | b, later⟩ <;> rfl

theorem guardedAt_eq {es : List Expr} (all : ∀ e ∈ es, Stops resolve e) {place : Nat} {e : Expr}
    (found : es[place]? = some e) (seen : Unresolved) :
    guardedAt resolve es place seen =
      unlessLeast (e.digitCounts resolve) (e.eval resolve seen) := by
  induction es generalizing place with
  | nil => cases found
  | cons d es ih =>
    cases place with
    | zero =>
      cases found
      exact all e List.mem_cons_self seen
    | succ place => exact ih (fun e known => all e (List.mem_cons_of_mem _ known)) found

theorem Stops.choice {c yes no : Expr} (all : ∀ e ∈ [c, yes, no], Stops resolve e) :
    Stops resolve (call .choice [c, yes, no]) := by
  intro seen
  have condition : guardedAt resolve [c, yes, no] 0 seen =
      unlessLeast (c.digitCounts resolve) (c.eval resolve seen) := guardedAt_eq all rfl seen
  have accepted : Builtin.choice.checkArity [c, yes, no].length = .ok () := rfl
  rw [guarded, accepted]
  dsimp only
  rw [if_pos rfl, condition, digitCounts, eval, reads c]
  refine unlessLeast_bind ?_
  cases c.value resolve with
  | error e => rfl
  | ok x =>
    dsimp only
    split
    · exact guardedAt_eq all rfl _
    · exact guardedAt_eq all rfl _

theorem guardedAll_eq {es : List Expr} (all : ∀ e ∈ es, Stops resolve e) (seen : Unresolved) :
    guardedAll resolve es seen =
      unlessLeast (allDigitCounts resolve es) (evalAll resolve es seen) := by
  induction es generalizing seen with
  | nil => rfl
  | cons e es ih =>
    have tail := ih fun e known => all e (List.mem_cons_of_mem _ known)
    rw [guardedAll, all e List.mem_cons_self seen, allDigitCounts, evalAll, reads e]
    refine unlessLeast_bind ?_
    cases e.value resolve with
    | error e => rfl
    | ok x =>
      dsimp only
      rw [tail]
      refine unlessLeast_then ?_
      rcases evalAll resolve es _ with ⟨_ | xs, later⟩ <;> rfl

theorem digitCounts_call {f : Builtin} {args : List Expr}
    (plain : ∀ c yes no, f = .choice → args = [c, yes, no] → False) :
    (call f args).digitCounts resolve =
      match f.checkArity args.length with
      | .ok () =>
        allDigitCounts resolve args ++
          match values resolve args with
          | .ok xs => f.digitCounts xs
          | .error _ => []
      | .error _ => [] := by
  rw [digitCounts]
  all_goals first | rfl | exact plain

theorem length_values {es : List Expr} {xs : List Float} (known : values resolve es = .ok xs) :
    xs.length = es.length := by
  induction es generalizing xs with
  | nil =>
    cases known
    rfl
  | cons e es ih =>
    rw [values_cons] at known
    cases head : e.value resolve with
    | error e =>
      rw [head] at known
      cases known
    | ok x =>
      cases tail : values resolve es with
      | error e =>
        rw [head, tail] at known
        cases known
      | ok ys =>
        rw [head, tail] at known
        cases known
        rw [List.length_cons, List.length_cons, ih tail]

theorem length_of_choice {args : List Expr}
    (accepted : Builtin.choice.checkArity args.length = .ok ()) :
    ∃ c yes no, args = [c, yes, no] := by
  match args, accepted with
  | [c, yes, no], _ => exact ⟨c, yes, no, rfl⟩
  | _ :: _ :: _ :: _ :: rest, accepted =>
    simp [Builtin.checkArity, Arity.accepts, Builtin.arity] at accepted

theorem Stops.call {args : List Expr} (all : ∀ e ∈ args, Stops resolve e) (f : Builtin) :
    Stops resolve (call f args) := by
  by_cases choice : ∃ c yes no, f = .choice ∧ args = [c, yes, no]
  · obtain ⟨c, yes, no, rfl, rfl⟩ := choice
    exact Stops.choice all
  · have plain : ∀ c yes no, f = .choice → args = [c, yes, no] → False :=
      fun c yes no same list => choice ⟨c, yes, no, same, list⟩
    intro seen
    rw [guarded, digitCounts_call plain, eval_call plain, evalAll_reads (readsAll args)]
    cases accepted : f.checkArity args.length with
    | error e => rfl
    | ok =>
      have other : f ≠ .choice := by
        rintro rfl
        obtain ⟨c, yes, no, three⟩ := length_of_choice accepted
        exact plain c yes no rfl three
      dsimp only
      rw [if_neg other, guardedAll_eq all]
      refine unlessLeast_bind ?_
      rw [evalAll_reads (readsAll args)]
      cases known : values resolve args with
      | error e => rfl
      | ok xs =>
        rw [← length_values known] at accepted
        dsimp only
        cases xs with
        | nil => cases f <;> cases accepted
        | cons x xs =>
          rw [Builtin.guardedApply_eq other accepted]
          unfold unlessLeast
          split <;> rfl

mutual
theorem stops (e : Expr) : Stops resolve e := by
  match e with
  | .literal x => exact fun _ => rfl
  | .reference r => exact stops_reference r
  | .unary op e => exact (stops e).unary op
  | .binary op l r => exact (stops l).binary (stops r) op
  | .call f args => exact .call (stopsAll args) f
termination_by structural e

theorem stopsAll (es : List Expr) : ∀ e ∈ es, Stops resolve e := by
  match es with
  | [] => exact fun e known => absurd known List.not_mem_nil
  | e :: es =>
    intro d known
    rcases List.mem_cons.mp known with same | known
    · rw [same]
      exact stops e
    · exact stopsAll es d known
termination_by structural es
end

variable (resolve) in
/-- The guarded value if it is finite. -/
def guardedEvaluate (e : Expr) (seen : Unresolved) :
    Except Fault (Except Error Float × Unresolved) :=
  (e.guarded resolve seen).bind fun
    | (.ok x, seen) => .ok (if x.isFinite then .ok x else .error .nonFinite, seen)
    | failed => .ok failed

/-- An evaluation is stopped exactly if it comes to the least digit count, by an overflow. -/
theorem guardedEvaluate_eq (e : Expr) (seen : Unresolved) :
    e.guardedEvaluate resolve seen =
      if Int32.minValue ∈ e.digitCounts resolve then .error .overflow
      else .ok (e.evaluate resolve seen) := by
  rw [guardedEvaluate, stops e seen]
  refine unlessLeast_then ?_
  unfold evaluate
  rcases e.eval resolve seen with ⟨_ | x, later⟩ <;> rfl

/-- The first digit count that stops an evaluation, and the one before it. -/
theorem least_digits_overflow :
    let rounded (digits : Float) : Expr := .call .round [.literal 1.0, .unary .neg (.literal digits)]
    (rounded 2147483648.0).guardedEvaluate (fun _ => none) [] = .error .overflow ∧
      (rounded 2147483647.0).guardedEvaluate (fun _ => none) [] =
        .ok ((rounded 2147483647.0).evaluate (fun _ => none) []) := by
  decide +kernel

end Expr
end Docket.Formula
