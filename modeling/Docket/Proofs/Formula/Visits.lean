import Docket.Formula.Evaluation

/-! Evaluation reads the references it visits and no others. The visited ones are those that lazy
evaluation from left to right comes to; what is not visited may be taken out of the expression, or
replaced by anything, and neither the value nor the notes change. -/
namespace Docket.Formula.Expr

/-- A call that is not a choice between two branches. -/
theorem eval_call {resolve : Resolver} {f : Builtin} {args : List Expr}
    (plain : ∀ c yes no, f = .choice → args = [c, yes, no] → False) (seen : Unresolved) :
    (call f args).eval resolve seen =
      match f.checkArity args.length with
      | .error e => (.error e, seen)
      | .ok () =>
        match evalAll resolve args seen with
        | (.ok (first :: rest), later) => (f.apply first rest, later)
        | (.ok [], later) => (.error (.arity f 0), later)
        | (.error e, later) => (.error e, later) := by
  rw [eval]
  all_goals first | rfl | exact plain

variable (resolve : Resolver)

def value (e : Expr) : Except Error Float := (e.eval resolve []).1

def values (es : List Expr) : Except Error (List Float) := (evalAll resolve es []).1

mutual
/-- The references that evaluation comes to, from left to right: the right operand of a connective
only if the left one does not settle it, of a choice the condition and the selected branch, of
anything else the operands up to the first error. -/
def visited : Expr → List Reference
  | literal _ => []
  | reference r => [r]
  | unary _ e => visited e
  | binary op left right =>
    visited left ++
      match left.value resolve with
      | .ok a => if op.settles a then [] else visited right
      | .error _ => []
  | call .choice [condition, yes, no] =>
    visited condition ++
      match condition.value resolve with
      | .ok c => if truthy c then visited yes else visited no
      | .error _ => []
  | call f args =>
    match f.checkArity args.length with
    | .ok () => visitedAll args
    | .error _ => []

def visitedAll : List Expr → List Reference
  | [] => []
  | e :: es =>
    visited e ++
      match e.value resolve with
      | .ok _ => visitedAll es
      | .error _ => []
end

/-- The note that visiting a reference leaves. -/
def noted (seen : Unresolved) (r : Reference) : Unresolved :=
  match resolve r with
  | some _ => seen
  | none => note r seen

/-- The value of an expression does not depend on what was noted before, and the new notes are
those of the visited references. -/
def Reads (e : Expr) : Prop :=
  ∀ seen, e.eval resolve seen = (e.value resolve, (e.visited resolve).foldl (noted resolve) seen)

variable {resolve}

theorem reads_reference (r : Reference) : Reads resolve (reference r) := by
  intro seen
  cases known : resolve r <;> simp [value, visited, eval, noted, known]

theorem Reads.unary {e : Expr} (inner : Reads resolve e) (op : UnaryOp) :
    Reads resolve (unary op e) := by
  intro seen
  rw [value, visited, eval, eval, inner seen, inner []]
  cases e.value resolve <;> rfl

theorem Reads.binary {l r : Expr} (left : Reads resolve l) (right : Reads resolve r)
    (op : BinaryOp) : Reads resolve (binary op l r) := by
  intro seen
  rw [value, visited, eval, eval, left seen, left []]
  cases l.value resolve with
  | error e => simp
  | ok a =>
    dsimp only
    split
    · simp
    · rw [right, right, List.foldl_append]
      cases r.value resolve <;> rfl

theorem Reads.choice {c yes no : Expr} (condition : Reads resolve c) (first : Reads resolve yes)
    (second : Reads resolve no) : Reads resolve (call .choice [c, yes, no]) := by
  intro seen
  rw [value, visited, eval, eval, condition seen, condition []]
  cases c.value resolve with
  | error e => simp
  | ok x =>
    dsimp only
    split
    · rw [first, first, List.foldl_append]
    · rw [second, second, List.foldl_append]

theorem evalAll_reads {es : List Expr} (all : ∀ e ∈ es, Reads resolve e) (seen : Unresolved) :
    evalAll resolve es seen =
      (values resolve es, (visitedAll resolve es).foldl (noted resolve) seen) := by
  induction es generalizing seen with
  | nil => rfl
  | cons e es ih =>
    have head := all e List.mem_cons_self
    have tail := ih fun e known => all e (List.mem_cons_of_mem _ known)
    rw [values, visitedAll, evalAll, evalAll, head seen, head []]
    cases e.value resolve with
    | error e => simp
    | ok x =>
      dsimp only
      rw [tail, tail, List.foldl_append]
      cases values resolve es <;> rfl

theorem visited_call {f : Builtin} {args : List Expr}
    (plain : ∀ c yes no, f = .choice → args = [c, yes, no] → False) :
    (call f args).visited resolve =
      match f.checkArity args.length with
      | .ok () => visitedAll resolve args
      | .error _ => [] := by
  rw [visited]
  all_goals first | rfl | exact plain

theorem Reads.call {args : List Expr} (all : ∀ e ∈ args, Reads resolve e) (f : Builtin) :
    Reads resolve (call f args) := by
  by_cases choice : ∃ c yes no, f = .choice ∧ args = [c, yes, no]
  · obtain ⟨c, yes, no, rfl, rfl⟩ := choice
    exact Reads.choice (all c (by simp)) (all yes (by simp)) (all no (by simp))
  · have plain : ∀ c yes no, f = .choice → args = [c, yes, no] → False :=
      fun c yes no same list => choice ⟨c, yes, no, same, list⟩
    intro seen
    rw [value, visited_call plain, eval_call plain, eval_call plain, evalAll_reads all,
      evalAll_reads all]
    cases f.checkArity args.length with
    | error e => rfl
    | ok =>
      rcases values resolve args with _ | _ | ⟨x, xs⟩ <;> rfl

mutual
theorem reads (e : Expr) : Reads resolve e := by
  match e with
  | .literal x => exact fun _ => rfl
  | .reference r => exact reads_reference r
  | .unary op e => exact (reads e).unary op
  | .binary op l r => exact (reads l).binary (reads r) op
  | .call f args => exact .call (readsAll args) f
termination_by structural e

theorem readsAll (es : List Expr) : ∀ e ∈ es, Reads resolve e := by
  match es with
  | [] => exact fun e known => absurd known List.not_mem_nil
  | e :: es =>
    intro d known
    rcases List.mem_cons.mp known with same | known
    · rw [same]
      exact reads e
    · exact readsAll es d known
termination_by structural es
end

theorem value_reference (r : Reference) :
    (reference r).value resolve = .ok ((resolve r).getD 0.0) := by
  rw [value, eval]
  cases resolve r <;> rfl

theorem value_unary (op : UnaryOp) (e : Expr) :
    (unary op e).value resolve = (e.value resolve).map op.apply := by
  rw [value, eval, reads e []]
  cases e.value resolve <;> rfl

theorem value_binary (op : BinaryOp) (l r : Expr) :
    (binary op l r).value resolve = (l.value resolve).bind fun a =>
      if op.settles a then .ok (flag (truthy a)) else (r.value resolve).bind (op.apply a) := by
  rw [value, eval, reads l []]
  cases l.value resolve with
  | error e => rfl
  | ok a =>
    dsimp only [Except.bind]
    split
    · rfl
    · rw [reads r]
      cases r.value resolve <;> rfl

theorem value_choice (c yes no : Expr) :
    (call .choice [c, yes, no]).value resolve = (c.value resolve).bind fun x =>
      if truthy x then yes.value resolve else no.value resolve := by
  rw [value, eval, reads c []]
  cases c.value resolve with
  | error e => rfl
  | ok x =>
    dsimp only [Except.bind]
    split
    · rw [reads yes]
    · rw [reads no]

theorem values_cons (e : Expr) (es : List Expr) :
    values resolve (e :: es) =
      (e.value resolve).bind fun x => (values resolve es).map (x :: ·) := by
  rw [values, evalAll, reads e []]
  cases e.value resolve with
  | error e => rfl
  | ok x =>
    dsimp only [Except.bind]
    rw [evalAll_reads (readsAll es)]
    cases values resolve es <;> rfl

theorem value_call {f : Builtin} {args : List Expr}
    (plain : ∀ c yes no, f = .choice → args = [c, yes, no] → False) :
    (call f args).value resolve = (f.checkArity args.length).bind fun _ =>
      (values resolve args).bind fun
        | first :: rest => f.apply first rest
        | [] => .error (.arity f 0) := by
  rw [value, eval_call plain, evalAll_reads (readsAll args)]
  cases f.checkArity args.length with
  | error e => rfl
  | ok =>
    rcases values resolve args with _ | _ | ⟨x, xs⟩ <;> rfl

variable {other : Resolver}

/-- Two expressions, each under a resolver of its own, have one value and visit the same. -/
structure Alike (resolve other : Resolver) (e e' : Expr) : Prop where
  value : e'.value other = e.value resolve
  visited : e'.visited other = e.visited resolve

structure AllAlike (resolve other : Resolver) (es es' : List Expr) : Prop where
  values : Expr.values other es' = Expr.values resolve es
  visited : visitedAll other es' = visitedAll resolve es

theorem Alike.unary {e e' : Expr} (inner : Alike resolve other e e') (op : UnaryOp) :
    Alike resolve other (unary op e) (unary op e') := by
  constructor
  · rw [value_unary, value_unary, inner.value]
  · rw [Expr.visited, Expr.visited, inner.visited]

theorem Alike.binary {l l' r r' : Expr} {op : BinaryOp} (left : Alike resolve other l l')
    (right : ∀ a, l.value resolve = .ok a → op.settles a = false → Alike resolve other r r') :
    Alike resolve other (binary op l r) (binary op l' r') := by
  constructor
  · rw [value_binary, value_binary, left.value]
    cases known : l.value resolve with
    | error e => rfl
    | ok a =>
      cases settled : op.settles a with
      | true => simp [Except.bind, settled]
      | false => simp [Except.bind, settled, (right a known settled).value]
  · rw [Expr.visited, Expr.visited, left.value, left.visited]
    cases known : l.value resolve with
    | error e => rfl
    | ok a =>
      cases settled : op.settles a with
      | true => simp [settled]
      | false => simp [settled, (right a known settled).visited]

theorem Alike.choice {c c' yes yes' no no' : Expr} (condition : Alike resolve other c c')
    (first : ∀ x, c.value resolve = .ok x → truthy x = true → Alike resolve other yes yes')
    (second : ∀ x, c.value resolve = .ok x → truthy x = false → Alike resolve other no no') :
    Alike resolve other (call .choice [c, yes, no]) (call .choice [c', yes', no']) := by
  constructor
  · rw [value_choice, value_choice, condition.value]
    cases known : c.value resolve with
    | error e => rfl
    | ok x =>
      cases selected : truthy x with
      | true => simp [Except.bind, selected, (first x known selected).value]
      | false => simp [Except.bind, selected, (second x known selected).value]
  · rw [Expr.visited, Expr.visited, condition.value, condition.visited]
    cases known : c.value resolve with
    | error e => rfl
    | ok x =>
      cases selected : truthy x with
      | true => simp [selected, (first x known selected).visited]
      | false => simp [selected, (second x known selected).visited]

theorem AllAlike.cons {e e' : Expr} {es es' : List Expr} (head : Alike resolve other e e')
    (tail : ∀ x, e.value resolve = .ok x → AllAlike resolve other es es') :
    AllAlike resolve other (e :: es) (e' :: es') := by
  constructor
  · rw [values_cons, values_cons, head.value]
    cases known : e.value resolve with
    | error e => rfl
    | ok x => simp [Except.bind, (tail x known).values]
  · rw [visitedAll, visitedAll, head.value, head.visited]
    cases known : e.value resolve with
    | error e => rfl
    | ok x => simp [(tail x known).visited]

theorem Alike.call {f : Builtin} {args args' : List Expr}
    (plain : ∀ c yes no, f = .choice → args = [c, yes, no] → False)
    (length : args'.length = args.length)
    (all : f.checkArity args.length = .ok () → AllAlike resolve other args args') :
    Alike resolve other (call f args) (call f args') := by
  have plain' : ∀ c yes no, f = .choice → args' = [c, yes, no] → False := by
    rintro c yes no same rfl
    match args, length with
    | [c, yes, no], _ => exact plain c yes no same rfl
  constructor
  · rw [value_call plain, value_call plain', length]
    cases accepted : f.checkArity args.length with
    | error e => rfl
    | ok => rw [(all accepted).values]
  · rw [visited_call plain, visited_call plain', length]
    cases accepted : f.checkArity args.length with
    | error e => rfl
    | ok => exact (all accepted).visited

/-- The other resolver gives every reference of a list what the first gives it. -/
def Agrees (resolve other : Resolver) (rs : List Reference) : Prop :=
  ∀ r ∈ rs, other r = resolve r

theorem Agrees.append {rs qs : List Reference} (agree : Agrees resolve other (rs ++ qs)) :
    Agrees resolve other rs ∧ Agrees resolve other qs :=
  ⟨fun r known => agree r (List.mem_append_left _ known),
    fun r known => agree r (List.mem_append_right _ known)⟩

theorem noted_of_agrees {rs : List Reference} (agree : Agrees resolve other rs)
    (seen : Unresolved) : rs.foldl (noted other) seen = rs.foldl (noted resolve) seen := by
  induction rs generalizing seen with
  | nil => rfl
  | cons r rs ih =>
    have same : noted other seen r = noted resolve seen r := by
      rw [noted, noted, agree r List.mem_cons_self]
    rw [List.foldl_cons, List.foldl_cons, same]
    exact ih (fun q known => agree q (List.mem_cons_of_mem _ known)) _

mutual
theorem alike_of_agrees (e : Expr) (agree : Agrees resolve other (e.visited resolve)) :
    Alike resolve other e e := by
  match e with
  | .literal x => exact ⟨rfl, rfl⟩
  | .reference r =>
    have same := agree r List.mem_cons_self
    refine ⟨?_, rfl⟩
    rw [value, value, eval, eval, same]
  | .unary op e => exact (alike_of_agrees e agree).unary op
  | .binary op l r =>
    obtain ⟨left, right⟩ := Agrees.append agree
    refine (alike_of_agrees l left).binary fun a known settled => alike_of_agrees r ?_
    simpa [known, settled] using right
  | .call f args =>
    by_cases choice : ∃ c yes no, f = .choice ∧ args = [c, yes, no]
    · match f, args, choice with
      | .choice, [c, yes, no], _ =>
        obtain ⟨condition, branch⟩ := Agrees.append agree
        refine (alike_of_agrees c condition).choice (fun x known selected => ?_)
          fun x known selected => ?_
        · exact alike_of_agrees yes (by simpa [known, selected] using branch)
        · exact alike_of_agrees no (by simpa [known, selected] using branch)
    · have plain : ∀ c yes no, f = .choice → args = [c, yes, no] → False :=
        fun c yes no same list => choice ⟨c, yes, no, same, list⟩
      refine Alike.call plain rfl fun accepted => allAlike_of_agrees args ?_
      simpa only [visited_call plain, accepted] using agree
termination_by structural e

theorem allAlike_of_agrees (es : List Expr) (agree : Agrees resolve other (visitedAll resolve es)) :
    AllAlike resolve other es es := by
  match es with
  | [] => exact ⟨rfl, rfl⟩
  | e :: es =>
    obtain ⟨head, tail⟩ := Agrees.append agree
    refine AllAlike.cons (alike_of_agrees e head) fun x known => allAlike_of_agrees es ?_
    simpa only [known] using tail
termination_by structural es
end

/-- What stands in the place of what has been taken out. -/
def blank : Expr := .literal 0.0

variable (resolve) in
mutual
/-- The expression without what evaluation does not come to. -/
def pruned : Expr → Expr
  | literal x => literal x
  | reference r => reference r
  | unary op e => unary op (pruned e)
  | binary op left right =>
    binary op (pruned left)
      (match left.value resolve with
      | .ok a => if op.settles a then blank else pruned right
      | .error _ => blank)
  | call .choice [condition, yes, no] =>
    call .choice [pruned condition,
      match condition.value resolve with
      | .ok c => if truthy c then pruned yes else blank
      | .error _ => blank,
      match condition.value resolve with
      | .ok c => if truthy c then blank else pruned no
      | .error _ => blank]
  | call f args =>
    call f (match f.checkArity args.length with
      | .ok () => prunedAll args
      | .error _ => args.map fun _ => blank)

def prunedAll : List Expr → List Expr
  | [] => []
  | e :: es =>
    pruned e ::
      match e.value resolve with
      | .ok _ => prunedAll es
      | .error _ => es.map fun _ => blank
end

theorem pruned_call {f : Builtin} {args : List Expr}
    (plain : ∀ c yes no, f = .choice → args = [c, yes, no] → False) :
    (call f args).pruned resolve =
      call f (match f.checkArity args.length with
        | .ok () => prunedAll resolve args
        | .error _ => args.map fun _ => blank) := by
  rw [pruned]
  all_goals first | rfl | exact plain

theorem length_prunedAll (es : List Expr) : (prunedAll resolve es).length = es.length := by
  induction es with
  | nil => rfl
  | cons e es ih =>
    rw [prunedAll, List.length_cons, List.length_cons]
    cases e.value resolve with
    | ok x => exact congrArg (· + 1) ih
    | error e => exact congrArg (· + 1) (List.length_map _)

mutual
theorem alike_pruned (e : Expr) : Alike resolve resolve e (e.pruned resolve) := by
  match e with
  | .literal x => exact ⟨rfl, rfl⟩
  | .reference r => exact ⟨rfl, rfl⟩
  | .unary op e => exact (alike_pruned e).unary op
  | .binary op l r =>
    rw [pruned]
    refine (alike_pruned l).binary fun a known settled => ?_
    simpa [known, settled] using alike_pruned r
  | .call f args =>
    by_cases choice : ∃ c yes no, f = .choice ∧ args = [c, yes, no]
    · match f, args, choice with
      | .choice, [c, yes, no], _ =>
        rw [pruned]
        refine (alike_pruned c).choice (fun x known selected => ?_) fun x known selected => ?_
        · simpa [known, selected] using alike_pruned yes
        · simpa [known, selected] using alike_pruned no
    · have plain : ∀ c yes no, f = .choice → args = [c, yes, no] → False :=
        fun c yes no same list => choice ⟨c, yes, no, same, list⟩
      rw [pruned_call plain]
      refine Alike.call plain ?_ fun accepted => ?_
      · cases f.checkArity args.length with
        | ok => exact length_prunedAll args
        | error e => exact List.length_map _
      · simpa only [accepted] using allAlike_pruned args
termination_by structural e

theorem allAlike_pruned (es : List Expr) :
    AllAlike resolve resolve es (prunedAll resolve es) := by
  match es with
  | [] => exact ⟨rfl, rfl⟩
  | e :: es =>
    rw [prunedAll]
    refine AllAlike.cons (alike_pruned e) fun x known => ?_
    simpa only [known] using allAlike_pruned es
termination_by structural es
end

theorem Alike.evaluate {e e' : Expr} (alike : Alike resolve other e e')
    (agree : Agrees resolve other (e.visited resolve)) (seen : Unresolved) :
    e'.evaluate other seen = e.evaluate resolve seen := by
  unfold Expr.evaluate
  rw [reads e', reads e, alike.value, alike.visited, noted_of_agrees agree]

/-- Resolvers that agree on the references visited under the first give one result and one list of
unresolved references. That list grows by the visited references without a value, and only what is
left of an expression without the parts that are not visited counts for either. -/
theorem evaluate_of_agrees (e : Expr) (agree : Agrees resolve other (e.visited resolve))
    (seen : Unresolved) :
    e.evaluate other seen = e.evaluate resolve seen ∧
      (e.evaluate resolve seen).2 = (e.visited resolve).foldl (noted resolve) seen ∧
      ∀ e' : Expr, e'.pruned resolve = e.pruned resolve →
        e'.evaluate other seen = e.evaluate resolve seen := by
  refine ⟨(alike_of_agrees e agree).evaluate agree seen, ?_, fun e' same => ?_⟩
  · unfold evaluate
    rw [reads e]
    cases e.value resolve <;> rfl
  · have whole : Alike resolve resolve e (e.pruned resolve) := alike_pruned e
    have alike : Alike resolve resolve e' (e'.pruned resolve) := alike_pruned e'
    rw [same] at alike
    have visited : e'.visited resolve = e.visited resolve := alike.visited.symm.trans whole.visited
    have agree' : Agrees resolve other (e'.visited resolve) := visited ▸ agree
    have both : Alike resolve resolve e e' := ⟨alike.value.symm.trans whole.value, visited⟩
    rw [(alike_of_agrees e' agree').evaluate agree' seen]
    exact both.evaluate (fun _ _ => rfl) seen

def revenue : Reference := ⟨.input, "Revenue", none⟩

/-- A branch that is selected beside one that divides by a name without a value. -/
def bonus : Expr :=
  .call .choice [.binary .gt (.reference revenue) (.literal 1000.0), .reference revenue,
    .binary .div (.literal 1.0) (.reference ⟨.input, "Staff", none⟩)]

def sales (others : Option Float) : Resolver := fun r =>
  if r = revenue then some 1500.0 else others

theorem evaluate_of_agrees_bonus :
    Agrees (sales none) (sales (some 0.0)) (bonus.visited (sales none)) ∧
      bonus.evaluate (sales (some 0.0)) [] = bonus.evaluate (sales none) [] ∧
      (bonus.evaluate (sales none) []).2 =
        (bonus.visited (sales none)).foldl (noted (sales none)) [] := by
  have visits : bonus.visited (sales none) = [revenue, revenue] := by decide +kernel
  have agree : Agrees (sales none) (sales (some 0.0)) (bonus.visited (sales none)) := by
    rw [visits]
    intro r known
    have same : r = revenue := by simpa using known
    rw [same]
    rfl
  obtain ⟨result, notes, -⟩ := evaluate_of_agrees bonus agree []
  exact ⟨agree, result, notes⟩

end Docket.Formula.Expr
