import Docket.Proofs.Formula.Parsing
import Docket.Proofs.Formula.Substitution
import Docket.Proofs.Formula.Visits

/-! The substituted text of a formula replays its evaluation. Its derivation is that of the formula
with a number, or a negated number in parentheses, in place of each reference; so it is read as the
expression with values in place of references, which evaluates alike where no name has a value. -/
namespace Docket.Formula
open Formula.Grammar

namespace Grammar

theorem apart_of_mark_left {t : Token} (mark : t.isWord = false) (u : Token) : Apart t u := by
  rw [Apart, mark, Bool.false_and]

theorem apart_of_mark_right {u : Token} (mark : u.isWord = false) (t : Token) : Apart t u := by
  rw [Apart, mark, Bool.and_false]

theorem isChain_cons_mark {t : Token} (mark : t.isWord = false) {ts : List Token}
    (apart : ts.IsChain Apart) : (t :: ts).IsChain Apart :=
  List.isChain_cons.mpr ⟨fun u _ => apart_of_mark_left mark u, apart⟩

theorem isChain_append_mark {t : Token} (mark : t.isWord = false) {before after : List Token}
    (left : before.IsChain Apart) (right : after.IsChain Apart) :
    (before ++ t :: after).IsChain Apart :=
  List.isChain_append.mpr ⟨left, isChain_cons_mark mark right, fun u _ v head => by
    cases Option.some.inj head
    exact apart_of_mark_right mark u⟩

theorem Leads.mark {t : Token} {op : UnaryOp} (leads : Leads t op) : t.isWord = false := by
  cases leads <;> rfl

theorem Joins.mark {k : Level} {t : Token} {op : BinaryOp} (joins : Joins k t op) :
    t.isWord = false := by
  cases joins <;> rfl

mutual
/-- No two words stand next to each other in a formula. -/
theorem Derivation.apart {s : Symbol} (d : Derivation s) : d.tokens.IsChain Apart := by
  match s, d with
  | _, .level first rest => exact rest.apart first.apart
  | _, .lead t op leads inner => exact isChain_cons_mark leads.mark inner.apart
  | _, .power inner => exact inner.apart
  | _, .base inner => exact inner.apart
  | _, .raise base exponent => exact isChain_append_mark rfl base.apart exponent.apart
  | _, .number x => exact .singleton _
  | _, .reference r => exact .singleton _
  | _, .group inner => exact isChain_cons_mark rfl (isChain_append_mark rfl inner.apart .nil)
  | _, .call name f named arity args =>
    have inner := isChain_append_mark (t := .rightParen) rfl args.apart .nil
    exact isChain_append_mark (t := .leftParen) rfl (.singleton (.ident name)) inner
termination_by structural d

theorem Chain.apart {k : Level} (c : Chain k) {before : List Token}
    (left : before.IsChain Apart) : (before ++ c.tokens).IsChain Apart := by
  match c with
  | .done => rwa [Chain.tokens, List.append_nil]
  | .join t op joins right rest =>
    exact isChain_append_mark joins.mark left (rest.apart right.apart)
termination_by structural c

theorem Arguments.apart {n : Nat} (a : Arguments n) : a.tokens.IsChain Apart := by
  match n, a with
  | _, .none => exact .nil
  | _, .some first rest => exact rest.apart first.apart
termination_by structural a

theorem More.apart {n : Nat} (m : More n) {before : List Token}
    (left : before.IsChain Apart) : (before ++ m.tokens).IsChain Apart := by
  match n, m with
  | _, .done => rwa [More.tokens, List.append_nil]
  | _, .comma next rest => exact isChain_append_mark rfl left (rest.apart next.apart)
termination_by structural m
end

def Derivation.negation (x : Float) : Derivation (.level .or) :=
  let factor : Derivation (.level .multiplicative) :=
    .level (.lead .minus .neg .neg (.power (.base (.number x)))) .done
  .level (.level (.level (.level factor .done) .done) .done) .done

def Derivation.ofValue (x : Float) : Derivation .primary :=
  match Double.sign (Double.bitsOf x) with
  | .positive => .number x
  | .negative => .group (.negation x.abs)

variable (resolve : Resolver)

mutual
/-- A derivation with values in place of references. -/
def Derivation.replaced {s : Symbol} : Derivation s → Derivation s
  | .level first rest => .level first.replaced rest.replaced
  | .lead t op leads inner => .lead t op leads inner.replaced
  | .power inner => .power inner.replaced
  | .base inner => .base inner.replaced
  | .raise base exponent => .raise base.replaced exponent.replaced
  | .number x => .number x
  | .reference r => .ofValue ((resolve r).getD 0.0)
  | .group inner => .group inner.replaced
  | .call name f named arity args => .call name f named arity args.replaced

def Chain.replaced {k : Level} : Chain k → Chain k
  | .done => .done
  | .join t op joins right rest => .join t op joins right.replaced rest.replaced

def Arguments.replaced {n : Nat} : Arguments n → Arguments n
  | .none => .none
  | .some first rest => .some first.replaced rest.replaced

def More.replaced {n : Nat} : More n → More n
  | .done => .done
  | .comma next rest => .comma next.replaced rest.replaced
end

theorem Derivation.tokens_ofValue (x : Float) : (ofValue x).tokens = operandTokens x := by
  unfold ofValue operandTokens
  cases Double.sign (Double.bitsOf x) <;> rfl

variable {resolve} in
mutual
theorem Derivation.tokens_replaced {s : Symbol} (d : Derivation s) :
    (d.replaced resolve).tokens = d.tokens.flatMap (·.replaced resolve) := by
  match s, d with
  | _, .level first rest =>
    simp only [Derivation.replaced, Derivation.tokens, first.tokens_replaced,
      rest.tokens_replaced, List.flatMap_append]
  | _, .lead t op leads inner =>
    simp only [Derivation.replaced, Derivation.tokens, inner.tokens_replaced, List.flatMap_cons,
      replaced_of_mark resolve leads.mark, List.singleton_append]
  | _, .power inner => exact inner.tokens_replaced
  | _, .base inner => exact inner.tokens_replaced
  | _, .raise base exponent =>
    simp only [Derivation.replaced, Derivation.tokens, base.tokens_replaced,
      exponent.tokens_replaced, List.flatMap_append, List.flatMap_cons, Token.replaced,
      List.singleton_append]
  | _, .number x => rfl
  | _, .reference r =>
    simp only [Derivation.replaced, Derivation.tokens, Derivation.tokens_ofValue,
      List.flatMap_singleton, Token.replaced]
  | _, .group inner =>
    simp only [Derivation.replaced, Derivation.tokens, inner.tokens_replaced, List.flatMap_append,
      List.flatMap_cons, List.flatMap_nil, Token.replaced, List.singleton_append, List.append_nil]
  | _, .call name f named arity args =>
    simp only [Derivation.replaced, Derivation.tokens, args.tokens_replaced, List.flatMap_append,
      List.flatMap_cons, List.flatMap_nil, Token.replaced, List.singleton_append, List.append_nil]
termination_by structural d

theorem Chain.tokens_replaced {k : Level} (c : Chain k) :
    (c.replaced resolve).tokens = c.tokens.flatMap (·.replaced resolve) := by
  match c with
  | .done => rfl
  | .join t op joins right rest =>
    simp only [Chain.replaced, Chain.tokens, right.tokens_replaced, rest.tokens_replaced,
      List.flatMap_append, List.flatMap_cons, replaced_of_mark resolve joins.mark,
      List.singleton_append]
termination_by structural c

theorem Arguments.tokens_replaced {n : Nat} (a : Arguments n) :
    (a.replaced resolve).tokens = a.tokens.flatMap (·.replaced resolve) := by
  match n, a with
  | _, .none => rfl
  | _, .some first rest =>
    simp only [Arguments.replaced, Arguments.tokens, first.tokens_replaced, rest.tokens_replaced,
      List.flatMap_append]
termination_by structural a

theorem More.tokens_replaced {n : Nat} (m : More n) :
    (m.replaced resolve).tokens = m.tokens.flatMap (·.replaced resolve) := by
  match n, m with
  | _, .done => rfl
  | _, .comma next rest =>
    simp only [More.replaced, More.tokens, next.tokens_replaced, rest.tokens_replaced,
      List.flatMap_append, List.flatMap_cons, Token.replaced, List.singleton_append]
termination_by structural m
end

end Grammar

def Expr.ofValue (x : Float) : Expr :=
  match Double.sign (Double.bitsOf x) with
  | .positive => .literal x
  | .negative => .unary .neg (.literal x.abs)

variable (resolve : Resolver)

mutual
def Expr.replaced : Expr → Expr
  | .literal x => .literal x
  | .reference r => .ofValue ((resolve r).getD 0.0)
  | .unary op e => .unary op e.replaced
  | .binary op l r => .binary op l.replaced r.replaced
  | .call f args => .call f (replacedAll args)

def Expr.replacedAll : List Expr → List Expr
  | [] => []
  | e :: es => e.replaced :: replacedAll es
end

namespace Grammar
variable {resolve}

theorem Derivation.tree_ofValue (x : Float) : (ofValue x).tree = .ofValue x := by
  unfold ofValue Expr.ofValue
  cases Double.sign (Double.bitsOf x) <;> rfl

mutual
theorem Derivation.tree_replaced {s : Symbol} (d : Derivation s) :
    (d.replaced resolve).tree = d.tree.replaced resolve := by
  match s, d with
  | _, .level first rest =>
    simp only [Derivation.replaced, Derivation.tree, first.tree_replaced, rest.fold_replaced]
  | _, .lead t op leads inner =>
    simp only [Derivation.replaced, Derivation.tree, Expr.replaced, inner.tree_replaced]
  | _, .power inner => exact inner.tree_replaced
  | _, .base inner => exact inner.tree_replaced
  | _, .raise base exponent =>
    simp only [Derivation.replaced, Derivation.tree, Expr.replaced, base.tree_replaced,
      exponent.tree_replaced]
  | _, .number x => rfl
  | _, .reference r =>
    simp only [Derivation.replaced, Derivation.tree, Expr.replaced, Derivation.tree_ofValue]
  | _, .group inner => exact inner.tree_replaced
  | _, .call name f named arity args =>
    simp only [Derivation.replaced, Derivation.tree, Expr.replaced, args.trees_replaced]
termination_by structural d

theorem Chain.fold_replaced {k : Level} (c : Chain k) (left : Expr) :
    (c.replaced resolve).fold (left.replaced resolve) = (c.fold left).replaced resolve := by
  match c with
  | .done => rfl
  | .join t op joins right rest =>
    simp only [Chain.replaced, Chain.fold, right.tree_replaced]
    rw [← rest.fold_replaced, Expr.replaced]
termination_by structural c

theorem Arguments.trees_replaced {n : Nat} (a : Arguments n) :
    (a.replaced resolve).trees = Expr.replacedAll resolve a.trees := by
  match n, a with
  | _, .none => rfl
  | _, .some first rest =>
    simp only [Arguments.replaced, Arguments.trees, Expr.replacedAll, first.tree_replaced,
      rest.trees_replaced]
termination_by structural a

theorem More.trees_replaced {n : Nat} (m : More n) :
    (m.replaced resolve).trees = Expr.replacedAll resolve m.trees := by
  match n, m with
  | _, .done => rfl
  | _, .comma next rest =>
    simp only [More.replaced, More.trees, Expr.replacedAll, next.tree_replaced,
      rest.trees_replaced]
termination_by structural m
end

end Grammar
theorem faithful_zero : Faithful 0.0 := by
  constructor
  · decide +kernel
  · unfold ReadsBack
    decide +kernel

namespace Expr
variable {resolve}

theorem eval_ofValue {x : Float} (finite : x.isFinite = true) (other : Resolver)
    (seen : Unresolved) : (ofValue x).eval other seen = (.ok x, seen) := by
  unfold ofValue
  cases sign : Double.sign (Double.bitsOf x) with
  | positive => rfl
  | negative =>
    have back := Double.neg_abs_of_negative finite sign
    simp only [eval, UnaryOp.apply, back]

/-- The replaced expression has the value of the expression, whatever names have values, and notes
nothing. -/
def Replays (resolve other : Resolver) (e : Expr) : Prop :=
  ∀ seen seen', (e.replaced resolve).eval other seen' = ((e.eval resolve seen).1, seen')

variable {other : Resolver}

theorem replays_reference {r : Reference} (finite : ((resolve r).getD 0.0).isFinite = true) :
    Replays resolve other (.reference r) := by
  intro seen seen'
  rw [replaced, eval_ofValue finite]
  cases known : resolve r <;> simp only [eval, known, Option.getD_some, Option.getD_none]

theorem Replays.unary {e : Expr} (inner : Replays resolve other e) (op : UnaryOp) :
    Replays resolve other (.unary op e) := by
  intro seen seen'
  have same := inner seen seen'
  rcases outcome : e.eval resolve seen with ⟨_ | x, later⟩ <;>
    simp only [replaced, eval, same, outcome]

theorem Replays.binary {l r : Expr} (left : Replays resolve other l)
    (right : Replays resolve other r) (op : BinaryOp) :
    Replays resolve other (.binary op l r) := by
  intro seen seen'
  have first := left seen seen'
  rcases outcome : l.eval resolve seen with ⟨_ | a, later⟩
  · simp only [replaced, eval, first, outcome]
  · have second := right later seen'
    simp only [replaced, eval, first, outcome]
    -- The right operand counts only where the left one does not settle the connective.
    split
    · rfl
    · rcases outcome : r.eval resolve later with ⟨_ | b, last⟩ <;> simp only [second, outcome]

theorem Replays.choice {c yes no : Expr} (condition : Replays resolve other c)
    (then' : Replays resolve other yes) (else' : Replays resolve other no) :
    Replays resolve other (.call .choice [c, yes, no]) := by
  intro seen seen'
  have first := condition seen seen'
  rcases outcome : c.eval resolve seen with ⟨_ | x, later⟩
  · simp only [replaced, replacedAll, eval, first, outcome]
  · simp only [replaced, replacedAll, eval, first, outcome]
    split
    · exact then' later seen'
    · exact else' later seen'

theorem length_replacedAll (es : List Expr) : (replacedAll resolve es).length = es.length := by
  induction es with
  | nil => rfl
  | cons e es ih => rw [replacedAll, List.length_cons, List.length_cons, ih]

theorem evalAll_replaced {es : List Expr} (all : ∀ e ∈ es, Replays resolve other e)
    (seen seen' : Unresolved) :
    evalAll other (replacedAll resolve es) seen' = ((evalAll resolve es seen).1, seen') := by
  induction es generalizing seen with
  | nil => rfl
  | cons e es ih =>
    have first := all e List.mem_cons_self seen seen'
    rcases outcome : e.eval resolve seen with ⟨_ | x, later⟩
    · simp only [replacedAll, evalAll, first, outcome]
    · have rest := ih (fun e known => all e (List.mem_cons_of_mem _ known)) later
      rcases values : evalAll resolve es later with ⟨_ | xs, last⟩ <;>
        simp only [replacedAll, evalAll, first, outcome, rest, values]

theorem Replays.call {args : List Expr} (all : ∀ e ∈ args, Replays resolve other e)
    (f : Builtin) : Replays resolve other (.call f args) := by
  by_cases choice : ∃ c yes no, f = .choice ∧ args = [c, yes, no]
  · obtain ⟨c, yes, no, rfl, rfl⟩ := choice
    exact Replays.choice (all c (by simp)) (all yes (by simp)) (all no (by simp))
  · have plain (es : List Expr) (same : es.length = args.length) :
        ∀ c yes no, f = .choice → es = [c, yes, no] → False := by
      rintro c yes no rfl rfl
      match args, same with
      | [c, yes, no], _ => exact choice ⟨c, yes, no, rfl, rfl⟩
    intro seen seen'
    have values := evalAll_replaced all seen seen'
    have length := @length_replacedAll resolve args
    rw [replaced, eval_call (plain _ length), eval_call (plain _ rfl), length]
    cases f.checkArity args.length with
    | error e => rfl
    | ok =>
      rcases outcome : evalAll resolve args seen with ⟨_ | _ | ⟨x, xs⟩, later⟩ <;>
        simp only [values, outcome]

mutual
theorem replays (e : Expr) (finite : ∀ r ∈ e.references, ((resolve r).getD 0.0).isFinite = true) :
    Replays resolve other e := by
  match e with
  | .literal x => exact fun _ _ => rfl
  | .reference r => exact replays_reference (finite r List.mem_cons_self)
  | .unary op e => exact (replays e finite).unary op
  | .binary op l r =>
    exact (replays l fun q known => finite q (List.mem_append_left _ known)).binary
      (replays r fun q known => finite q (List.mem_append_right _ known)) op
  | .call f args => exact .call (replaysAll args finite) f
termination_by structural e

theorem replaysAll (es : List Expr)
    (finite : ∀ r ∈ referencesAll es, ((resolve r).getD 0.0).isFinite = true) :
    ∀ e ∈ es, Replays resolve other e := by
  match es with
  | [] => exact fun e known => absurd known List.not_mem_nil
  | e :: es =>
    intro d known
    rcases List.mem_cons.mp known with same | known
    · rw [same]
      exact replays e fun q known => finite q (List.mem_append_left _ known)
    · exact replaysAll es (fun q known => finite q (List.mem_append_right _ known)) d known
termination_by structural es
end

theorem Replays.evaluate {e : Expr} (same : Replays resolve other e) (seen seen' : Unresolved) :
    (e.replaced resolve).evaluate other seen' = ((e.evaluate resolve seen).1, seen') := by
  have value := same seen seen'
  rcases outcome : e.eval resolve seen with ⟨_ | x, later⟩ <;>
    simp only [Expr.evaluate, value, outcome]

end Expr

theorem run_of_parse {formula : String} {e : Expr} (parsed : parse formula = .ok e)
    (scope : Scope) : (run formula scope).value = (e.evaluate scope.resolve []).1 ∧
      (run formula scope).unresolved = (e.evaluate scope.resolve []).2 := by
  unfold run
  simp only [parsed]
  exact ⟨trivial, trivial⟩

/-- The text of a formula with values in place of its references is read, and evaluated where no
name has a value it gives what the formula gives, with nothing unresolved. The values are finite,
and their digits read back. -/
theorem run_substituted (formula : String) (scope : Scope) (e : Expr)
    (parsed : parse formula = .ok e) (unnested : Unnested formula.toList)
    (finite : ∀ r ∈ e.references, ∀ x, scope.resolve r = some x → x.isFinite = true)
    (back : ∀ r ∈ e.references, ∀ x, scope.resolve r = some x → ReadsBack x) :
    let trace := run formula scope
    let replay := run trace.substituted ⟨.empty, .empty⟩
    (∃ e', parse trace.substituted = .ok e') ∧ replay.value = trace.value ∧
      replay.unresolved = [] := by
  obtain ⟨lexemes, scanned, d, spells, rfl⟩ := parse_sound parsed
  have faithful : ∀ r ∈ d.tree.references, Faithful ((scope.resolve r).getD 0.0) := by
    intro r known
    cases found : scope.resolve r with
    | none => exact faithful_zero
    | some x => exact ⟨finite r known x found, back r known x found⟩
  have scans : Scans formula.toList d.tokens := scan_iff_scans.mp ⟨lexemes, scanned, spells.symm⟩
  have replaced := scans.replaced unnested d.apart fun r known =>
    faithful r (d.references ▸ List.mem_filterMap.mpr ⟨_, known, rfl⟩)
  have written : (run formula scope).substituted.toList =
      substituted scope.resolve formula.toList := String.toList_ofList
  rw [← written, ← d.tokens_replaced] at replaced
  obtain ⟨lexemes', scanned', spells'⟩ := scan_iff_scans.mpr replaced
  have reread := parse_complete scanned' _ spells'.symm
  rw [d.tree_replaced] at reread
  have same : Expr.Replays scope.resolve (Scope.mk .empty .empty).resolve d.tree :=
    Expr.replays d.tree fun r known => (faithful r known).finite
  obtain ⟨value, unresolved⟩ := run_of_parse reread ⟨.empty, .empty⟩
  rw [same.evaluate []] at value unresolved
  exact ⟨⟨_, reread⟩, value.trans (run_of_parse parsed scope).1.symm, unresolved⟩

def powers : Scope := ⟨⟨⟨[("Base", -3.0), ("Exponent", 2.0)]⟩, .empty, .empty⟩, .empty⟩

/-- The square of a negative value is replayed as such. -/
theorem run_substituted_powers :
    let formula := "[Input:Base] ^ [Input:Exponent]"
    let e := Expr.binary .pow (.reference ⟨.input, "Base", none⟩)
      (.reference ⟨.input, "Exponent", none⟩)
    parse formula = .ok e ∧ Unnested formula.toList ∧
      (∀ r ∈ e.references, ∀ x, powers.resolve r = some x → x.isFinite = true) ∧
      (∀ r ∈ e.references, ∀ x, powers.resolve r = some x → ReadsBack x) ∧
      (run (run formula powers).substituted ⟨.empty, .empty⟩).value =
        (run formula powers).value := by
  intro formula e
  have parsed : parse formula = .ok e := by cbv
  have unnested : Unnested formula.toList := by
    simp [formula, Unnested]
  have finite : (-3.0 : Float).isFinite = true ∧ (2.0 : Float).isFinite = true := by decide +kernel
  have back : ReadsBack (-3.0) ∧ ReadsBack 2.0 := by
    unfold ReadsBack
    decide +kernel
  have known : ∀ r ∈ e.references, ∀ x, powers.resolve r = some x → x = -3.0 ∨ x = 2.0 := by
    intro r named x found
    have either : r = ⟨.input, "Base", none⟩ ∨ r = ⟨.input, "Exponent", none⟩ := by
      simpa [e, Expr.references] using named
    rcases either with rfl | rfl
    · exact Or.inl (Option.some.inj found).symm
    · exact Or.inr (Option.some.inj found).symm
  have finite : ∀ r ∈ e.references, ∀ x, powers.resolve r = some x → x.isFinite = true := by
    intro r named x found
    rcases known r named x found with rfl | rfl
    · exact finite.1
    · exact finite.2
  have back : ∀ r ∈ e.references, ∀ x, powers.resolve r = some x → ReadsBack x := by
    intro r named x found
    rcases known r named x found with rfl | rfl
    · exact back.1
    · exact back.2
  exact ⟨parsed, unnested, finite, back,
    (run_substituted formula powers e parsed unnested finite back).2.1⟩

example : (run "[Input:Base] ^ [Input:Exponent]" powers).substituted = "(-3) ^ 2" := by
  decide +kernel

end Docket.Formula
