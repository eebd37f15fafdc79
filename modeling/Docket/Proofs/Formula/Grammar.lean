import Docket.Formula.Parser

/-! The grammar of formulas. A derivation is the tree by which a nonterminal derives tokens; it
spells its tokens from left to right and means an expression. A token list has one derivation at
most, also when tokens follow that cannot continue it. -/
namespace Docket.Formula.Grammar

/-- The nonterminals. The levels are the rules `Or`, `And`, `Cmp`, `Add` and `Mul`. -/
inductive Symbol
  | level (k : Level)
  | unary | power | primary

def operand : Level → Symbol
  | .or => .level .and
  | .and => .level .comparison
  | .comparison => .level .additive
  | .additive => .level .multiplicative
  | .multiplicative => .unary

/-- The operators of the levels. -/
inductive Joins : Level → Token → BinaryOp → Prop
  | or : Joins .or .or .or
  | and : Joins .and .and .and
  | gt : Joins .comparison .gt .gt
  | lt : Joins .comparison .lt .lt
  | ge : Joins .comparison .ge .ge
  | le : Joins .comparison .le .le
  | eq : Joins .comparison .eq .eq
  | ne : Joins .comparison .ne .ne
  | add : Joins .additive .plus .add
  | sub : Joins .additive .minus .sub
  | mul : Joins .multiplicative .star .mul
  | div : Joins .multiplicative .slash .div
  | mod : Joins .multiplicative .percent .mod

/-- The operators in front of an operand. -/
inductive Leads : Token → UnaryOp → Prop
  | neg : Leads .minus .neg
  | plus : Leads .plus .plus
  | not : Leads .bang .not

mutual
/-- A derivation of a nonterminal. -/
inductive Derivation : Symbol → Type
  | level {k : Level} (first : Derivation (operand k)) (rest : Chain k) : Derivation (.level k)
  | lead (t : Token) (op : UnaryOp) (leads : Leads t op) (inner : Derivation .unary) :
      Derivation .unary
  | power (inner : Derivation .power) : Derivation .unary
  | base (inner : Derivation .primary) : Derivation .power
  | raise (base : Derivation .primary) (exponent : Derivation .unary) : Derivation .power
  | number (x : Float) : Derivation .primary
  | reference (r : Reference) : Derivation .primary
  | group (inner : Derivation (.level .or)) : Derivation .primary
  | call {n : Nat} (name : String) (f : Builtin) (named : Builtin.named? name = some f)
      (arity : f.arity.accepts n = true) (args : Arguments n) : Derivation .primary

/-- The starred part of a level: operators, each with the operand behind it. -/
inductive Chain : Level → Type
  | done {k : Level} : Chain k
  | join {k : Level} (t : Token) (op : BinaryOp) (joins : Joins k t op)
      (right : Derivation (operand k)) (rest : Chain k) : Chain k

/-- So many arguments with commas between them. -/
inductive Arguments : Nat → Type
  | none : Arguments 0
  | some {n : Nat} (first : Derivation (.level .or)) (rest : More n) : Arguments (n + 1)

inductive More : Nat → Type
  | done : More 0
  | comma {n : Nat} (next : Derivation (.level .or)) (rest : More n) : More (n + 1)
end

mutual
def Derivation.tokens {s : Symbol} : Derivation s → List Token
  | .level first rest => first.tokens ++ rest.tokens
  | .lead t _ _ inner => t :: inner.tokens
  | .power inner => inner.tokens
  | .base inner => inner.tokens
  | .raise base exponent => base.tokens ++ .caret :: exponent.tokens
  | .number x => [.number x]
  | .reference r => [.reference r]
  | .group inner => .leftParen :: (inner.tokens ++ [.rightParen])
  | .call name _ _ _ args => .ident name :: .leftParen :: (args.tokens ++ [.rightParen])

def Chain.tokens {k : Level} : Chain k → List Token
  | .done => []
  | .join t _ _ right rest => t :: (right.tokens ++ rest.tokens)

def Arguments.tokens {n : Nat} : Arguments n → List Token
  | .none => []
  | .some first rest => first.tokens ++ rest.tokens

def More.tokens {n : Nat} : More n → List Token
  | .done => []
  | .comma next rest => .comma :: (next.tokens ++ rest.tokens)
end

mutual
def Derivation.tree {s : Symbol} : Derivation s → Expr
  | .level first rest => rest.fold first.tree
  | .lead _ op _ inner => .unary op inner.tree
  | .power inner => inner.tree
  | .base inner => inner.tree
  | .raise base exponent => .binary .pow base.tree exponent.tree
  | .number x => .literal x
  | .reference r => .reference r
  | .group inner => inner.tree
  | .call _ f _ _ args => .call f args.trees

/-- Joins operands to a left one, from the left. -/
def Chain.fold {k : Level} : Chain k → Expr → Expr
  | .done, left => left
  | .join _ op _ right rest, left => rest.fold (.binary op left right.tree)

def Arguments.trees {n : Nat} : Arguments n → List Expr
  | .none => []
  | .some first rest => first.tree :: rest.trees

def More.trees {n : Nat} : More n → List Expr
  | .done => []
  | .comma next rest => next.tree :: rest.trees
end

/-- The tokens that could continue what a nonterminal derives. -/
def Continues : Symbol → Token → Prop
  | .level k, t => t = .caret ∨ ∃ l op, l.height ≤ k.height ∧ Joins l t op
  | .unary, t => t = .caret
  | .power, t => t = .caret
  | .primary, _ => False

/-- Nothing follows, or a token that cannot continue the nonterminal. -/
def Stops (s : Symbol) (ts : List Token) : Prop := ∀ t ∈ ts.head?, ¬ Continues s t

theorem stops_nil (s : Symbol) : Stops s [] := by simp [Stops]

theorem stops_primary (ts : List Token) : Stops .primary ts := fun _ _ h => h

theorem stops_mark (s : Symbol) {t : Token} (mark : t = .rightParen ∨ t = .comma)
    (ts : List Token) : Stops s (t :: ts) := by
  intro u hu h
  cases Option.some.inj hu
  rcases mark with rfl | rfl
  all_goals
    cases s with
    | level k =>
      rcases h with h | ⟨_, _, _, joins⟩
      · cases h
      · cases joins
    | unary => cases h
    | power => cases h
    | primary => exact h

theorem continues_operand {k : Level} {t : Token} (h : Continues (operand k) t) :
    Continues (.level k) t := by
  cases k with
  | multiplicative => exact Or.inl h
  | or | and | comparison | additive =>
    rcases h with h | ⟨l, op, tight, joins⟩
    · exact Or.inl h
    · exact Or.inr ⟨l, op, Nat.le_succ_of_le tight, joins⟩

theorem Stops.operand {k : Level} {ts : List Token} (h : Stops (.level k) ts) :
    Stops (operand k) ts := fun t ht c => h t ht (continues_operand c)

theorem joins_not_continues {k : Level} {t : Token} {op : BinaryOp} (h : Joins k t op) :
    ¬ Continues (operand k) t := by
  intro c
  cases h <;> rcases c with c | ⟨l, _, tight, joins⟩ <;> first | cases c | cases joins
  all_goals exact absurd tight (by decide)

theorem Chain.stops {k : Level} (c : Chain k) {r : List Token} (h : Stops (.level k) r) :
    Stops (operand k) (c.tokens ++ r) := by
  cases c with
  | done => exact h.operand
  | join t op joins right rest =>
    intro u hu
    cases Option.some.inj hu
    exact joins_not_continues joins

theorem More.stops {n : Nat} (m : More n) (r : List Token) :
    Stops (.level .or) (m.tokens ++ .rightParen :: r) := by
  cases m with
  | done => exact stops_mark _ (Or.inl rfl) _
  | comma next rest => exact stops_mark _ (Or.inr rfl) _

theorem joins_unique {k : Level} {t : Token} {op op' : BinaryOp} (h : Joins k t op)
    (h' : Joins k t op') : op = op' := by
  cases h <;> cases h' <;> rfl

theorem leads_unique {t : Token} {op op' : UnaryOp} (h : Leads t op) (h' : Leads t op') :
    op = op' := by
  cases h <;> cases h' <;> rfl

inductive Opens : Token → Prop
  | number (x : Float) : Opens (.number x)
  | reference (r : Reference) : Opens (.reference r)
  | group : Opens .leftParen
  | call (name : String) : Opens (.ident name)

theorem primary_opens (d : Derivation .primary) : ∃ t ts, d.tokens = t :: ts ∧ Opens t := by
  cases d with
  | number x => exact ⟨_, _, rfl, .number x⟩
  | reference r => exact ⟨_, _, rfl, .reference r⟩
  | group inner => exact ⟨_, _, rfl, .group⟩
  | call name f named arity args => exact ⟨_, _, rfl, .call name⟩

theorem power_opens (d : Derivation .power) : ∃ t ts, d.tokens = t :: ts ∧ Opens t := by
  cases d with
  | base inner => exact primary_opens inner
  | raise base exponent =>
    obtain ⟨t, ts, h, opens⟩ := primary_opens base
    exact ⟨t, ts ++ .caret :: exponent.tokens, by simp [Derivation.tokens, h], opens⟩

theorem Derivation.opens {s : Symbol} (d : Derivation s) :
    ∃ t ts, d.tokens = t :: ts ∧ (Opens t ∨ ∃ op, Leads t op) := by
  match s, d with
  | _, .level first rest =>
    obtain ⟨t, ts, h, opens⟩ := first.opens
    exact ⟨t, ts ++ rest.tokens, by simp [Derivation.tokens, h], opens⟩
  | _, .lead t op leads inner => exact ⟨t, _, rfl, Or.inr ⟨op, leads⟩⟩
  | _, .power inner =>
    obtain ⟨t, ts, h, opens⟩ := power_opens inner
    exact ⟨t, ts, h, Or.inl opens⟩
  | .power, d =>
    obtain ⟨t, ts, h, opens⟩ := power_opens d
    exact ⟨t, ts, h, Or.inl opens⟩
  | .primary, d =>
    obtain ⟨t, ts, h, opens⟩ := primary_opens d
    exact ⟨t, ts, h, Or.inl opens⟩

theorem power_not_leads (d : Derivation .power) {t : Token} {op : UnaryOp} (leads : Leads t op)
    (r r' : List Token) : d.tokens ++ r ≠ t :: r' := by
  obtain ⟨u, us, h, opens⟩ := power_opens d
  intro same
  rw [h] at same
  obtain ⟨rfl, _⟩ := List.cons.inj same
  cases leads <;> cases opens

theorem closing_not_opens {s : Symbol} (d : Derivation s) (r r' : List Token) :
    d.tokens ++ r ≠ .rightParen :: r' := by
  obtain ⟨t, ts, h, opens⟩ := d.opens
  intro same
  rw [h] at same
  obtain ⟨rfl, _⟩ := List.cons.inj same
  rcases opens with opens | ⟨_, leads⟩
  · cases opens
  · cases leads

mutual
/-- A derivation and what follows it are determined by the tokens of both, as long as what follows
cannot continue the derivation. -/
theorem Derivation.unique {s : Symbol} (d d' : Derivation s) {r r' : List Token}
    (stops : Stops s r) (stops' : Stops s r') (same : d.tokens ++ r = d'.tokens ++ r') :
    d = d' ∧ r = r' := by
  cases d with
  | level first rest =>
    cases d' with
    | level first' rest' =>
      simp only [Derivation.tokens, List.append_assoc] at same
      obtain ⟨rfl, tail⟩ := first.unique first' (rest.stops stops) (rest'.stops stops') same
      obtain ⟨rfl, rfl⟩ := rest.unique rest' stops stops' tail
      exact ⟨rfl, rfl⟩
  | lead t op leads inner =>
    cases d' with
    | lead t' op' leads' inner' =>
      obtain ⟨rfl, tail⟩ := List.cons.inj same
      obtain ⟨rfl, rfl⟩ := inner.unique inner' stops stops' tail
      cases leads_unique leads leads'
      exact ⟨rfl, rfl⟩
    | power inner' => exact absurd same.symm (power_not_leads inner' leads _ _)
  | power inner =>
    cases d' with
    | lead t op leads inner' => exact absurd same (power_not_leads inner leads _ _)
    | power inner' =>
      obtain ⟨rfl, rfl⟩ := inner.unique inner' stops stops' same
      exact ⟨rfl, rfl⟩
  | base inner =>
    cases d' with
    | base inner' =>
      obtain ⟨rfl, rfl⟩ := inner.unique inner' (stops_primary _) (stops_primary _) same
      exact ⟨rfl, rfl⟩
    | raise base exponent =>
      simp only [Derivation.tokens, List.append_assoc] at same
      obtain ⟨_, rfl⟩ := inner.unique base (stops_primary _) (stops_primary _) same
      exact absurd rfl (stops .caret rfl)
  | raise base exponent =>
    cases d' with
    | base inner =>
      simp only [Derivation.tokens, List.append_assoc] at same
      obtain ⟨_, rfl⟩ := base.unique inner (stops_primary _) (stops_primary _) same
      exact absurd rfl (stops' .caret rfl)
    | raise base' exponent' =>
      simp only [Derivation.tokens, List.append_assoc] at same
      obtain ⟨rfl, tail⟩ := base.unique base' (stops_primary _) (stops_primary _) same
      obtain ⟨rfl, rfl⟩ := exponent.unique exponent' stops stops' (List.cons.inj tail).2
      exact ⟨rfl, rfl⟩
  | number x =>
    cases d' with
    | number x' =>
      cases same
      exact ⟨rfl, rfl⟩
    | reference | group | call => cases same
  | reference q =>
    cases d' with
    | reference q' =>
      cases same
      exact ⟨rfl, rfl⟩
    | number | group | call => cases same
  | group inner =>
    cases d' with
    | group inner' =>
      simp only [Derivation.tokens, List.cons_append, List.append_assoc, List.cons.injEq,
        true_and, List.nil_append] at same
      obtain ⟨rfl, tail⟩ := inner.unique inner' (stops_mark _ (Or.inl rfl) _)
        (stops_mark _ (Or.inl rfl) _) same
      exact ⟨rfl, (List.cons.inj tail).2⟩
    | number | reference | call => cases same
  | call name f named arity args =>
    cases d' with
    | call name' f' named' arity' args' =>
      simp only [Derivation.tokens, List.cons_append, List.append_assoc, List.cons.injEq,
        true_and, List.nil_append, Token.ident.injEq] at same
      obtain ⟨rfl, tail⟩ := same
      cases Option.some.inj (named.symm.trans named')
      obtain ⟨h, rfl⟩ := args.unique args' tail
      cases h
      exact ⟨rfl, rfl⟩
    | number | reference | group => cases same
termination_by structural d

theorem Chain.unique {k : Level} (c c' : Chain k) {r r' : List Token}
    (stops : Stops (.level k) r) (stops' : Stops (.level k) r')
    (same : c.tokens ++ r = c'.tokens ++ r') : c = c' ∧ r = r' := by
  match c, c' with
  | .done, .done => exact ⟨rfl, same⟩
  | .done, .join t op joins right rest =>
    cases same
    exact absurd (Or.inr ⟨k, op, Nat.le_refl _, joins⟩) (stops t rfl)
  | .join t op joins right rest, .done =>
    cases same
    exact absurd (Or.inr ⟨k, op, Nat.le_refl _, joins⟩) (stops' t rfl)
  | .join t op joins right rest, .join t' op' joins' right' rest' =>
    simp only [Chain.tokens, List.cons_append, List.append_assoc, List.cons.injEq] at same
    obtain ⟨rfl, same⟩ := same
    obtain ⟨rfl, tail⟩ := right.unique right' (rest.stops stops) (rest'.stops stops') same
    obtain ⟨rfl, rfl⟩ := rest.unique rest' stops stops' tail
    cases joins_unique joins joins'
    exact ⟨rfl, rfl⟩
termination_by structural c

theorem Arguments.unique {n n' : Nat} (a : Arguments n) (a' : Arguments n')
    {r r' : List Token} (same : a.tokens ++ .rightParen :: r = a'.tokens ++ .rightParen :: r') :
    (⟨n, a⟩ : Σ n, Arguments n) = ⟨n', a'⟩ ∧ r = r' := by
  cases a with
  | none =>
    cases a' with
    | none => exact ⟨rfl, (List.cons.inj same).2⟩
    | some first rest =>
      simp only [Arguments.tokens, List.append_assoc] at same
      exact absurd same.symm (closing_not_opens first _ _)
  | some first rest =>
    cases a' with
    | none =>
      simp only [Arguments.tokens, List.append_assoc] at same
      exact absurd same (closing_not_opens first _ _)
    | some first' rest' =>
      simp only [Arguments.tokens, List.append_assoc] at same
      obtain ⟨rfl, tail⟩ := first.unique first' (rest.stops _) (rest'.stops _) same
      obtain ⟨h, rfl⟩ := rest.unique rest' tail
      cases h
      exact ⟨rfl, rfl⟩
termination_by structural a

theorem More.unique {n n' : Nat} (m : More n) (m' : More n') {r r' : List Token}
    (same : m.tokens ++ .rightParen :: r = m'.tokens ++ .rightParen :: r') :
    (⟨n, m⟩ : Σ n, More n) = ⟨n', m'⟩ ∧ r = r' := by
  cases m with
  | done =>
    cases m' with
    | done => exact ⟨rfl, (List.cons.inj same).2⟩
    | comma next rest => cases same
  | comma next rest =>
    cases m' with
    | done => cases same
    | comma next' rest' =>
      simp only [More.tokens, List.cons_append, List.append_assoc, List.cons.injEq, true_and]
        at same
      obtain ⟨rfl, tail⟩ := next.unique next' (rest.stops _) (rest'.stops _) same
      obtain ⟨h, rfl⟩ := rest.unique rest' tail
      cases h
      exact ⟨rfl, rfl⟩
termination_by structural m
end

def referenceOf : Token → Option Reference
  | .reference r => some r
  | _ => none

mutual
/-- The references of the expression are those of the tokens, in their order. -/
theorem Derivation.references {s : Symbol} (d : Derivation s) :
    d.tree.references = d.tokens.filterMap referenceOf := by
  match s, d with
  | _, .level first rest =>
    simp only [Derivation.tree, Derivation.tokens, rest.references, first.references,
      List.filterMap_append]
  | _, .lead t op leads inner =>
    cases leads <;>
      simp only [Derivation.tree, Derivation.tokens, Expr.references, inner.references,
        List.filterMap_cons, referenceOf]
  | _, .power inner => exact inner.references
  | _, .base inner => exact inner.references
  | _, .raise base exponent =>
    simp only [Derivation.tree, Derivation.tokens, Expr.references, base.references,
      exponent.references, List.filterMap_append, List.filterMap_cons, referenceOf]
  | _, .number x => rfl
  | _, .reference r => rfl
  | _, .group inner =>
    simp only [Derivation.tree, Derivation.tokens, inner.references, List.filterMap_append,
      List.filterMap_cons, referenceOf, List.filterMap_nil, List.append_nil]
  | _, .call name f named arity args =>
    simp only [Derivation.tree, Derivation.tokens, Expr.references, args.references,
      List.filterMap_append, List.filterMap_cons, referenceOf, List.filterMap_nil,
      List.append_nil]
termination_by structural d

theorem Chain.references {k : Level} (c : Chain k) (left : Expr) :
    (c.fold left).references = left.references ++ c.tokens.filterMap referenceOf := by
  match c with
  | .done => simp only [Chain.fold, Chain.tokens, List.filterMap_nil, List.append_nil]
  | .join t op joins right rest =>
    have operator : referenceOf t = none := by cases joins <;> rfl
    simp only [Chain.fold, Chain.tokens, rest.references, Expr.references, right.references,
      List.filterMap_cons, operator, List.filterMap_append, List.append_assoc]
termination_by structural c

theorem Arguments.references {n : Nat} (a : Arguments n) :
    Expr.referencesAll a.trees = a.tokens.filterMap referenceOf := by
  match n, a with
  | _, .none => rfl
  | _, .some first rest =>
    simp only [Arguments.trees, Arguments.tokens, Expr.referencesAll, first.references,
      rest.references, List.filterMap_append]
termination_by structural a

theorem More.references {n : Nat} (m : More n) :
    Expr.referencesAll m.trees = m.tokens.filterMap referenceOf := by
  match n, m with
  | _, .done => rfl
  | _, .comma next rest =>
    simp only [More.trees, More.tokens, Expr.referencesAll, next.references, rest.references,
      List.filterMap_append, List.filterMap_cons, referenceOf]
termination_by structural m
end

theorem More.length_trees {n : Nat} (m : More n) : m.trees.length = n := by
  match n, m with
  | _, .done => rfl
  | _, .comma next rest => simp only [More.trees, List.length_cons, rest.length_trees]
termination_by structural m

theorem Arguments.length_trees {n : Nat} (a : Arguments n) : a.trees.length = n := by
  cases a with
  | none => rfl
  | some first rest => simp only [Arguments.trees, List.length_cons, rest.length_trees]

end Docket.Formula.Grammar
