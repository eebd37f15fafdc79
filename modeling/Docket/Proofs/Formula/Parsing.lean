import Docket.Proofs.Formula.Grammar

/-! Reading and the grammar agree. Each function of the parser has one statement about what it
yields; from these, what is read has a derivation, and what has a derivation is read. -/
namespace Docket.Formula.Parser
open Formula.Grammar

/-- The reading succeeds with a value and leaves `r`. -/
def Yields {β : Type} {P : Lexemes → Prop} (p : Except Error (β × { r : Lexemes // P r }))
    (b : β) (r : Lexemes) : Prop := ∃ h : P r, p = .ok (b, ⟨r, h⟩)

variable {k : Level} {ts r : Lexemes} {e : Expr}

theorem accepts_of_check {f : Builtin} {n : Nat} (checked : f.checkArity n = .ok ()) :
    f.arity.accepts n = true := by
  unfold Builtin.checkArity at checked
  split at checked
  · assumption
  · cases checked

def reader : Symbol → (ts : Lexemes) → Parsed ts
  | .level k => level k
  | .unary => unary
  | .power => power
  | .primary => primary

theorem operand_eq_reader (k : Level) (ts : Lexemes) :
    operand k ts = reader (Grammar.operand k) ts := by
  cases k <;> rw [operand] <;> rfl

theorem level_yields : Yields (level k ts) e r ↔
    ∃ left r₁, Yields (reader (Grammar.operand k) ts) left r₁ ∧ Yields (chain k left r₁) e r := by
  rw [← operand_eq_reader]
  constructor
  · rintro ⟨h, eq⟩
    rw [level] at eq
    split at eq
    · cases eq
    · rename_i left r₁ h₁ first
      split at eq
      · cases eq
      · rename_i e' r' h' rest
        cases eq
        exact ⟨left, r₁, ⟨h₁, first⟩, ⟨h', rest⟩⟩
  · rintro ⟨left, r₁, ⟨h₁, first⟩, ⟨h₂, rest⟩⟩
    refine ⟨Nat.lt_of_le_of_lt h₂ h₁, ?_⟩
    rw [level, first]
    simp only [rest]

theorem chain_yields {left : Expr} : Yields (chain k left ts) e r ↔
    (e = left ∧ r = ts ∧ ∀ t ∈ ts.head?, k.operator? t.token = none) ∨
    ∃ t rest op right r₁, ts = t :: rest ∧ k.operator? t.token = some op ∧
      Yields (reader (Grammar.operand k) rest) right r₁ ∧
      Yields (chain k (.binary op left right) r₁) e r := by
  constructor
  · rintro ⟨h, eq⟩
    cases ts with
    | nil =>
      rw [chain] at eq
      cases eq
      exact Or.inl ⟨rfl, rfl, by simp⟩
    | cons t rest =>
      rw [chain] at eq
      split at eq
      · rename_i none
        cases eq
        exact Or.inl ⟨rfl, rfl, fun u hu => Option.some.inj hu ▸ none⟩
      · rename_i op some
        rw [operand_eq_reader] at eq
        split at eq
        · cases eq
        · rename_i right r₁ h₁ read
          split at eq
          · cases eq
          · rename_i e' r' h' more
            cases eq
            exact Or.inr ⟨t, rest, op, right, r₁, rfl, some, ⟨h₁, read⟩, ⟨h', more⟩⟩
  · rintro (⟨rfl, rfl, none⟩ | ⟨t, rest, op, right, r₁, rfl, some, ⟨h₁, read⟩, ⟨h₂, more⟩⟩)
    · refine ⟨Nat.le_refl _, ?_⟩
      cases r with
      | nil => rw [chain]
      | cons t rest => rw [chain, none t rfl]
    · refine ⟨by simp only [List.length_cons]; omega, ?_⟩
      rw [chain, some]
      simp only [operand_eq_reader, read, more]

theorem unary_yields : Yields (unary ts) e r ↔
    (∃ t rest op inner, ts = t :: rest ∧ t.token.unary? = some op ∧
      Yields (unary rest) inner r ∧ e = .unary op inner) ∨
    ((∀ t ∈ ts.head?, t.token.unary? = none) ∧ Yields (power ts) e r) := by
  constructor
  · rintro ⟨h, eq⟩
    cases ts with
    | nil => exact absurd h (Nat.not_lt_zero _)
    | cons t rest =>
      rw [unary] at eq
      split at eq
      · rename_i op some
        split at eq
        · cases eq
        · rename_i inner r' h' read
          cases eq
          exact Or.inl ⟨t, rest, op, inner, rfl, some, ⟨h', read⟩, rfl⟩
      · rename_i none
        exact Or.inr ⟨fun u hu => Option.some.inj hu ▸ none, ⟨h, eq⟩⟩
  · rintro (⟨t, rest, op, inner, rfl, some, ⟨h, read⟩, rfl⟩ | ⟨none, ⟨h, read⟩⟩)
    · refine ⟨Nat.lt_succ_of_lt h, ?_⟩
      rw [unary, some]
      simp only [read]
    · refine ⟨h, ?_⟩
      cases ts with
      | nil => exact absurd h (Nat.not_lt_zero _)
      | cons t rest => rw [unary, none t rfl]; exact read

theorem power_yields : Yields (power ts) e r ↔
    (Yields (primary ts) e r ∧ ∀ t ∈ r.head?, t.token ≠ .caret) ∨
    ∃ base t rest exponent, Yields (primary ts) base (t :: rest) ∧ t.token = .caret ∧
      Yields (unary rest) exponent r ∧ e = .binary .pow base exponent := by
  constructor
  · rintro ⟨h, eq⟩
    rw [power] at eq
    split at eq
    · cases eq
    · rename_i base left first
      obtain ⟨left, shorter⟩ := left
      split at eq
      · rename_i start text rest same
        cases same
        split at eq
        · cases eq
        · rename_i exponent r' h' read
          cases eq
          exact Or.inr ⟨base, _, rest, exponent, ⟨shorter, first⟩, rfl, ⟨h', read⟩, rfl⟩
      · rename_i other
        cases eq
        refine Or.inl ⟨⟨shorter, first⟩, ?_⟩
        rintro ⟨token, start, text⟩ ht caret
        obtain ⟨rest, rfl⟩ := List.head?_eq_some_iff.mp ht
        cases caret
        exact other start text rest rfl
  · rintro (⟨⟨h, first⟩, none⟩ | ⟨base, ⟨token, start, text⟩, rest, exponent, ⟨h, first⟩, caret,
      ⟨h', read⟩, rfl⟩)
    · refine ⟨h, ?_⟩
      rw [power, first]
      dsimp only
      split
      · exact absurd rfl (none _ rfl)
      · rfl
    · cases caret
      refine ⟨by simp only [List.length_cons] at h; omega, ?_⟩
      rw [power, first]
      simp only [read]

/-- What `primary` reads, one case for each way to write it. -/
inductive Primary : Lexemes → Expr → Lexemes → Prop
  | number {t : Lexeme} {x : Float} {r : Lexemes} (token : t.token = .number x) :
      Primary (t :: r) (.literal x) r
  | reference {t : Lexeme} {q : Reference} {r : Lexemes} (token : t.token = .reference q) :
      Primary (t :: r) (.reference q) r
  | group {t c : Lexeme} {e : Expr} {rest r : Lexemes} (opening : t.token = .leftParen)
      (closing : c.token = .rightParen) (inner : Yields (level .or rest) e (c :: r)) :
      Primary (t :: rest) e r
  | call {t p : Lexeme} {name : String} {f : Builtin} {args : List Expr} {rest r : Lexemes}
      (token : t.token = .ident name) (opening : p.token = .leftParen)
      (named : Builtin.named? name = some f) (arity : f.arity.accepts args.length = true)
      (inner : Yields (arguments rest) args r) : Primary (t :: p :: rest) (.call f args) r

theorem primary_yields : Yields (primary ts) e r ↔ Primary ts e r := by
  constructor
  · rintro ⟨h, eq⟩
    cases ts with
    | nil => exact absurd h (Nat.not_lt_zero _)
    | cons t rest =>
      rw [primary] at eq
      split at eq
      · rename_i x token
        cases eq
        exact .number token
      · rename_i q token
        cases eq
        exact .reference token
      · rename_i opening
        split at eq
        · cases eq
        · cases eq
        · rename_i e' c r' h' inner
          split at eq
          · rename_i closing
            cases eq
            exact .group opening closing ⟨h', inner⟩
          · cases eq
      · rename_i name token
        split at eq
        · rename_i start text inner
          split at eq
          · cases eq
          · rename_i f named
            split at eq
            · cases eq
            · rename_i args r' h' read
              split at eq
              · cases eq
              · rename_i checked
                cases eq
                exact .call token rfl named (accepts_of_check checked) ⟨h', read⟩
        · cases eq
      · cases eq
  · intro read
    cases read with
    | number token =>
      refine ⟨Nat.lt_succ_self _, ?_⟩
      rw [primary, token]
    | reference token =>
      refine ⟨Nat.lt_succ_self _, ?_⟩
      rw [primary, token]
    | group opening closing inner =>
      obtain ⟨h, inner⟩ := inner
      refine ⟨by simp only [List.length_cons] at h ⊢; omega, ?_⟩
      rw [primary, opening]
      simp only [inner, closing, if_true]
    | @call t p name f args rest r token opening named arity inner =>
      obtain ⟨h, inner⟩ := inner
      obtain ⟨_, start, text⟩ := p
      cases opening
      refine ⟨by simp only [List.length_cons]; omega, ?_⟩
      rw [primary, token]
      simp only [named, inner, Builtin.checkArity, arity, if_true]

theorem argumentList_yields {es : List Expr} : Yields (argumentList ts) es r ↔
    ∃ e c r₁, Yields (level .or ts) e (c :: r₁) ∧
      ((c.token = .rightParen ∧ es = [e] ∧ r = r₁) ∨
        (c.token = .comma ∧ ∃ es', Yields (argumentList r₁) es' r ∧ es = e :: es')) := by
  constructor
  · rintro ⟨h, eq⟩
    rw [argumentList] at eq
    split at eq
    · cases eq
    · cases eq
    · rename_i e c r₁ h₁ first
      split at eq
      · rename_i comma
        split at eq
        · cases eq
        · rename_i es' r' h' more
          cases eq
          exact ⟨e, c, r₁, ⟨h₁, first⟩, Or.inr ⟨comma, es', ⟨h', more⟩, rfl⟩⟩
      · rename_i closing
        cases eq
        exact ⟨e, c, _, ⟨h₁, first⟩, Or.inl ⟨closing, rfl, rfl⟩⟩
      · cases eq
  · rintro ⟨e, c, r₁, ⟨h₁, first⟩, ⟨closing, rfl, rfl⟩ | ⟨comma, es', ⟨h', more⟩, rfl⟩⟩
    · refine ⟨by simp only [List.length_cons] at h₁; omega, ?_⟩
      rw [argumentList, first]
      simp only [closing]
    · refine ⟨by simp only [List.length_cons] at h₁; omega, ?_⟩
      rw [argumentList, first]
      simp only [comma, more]

theorem arguments_yields {es : List Expr} : Yields (arguments ts) es r ↔
    (∃ c, ts = c :: r ∧ c.token = .rightParen ∧ es = []) ∨
    ((∀ t ∈ ts.head?, t.token ≠ .rightParen) ∧ Yields (argumentList ts) es r) := by
  constructor
  · rintro ⟨h, eq⟩
    rw [arguments.eq_def] at eq
    split at eq
    · cases eq
      exact Or.inl ⟨_, rfl, rfl, rfl⟩
    · rename_i other
      refine Or.inr ⟨?_, ⟨h, eq⟩⟩
      rintro ⟨token, start, text⟩ ht closing
      obtain ⟨rest, rfl⟩ := List.head?_eq_some_iff.mp ht
      cases closing
      exact other start text rest rfl
  · rintro (⟨⟨token, start, text⟩, rfl, closing, rfl⟩ | ⟨none, ⟨h, read⟩⟩)
    · cases closing
      exact ⟨Nat.lt_succ_self _, by rw [arguments]⟩
    · refine ⟨h, ?_⟩
      rw [arguments.eq_def]
      split
      · exact absurd rfl (none _ rfl)
      · exact read

theorem leads_of_unary {t : Token} {op : UnaryOp} (h : t.unary? = some op) : Leads t op := by
  cases t <;> cases h
  · exact .plus
  · exact .neg
  · exact .not

theorem joins_of_operator {t : Token} {op : BinaryOp} (h : k.operator? t = some op) :
    Joins k t op := by
  cases k <;> cases t <;> cases h <;> constructor

theorem operator_of_joins {t : Token} {op : BinaryOp} (h : Joins k t op) :
    k.operator? t = some op := by
  cases h <;> rfl

/-- What a nonterminal reads from lexemes, a derivation spells. -/
def Sound (s : Symbol) (ts : Lexemes) : Prop :=
  ∀ e r, Yields (reader s ts) e r →
    ∃ d : Derivation s, ts.map Lexeme.token = d.tokens ++ r.map Lexeme.token ∧ d.tree = e

theorem chain_sound {left : Expr} (n : Nat) (short : ts.length ≤ n)
    (sound : ∀ us : Lexemes, us.length < n → Sound (Grammar.operand k) us)
    (read : Yields (chain k left ts) e r) :
    ∃ c : Chain k, ts.map Lexeme.token = c.tokens ++ r.map Lexeme.token ∧ c.fold left = e := by
  induction n using Nat.strongRecOn generalizing left ts with
  | ind n ih =>
    rcases chain_yields.mp read with ⟨rfl, rfl, _⟩ |
      ⟨t, rest, op, right, r₁, rfl, joins, next, more⟩
    · exact ⟨.done, rfl, rfl⟩
    · have remains : r₁.length < rest.length := next.1
      rw [List.length_cons] at short
      obtain ⟨d, hd, rfl⟩ := sound rest short _ _ next
      obtain ⟨c, hc, rfl⟩ := ih r₁.length (by omega) (Nat.le_refl _)
        (fun us h => sound us (by omega)) more
      exact ⟨.join t.token op (joins_of_operator joins) d c, by
        simp only [List.map_cons, hd, hc, Chain.tokens, List.cons_append, List.append_assoc], rfl⟩

theorem argumentList_sound {es : List Expr} (n : Nat) (short : ts.length ≤ n)
    (sound : ∀ us : Lexemes, us.length ≤ n → Sound (.level .or) us)
    (read : Yields (argumentList ts) es r) :
    ∃ m, ∃ d : Derivation (.level .or), ∃ more : More m,
      ts.map Lexeme.token = d.tokens ++ (more.tokens ++ .rightParen :: r.map Lexeme.token) ∧
        d.tree :: more.trees = es := by
  induction n using Nat.strongRecOn generalizing ts es with
  | ind n ih =>
    obtain ⟨e, c, r₁, first, rest⟩ := argumentList_yields.mp read
    have remains : (c :: r₁).length < ts.length := first.1
    rw [List.length_cons] at remains
    obtain ⟨d, hd, rfl⟩ := sound ts short _ _ first
    rcases rest with ⟨closing, rfl, rfl⟩ | ⟨comma, es', next, rfl⟩
    · exact ⟨0, d, .done, by
        simp only [hd, List.map_cons, closing, More.tokens, List.nil_append], rfl⟩
    · obtain ⟨m, d', more, hd', rfl⟩ := ih r₁.length (by omega) (Nat.le_refl _)
        (fun us h => sound us (by omega)) next
      exact ⟨m + 1, d, .comma d' more, by
        simp only [hd, List.map_cons, comma, hd', More.tokens, List.cons_append,
          List.append_assoc], rfl⟩

theorem arguments_sound {es : List Expr}
    (sound : ∀ us : Lexemes, us.length ≤ ts.length → Sound (.level .or) us)
    (read : Yields (arguments ts) es r) :
    ∃ n, ∃ a : Arguments n,
      ts.map Lexeme.token = a.tokens ++ .rightParen :: r.map Lexeme.token ∧ a.trees = es := by
  rcases arguments_yields.mp read with ⟨c, rfl, closing, rfl⟩ | ⟨_, list⟩
  · exact ⟨0, .none, by simp only [List.map_cons, closing, Arguments.tokens, List.nil_append], rfl⟩
  · obtain ⟨m, d, more, hd, rfl⟩ := argumentList_sound _ (Nat.le_refl _) sound list
    exact ⟨m + 1, .some d more, by simp only [hd, Arguments.tokens, List.append_assoc], rfl⟩

theorem primary_sound (shorter : ∀ s, ∀ us : Lexemes, us.length < ts.length → Sound s us) :
    Sound .primary ts := by
  intro e r read
  cases primary_yields.mp read with
  | @number t x r token =>
    exact ⟨.number x, by simp only [List.map_cons, token, Derivation.tokens]; rfl, rfl⟩
  | @reference t q r token =>
    exact ⟨.reference q, by simp only [List.map_cons, token, Derivation.tokens]; rfl, rfl⟩
  | @group t c e rest r opening closing inner =>
    obtain ⟨d, hd, rfl⟩ := shorter (.level .or) rest (Nat.lt_succ_self _) _ _ inner
    exact ⟨.group d, by
      simp only [List.map_cons, opening, hd, closing, Derivation.tokens, List.cons_append,
        List.append_assoc, List.nil_append], rfl⟩
  | @call t p name f args rest r token opening named arity inner =>
    obtain ⟨n, a, ha, rfl⟩ := arguments_sound (fun us h => shorter (.level .or) us (by
      simp only [List.length_cons]; omega)) inner
    rw [a.length_trees] at arity
    exact ⟨.call name f named arity a, by
      simp only [List.map_cons, token, opening, ha, Derivation.tokens, List.cons_append,
        List.append_assoc, List.nil_append], rfl⟩

theorem power_sound (shorter : ∀ s, ∀ us : Lexemes, us.length < ts.length → Sound s us) :
    Sound .power ts := by
  intro e r read
  rcases power_yields.mp read with ⟨first, _⟩ | ⟨_, t, rest, _, first, caret, second, rfl⟩
  · obtain ⟨d, hd, rfl⟩ := primary_sound shorter _ _ first
    exact ⟨.base d, hd, rfl⟩
  · have remains : (t :: rest).length < ts.length := first.1
    obtain ⟨d, hd, rfl⟩ := primary_sound shorter _ _ first
    obtain ⟨d', hd', rfl⟩ := shorter .unary rest (Nat.lt_of_succ_lt remains) _ _ second
    exact ⟨.raise d d', by
      simp only [hd, List.map_cons, caret, hd', Derivation.tokens, List.append_assoc,
        List.cons_append], rfl⟩

theorem unary_sound (shorter : ∀ s, ∀ us : Lexemes, us.length < ts.length → Sound s us) :
    Sound .unary ts := by
  intro e r read
  rcases unary_yields.mp read with ⟨t, rest, op, e', rfl, leads, inner, rfl⟩ | ⟨_, inner⟩
  · obtain ⟨d, hd, rfl⟩ := shorter .unary rest (Nat.lt_succ_self _) _ _ inner
    exact ⟨.lead t.token op (leads_of_unary leads) d, by
      simp only [List.map_cons, hd, Derivation.tokens, List.cons_append], rfl⟩
  · obtain ⟨d, hd, rfl⟩ := power_sound shorter _ _ inner
    exact ⟨.power d, hd, rfl⟩

theorem level_sound (shorter : ∀ s, ∀ us : Lexemes, us.length < ts.length → Sound s us)
    (tighter : Sound (Grammar.operand k) ts) : Sound (.level k) ts := by
  intro e r read
  obtain ⟨left, r₁, first, rest⟩ := level_yields.mp read
  have remains : r₁.length < ts.length := first.1
  obtain ⟨d, hd, rfl⟩ := tighter _ _ first
  obtain ⟨c, hc, rfl⟩ := chain_sound r₁.length (Nat.le_refl _)
    (fun us h => shorter _ us (Nat.lt_trans h remains)) rest
  exact ⟨.level d c, by simp only [hd, hc, Derivation.tokens, List.append_assoc], rfl⟩

/-- By induction on the number of lexemes; the nonterminals that read the same lexemes follow from
the tightest to the loosest. -/
theorem reader_sound (n : Nat) (s : Symbol) (ts : Lexemes) (size : ts.length = n) : Sound s ts := by
  induction n using Nat.strongRecOn generalizing s ts with
  | ind n ih =>
    have shorter : ∀ s, ∀ us : Lexemes, us.length < ts.length → Sound s us :=
      fun s us h => ih us.length (size ▸ h) s us rfl
    have unary := unary_sound shorter
    have multiplicative := level_sound (k := .multiplicative) shorter unary
    have additive := level_sound (k := .additive) shorter multiplicative
    have comparison := level_sound (k := .comparison) shorter additive
    have and := level_sound (k := .and) shorter comparison
    cases s with
    | level k =>
      cases k with
      | or => exact level_sound (k := .or) shorter and
      | and => exact and
      | comparison => exact comparison
      | additive => exact additive
      | multiplicative => exact multiplicative
    | unary => exact unary
    | power => exact power_sound shorter
    | primary => exact primary_sound shorter

theorem unary_of_leads {t : Token} {op : UnaryOp} (h : Leads t op) : t.unary? = some op := by
  cases h <;> rfl

theorem unary_of_opens {t : Token} (h : Opens t) : t.unary? = none := by
  cases h <;> rfl

theorem head_of_spelling {ds r : Lexemes} {t : Token} {ts : List Token}
    (spells : ds.map Lexeme.token = t :: ts) :
    ∀ u ∈ (ds ++ r).head?, u.token = t := by
  obtain ⟨l, ls, rfl, rfl, _⟩ := List.map_eq_cons_iff.mp spells
  intro u hu
  cases Option.some.inj hu
  rfl

theorem chain_stops {left : Expr} (stops : Stops (.level k) (ts.map Lexeme.token)) :
    Yields (chain k left ts) left ts := by
  refine chain_yields.mpr (Or.inl ⟨rfl, rfl, ?_⟩)
  intro t ht
  cases h : k.operator? t.token with
  | none => rfl
  | some op =>
    exact absurd (Or.inr ⟨k, op, Nat.le_refl _, joins_of_operator h⟩)
      (stops t.token (by rw [List.head?_map, ht]; rfl))

mutual
/-- Lexemes that a derivation spells are read as its expression, as long as what follows them
cannot continue it. -/
theorem reader_complete {s : Symbol} (d : Derivation s) (ds r : Lexemes)
    (spells : ds.map Lexeme.token = d.tokens) (stops : Stops s (r.map Lexeme.token)) :
    Yields (reader s (ds ++ r)) d.tree r := by
  match s, d with
  | .level k, .level first rest =>
    obtain ⟨ds₁, ds₂, rfl, h₁, h₂⟩ := List.map_eq_append_iff.mp spells
    have follows : Stops (Grammar.operand k) ((ds₂ ++ r).map Lexeme.token) := by
      rw [List.map_append, h₂]
      exact rest.stops stops
    rw [List.append_assoc]
    exact level_yields.mpr ⟨_, _, reader_complete first ds₁ _ h₁ follows,
      chain_complete rest first.tree ds₂ r h₂ stops⟩
  | _, .lead t op leads inner =>
    obtain ⟨l, ls, rfl, rfl, h⟩ := List.map_eq_cons_iff.mp spells
    exact unary_yields.mpr (Or.inl ⟨l, _, op, _, rfl, unary_of_leads leads,
      reader_complete inner ls r h stops, rfl⟩)
  | _, .power inner =>
    obtain ⟨t, ts, h, opens⟩ := power_opens inner
    refine unary_yields.mpr (Or.inr ⟨?_, reader_complete inner ds r spells stops⟩)
    intro u hu
    rw [head_of_spelling (spells.trans h) u hu]
    exact unary_of_opens opens
  | _, .base inner =>
    refine power_yields.mpr (Or.inl ⟨reader_complete inner ds r spells (stops_primary _), ?_⟩)
    intro t ht
    exact stops t.token (by rw [List.head?_map, ht]; rfl)
  | _, .raise base exponent =>
    obtain ⟨ds₁, ds₂, rfl, h₁, h₂⟩ := List.map_eq_append_iff.mp spells
    obtain ⟨l, ls, rfl, caret, h⟩ := List.map_eq_cons_iff.mp h₂
    rw [List.append_assoc]
    exact power_yields.mpr (Or.inr ⟨_, l, _, _, reader_complete base ds₁ _ h₁ (stops_primary _),
      caret, reader_complete exponent ls r h stops, rfl⟩)
  | _, .number x =>
    obtain ⟨l, ls, rfl, token, h⟩ := List.map_eq_cons_iff.mp spells
    cases List.map_eq_nil_iff.mp h
    exact primary_yields.mpr (.number token)
  | _, .reference q =>
    obtain ⟨l, ls, rfl, token, h⟩ := List.map_eq_cons_iff.mp spells
    cases List.map_eq_nil_iff.mp h
    exact primary_yields.mpr (.reference token)
  | _, .group inner =>
    obtain ⟨l, ls, rfl, opening, h⟩ := List.map_eq_cons_iff.mp spells
    obtain ⟨ds₁, ds₂, rfl, h₁, h₂⟩ := List.map_eq_append_iff.mp h
    obtain ⟨c, cs, rfl, closing, h₃⟩ := List.map_eq_cons_iff.mp h₂
    cases List.map_eq_nil_iff.mp h₃
    rw [List.cons_append, List.append_assoc]
    refine primary_yields.mpr (.group opening closing
      (reader_complete inner ds₁ (c :: r) h₁ ?_))
    rw [List.map_cons, closing]
    exact stops_mark _ (Or.inl rfl) _
  | _, .call name f named arity args =>
    obtain ⟨l, ls, rfl, token, h⟩ := List.map_eq_cons_iff.mp spells
    obtain ⟨p, ps, rfl, opening, h'⟩ := List.map_eq_cons_iff.mp h
    obtain ⟨ds₁, ds₂, rfl, h₁, h₂⟩ := List.map_eq_append_iff.mp h'
    obtain ⟨c, cs, rfl, closing, h₃⟩ := List.map_eq_cons_iff.mp h₂
    cases List.map_eq_nil_iff.mp h₃
    rw [List.cons_append, List.cons_append, List.append_assoc]
    exact primary_yields.mpr (.call token opening named (by rw [args.length_trees]; exact arity)
      (arguments_complete args ds₁ c r h₁ closing))
termination_by structural d

theorem chain_complete {k : Level} (c : Chain k) (left : Expr) (ds r : Lexemes)
    (spells : ds.map Lexeme.token = c.tokens) (stops : Stops (.level k) (r.map Lexeme.token)) :
    Yields (chain k left (ds ++ r)) (c.fold left) r := by
  match c with
  | .done =>
    cases List.map_eq_nil_iff.mp spells
    exact chain_stops stops
  | .join t op joins right rest =>
    obtain ⟨l, ls, rfl, rfl, h⟩ := List.map_eq_cons_iff.mp spells
    obtain ⟨ds₁, ds₂, rfl, h₁, h₂⟩ := List.map_eq_append_iff.mp h
    have follows : Stops (Grammar.operand k) ((ds₂ ++ r).map Lexeme.token) := by
      rw [List.map_append, h₂]
      exact rest.stops stops
    rw [List.cons_append, List.append_assoc]
    exact chain_yields.mpr (Or.inr ⟨l, _, op, _, _, rfl, operator_of_joins joins,
      reader_complete right ds₁ _ h₁ follows, chain_complete rest _ ds₂ r h₂ stops⟩)
termination_by structural c

theorem arguments_complete {n : Nat} (a : Arguments n) (ds : Lexemes) (c : Lexeme) (r : Lexemes)
    (spells : ds.map Lexeme.token = a.tokens) (closing : c.token = .rightParen) :
    Yields (arguments (ds ++ c :: r)) a.trees r := by
  match n, a with
  | _, .none =>
    cases List.map_eq_nil_iff.mp spells
    exact arguments_yields.mpr (Or.inl ⟨c, rfl, closing, rfl⟩)
  | _, .some first rest =>
    obtain ⟨ds₁, ds₂, rfl, h₁, h₂⟩ := List.map_eq_append_iff.mp spells
    rw [List.append_assoc]
    refine arguments_yields.mpr (Or.inr ⟨?_, argumentList_complete rest first.tree ds₁ ds₂ c r
      (fun us h => reader_complete first ds₁ us h₁ h) h₂ closing⟩)
    obtain ⟨t, ts, h, opens⟩ := first.opens
    intro u hu
    rw [head_of_spelling (h₁.trans h) u hu]
    rcases opens with opens | ⟨_, leads⟩
    · cases opens <;> nofun
    · cases leads <;> nofun
termination_by structural a

theorem argumentList_complete {n : Nat} (m : More n) (e : Expr) (ds ms : Lexemes) (c : Lexeme)
    (r : Lexemes)
    (head : ∀ us : Lexemes, Stops (.level .or) (us.map Lexeme.token) →
      Yields (level .or (ds ++ us)) e us)
    (spells : ms.map Lexeme.token = m.tokens) (closing : c.token = .rightParen) :
    Yields (argumentList (ds ++ (ms ++ c :: r))) (e :: m.trees) r := by
  match n, m with
  | _, .done =>
    cases List.map_eq_nil_iff.mp spells
    have first := head (c :: r) (by rw [List.map_cons]; exact stops_mark _ (Or.inl closing) _)
    exact argumentList_yields.mpr ⟨e, c, r, first, Or.inl ⟨closing, rfl, rfl⟩⟩
  | _, .comma next rest =>
    obtain ⟨l, ls, rfl, comma, h⟩ := List.map_eq_cons_iff.mp spells
    obtain ⟨ms₁, ms₂, rfl, h₁, h₂⟩ := List.map_eq_append_iff.mp h
    rw [List.cons_append, List.append_assoc]
    have first := head (l :: (ms₁ ++ (ms₂ ++ c :: r)))
      (by rw [List.map_cons]; exact stops_mark _ (Or.inr comma) _)
    exact argumentList_yields.mpr ⟨e, l, _, first, Or.inr ⟨comma, _,
      argumentList_complete rest next.tree ms₁ ms₂ c r
        (fun us h => reader_complete next ms₁ us h₁ h) h₂ closing, rfl⟩⟩
termination_by structural m
end

end Parser

open Formula.Grammar

theorem parse_sound {source : String} {e : Expr} (read : parse source = .ok e) :
    ∃ lexemes, scan source = .ok lexemes ∧
      ∃ d : Derivation (.level .or), d.tokens = lexemes.map Lexeme.token ∧ d.tree = e := by
  unfold parse at read
  split at read
  · cases read
  · cases read
  · rename_i t ts scanned
    split at read
    · cases read
    · rename_i e' h top
      cases read
      obtain ⟨d, spells, tree⟩ := Parser.reader_sound _ (.level .or) (t :: ts) rfl e [] ⟨h, top⟩
      exact ⟨t :: ts, scanned, d, by rw [spells, List.map_nil, List.append_nil], tree⟩
    · cases read

theorem parse_complete {source : String} {lexemes : List Lexeme}
    (scanned : scan source = .ok lexemes) (d : Derivation (.level .or))
    (spells : d.tokens = lexemes.map Lexeme.token) : parse source = .ok d.tree := by
  have whole := Parser.reader_complete d lexemes [] spells.symm (stops_nil _)
  rw [List.append_nil] at whole
  obtain ⟨h, top⟩ := whole
  unfold parse
  rw [scanned]
  cases lexemes with
  | nil => exact absurd h (Nat.not_lt_zero _)
  | cons t ts =>
    have top : Parser.level .or (t :: ts) = .ok (d.tree, ⟨[], h⟩) := top
    simp only [top]

/-- A text is read exactly if its lexemes as a whole have a derivation. Then they have only that
one, and the expression is its tree with the references in the order of the text. -/
theorem parse_iff_derivation (source : String) :
    (∀ e, parse source = .ok e ↔
      ∃ lexemes, scan source = .ok lexemes ∧
        ∃ d : Derivation (.level .or), d.tokens = lexemes.map Lexeme.token ∧ d.tree = e ∧
          (∀ d' : Derivation (.level .or), d'.tokens = lexemes.map Lexeme.token → d' = d) ∧
          e.references = (lexemes.map Lexeme.token).filterMap referenceOf) ∧
    ((∃ error, parse source = .error error) ↔
      ¬ ∃ lexemes, scan source = .ok lexemes ∧
        ∃ d : Derivation (.level .or), d.tokens = lexemes.map Lexeme.token) := by
  refine ⟨fun e => ⟨fun read => ?_, ?_⟩, ?_, fun none => ?_⟩
  · obtain ⟨lexemes, scanned, d, spells, rfl⟩ := parse_sound read
    refine ⟨lexemes, scanned, d, spells, rfl, fun d' spells' => ?_, ?_⟩
    · have same : d'.tokens ++ [] = d.tokens ++ [] := by rw [spells', spells]
      exact (d'.unique d (stops_nil _) (stops_nil _) same).1
    · rw [d.references, spells]
  · rintro ⟨lexemes, scanned, d, spells, rfl, _, _⟩
    exact parse_complete scanned d spells
  · rintro ⟨error, failed⟩ ⟨lexemes, scanned, d, spells⟩
    rw [parse_complete scanned d spells] at failed
    cases failed
  · cases read : parse source with
    | error error => exact ⟨error, rfl⟩
    | ok e =>
      obtain ⟨lexemes, scanned, d, spells, _⟩ := parse_sound read
      exact absurd ⟨lexemes, scanned, d, spells⟩ none

end Docket.Formula
