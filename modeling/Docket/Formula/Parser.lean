import Docket.Formula.Expr

/-! Reading an expression from lexemes. Each function returns what is left, which is
shorter than what it got; the levels join operands from the left, the power from the
right. -/
namespace Docket.Formula.Parser

abbrev Lexemes := List Lexeme

/-- An expression and what is left, shorter than `ts`. -/
abbrev Parsed (ts : Lexemes) := Except Error (Expr × { r : Lexemes // r.length < ts.length })

def unexpected (l : Lexeme) : Error := .unexpectedToken l.token.describe l.start

mutual
/-- A level: its first operand and the operators behind it. -/
def level (k : Level) (ts : Lexemes) : Parsed ts :=
  match operand k ts with
  | .error e => .error e
  | .ok (left, ⟨r, h⟩) =>
    match chain k left r with
    | .error e => .error e
    | .ok (e, ⟨r', h'⟩) => .ok (e, ⟨r', Nat.lt_of_le_of_lt h' h⟩)
termination_by (ts.length, 2 * k.height + 4)

/-- The operand of a level: the next tighter level or a unary expression. -/
def operand (k : Level) (ts : Lexemes) : Parsed ts :=
  match _h : k.tighter? with
  | some l => level l ts
  | none => unary ts
termination_by (ts.length, 2 * k.height + 3)
decreasing_by
  · have := Level.height_tighter _h
    apply Prod.Lex.right; omega
  · have := k.height_pos
    apply Prod.Lex.right; omega

/-- Operators of a level behind a left operand. -/
def chain (k : Level) (left : Expr) (ts : Lexemes) :
    Except Error (Expr × { r : Lexemes // r.length ≤ ts.length }) :=
  match ts with
  | [] => .ok (left, ⟨[], Nat.le_refl _⟩)
  | t :: rest =>
    match k.operator? t.token with
    | none => .ok (left, ⟨t :: rest, Nat.le_refl _⟩)
    | some op =>
      match operand k rest with
      | .error e => .error e
      | .ok (right, ⟨r, h⟩) =>
        match chain k (.binary op left right) r with
        | .error e => .error e
        | .ok (e, ⟨r', h'⟩) => .ok (e, ⟨r', by simp only [List.length_cons]; omega⟩)
termination_by (ts.length, 0)
decreasing_by
  · apply Prod.Lex.left; simp only [List.length_cons]; omega
  · apply Prod.Lex.left; simp only [List.length_cons]; omega

def unary (ts : Lexemes) : Parsed ts :=
  match ts with
  | [] => .error .unexpectedEnd
  | t :: rest =>
    match t.token.unary? with
    | some op =>
      match unary rest with
      | .error e => .error e
      | .ok (e, ⟨r, h⟩) => .ok (.unary op e, ⟨r, by simp only [List.length_cons]; omega⟩)
    | none => power (t :: rest)
termination_by (ts.length, 3)
decreasing_by
  · apply Prod.Lex.left; simp only [List.length_cons]; omega
  · apply Prod.Lex.right; omega

def power (ts : Lexemes) : Parsed ts :=
  match primary ts with
  | .error e => .error e
  | .ok (base, left) =>
    match hr : left.1 with
    | ⟨.caret, _, _⟩ :: rest =>
      have shorter := left.2
      match unary rest with
      | .error e => .error e
      | .ok (exponent, ⟨r', h'⟩) =>
        .ok (.binary .pow base exponent,
          ⟨r', by simp only [hr, List.length_cons] at shorter; omega⟩)
    | _ => .ok (base, left)
termination_by (ts.length, 2)
decreasing_by
  · apply Prod.Lex.right; omega
  · apply Prod.Lex.left; simp only [hr, List.length_cons] at shorter; omega

def primary (ts : Lexemes) : Parsed ts :=
  match ts with
  | [] => .error .unexpectedEnd
  | t :: rest =>
    match t.token with
    | .number x => .ok (.literal x, ⟨rest, Nat.lt_succ_self _⟩)
    | .reference r => .ok (.reference r, ⟨rest, Nat.lt_succ_self _⟩)
    | .leftParen =>
      match level .or rest with
      | .error e => .error e
      | .ok (_, ⟨[], _⟩) => .error .unexpectedEnd
      | .ok (e, ⟨c :: r, h⟩) =>
        if c.token = .rightParen then .ok (e, ⟨r, by simp only [List.length_cons] at h ⊢; omega⟩)
        else .error (unexpected c)
    | .ident name =>
      match rest with
      | ⟨.leftParen, _, _⟩ :: inner =>
        match Builtin.named? name with
        | none => .error (.unknownFunction name)
        | some f =>
          match arguments inner with
          | .error e => .error e
          | .ok (args, ⟨r, h⟩) =>
            match f.checkArity args.length with
            | .error e => .error e
            | .ok () => .ok (.call f args, ⟨r, by simp only [List.length_cons]; omega⟩)
      | _ => .error (.unexpectedToken name t.start)
    | _ => .error (unexpected t)
termination_by (ts.length, 1)
decreasing_by
  · apply Prod.Lex.left; simp only [List.length_cons]; omega
  · apply Prod.Lex.left; simp only [List.length_cons]; omega

/-- The arguments behind an opening parenthesis, through the closing one. -/
def arguments (ts : Lexemes) :
    Except Error (List Expr × { r : Lexemes // r.length < ts.length }) :=
  match ts with
  | ⟨.rightParen, _, _⟩ :: rest => .ok ([], ⟨rest, Nat.lt_succ_self _⟩)
  | ts => argumentList ts
termination_by (ts.length, 20)
decreasing_by apply Prod.Lex.right; omega

/-- One argument and those behind its comma. -/
def argumentList (ts : Lexemes) :
    Except Error (List Expr × { r : Lexemes // r.length < ts.length }) :=
  match level .or ts with
  | .error e => .error e
  | .ok (_, ⟨[], _⟩) => .error .unexpectedEnd
  | .ok (e, ⟨c :: r, h⟩) =>
    match c.token with
    | .comma =>
      match argumentList r with
      | .error e => .error e
      | .ok (es, ⟨r', h'⟩) => .ok (e :: es, ⟨r', by simp only [List.length_cons] at h; omega⟩)
    | .rightParen => .ok ([e], ⟨r, by simp only [List.length_cons] at h; omega⟩)
    | _ => .error (unexpected c)
termination_by (ts.length, 19)
decreasing_by
  · apply Prod.Lex.right; decide
  · apply Prod.Lex.left; simp only [List.length_cons] at h; omega
end

end Parser

/-- The expression a formula text writes. -/
def parse (source : String) : Except Error Expr :=
  match scan source with
  | .error e => .error e
  | .ok [] => .error .empty
  | .ok (t :: ts) =>
    match Parser.level .or (t :: ts) with
    | .error e => .error e
    | .ok (e, ⟨[], _⟩) => .ok e
    | .ok (_, ⟨extra :: _, _⟩) => .error (Parser.unexpected extra)

end Docket.Formula
