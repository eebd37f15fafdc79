import Docket.Formula.Parser

/-! Which lexeme a failed reading blames. Each function of the parser leaves a part of the end of
what it was given, so a lexeme that stands in the way, wherever the reading has got to, is one of
those it began with. -/
namespace Docket.Formula.Parser

/-- An error that names a token names one of these, and the offset it stands at. -/
def Blames (ts : Lexemes) (e : Error) : Prop :=
  ∀ text position, e = .unexpectedToken text position →
    ∃ l ∈ ts, l.start = position ∧ l.token.describe = text

theorem Blames.mono {ts us : Lexemes} {e : Error} (blames : Blames us e) (part : us <:+ ts) :
    Blames ts e := by
  intro text position named
  obtain ⟨l, known, told⟩ := blames text position named
  exact ⟨l, part.subset known, told⟩

theorem blames_unexpected {ts : Lexemes} {l : Lexeme} (known : l ∈ ts) :
    Blames ts (unexpected l) := by
  intro text position named
  cases named
  exact ⟨l, known, rfl, rfl⟩

/-- A reading that leaves a part of the end of its lexemes, or fails on one of them. -/
def Within {β : Type} {P : Lexemes → Prop} (ts : Lexemes)
    (p : Except Error (β × { r : Lexemes // P r })) : Prop :=
  match p with
  | .ok (_, ⟨r, _⟩) => r <:+ ts
  | .error e => Blames ts e

variable {β : Type} {P : Lexemes → Prop} {p : Except Error (β × { r : Lexemes // P r })}
  {ts us : Lexemes}

theorem Within.left {b : β} {r : Lexemes} {h : P r} (within : Within ts p)
    (read : p = .ok (b, ⟨r, h⟩)) : r <:+ ts := by
  rwa [read] at within

theorem Within.blames {e : Error} (within : Within ts p) (failed : p = .error e) :
    Blames ts e := by
  rwa [failed] at within

mutual
theorem level_within (k : Level) (ts : Lexemes) : Within ts (level k ts) := by
  have first := operand_within k ts
  rw [level]
  split
  · rename_i e failed
    exact first.blames failed
  · rename_i left r shorter read
    have rest := chain_within k left r
    split
    · rename_i e failed
      exact (rest.blames failed).mono (first.left read)
    · rename_i e r' shorter' more
      exact (rest.left more).trans (first.left read)
termination_by (ts.length, 2 * k.height + 4)

theorem operand_within (k : Level) (ts : Lexemes) : Within ts (operand k ts) := by
  rw [operand]
  split
  · rename_i l tighter
    have lower := Level.height_tighter tighter
    exact level_within l ts
  · have some := k.height_pos
    exact unary_within ts
termination_by (ts.length, 2 * k.height + 3)

theorem chain_within (k : Level) (left : Expr) (ts : Lexemes) : Within ts (chain k left ts) := by
  match ts with
  | [] =>
    rw [chain]
    exact List.suffix_refl _
  | t :: rest =>
    rw [chain]
    split
    · exact List.suffix_refl _
    · rename_i op found
      have behind : rest <:+ t :: rest := List.suffix_cons _ _
      have first := operand_within k rest
      split
      · rename_i e failed
        exact (first.blames failed).mono behind
      · rename_i right r shorter read
        have more := chain_within k (.binary op left right) r
        have part := (first.left read).trans behind
        split
        · rename_i e failed
          exact (more.blames failed).mono part
        · rename_i e r' shorter' joined
          exact (more.left joined).trans part
termination_by (ts.length, 0)

theorem unary_within (ts : Lexemes) : Within ts (unary ts) := by
  match ts with
  | [] =>
    rw [unary]
    exact nofun
  | t :: rest =>
    rw [unary]
    split
    · have behind : rest <:+ t :: rest := List.suffix_cons _ _
      have inner := unary_within rest
      split
      · rename_i e failed
        exact (inner.blames failed).mono behind
      · rename_i e r shorter read
        exact (inner.left read).trans behind
    · exact power_within (t :: rest)
termination_by (ts.length, 3)

theorem power_within (ts : Lexemes) : Within ts (power ts) := by
  have first := primary_within ts
  rw [power]
  split
  · rename_i e failed
    exact first.blames failed
  · rename_i base left read
    obtain ⟨r, shorter⟩ := left
    have part := first.left read
    split
    · rename_i start text rest same
      cases same
      have behind := (List.suffix_cons _ _).trans part
      have fewer : rest.length < ts.length := Nat.lt_of_succ_lt shorter
      have exponent := unary_within rest
      split
      · rename_i e failed
        exact (exponent.blames failed).mono behind
      · rename_i e r' shorter' read'
        exact (exponent.left read').trans behind
    · exact part
termination_by (ts.length, 2)

theorem primary_within (ts : Lexemes) : Within ts (primary ts) := by
  match ts with
  | [] =>
    rw [primary]
    exact nofun
  | t :: rest =>
    have behind : rest <:+ t :: rest := List.suffix_cons _ _
    rw [primary]
    split
    · exact behind
    · exact behind
    · have inner := level_within .or rest
      split
      · rename_i e failed
        exact (inner.blames failed).mono behind
      · exact nofun
      · rename_i e c r shorter read
        have part := (inner.left read).trans behind
        split
        · exact (List.suffix_cons _ _).trans part
        · exact blames_unexpected (part.subset List.mem_cons_self)
    · rename_i name word
      split
      · rename_i start text inner
        split
        · exact nofun
        · rename_i f named
          have read := arguments_within inner
          have part := (List.suffix_cons ⟨.leftParen, start, text⟩ inner).trans behind
          split
          · rename_i e failed
            exact (read.blames failed).mono part
          · rename_i args r shorter listed
            split
            · rename_i e failed
              unfold Builtin.checkArity at failed
              split at failed <;> cases failed
              exact nofun
            · exact (read.left listed).trans part
      · intro text position named
        cases named
        exact ⟨t, List.mem_cons_self, rfl, by rw [word]; rfl⟩
    · exact blames_unexpected List.mem_cons_self
termination_by (ts.length, 1)

theorem arguments_within (ts : Lexemes) : Within ts (arguments ts) := by
  unfold arguments
  split
  · exact List.suffix_cons _ _
  · exact argumentList_within ts
termination_by (ts.length, 20)

theorem argumentList_within (ts : Lexemes) : Within ts (argumentList ts) := by
  have first := level_within .or ts
  rw [argumentList]
  split
  · rename_i e failed
    exact first.blames failed
  · exact nofun
  · rename_i e c r shorter read
    have part := first.left read
    have behind := (List.suffix_cons c r).trans part
    have fewer : r.length < ts.length := Nat.lt_of_succ_lt shorter
    split
    · have more := argumentList_within r
      split
      · rename_i e' failed
        exact (more.blames failed).mono behind
      · rename_i es r' shorter' listed
        exact (more.left listed).trans behind
    · exact behind
    · exact blames_unexpected (part.subset List.mem_cons_self)
termination_by (ts.length, 19)
decreasing_by
  · exact Prod.Lex.right _ (by decide)
  · exact Prod.Lex.left _ _ (by assumption)
end

end Docket.Formula.Parser
