import Docket.Text.Trim

/-! Wildcard patterns of file names: `?` stands for one character, `*` for any number, brackets
for one of a set, and `**` alone between slashes for any number of folders. -/
namespace Docket.Glob

inductive PatternError
  /-- More than two stars in a row. -/
  | stars (position : Nat)
  /-- Two stars beside something that is no slash. -/
  | recursive (position : Nat)
  /-- A bracket that does not start a set. -/
  | set (position : Nat)
deriving DecidableEq

namespace PatternError

def position : PatternError → Nat
  | stars n => n
  | recursive n => n
  | set n => n

def reason : PatternError → String
  | stars _ => "wildcards are either regular `*` or recursive `**`"
  | recursive _ => "recursive wildcards must form a single path component"
  | set _ => "invalid range pattern"

def message (e : PatternError) : String :=
  s!"Pattern syntax error near position {e.position}: {e.reason}"

end PatternError

inductive Token
  | char (c : Char)
  | any
  | star
  /-- Two stars. -/
  | deep
  /-- A character in one of the ranges, or in none of them. -/
  | set (holds : Bool) (ranges : List (Char × Char))
deriving DecidableEq

abbrev Pattern := List Token

/-- Single characters and ranges with a dash. -/
def ranges : List Char → List (Char × Char)
  | a :: '-' :: b :: rest => (a, b) :: ranges rest
  | a :: rest => (a, a) :: ranges rest
  | [] => []

/-- The inside of a bracket, whether it asks for membership, and the text behind it. The first
character inside never closes the bracket. -/
def set? (inside : List Char) : Option (Token × List Char) :=
  let close (holds : Bool) : List Char → Option (Token × List Char)
    | first :: rest =>
      (Text.cutFirst? ']' rest).map fun (more, behind) =>
        (.set holds (ranges (first :: more)), behind)
    | [] => none
  match inside with
  | '!' :: rest => close false rest
  | _ => close true inside

theorem cutFirst_length {c : Char} {cs a b : List Char} (h : Text.cutFirst? c cs = some (a, b)) :
    b.length < cs.length := by
  induction cs generalizing a with
  | nil => simp [Text.cutFirst?] at h
  | cons d rest ih =>
    simp only [Text.cutFirst?] at h
    split at h
    · simp only [Option.some.injEq, Prod.mk.injEq] at h
      simp [h.2]
    · obtain ⟨⟨a', b'⟩, hb, he⟩ := Option.map_eq_some_iff.1 h
      simp only [Prod.mk.injEq] at he
      have := ih (he.2 ▸ hb)
      simp only [List.length_cons]
      omega

theorem set_length {inside behind : List Char} {t : Token} (h : set? inside = some (t, behind)) :
    behind.length < inside.length := by
  have step : ∀ {first : Char} {rest : List Char} {holds : Bool},
      (Text.cutFirst? ']' rest).map (fun (more, behind) =>
        (Token.set holds (ranges (first :: more)), behind)) = some (t, behind) →
      behind.length < rest.length := by
    intro first rest holds h
    obtain ⟨⟨more, b⟩, hb, he⟩ := Option.map_eq_some_iff.1 h
    simp only [Prod.mk.injEq] at he
    exact cutFirst_length (he.2 ▸ hb)
  unfold set? at h
  split at h
  · rename_i rest
    cases rest with
    | nil => simp at h
    | cons first rest =>
      have := step h
      simp only [List.length_cons]
      omega
  · cases inside with
    | nil => simp at h
    | cons first rest =>
      have := step h
      simp only [List.length_cons]
      omega

/-- Reads a pattern from a position, knowing the character before. -/
def readFrom (before : Option Char) (position : Nat) :
    List Char → Except PatternError Pattern
  | [] => .ok []
  | '?' :: rest => (readFrom (some '?') (position + 1) rest).map (.any :: ·)
  | '*' :: '*' :: '*' :: _ => .error (.stars (position + 2))
  | '*' :: '*' :: rest =>
    if before = none ∨ before = some '/' then
      match rest with
      | [] => .ok [.deep]
      | '/' :: rest => (readFrom (some '/') (position + 3) rest).map (.deep :: ·)
      | _ => .error (.recursive (position + 2))
    else .error (.recursive (position - 1))
  | '*' :: rest => (readFrom (some '*') (position + 1) rest).map (.star :: ·)
  | '[' :: rest =>
    match h : set? rest with
    | some (token, behind) =>
      have := set_length h
      (readFrom (some ']') (position + 1 + (rest.length - behind.length)) behind).map (token :: ·)
    | none => .error (.set position)
  | c :: rest => (readFrom (some c) (position + 1) rest).map (.char c :: ·)
termination_by cs => cs.length
decreasing_by all_goals simp only [List.length_cons]; omega

def read (pattern : String) : Except PatternError Pattern := readFrom none 0 pattern.toList

/-- The text of a pattern that has no wildcards. -/
def literal? : Pattern → Option (List Char)
  | [] => some []
  | .char c :: rest => (literal? rest).map (c :: ·)
  | _ => none

def Token.accepts (t : Token) (c : Char) : Bool :=
  match t with
  | char d => c == d
  | any | star | deep => true
  | set holds ranges => ranges.any (fun (a, b) => a ≤ c && c ≤ b) == holds

/-- Whether a pattern stands for a whole name. -/
def accepts : Pattern → List Char → Bool
  | [], cs => cs.isEmpty
  | .star :: ts, cs | .deep :: ts, cs =>
    accepts ts cs ||
      match cs with
      | _ :: rest => accepts (.star :: ts) rest
      | [] => false
  | t :: ts, cs =>
    match cs with
    | c :: rest => t.accepts c && accepts ts rest
    | [] => false
termination_by ts cs => ts.length + cs.length

end Docket.Glob
