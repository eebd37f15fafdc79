import Mathlib

/-! What is seen first on the way through a text. What is seen at a place may depend on what stands
before the place and on what follows. -/
namespace Docket.Text

variable {α : Type} {see : List Char → List Char → Option α} {seen cs : List Char}

/-- The first sight from the left in a text that goes on behind `seen`. -/
def firstSight? (see : List Char → List Char → Option α) (seen : List Char) :
    List Char → Option α
  | [] => see seen []
  | c :: rest => (see seen (c :: rest)).or (firstSight? see (seen ++ [c]) rest)

/-- A sight behind `before`, and none to the left of it. -/
structure FirstAt (see : List Char → List Char → Option α) (seen cs before rest : List Char)
    (a : α) : Prop where
  parts : cs = before ++ rest
  sight : see (seen ++ before) rest = some a
  first : ∀ front back, cs = front ++ back → front.length < before.length →
    see (seen ++ front) back = none

theorem forall_splits_cons {p : List Char → List Char → Prop} (c : Char) (cs : List Char) :
    (∀ before rest, c :: cs = before ++ rest → p before rest) ↔
      p [] (c :: cs) ∧ ∀ before rest, cs = before ++ rest → p (c :: before) rest := by
  constructor
  · intro all
    refine ⟨all [] (c :: cs) rfl, fun before rest parts => all (c :: before) rest ?_⟩
    rw [parts, List.cons_append]
  · rintro ⟨here, later⟩ before rest parts
    rcases List.cons_eq_append_iff.mp parts with ⟨rfl, rfl⟩ | ⟨front, rfl, split⟩
    · exact here
    · exact later front rest split

theorem firstSight?_eq_none_iff : firstSight? see seen cs = none ↔
    ∀ before rest, cs = before ++ rest → see (seen ++ before) rest = none := by
  induction cs generalizing seen with
  | nil =>
    simp only [firstSight?, List.nil_eq_append_iff]
    constructor
    · rintro none before rest ⟨rfl, rfl⟩
      rwa [List.append_nil]
    · intro none
      have here := none [] [] ⟨rfl, rfl⟩
      rwa [List.append_nil] at here
  | cons c cs ih =>
    rw [firstSight?, Option.or_eq_none_iff, ih, forall_splits_cons, List.append_nil]
    simp only [List.append_assoc, List.singleton_append]

theorem firstSight?_eq_some_iff {a : α} : firstSight? see seen cs = some a ↔
    ∃ before rest, FirstAt see seen cs before rest a := by
  induction cs generalizing seen with
  | nil =>
    constructor
    · intro here
      refine ⟨[], [], rfl, by rwa [List.append_nil], fun front back _ less => ?_⟩
      exact absurd less (Nat.not_lt_zero _)
    · rintro ⟨before, rest, parts, sight, -⟩
      obtain ⟨rfl, rfl⟩ := List.nil_eq_append_iff.mp parts
      rwa [List.append_nil] at sight
  | cons c cs ih =>
    rw [firstSight?, Option.or_eq_some_iff, ih]
    constructor
    · rintro (here | ⟨none, before, rest, rfl, sight, first⟩)
      · refine ⟨[], c :: cs, rfl, by rwa [List.append_nil], fun front back _ less => ?_⟩
        exact absurd less (Nat.not_lt_zero _)
      · refine ⟨c :: before, rest, rfl, by rwa [List.append_cons], ?_⟩
        rw [forall_splits_cons, List.append_nil]
        refine ⟨fun _ => none, fun front back split less => ?_⟩
        rw [List.append_cons]
        exact first front back split (Nat.lt_of_succ_lt_succ less)
    · rintro ⟨before, rest, parts, sight, first⟩
      rcases List.cons_eq_append_iff.mp parts with ⟨rfl, rfl⟩ | ⟨before, rfl, split⟩
      · rw [List.append_nil] at sight
        exact .inl sight
      · rw [forall_splits_cons, List.append_nil] at first
        rw [List.append_cons] at sight
        refine .inr ⟨first.1 (Nat.succ_pos _), before, rest, split, sight, ?_⟩
        intro front back parts less
        have none := first.2 front back parts (Nat.succ_lt_succ less)
        rwa [List.append_cons] at none

/-- Where nothing is seen before the end of `front`, the search may as well begin there. -/
theorem firstSight?_append {front : List Char} (back : List Char)
    (none : ∀ before rest, front = before ++ rest → rest ≠ [] →
      see (seen ++ before) (rest ++ back) = none) :
    firstSight? see seen (front ++ back) = firstSight? see (seen ++ front) back := by
  induction front generalizing seen with
  | nil => rw [List.nil_append, List.append_nil]
  | cons c front ih =>
    rw [forall_splits_cons, List.append_nil] at none
    have here := none.1 (List.cons_ne_nil c front)
    rw [List.cons_append] at here
    rw [List.cons_append, firstSight?, here, Option.none_or, List.append_cons seen c front]
    apply ih
    intro before rest parts some
    have further := none.2 before rest parts some
    rwa [List.append_cons] at further

/-- Something at a place, and nothing at any place further left. -/
def Leftmost (p : List Char → α → Prop) (a : α) : Prop :=
  ∃ before, p before a ∧ ∀ front b, p front b → before.length ≤ front.length

section Leftmost
variable {p : List Char → α → Prop}
  (tells : ∀ before a, p before a ↔ ∃ rest, cs = before ++ rest ∧ see before rest = some a)
include tells

theorem firstSight?_eq_some_iff_leftmost {a : α} :
    firstSight? see [] cs = some a ↔ Leftmost p a := by
  rw [firstSight?_eq_some_iff]
  constructor
  · rintro ⟨before, rest, parts, sight, first⟩
    refine ⟨before, (tells before a).mpr ⟨rest, parts, sight⟩, fun front b known => ?_⟩
    obtain ⟨back, split, seen⟩ := (tells front b).mp known
    by_contra less
    have none := first front back split (Nat.lt_of_not_le less)
    rw [List.nil_append, seen] at none
    cases none
  · rintro ⟨before, known, least⟩
    obtain ⟨rest, parts, sight⟩ := (tells before a).mp known
    refine ⟨before, rest, parts, sight, fun front back split less => ?_⟩
    refine Option.eq_none_iff_forall_ne_some.mpr fun b seen => ?_
    exact Nat.not_le_of_lt less (least front b ((tells front b).mpr ⟨back, split, seen⟩))

theorem firstSight?_eq_none_iff_forall :
    firstSight? see [] cs = none ↔ ∀ before a, ¬ p before a := by
  rw [firstSight?_eq_none_iff]
  constructor
  · intro none before a known
    obtain ⟨rest, parts, sight⟩ := (tells before a).mp known
    have here := none before rest parts
    rw [List.nil_append, sight] at here
    cases here
  · intro none before rest parts
    refine Option.eq_none_iff_forall_ne_some.mpr fun a sight => ?_
    exact none before a ((tells before a).mpr ⟨rest, parts, sight⟩)

end Leftmost

end Docket.Text
