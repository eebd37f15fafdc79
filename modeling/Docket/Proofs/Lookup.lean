import Mathlib

/-! Lists of entries as a look-up by key sees them: of two entries with one key the first counts. -/
namespace Docket

variable {κ β γ : Type} [BEq κ]

theorem lookup_map_value (f : β → γ) (entries : List (κ × β)) (key : κ) :
    (entries.map fun e => (e.1, f e.2)).lookup key = (entries.lookup key).map f := by
  induction entries with
  | nil => rfl
  | cons e entries ih =>
    obtain ⟨name, value⟩ := e
    simp only [List.map_cons, List.lookup_cons, ih]
    split <;> rfl

variable [LawfulBEq κ]

section Entry
variable [DecidableEq κ]

theorem lookup_entry (key name : κ) (value : β) (rest : List (κ × β)) :
    ((key, value) :: rest).lookup name = if name = key then some value else rest.lookup name := by
  rw [List.lookup_cons]
  by_cases h : name = key
  · simp [h]
  · simp [h, beq_eq_false_iff_ne.mpr h]

theorem lookup_filter_key (keep : κ → Bool) (entries : List (κ × β)) (key : κ) :
    (entries.filter fun e => keep e.1).lookup key =
      if keep key then entries.lookup key else none := by
  induction entries with
  | nil => simp
  | cons e entries ih =>
    obtain ⟨name, value⟩ := e
    by_cases same : key = name
    · subst same
      cases kept : keep key <;> simp [kept, ih]
    · cases kept : keep name <;> simp [kept, lookup_entry, same, ih]

end Entry

theorem mem_of_lookup {entries : List (κ × β)} {key : κ} {value : β}
    (found : entries.lookup key = some value) : (key, value) ∈ entries := by
  obtain ⟨before, after, rfl, -⟩ := List.lookup_eq_some_iff.mp found
  simp

theorem lookup_of_mem {entries : List (κ × β)} {key : κ} {value : β}
    (known : (key, value) ∈ entries) : ∃ first, entries.lookup key = some first := by
  rw [← Option.isSome_iff_exists, List.lookup_isSome_iff]
  exact ⟨(key, value), known, by simp⟩

/-- Where no key is there twice, looking up a key finds the value that stands with it. -/
theorem mem_iff_lookup {entries : List (κ × β)} (once : (entries.map Prod.fst).Nodup) {key : κ}
    {value : β} : (key, value) ∈ entries ↔ entries.lookup key = some value := by
  refine ⟨fun known => ?_, mem_of_lookup⟩
  obtain ⟨first, found⟩ := lookup_of_mem known
  have same := List.inj_on_of_nodup_map once (mem_of_lookup found) known rfl
  rw [found, (Prod.mk.inj same).2]

end Docket
