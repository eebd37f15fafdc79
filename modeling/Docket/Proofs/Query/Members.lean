import Docket.Proofs.Lookup
import Docket.Query.Calculation

/-! Entries sorted by name, as a look-up sees them. -/
namespace Docket

theorem Json.lookup_insertSorted {β : Type} (key name : String) (value : β)
    (members : List (String × β)) :
    (insertSorted key value members).lookup name =
      if name = key then some value else members.lookup name := by
  induction members with
  | nil => rw [insertSorted, lookup_entry]
  | cons m rest ih =>
    obtain ⟨k, v⟩ := m
    unfold insertSorted
    split
    · rw [lookup_entry]
    · split
      · rename_i same
        subst k
        simp only [lookup_entry]
        split <;> rfl
      · rename_i other
        rw [lookup_entry, ih, lookup_entry]
        by_cases h : name = k
        · subst h
          simp [Ne.symm other]
        · simp [h]

namespace Json

/-- Sorted by key, with no key twice. -/
def Sorted {β : Type} (members : List (String × β)) : Prop :=
  (members.map Prod.fst).Pairwise (· < ·)

theorem Sorted.map {β γ : Type} {members : List (String × β)} (sorted : Sorted members)
    (f : β → γ) : Sorted (members.map fun m => (m.1, f m.2)) := by
  rw [Sorted, List.map_map]
  exact sorted

theorem mem_insertSorted {β : Type} {key : String} {value : β} {members : List (String × β)}
    {m : String × β} (known : m ∈ insertSorted key value members) :
    m = (key, value) ∨ m ∈ members := by
  induction members with
  | nil => exact .inl (List.mem_singleton.mp known)
  | cons first rest ih =>
    rw [insertSorted] at known
    split at known
    · exact List.mem_cons.mp known
    · split at known
      · rcases List.mem_cons.mp known with same | behind
        · exact .inl same
        · exact .inr (List.mem_cons_of_mem _ behind)
      · rcases List.mem_cons.mp known with same | behind
        · exact .inr (List.mem_cons.mpr (.inl same))
        · exact (ih behind).imp_right (List.mem_cons_of_mem _)

theorem sorted_insertSorted {β : Type} {members : List (String × β)} (sorted : Sorted members)
    (key : String) (value : β) : Sorted (insertSorted key value members) := by
  induction members with
  | nil => exact List.pairwise_singleton _ _
  | cons m rest ih =>
    obtain ⟨below, rest'⟩ := List.pairwise_cons.mp sorted
    rw [insertSorted]
    split
    · rename_i less
      refine List.pairwise_cons.mpr ⟨fun name known => ?_, sorted⟩
      rcases List.mem_cons.mp known with rfl | behind
      · exact less
      · exact less.trans (below name behind)
    · rename_i notLess
      split
      · rename_i same
        subst same
        exact List.pairwise_cons.mpr ⟨below, rest'⟩
      · rename_i other
        have greater : m.1 < key := lt_of_le_of_ne (not_lt.mp notLess) (Ne.symm other)
        refine List.pairwise_cons.mpr ⟨fun name known => ?_, ih rest'⟩
        obtain ⟨n, inside, rfl⟩ := List.mem_map.mp known
        rcases mem_insertSorted inside with rfl | behind
        · exact greater
        · exact below n.1 (List.mem_map_of_mem behind)

theorem insertSorted_last {β : Type} {key : String} {members : List (String × β)}
    (last : ∀ name ∈ members.map Prod.fst, name < key) (value : β) :
    insertSorted key value members = members ++ [(key, value)] := by
  induction members with
  | nil => rfl
  | cons m rest ih =>
    have less : m.1 < key := last m.1 List.mem_cons_self
    have behind := ih fun name known => last name (List.mem_cons_of_mem _ known)
    rw [insertSorted, if_neg less.asymm, if_neg less.ne', behind]
    rfl

theorem sorted_sortedMembers {β : Type} (members : List (String × β)) :
    Sorted (sortedMembers members) := by
  have go (ms seen : List (String × β)) (sorted : Sorted seen) :
      Sorted (ms.foldl (fun acc m => insertSorted m.1 m.2 acc) seen) := by
    induction ms generalizing seen with
    | nil => exact sorted
    | cons m ms ih => exact ih _ (sorted_insertSorted sorted m.1 m.2)
  exact go members [] List.Pairwise.nil

theorem mem_of_mem_sortedMembers {β : Type} {members : List (String × β)} {m : String × β}
    (known : m ∈ sortedMembers members) : m ∈ members := by
  have go (ms seen : List (String × β))
      (known : m ∈ ms.foldl (fun acc m => insertSorted m.1 m.2 acc) seen) : m ∈ seen ∨ m ∈ ms := by
    induction ms generalizing seen with
    | nil => exact .inl known
    | cons n ms ih =>
      rcases ih _ known with before | behind
      · rcases mem_insertSorted before with rfl | before
        · exact .inr List.mem_cons_self
        · exact .inl before
      · exact .inr (List.mem_cons_of_mem n behind)
  exact (go members [] known).resolve_left List.not_mem_nil

theorem sortedMembers_of_sorted {β : Type} {members : List (String × β)}
    (sorted : Sorted members) : sortedMembers members = members := by
  have go (ms seen : List (String × β)) (sorted : Sorted (seen ++ ms)) :
      ms.foldl (fun acc m => insertSorted m.1 m.2 acc) seen = seen ++ ms := by
    induction ms generalizing seen with
    | nil => exact (List.append_nil seen).symm
    | cons m ms ih =>
      have last : ∀ name ∈ seen.map Prod.fst, name < m.1 := by
        rw [Sorted, List.map_append, List.pairwise_append] at sorted
        exact fun name known => sorted.2.2 name known m.1 List.mem_cons_self
      have more : Sorted ((seen ++ [m]) ++ ms) := by
        rwa [List.append_assoc]
      rw [List.foldl_cons, insertSorted_last last, ih (seen ++ [m]) more, List.append_assoc]
      rfl
  exact go members [] sorted

theorem lookup_sortedMembers {β : Type} (members : List (String × β)) (name : String) :
    (sortedMembers members).lookup name = members.reverse.lookup name := by
  have go (ms seen : List (String × β)) :
      (ms.foldl (fun acc m => insertSorted m.1 m.2 acc) seen).lookup name =
        (ms.reverse.lookup name).or (seen.lookup name) := by
    induction ms generalizing seen with
    | nil => rfl
    | cons m ms ih =>
      rw [List.foldl_cons, ih, lookup_insertSorted, List.reverse_cons, List.lookup_append,
        Option.or_assoc, lookup_entry]
      congr 1
      split <;> rfl
  have all := go members []
  rwa [List.lookup_nil, Option.or_none] at all

theorem lookup_sortedMembers_of_nodup {β : Type} {members : List (String × β)}
    (once : (members.map Prod.fst).Nodup) (name : String) :
    (sortedMembers members).lookup name = members.lookup name := by
  have turned : (members.reverse.map Prod.fst).Nodup := by
    rwa [List.map_reverse, List.nodup_reverse]
  rw [lookup_sortedMembers]
  ext value
  rw [← mem_iff_lookup turned, ← mem_iff_lookup once, List.mem_reverse]

theorem mem_names_sortedMembers {β : Type} (members : List (String × β)) (name : String) :
    name ∈ (sortedMembers members).map Prod.fst ↔ name ∈ members.map Prod.fst := by
  have named (entries : List (String × β)) :
      name ∈ entries.map Prod.fst ↔ (entries.lookup name).isSome = true := by
    simp only [List.lookup_isSome_iff, List.mem_map, beq_iff_eq, eq_comm (a := name)]
  rw [named, lookup_sortedMembers, ← named, List.map_reverse, List.mem_reverse]

end Json

namespace Formula.Names

theorem insertInto_eq (name : String) (x : Float) (entries : List (String × Float)) :
    insertInto name x entries = Json.insertSorted name x entries := by
  induction entries with
  | nil => rfl
  | cons e rest ih => simp only [insertInto, Json.insertSorted, ih]

@[simp] theorem get?_insert (ns : Names) (key name : String) (x : Float) :
    (ns.insert key x).get? name = if name = key then some x else ns.get? name := by
  simp only [get?, insert, insertInto_eq, Json.lookup_insertSorted]

end Formula.Names
end Docket
