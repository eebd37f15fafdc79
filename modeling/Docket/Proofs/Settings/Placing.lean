import Docket.Command.Config
import Docket.Proofs.Query.Members

/-! Values at paths of keys. A value can be put only where something stands already, and what stands
elsewhere is left as it was: two leaves of a value are never one inside the other. -/
namespace Docket.Json.Value

theorem sortedParts_eq_map (ms : List (String × Value)) :
    sortedParts ms = ms.map fun m => (m.1, m.2.sorted) := by
  induction ms with
  | nil => rfl
  | cons m ms ih =>
    obtain ⟨k, v⟩ := m
    rw [sortedParts, ih, List.map_cons]

theorem lookup_sorted {ms : List (String × Value)} (once : (ms.map Prod.fst).Nodup) (key : String) :
    (sortedMembers (sortedParts ms)).lookup key = (ms.lookup key).map sorted := by
  have names : (sortedParts ms).map Prod.fst = ms.map Prod.fst := by
    rw [sortedParts_eq_map, List.map_map]
    rfl
  rw [lookup_sortedMembers_of_nodup (names ▸ once), sortedParts_eq_map, lookup_map_value]

/-- A value is put at a path: what stood there is replaced, in an object that has its key. -/
inductive Puts (value : Value) : List String → Value → Value → Prop
  | last {key : String} {ms : List (String × Value)} {old : Value}
      (there : ms.lookup key = some old) :
      Puts value [key] (.object ms) (.object (replace key value ms))
  | within {key : String} {rest : List String} {ms : List (String × Value)} {old new : Value}
      (there : ms.lookup key = some old) (inner : Puts value rest old new) :
      Puts value (key :: rest) (.object ms) (.object (replace key new ms))

variable {value v w : Value} {path : List String}

/-- A number, a boolean or a string. -/
def Leaf : Value → Prop
  | .bool _ | .number _ | .string _ => True
  | _ => False

theorem Leaf.at?_eq (leaf : v.Leaf) {o : Value} (there : v.at? path = some o) :
    path = [] ∧ o = v := by
  cases path with
  | nil => exact ⟨rfl, (Option.some.inj there).symm⟩
  | cons key rest =>
    have none : v.member? key = none := by cases v <;> first | rfl | cases leaf
    rw [at?, none] at there
    cases there

theorem at?_object (key : String) (rest : List String) (ms : List (String × Value)) :
    (object ms).at? (key :: rest) = (ms.lookup key).bind (·.at? rest) := rfl

theorem at?_sorted {ms : List (String × Value)} (once : (ms.map Prod.fst).Nodup) (key : String)
    (rest : List String) :
    (object ms).sorted.at? (key :: rest) = (ms.lookup key).bind (·.sorted.at? rest) := by
  rw [sorted, at?_object, lookup_sorted once]
  cases ms.lookup key <;> rfl

theorem Puts.there (puts : Puts value path v w) : ∃ old, v.at? path = some old := by
  induction puts with
  | last there => exact ⟨_, by rw [at?_object, there]; rfl⟩
  | within there inner ih =>
    obtain ⟨old, found⟩ := ih
    exact ⟨old, by rw [at?_object, there]; exact found⟩

end Docket.Json.Value
