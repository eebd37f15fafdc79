import Docket.Proofs.Json.Records
import Docket.Proofs.Lookup

/-! Records made of values in memory. Each field is made of the member that is looked up under its
name; a reader that is put together from two makes each of its parts of the same members. -/
namespace Docket.Json.RecordReader

variable {α β : Type} {ms : List (String × Value)}

/-- What a reader makes of the members of an object in memory. -/
def Draws (r : RecordReader α) (ms : List (String × Value)) (a : α) : Prop :=
  ∃ s, r.convertMembers r.blank ms = .ok s ∧ r.finish .named s = .ok a

theorem draws_of_convert {r : RecordReader α} {name : String} {a : α}
    (read : (r.decoder name).convert (.object ms) = .ok a) : r.Draws ms a := by
  obtain ⟨s, converted, settled⟩ := of_bind_ok read
  exact ⟨s, converted, of_mapError_ok (of_mapError_ok settled)⟩

theorem convertMembers_map (f : α → β) (r : RecordReader α) (s : r.State) :
    (f <$> r).convertMembers s ms = r.convertMembers s ms := by
  induction ms generalizing s with
  | nil => rfl
  | cons m ms ih =>
    obtain ⟨key, v⟩ := m
    have fresh : (f <$> r).fresh s key = r.fresh s key := rfl
    rw [convertMembers, convertMembers, fresh]
    split
    · rfl
    · exact congrArg (r.convert _ s v >>= ·) (funext ih)
    · exact ih s

theorem Draws.map {f : α → β} {r : RecordReader α} {b : β} (draws : (f <$> r).Draws ms b) :
    ∃ a, r.Draws ms a ∧ f a = b := by
  obtain ⟨s, converted, whole⟩ := draws
  obtain ⟨a, finished, same⟩ := of_map_ok whole
  exact ⟨a, ⟨s, (convertMembers_map f r r.blank).symm.trans converted, finished⟩, same⟩

section Seq
variable {f : RecordReader (α → β)} {r : RecordReader α}

theorem idxOf?_names (key : String) : (seq f r).names.idxOf? key =
    (f.names.idxOf? key).or ((r.names.idxOf? key).map (· + f.names.length)) := by
  show (f.names ++ r.names).idxOf? key = _
  rw [List.idxOf?, List.findIdx?_append]

theorem mem_of_idxOf? {names : List String} {key : String} {i : Nat}
    (found : names.idxOf? key = some i) : i < names.length ∧ key ∈ names := by
  obtain ⟨inside, same, -⟩ := List.findIdx?_eq_some_iff_getElem.mp found
  exact ⟨inside, beq_iff_eq.mp same ▸ List.getElem_mem inside⟩

theorem fresh_left {key : String} {i : Nat} (found : f.names.idxOf? key = some i) (s : f.State)
    (t : r.State) : (seq f r).fresh (s, t) key = f.fresh s key := by
  have index : (seq f r).names.idxOf? key = some i := by rw [idxOf?_names, found, Option.some_or]
  have has : (seq f r).has (s, t) i = f.has s i := if_pos (mem_of_idxOf? found).1
  simp only [fresh, index, found]
  rw [has]

theorem fresh_right {key : String} (absent : f.names.idxOf? key = none) (s : f.State)
    (t : r.State) : (seq f r).fresh (s, t) key =
      (r.fresh t key).map (Option.map (· + f.names.length)) := by
  have index : (seq f r).names.idxOf? key =
      (r.names.idxOf? key).map (· + f.names.length) := by
    rw [idxOf?_names, absent, Option.none_or]
  simp only [fresh, index]
  cases r.names.idxOf? key with
  | none => rfl
  | some i =>
    have outside : ¬ i + f.names.length < f.names.length := by omega
    have has : (seq f r).has (s, t) (i + f.names.length) = r.has t i := by
      simp only [seq, if_neg outside, Nat.add_sub_cancel]
    simp only [Option.map_some]
    rw [has]
    split <;> rfl

/-- The members that one of two readers takes as fields do not reach the other. -/
theorem convertMembers_seq (apart : ∀ name ∈ f.names, name ∉ r.names) {s s' : f.State}
    {t t' : r.State} (converted : (seq f r).convertMembers (s, t) ms = .ok (s', t')) :
    f.convertMembers s ms = .ok s' ∧ r.convertMembers t ms = .ok t' := by
  induction ms generalizing s t with
  | nil =>
    cases converted
    exact ⟨rfl, rfl⟩
  | cons m ms ih =>
    obtain ⟨key, v⟩ := m
    simp only [convertMembers] at converted ⊢
    cases left : f.names.idxOf? key with
    | some i =>
      obtain ⟨inside, known⟩ := mem_of_idxOf? left
      have passed : r.fresh t key = .ok none := by
        have absent : r.names.idxOf? key = none := List.idxOf?_eq_none_iff.mpr (apart key known)
        rw [fresh, absent]
      rw [fresh_left left] at converted
      simp only [passed]
      simp only [fresh, left] at converted ⊢
      by_cases taken : f.has s i = true
      · simp [taken] at converted
      · simp only [if_neg taken] at converted ⊢
        obtain ⟨⟨s₁, t₁⟩, step, rest⟩ := of_bind_ok converted
        obtain ⟨s₂, read, same⟩ := of_map_ok ((if_pos inside).symm.trans step)
        cases same
        obtain ⟨first, second⟩ := ih rest
        rw [read]
        exact ⟨first, second⟩
    | none =>
      have passed : f.fresh s key = .ok none := by rw [fresh, left]
      rw [fresh_right left] at converted
      simp only [passed]
      cases taken : r.fresh t key with
      | error cause =>
        rw [taken] at converted
        cases converted
      | ok place =>
        rw [taken] at converted
        cases place with
        | none => exact ih converted
        | some i =>
          obtain ⟨⟨s₁, t₁⟩, step, rest⟩ := of_bind_ok converted
          have outside : ¬ i + f.names.length < f.names.length := by omega
          obtain ⟨t₂, read, same⟩ := of_map_ok ((if_neg outside).symm.trans step)
          rw [Nat.add_sub_cancel] at read
          cases same
          obtain ⟨first, second⟩ := ih rest
          refine ⟨first, ?_⟩
          simp only [read]
          exact second

theorem Draws.seq (apart : ∀ name ∈ f.names, name ∉ r.names) {b : β}
    (draws : (f <*> r).Draws ms b) : ∃ g a, f.Draws ms g ∧ r.Draws ms a ∧ g a = b := by
  obtain ⟨⟨s, t⟩, converted, whole⟩ := draws
  obtain ⟨first, second⟩ := convertMembers_seq apart converted
  obtain ⟨g, function, rest⟩ := of_bind_ok whole
  cases argument : r.finish .named t with
  | error i => simp [argument, throw, throwThe, MonadExceptOf.throw] at rest
  | ok a =>
    simp only [argument, pure, Except.pure, Except.ok.injEq] at rest
    exact ⟨g, a, ⟨s, first, function⟩, ⟨t, second, argument⟩, rest⟩

end Seq

section Field
variable {name : String} {d : Decoder α} {absent short : Option α}

theorem convertMembers_field {s s' : Option α}
    (converted : (field name d absent short).convertMembers s ms = .ok s') :
    (∀ a, s = some a → s' = some a) ∧
      ∀ v, ms.lookup name = some v → ∃ a, s = none ∧ d.convert v = .ok a ∧ s' = some a := by
  induction ms generalizing s with
  | nil =>
    cases converted
    refine ⟨fun _ same => same, fun v found => ?_⟩
    cases found
  | cons m ms ih =>
    obtain ⟨key, v⟩ := m
    simp only [convertMembers] at converted
    by_cases same : key = name
    · subst same
      have own : (RecordReader.field key d absent short).fresh s key =
          if s.isSome then .error (.duplicateField key) else .ok (some 0) := by
        simp only [fresh, RecordReader.field, List.idxOf?, List.findIdx?_cons, beq_self_eq_true,
          if_true]
        rfl
      rw [own] at converted
      cases s with
      | some a => cases converted
      | none =>
        obtain ⟨t, step, rest⟩ := of_bind_ok converted
        have made : (d.convert v).map some = .ok t := step
        obtain ⟨a, read, rfl⟩ := of_map_ok made
        constructor
        · intro b same
          cases same
        · intro w found
          rw [List.lookup_cons_self] at found
          cases found
          exact ⟨a, rfl, read, (ih rest).1 a rfl⟩
    · have passed : (RecordReader.field name d absent short).fresh s key = .ok none := by
        have other : (name == key) = false := by simpa using Ne.symm same
        simp only [fresh, RecordReader.field, List.idxOf?, List.findIdx?_cons, other,
          Bool.false_eq_true, if_false, List.findIdx?_nil, Option.map_none]
      rw [passed] at converted
      obtain ⟨kept, found⟩ := ih converted
      refine ⟨kept, fun w known => found w ?_⟩
      rwa [lookup_entry, if_neg (Ne.symm same)] at known

/-- A field is what its decoder makes of the member of its name. -/
theorem draws_field {a : α} (draws : (RecordReader.field name d absent short).Draws ms a) {v : Value}
    (found : ms.lookup name = some v) : d.convert v = .ok a := by
  obtain ⟨s, converted, whole⟩ := draws
  obtain ⟨c, -, read, rfl⟩ := (convertMembers_field converted).2 v found
  cases whole
  exact read

theorem Draws.field {f : RecordReader (α → β)} (apart : name ∉ f.names) {b : β}
    (draws : (f <*> RecordReader.field name d absent short).Draws ms b) :
    ∃ g a, f.Draws ms g ∧ (∀ v, ms.lookup name = some v → d.convert v = .ok a) ∧ g a = b := by
  have once : ∀ other ∈ f.names, other ∉ (RecordReader.field name d absent short).names := by
    intro other known listed
    rw [List.mem_singleton.mp listed] at known
    exact apart known
  obtain ⟨g, a, first, last, made⟩ := draws.seq once
  exact ⟨g, a, first, fun v => draws_field last, made⟩

end Field
end Docket.Json.RecordReader
