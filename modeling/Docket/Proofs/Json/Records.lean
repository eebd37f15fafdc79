import Mathlib
import Docket.Calibration.Record
import Docket.Proofs.Json.Containers

/-! Records read back. The members that a record is written as fill its fields one by one; a reader
that is put together from two is filled by the members of the one and then those of the other.
Whatever is read, from a text or from a value, is something that the reader makes of its fields. -/
namespace Docket.Json.RecordReader
open Cursor Decoder

variable {α β : Type} {depth n : Nat}

/-- A member that a reader takes as a field that it has not read yet. -/
def Fills (r : RecordReader α) (n : Nat) (s : r.State) (m : String × Value) (s' : r.State) : Prop :=
  ∃ i, r.names[i]? = some m.1 ∧ r.has s i = false ∧ Reads (r.scan i s n) m.2 s'

/-- The members in front of `ns` fill the fields of a record, and what they make is this record. -/
def Accepts (r : RecordReader α) (depth : Nat) (ms ns : List (String × Value)) (a : α) : Prop :=
  ∀ n, depth ≤ n → ∃ front s, ms = front ++ ns ∧ Walk (r.Fills n) r.blank front s ∧
    r.finish .named s = .ok a

theorem Accepts.map {r : RecordReader α} {ms ns : List (String × Value)} {a : α} (f : α → β)
    (accepts : r.Accepts depth ms ns a) : (f <$> r).Accepts depth ms ns (f a) := by
  intro n room
  obtain ⟨front, s, members, walk, whole⟩ := accepts n room
  refine ⟨front, s, members, walk, ?_⟩
  show (r.finish .named s).map f = _
  rw [whole]
  rfl

section Seq
variable {f : RecordReader (α → β)} {r : RecordReader α}

theorem Fills.left {s s' : f.State} {m : String × Value} (fills : f.Fills n s m s') (t : r.State) :
    (seq f r).Fills n (s, t) m (s', t) := by
  obtain ⟨i, name, fresh, reads⟩ := fills
  have inside : i < f.names.length := (List.getElem?_eq_some_iff.mp name).1
  refine ⟨i, ?_, ?_, fun indent rest c blank ends before => ?_⟩
  · exact (List.getElem?_append_left inside).trans name
  · exact (if_pos inside).trans fresh
  · obtain ⟨c', read, left⟩ := reads indent rest c blank ends before
    refine ⟨c', ?_, left⟩
    simp only [seq, if_pos inside, read]
    rfl

theorem Fills.right {t t' : r.State} {m : String × Value} (fills : r.Fills n t m t') (s : f.State) :
    (seq f r).Fills n (s, t) m (s, t') := by
  obtain ⟨i, name, fresh, reads⟩ := fills
  have outside : ¬ f.names.length + i < f.names.length := by omega
  have back : f.names.length + i - f.names.length = i := by omega
  refine ⟨f.names.length + i, ?_, ?_, fun indent rest c blank ends before => ?_⟩
  · show (f.names ++ r.names)[f.names.length + i]? = _
    rw [List.getElem?_append_right (Nat.le_add_right _ _), back]
    exact name
  · simp only [seq, if_neg outside, back]
    exact fresh
  · obtain ⟨c', read, left⟩ := reads indent rest c blank ends before
    refine ⟨c', ?_, left⟩
    simp only [seq, if_neg outside, back, read]
    rfl

theorem Accepts.seq {ms ns os : List (String × Value)} {g : α → β} {a : α}
    (first : f.Accepts depth ms ns g) (second : r.Accepts depth ns os a) :
    (f <*> r).Accepts depth ms os (g a) := by
  intro n room
  obtain ⟨front, s, rfl, walk, function⟩ := first n room
  obtain ⟨back, t, rfl, walk', argument⟩ := second n room
  refine ⟨front ++ back, (s, t), (List.append_assoc front back os).symm, ?_, ?_⟩
  · have left := walk.map (fun s => (s, r.blank)) fun m _ s s' fills => fills.left r.blank
    have right := walk'.map (fun t => (s, t)) fun m _ t t' fills => fills.right s
    exact left.append right
  · show (f.finish .named s >>= _) = _
    rw [function]
    simp only [bind, Except.bind, argument]
    rfl

end Seq

section Field
variable {name : String} {d : Decoder α} {absent short : Option α} {ns : List (String × Value)}

theorem accepts_field {v : Value} {a : α} (restores : d.Restores depth v a) :
    (field name d absent short).Accepts depth ((name, v) :: ns) ns a := by
  intro n room
  have fills : (field name d absent short).Fills n none (name, v) (some a) := by
    refine ⟨0, rfl, rfl, fun indent rest c blank ends before => ?_⟩
    obtain ⟨c', read, left⟩ := restores.reads n room indent rest c blank ends before
    refine ⟨c', ?_, left⟩
    show (d.scan n c).map _ = _
    rw [read]
    rfl
  exact ⟨[(name, v)], some a, rfl, .cons fills (.nil _), rfl⟩

/-- One more field, which stands behind the others. -/
theorem Accepts.field {f : RecordReader (α → β)} {ms : List (String × Value)} {g : α → β}
    {v : Value} {a : α} (accepts : f.Accepts depth ms ((name, v) :: ns) g)
    (restores : d.Restores depth v a) :
    (f <*> field name d absent short).Accepts depth ms ns (g a) :=
  accepts.seq (accepts_field restores)

/-- One more field, which is left out where there is nothing to say. -/
theorem Accepts.option {γ : Type} {f : RecordReader (Option α → β)} {ms : List (String × Value)}
    {g : Option α → β} {write : γ → Value} {made : γ → α} {o : Option γ}
    (accepts : f.Accepts depth ms (memberOf name write o ++ ns) g)
    (restores : ∀ b ∈ o, d.Restores depth (write b) (made b))
    (said : ∀ b ∈ o, (write b).Heads (· ≠ 'n')) :
    (f <*> optional name d).Accepts depth ms ns (g (o.map made)) := by
  cases o with
  | none =>
    have absent : (optional name d).Accepts depth ns ns none :=
      fun _ _ => ⟨[], none, rfl, .nil _, rfl⟩
    exact accepts.seq absent
  | some b => exact accepts.field (restores_some (restores b rfl) (said b rfl))

end Field

theorem takes_scanMember {r : RecordReader α} (once : r.names.Nodup) {s s' : r.State}
    {m : String × Value} (fills : r.Fills n s m s') : Takes (r.scanMember n) s m s' := by
  obtain ⟨i, name, fresh, reads⟩ := fills
  intro indent rest c blank ends stands
  obtain ⟨c₁, colon, here⟩ := colon_before stands
  obtain ⟨c', read, left⟩ := reads indent rest c₁ blank ends here
  refine ⟨c', ?_, left⟩
  have known : r.names.idxOf? m.1 = some i := by
    obtain ⟨inside, there⟩ := List.getElem?_eq_some_iff.mp name
    -- The first field of the name is the only one.
    refine List.findIdx?_eq_some_iff_getElem.mpr ⟨inside, beq_iff_eq.mpr there, fun j before => ?_⟩
    have other : r.names[j] ≠ r.names[i] := fun same => by
      have index := once.getElem_inj_iff.mp same
      omega
    simpa [there] using other
  have free : r.fresh s m.1 = .ok (some i) := by
    simp only [RecordReader.fresh, known, fresh]
    rfl
  simp only [scanMember, free, colon, bind, Except.bind]
  exact read

/-- An object whose members make a record is read as that record. -/
theorem Accepts.restores {r : RecordReader α} {ms : List (String × Value)} {a b : α}
    (accepts : r.Accepts depth ms [] a) (made : a = b) (name : String) (once : r.names.Nodup) :
    (r.decoder name).Restores (depth + 1) (.object ms) b := by
  subst made
  refine ⟨Value.heads_object ms (by decide), fun n room indent rest c blank ends before => ?_⟩
  obtain ⟨n, rfl⟩ := Nat.exists_eq_succ_of_ne_zero (Nat.ne_zero_of_lt room)
  obtain ⟨front, s, rfl, walk, whole⟩ := accepts n (Nat.le_of_succ_le_succ room)
  rw [toList_object, List.append_nil] at before
  have stands := before.cons rfl
  have takes : Walk (Takes (r.scanMember n)) r.blank front s :=
    walk.map id fun m _ s s' fills => takes_scanMember once fills
  obtain ⟨d', folded, closes⟩ := foldMembers_objectRest blank takes (next_rest stands)
  have settled : r.settle name .named s = .ok a := by
    rw [settle, whole]
    rfl
  simp only [decoder, stands]
  refine Container.object.within_reads ?_ closes
  simp only [folded, bind, Except.bind, settled]

section Makes

/-- What can come of a record whose fields have been read, however it is written. -/
def Makes (r : RecordReader α) (a : α) : Prop := ∃ form s, r.finish form s = .ok a

theorem of_bind_ok {ε γ δ : Type} {x : Except ε γ} {f : γ → Except ε δ} {d : δ}
    (whole : (x >>= f) = .ok d) : ∃ c, x = .ok c ∧ f c = .ok d := by
  cases x with
  | error e => exact nomatch whole
  | ok c => exact ⟨c, rfl, whole⟩

theorem of_map_ok {ε γ δ : Type} {x : Except ε γ} {f : γ → δ} {d : δ}
    (whole : x.map f = .ok d) : ∃ c, x = .ok c ∧ f c = d := by
  cases x with
  | error e => exact nomatch whole
  | ok c => exact ⟨c, rfl, Except.ok.inj whole⟩

theorem of_mapError_ok {ε ε' γ : Type} {x : Except ε γ} {f : ε → ε'} {c : γ}
    (whole : x.mapError f = .ok c) : x = .ok c := by
  cases x with
  | error e => exact nomatch whole
  | ok c => exact congrArg Except.ok (Except.ok.inj whole)

theorem Makes.map {r : RecordReader α} {f : α → β} {b : β} (makes : (f <$> r).Makes b) :
    ∃ a, r.Makes a ∧ f a = b := by
  obtain ⟨form, s, whole⟩ := makes
  obtain ⟨a, read, same⟩ := of_map_ok whole
  exact ⟨a, ⟨form, s, read⟩, same⟩

theorem Makes.seq {f : RecordReader (α → β)} {r : RecordReader α} {b : β}
    (makes : (f <*> r).Makes b) : ∃ g a, f.Makes g ∧ r.Makes a ∧ g a = b := by
  obtain ⟨form, ⟨s, t⟩, whole⟩ := makes
  obtain ⟨g, function, rest⟩ := of_bind_ok whole
  cases argument : r.finish form t with
  | error i => simp [argument, throw, throwThe, MonadExceptOf.throw] at rest
  | ok a =>
    simp only [argument, pure, Except.pure, Except.ok.injEq] at rest
    exact ⟨g, a, ⟨form, s, function⟩, ⟨form, t, argument⟩, rest⟩

variable {r : RecordReader α} {name : String} {a : α}

theorem makes_of_settle {form : Form} {s : r.State} (settled : r.settle name form s = .ok a) :
    r.Makes a :=
  ⟨form, s, of_mapError_ok settled⟩

theorem makes_of_convert {v : Value} (read : (r.decoder name).convert v = .ok a) : r.Makes a := by
  cases v with
  | object ms =>
    obtain ⟨s, -, settled⟩ := of_bind_ok read
    exact makes_of_settle (of_mapError_ok settled)
  | array vs =>
    obtain ⟨s, -, rest⟩ := of_bind_ok read
    obtain ⟨b, settled, short⟩ := of_bind_ok rest
    split at short
    · exact nomatch short
    · cases short
      exact makes_of_settle (of_mapError_ok settled)
  | _ => exact nomatch read

theorem inner_of_within {k : Container} {inner : Nat → Cursor → Scan (α × Cursor)} {depth : Nat}
    {c c' : Cursor} (read : k.within inner depth c = .ok (a, c')) :
    ∃ n before behind, inner n before = .ok (a, behind) := by
  cases depth with
  | zero => exact nomatch read
  | succ n =>
    change k.enclose (inner n) c = _ at read
    unfold Container.enclose at read
    split at read
    · rename_i b behind inside
      obtain ⟨_, -, same⟩ := of_map_ok read
      cases same
      exact ⟨n, c.next, behind, inside⟩
    · exact nomatch read
    · exact nomatch read

theorem makes_of_scan {depth : Nat} {c c' : Cursor}
    (read : (r.decoder name).scan depth c = .ok (a, c')) : r.Makes a := by
  unfold decoder at read
  dsimp only at read
  split at read
  case h_3 =>
    obtain ⟨_, -, rest⟩ := of_bind_ok read
    cases rest
  all_goals
    obtain ⟨_, _, _, inside⟩ := inner_of_within read
    obtain ⟨⟨s, d⟩, -, rest⟩ := of_bind_ok inside
    dsimp only at rest
    split at rest
    · rename_i whole
      cases rest
      exact makes_of_settle whole
    · cases rest

theorem makes_of_decodeText {text : String} (read : decodeText (r.decoder name) text = .ok a) :
    r.Makes a := by
  unfold decodeText at read
  split at read
  · exact nomatch read
  · rename_i b c scanned
    dsimp only at read
    split at read
    · cases read
      exact makes_of_scan scanned
    · exact nomatch read

end Makes

end Docket.Json.RecordReader
