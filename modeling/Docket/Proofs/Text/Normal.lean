import Docket.Proofs.Text.Blank
import Docket.Proofs.Text.Containment
import Docket.Proofs.Text.Lowering

/-! Texts as they are compared, in small letters without white space at the ends. A small letter is
its own small letter and white space has no case, so it does not matter which is done first or what
is done again. -/
namespace Docket.Text

/-- The code point that a run maps one of its own to. -/
def CaseRun.image (r : CaseRun) (n : Nat) : Nat := ((n : Int) + r.distance).toNat

/-- No image of a run is a code point of the other: they lie apart, or each image is another one. -/
def CaseRun.misses (r r' : CaseRun) : Bool :=
  Nat.blt (r.image r.last) r'.first || Nat.blt r'.last (r.image r.first) ||
    (List.range ((r.last - r.first) / r.stride + 1)).all fun k =>
      !r'.holds (r.image (r.first + r.stride * k))

/-- The code points with another small form: the capitals of ASCII, the one with two small letters,
and the runs. -/
def capitals : List CaseRun := ⟨65, 90, 1, 32⟩ :: ⟨304, 304, 1, 0⟩ :: lowerRuns

theorem runs_miss : lowerRuns.all (fun r => capitals.all r.misses) = true := by
  decide +kernel

theorem holds_iff {r : CaseRun} {n : Nat} :
    r.holds n = true ↔ r.first ≤ n ∧ n ≤ r.last ∧ (n - r.first) % r.stride = 0 := by
  simp [CaseRun.holds, and_assoc]

theorem not_holds_image {r r' : CaseRun} (misses : r.misses r' = true) {n : Nat}
    (holds : r.holds n = true) : r'.holds (r.image n) = false := by
  obtain ⟨low, high, strides⟩ := holds_iff.mp holds
  have mono {m k : Nat} (le : m ≤ k) : r.image m ≤ r.image k :=
    Int.toNat_le_toNat (by omega)
  rw [← Bool.not_eq_true, holds_iff]
  rintro ⟨low', high', strides'⟩
  simp only [CaseRun.misses, Bool.or_eq_true, Nat.blt_eq, List.all_eq_true, List.mem_range,
    Bool.not_eq_true'] at misses
  rcases misses with (below | above) | each
  · have := mono high
    omega
  · have := mono low
    omega
  · -- the code point is one of the strides of its run
    have stride : r.first + r.stride * ((n - r.first) / r.stride) = n := by
      have whole := Nat.div_add_mod (n - r.first) r.stride
      omega
    have step : (n - r.first) / r.stride < (r.last - r.first) / r.stride + 1 :=
      Nat.lt_succ_of_le (Nat.div_le_div_right (by omega))
    have none := each _ step
    rw [stride, ← Bool.not_eq_true, holds_iff] at none
    exact none ⟨low', high', strides'⟩

/-- A character that is its own small letter, whatever stands around it. -/
def Small (c : Char) : Prop := c ≠ capitalSigma ∧ lowerChar c = [c]

instance (c : Char) : Decidable (Small c) :=
  inferInstanceAs (Decidable (c ≠ capitalSigma ∧ lowerChar c = [c]))

theorem lookup_sequences {n : Nat} : lowerSequences.lookup n = none ↔ n ≠ 304 := by
  rw [List.lookup_eq_none_iff]
  simp [lowerSequences]

theorem small_of_not_capital {c : Char} (other : ∀ r ∈ capitals, r.holds c.toNat = false) :
    Small c := by
  constructor
  · rintro rfl
    have held : ∃ r ∈ capitals, r.holds capitalSigma.toNat = true := by decide +kernel
    obtain ⟨r, known, holds⟩ := held
    rw [other r known] at holds
    cases holds
  · unfold lowerChar
    split
    · rename_i ascii
      have kept : ∀ n < 128, CaseRun.holds ⟨65, 90, 1, 32⟩ n = false →
          (Char.ofNat n).toLower = Char.ofNat n := by decide
      have same := kept c.toNat ascii (other _ List.mem_cons_self)
      rw [Char.ofNat_toNat] at same
      rw [same]
    · have single : lowerSequences.lookup c.toNat = none := by
        rw [lookup_sequences]
        intro same
        have held := other ⟨304, 304, 1, 0⟩ (by simp [capitals])
        rw [same] at held
        cases held
      have lone : lowerRuns.find? (·.holds c.toNat) = none :=
        List.find?_eq_none.mpr fun r known => by
          simp [other r (List.mem_cons_of_mem _ (List.mem_cons_of_mem _ known))]
      rw [mapped, single, lone]

theorem small_of_isBlank {c : Char} (blank : isBlank c = true) : Small c := by
  have among := (isBlank_iff c).mp blank
  refine small_of_not_capital fun r known => ?_
  rcases List.mem_cons.mp known with rfl | known
  · exact (by decide : ∀ b ∈ blanks, CaseRun.holds ⟨65, 90, 1, 32⟩ b = false) _ among
  · rcases List.mem_cons.mp known with rfl | known
    · exact (by decide : ∀ b ∈ blanks, CaseRun.holds ⟨304, 304, 1, 0⟩ b = false) _ among
    · exact (runs_apart r known _ among).1

theorem small_toLower : ∀ n < 128, Small (Char.ofNat n).toLower := by
  decide +kernel

theorem sequences_small : ∀ entry ∈ lowerSequences, ∀ n ∈ entry.2, ∀ r ∈ capitals,
    r.holds (Char.ofNat n).toNat = false := by
  decide +kernel

theorem not_holds_zero : ∀ r ∈ capitals, r.holds 0 = false := by
  decide +kernel

/-- What a run maps its characters to is small. -/
theorem small_of_holds {r : CaseRun} (known : r ∈ lowerRuns) {c : Char}
    (holds : r.holds c.toNat = true) : Small (Char.ofNat (r.image c.toNat)) := by
  have misses := List.all_eq_true.mp (List.all_eq_true.mp runs_miss r known)
  refine small_of_not_capital fun r' other => ?_
  -- what is no character is written as the first one of all
  rw [Char.toNat_ofNat]
  split
  · exact not_holds_image (misses r' other) holds
  · exact not_holds_zero r' other

/-- What has no other form listed is small. -/
theorem small_of_unlisted {c : Char} (large : ¬ c.toNat < 128)
    (single : lowerSequences.lookup c.toNat = none)
    (lone : lowerRuns.find? (·.holds c.toNat) = none) : Small c := by
  refine small_of_not_capital fun r other => Bool.eq_false_iff.mpr fun holds => ?_
  obtain ⟨low, high, -⟩ := holds_iff.mp holds
  rw [capitals, List.mem_cons, List.mem_cons] at other
  rcases other with rfl | rfl | among
  · have : c.toNat ≤ 90 := high
    omega
  · exact lookup_sequences.mp single (le_antisymm high low)
  · exact List.find?_eq_none.mp lone r among holds

/-- What a character becomes in small letters is small. -/
theorem small_of_mem_lowerChar {c x : Char} (known : x ∈ lowerChar c) : Small x := by
  unfold lowerChar at known
  split at known
  · rename_i ascii
    have same := small_toLower c.toNat ascii
    rw [Char.ofNat_toNat] at same
    rwa [List.mem_singleton.mp known]
  · rename_i large
    unfold mapped at known
    dsimp only at known
    split at known
    · rename_i ns listed
      obtain ⟨before, after, entries, -⟩ := List.lookup_eq_some_iff.mp listed
      have among : (c.toNat, ns) ∈ lowerSequences := by simp [entries]
      obtain ⟨n, member, rfl⟩ := List.mem_map.mp known
      exact small_of_not_capital (sequences_small _ among n member)
    · rename_i single
      split at known
      · rename_i r found
        have holds : r.holds c.toNat = true := by simpa using List.find?_some found
        rw [List.mem_singleton.mp known]
        exact small_of_holds (List.mem_of_find?_eq_some found) holds
      · rename_i lone
        rw [List.mem_singleton.mp known]
        exact small_of_unlisted large single lone

theorem lowerChar_cases (c : Char) :
    (∃ x, lowerChar c = [x]) ∨ lowerChar c = ['i', Char.ofNat 775] := by
  unfold lowerChar
  split
  · exact .inl ⟨_, rfl⟩
  · unfold mapped
    dsimp only
    split
    · rename_i ns listed
      obtain ⟨before, after, entries, -⟩ := List.lookup_eq_some_iff.mp listed
      have among : (c.toNat, ns) ∈ lowerSequences := by simp [entries]
      rw [lowerSequences, List.mem_singleton] at among
      obtain ⟨-, rfl⟩ := Prod.mk.inj among
      exact .inr rfl
    · split <;> exact .inl ⟨_, rfl⟩

theorem isBlank_of_mem_lowerChar {c x : Char} (known : x ∈ lowerChar c) :
    isBlank x = isBlank c := by
  have all := all_isBlank_lowerChar c
  rcases lowerChar_cases c with ⟨y, single⟩ | pair
  · rw [single] at known all
    rw [List.mem_singleton.mp known, ← all]
    simp
  · rw [pair] at known all
    have solid : isBlank 'i' = false ∧ isBlank (Char.ofNat 775) = false := by decide
    rw [← all, List.all_cons, solid.1, Bool.false_and]
    rcases List.mem_pair.mp known with rfl | rfl
    · exact solid.1
    · exact solid.2

/-- The first character of a text gives small ones, which are white space only if it is. -/
theorem lowerFrom_cons (before : List Char) (c : Char) (rest : List Char) :
    ∃ small, lowerFrom before (c :: rest) = small ++ lowerFrom (c :: before) rest ∧
      small ≠ [] ∧ ∀ x ∈ small, Small x ∧ isBlank x = isBlank c := by
  rw [lowerFrom]
  refine ⟨_, rfl, ?_⟩
  split
  · rename_i sigma
    rw [beq_iff_eq.mp sigma]
    refine ⟨List.cons_ne_nil _ _, fun x known => ?_⟩
    rw [List.mem_singleton.mp known]
    split
    · exact ⟨small_of_not_capital (by decide +kernel), by decide⟩
    · exact ⟨small_of_not_capital (by decide +kernel), by decide⟩
  · refine ⟨?_, fun x known => ⟨small_of_mem_lowerChar known, isBlank_of_mem_lowerChar known⟩⟩
    rcases lowerChar_cases c with ⟨y, single⟩ | pair
    · simp [single]
    · simp [pair]

theorem small_of_mem_lowerFrom {before cs : List Char} {x : Char}
    (known : x ∈ lowerFrom before cs) : Small x := by
  induction cs generalizing before with
  | nil => cases known
  | cons c cs ih =>
    obtain ⟨small, parts, -, each⟩ := lowerFrom_cons before c cs
    rw [parts] at known
    rcases List.mem_append.mp known with here | later
    · exact (each x here).1
    · exact ih later

theorem lowerFrom_of_small {cs : List Char} (small : ∀ c ∈ cs, Small c) (before : List Char) :
    lowerFrom before cs = cs := by
  induction cs generalizing before with
  | nil => rfl
  | cons c cs ih =>
    obtain ⟨first, rest⟩ := List.forall_mem_cons.mp small
    rw [lowerFrom, ih rest, if_neg (by simpa using first.1), first.2]
    rfl

/-- Small letters stay as they are. -/
theorem lower_lower (s : String) : lower (lower s) = lower s := by
  rw [lower, lower, String.toList_ofList, lowerFrom_of_small fun c => small_of_mem_lowerFrom]

theorem lower_of_blank {s : String} (blank : isBlankText s = true) : lower s = s := by
  have small (c : Char) (known : c ∈ s.toList) : Small c :=
    small_of_isBlank (List.all_eq_true.mp blank c known)
  rw [lower, lowerFrom_of_small small, String.ofList_toList]

theorem lowerFrom_congr {before before' : List Char} (same : facesCased before = facesCased before')
    (cs : List Char) : lowerFrom before cs = lowerFrom before' cs := by
  induction cs generalizing before before' with
  | nil => rfl
  | cons c cs ih =>
    have next : facesCased (c :: before) = facesCased (c :: before') := by
      have one (cs : List Char) := facesCased_append [c] cs
      simp only [List.singleton_append] at one
      rw [one before, one before', same]
    rw [lowerFrom, lowerFrom, ih next, isFinalSigma_eq, isFinalSigma_eq, same]

/-- White space has no case, and no case is seen through it. -/
theorem facesCased_of_isBlank {c : Char} (blank : isBlank c = true) (cs : List Char) :
    facesCased (c :: cs) = false := by
  have among := (isBlank_iff c).mp blank
  have plain : ∀ b ∈ blanks, isCaseIgnorable (Char.ofNat b) = false ∧
      isCased (Char.ofNat b) = false := by decide +kernel
  have caseless := plain _ among
  rw [Char.ofNat_toNat] at caseless
  simp [facesCased, caseless.1, caseless.2]

theorem lowerFrom_cons_blank {c : Char} (blank : isBlank c = true) (before cs : List Char) :
    lowerFrom before (c :: cs) = c :: lowerFrom (c :: before) cs := by
  have small := small_of_isBlank blank
  rw [lowerFrom, if_neg (by simpa using small.1), small.2]
  rfl

theorem trimStart_lowerFrom {before : List Char} (edge : facesCased before = false)
    (cs : List Char) : trimStart (lowerFrom before cs) = lowerFrom [] (trimStart cs) := by
  induction cs generalizing before with
  | nil => rfl
  | cons c cs ih =>
    cases blank : isBlank c with
    | true =>
      have rest := ih (facesCased_of_isBlank blank before)
      rw [lowerFrom_cons_blank blank, trimStart, List.dropWhile_cons_of_pos blank, trimStart,
        List.dropWhile_cons_of_pos blank]
      exact rest
    | false =>
      have front : lowerFrom before (c :: cs) = lowerFrom [] (c :: cs) :=
        lowerFrom_congr (edge.trans rfl) _
      obtain ⟨small, parts, some, each⟩ := lowerFrom_cons [] c cs
      have kept : trimStart (c :: cs) = c :: cs := List.dropWhile_cons_of_neg (by simp [blank])
      rw [front, kept, parts, trimStart]
      cases small with
      | nil => exact absurd rfl some
      | cons x small =>
        have solid := (each x List.mem_cons_self).2.trans blank
        rw [List.cons_append, List.dropWhile_cons_of_neg (by simp [solid])]

/-- The last character of a text gives small ones at its end, whatever stands before. -/
theorem lowerFrom_snoc (before cs : List Char) (c : Char) :
    ∃ front, lowerFrom before (cs ++ [c]) = front ++ lowerFrom (cs.reverse ++ before) [c] := by
  induction cs generalizing before with
  | nil => exact ⟨[], rfl⟩
  | cons d cs ih =>
    obtain ⟨small, parts, -⟩ := lowerFrom_cons before d (cs ++ [c])
    obtain ⟨front, rest⟩ := ih (d :: before)
    refine ⟨small ++ front, ?_⟩
    rw [List.cons_append, parts, rest, List.reverse_cons, List.append_assoc, List.append_assoc,
      List.singleton_append]

theorem lowerFrom_snoc_blank {c : Char} (blank : isBlank c = true) (before cs : List Char) :
    lowerFrom before (cs ++ [c]) = lowerFrom before cs ++ [c] := by
  induction cs generalizing before with
  | nil => exact lowerFrom_cons_blank blank before []
  | cons d cs ih =>
    have same : facesCased (cs ++ [c]) = facesCased cs := by
      rw [facesCased_append, facesCased_of_isBlank blank]
      split
      · rename_i skipped
        exact (facesCased_of_all skipped).symm
      · rfl
    rw [List.cons_append, lowerFrom, lowerFrom, ih, isFinalSigma_eq, isFinalSigma_eq, same,
      List.append_assoc]

theorem trimEnd_lowerFrom (before cs : List Char) :
    trimEnd (lowerFrom before cs) = lowerFrom before (trimEnd cs) := by
  have dropped {c : Char} (blank : isBlank c = true) (cs : List Char) :
      trimEnd (cs ++ [c]) = trimEnd cs := by
    simp [trimEnd, blank]
  have kept {c : Char} (solid : isBlank c = false) (cs : List Char) :
      trimEnd (cs ++ [c]) = cs ++ [c] := by
    simp [trimEnd, solid]
  induction cs using List.reverseRecOn with
  | nil => rfl
  | append_singleton cs c ih =>
    cases blank : isBlank c with
    | true => rw [lowerFrom_snoc_blank blank, dropped blank, dropped blank, ih]
    | false =>
      obtain ⟨front, parts⟩ := lowerFrom_snoc before cs c
      obtain ⟨small, single, some, each⟩ := lowerFrom_cons (cs.reverse ++ before) c []
      obtain ⟨start, x, rfl⟩ := (List.eq_nil_or_concat' small).resolve_left some
      have solid := (each x (by simp)).2.trans blank
      rw [kept blank, parts, single, lowerFrom, List.append_nil, ← List.append_assoc, kept solid]

theorem trim_lower (s : String) : trim (lower s) = lower (trim s) := by
  rw [trim, lower, trim, lower, String.toList_ofList, String.toList_ofList, trimChars, trimChars,
    trimStart_lowerFrom rfl, trimEnd_lowerFrom]

theorem trim_trim (s : String) : trim (trim s) = trim s := by
  rw [trim, trim, String.toList_ofList, trimChars_trimChars]

end Docket.Text

namespace Docket.Similarity

theorem normal_lower (s : String) : normal (Text.lower s) = normal s := by
  rw [normal, Text.trim_lower, Text.lower_lower, normal]

theorem trim_lower (s : String) : Text.trim (Text.lower s) = normal s := Text.trim_lower s

theorem trim_normal (s : String) : Text.trim (normal s) = normal s := by
  rw [normal, Text.trim_lower, Text.trim_trim]

theorem isBlankText_normal (s : String) : Text.isBlankText (normal s) = Text.isBlankText s :=
  (Text.isBlankText_lower _).trans (Text.isBlankText_trim _)

/-- Exactly what is blank has nothing that is compared. -/
theorem normal_eq_empty_iff {s : String} : normal s = "" ↔ Text.isBlankText s = true := by
  constructor
  · intro empty
    rw [← isBlankText_normal, empty]
    rfl
  · intro blank
    rw [normal, Text.trim_of_blank blank]
    rfl

end Docket.Similarity
