import Docket.Number.Shortest
import Docket.Proofs.Layout.Phrases
import Docket.Proofs.Text.Normal

/-! A phrase that contains a text is narrowed to the words that do. From each word on the first run
that contains the text is tried; a run that contains it has no fewer words than the one tried from its
first word, so the first of the shortest tried is the leftmost of all the shortest. -/
namespace Docket.Phrase

section Any
variable {α : Type}

/-- The words of a run in small letters, joined by single spaces. -/
def smallText (run : List (Word α)) : String :=
  Text.joined " " (run.map fun w => Text.lower w.text)

/-- Whether the small text of a run contains a text. -/
def Carries (needle : String) (run : List (Word α)) : Prop :=
  needle.toList <:+: (smallText run).toList

/-- A run of words, and those before it, that contains a text in the fewest words; of such runs it is
the leftmost. -/
structure IsShortest (needle : String) (ws before run : List (Word α)) : Prop where
  place : ∃ after, ws = before ++ run ++ after
  carries : Carries needle run
  fewest : ∀ other, other <:+: ws → Carries needle other → run.length ≤ other.length
  leftmost : ∀ before' other after, ws = before' ++ other ++ after → Carries needle other →
    other.length = run.length → before.length ≤ before'.length

variable {needle : String} {ws run : List (Word α)}

theorem Carries.of_infix (carries : Carries needle run) (inside : run <:+: ws) :
    Carries needle ws :=
  carries.trans (Text.joined_infix_joined " " (inside.map _))

theorem Carries.ne_nil (text : needle ≠ "") (carries : Carries needle run) : run ≠ [] := by
  rintro rfl
  have empty : (smallText ([] : List (Word α))).toList = [] := rfl
  rw [Carries, empty, List.infix_nil] at carries
  exact text (String.toList_eq_nil_iff.mp carries)

theorem smallText_snoc (done : List (Word α)) (w : Word α) :
    smallText (done ++ [w]) =
      (if done.length = 0 then "" else smallText done ++ " ") ++ Text.lower w.text := by
  unfold smallText Text.joined
  split
  · rename_i none
    rw [List.length_eq_zero_iff.mp none]
    simp
  · rename_i some
    rw [List.map_append, String.intercalate_append_of_ne_nil]
    · rfl
    · simpa using some
    · simp

/-- What is found when words are added one by one is a run that contains the text. -/
theorem spanFrom_some (done : List (Word α)) {rest : List (Word α)} {n : Nat}
    (found : spanFrom needle (smallText done) rest done.length = some n) :
    ∃ taken after, rest = taken ++ after ∧ n = done.length + taken.length ∧
      Carries needle (done ++ taken) := by
  induction rest generalizing done with
  | nil => cases found
  | cons w rest ih =>
    rw [spanFrom, ← smallText_snoc] at found
    split at found
    · rename_i carries
      cases found
      exact ⟨[w], rest, rfl, rfl, (Text.contains_iff _ _).mp carries⟩
    · have length : done.length + 1 = (done ++ [w]).length := by simp
      rw [length] at found
      obtain ⟨taken, after, rfl, rfl, carries⟩ := ih _ found
      refine ⟨w :: taken, after, rfl, by simp; omega, ?_⟩
      rwa [List.append_assoc, List.singleton_append] at carries

/-- No run that contains the text is passed by. -/
theorem spanFrom_le (done : List (Word α)) {taken : List (Word α)} (after : List (Word α))
    (some : taken ≠ []) (carries : Carries needle (done ++ taken)) :
    ∃ n ≤ done.length + taken.length,
      spanFrom needle (smallText done) (taken ++ after) done.length = .some n := by
  induction taken generalizing done with
  | nil => exact absurd rfl some
  | cons w taken ih =>
    rw [List.cons_append, spanFrom, ← smallText_snoc]
    split
    · exact ⟨done.length + 1, by simp, rfl⟩
    · rename_i none
      have length : done.length + 1 = (done ++ [w]).length := by simp
      rw [length]
      have parts : done ++ w :: taken = done ++ [w] ++ taken := by simp
      have more : taken ≠ [] := by
        rintro rfl
        exact none ((Text.contains_iff _ _).mpr carries)
      obtain ⟨n, few, found⟩ := ih _ more (parts ▸ carries)
      exact ⟨n, by simp at few ⊢; omega, found⟩

/-- The run that is tried from the first word on, none if no run from there contains the text. -/
def tried (needle : String) (ws : List (Word α)) : Option (List (Word α)) :=
  (spanFrom needle "" ws 0).map ws.take

theorem spans_cons (needle : String) (w : Word α) (rest : List (Word α)) :
    spans needle (w :: rest) = (tried needle (w :: rest)).toList ++ spans needle rest := by
  rw [spans, tried]
  cases spanFrom needle "" (w :: rest) 0 <;> rfl

theorem tried_some (found : tried needle ws = some run) : run <+: ws ∧ Carries needle run := by
  obtain ⟨n, spanned, rfl⟩ := Option.map_eq_some_iff.mp found
  obtain ⟨taken, after, rfl, rfl, carries⟩ := spanFrom_some [] spanned
  simpa using carries

/-- A run that contains the text has the one that is tried from its first word within it. -/
theorem tried_le (text : needle ≠ "") (start : run <+: ws) (carries : Carries needle run) :
    ∃ first, tried needle ws = some first ∧ first.length ≤ run.length := by
  obtain ⟨after, rfl⟩ := start
  obtain ⟨n, few, found⟩ := spanFrom_le [] after (carries.ne_nil text) carries
  refine ⟨(run ++ after).take n, congrArg (Option.map _) found, ?_⟩
  rw [List.length_take]
  simp at few
  omega

theorem tried_least (text : needle ≠ "") {first : List (Word α)} (here : tried needle ws = some first)
    (start : run <+: ws) (carries : Carries needle run) : first.length ≤ run.length := by
  obtain ⟨tried, same, few⟩ := tried_le text start carries
  rw [here] at same
  cases same
  exact few

theorem tried_none (text : needle ≠ "") (here : tried needle ws = none) (start : run <+: ws) :
    ¬ Carries needle run := by
  intro carries
  obtain ⟨_, tried, -⟩ := tried_le text start carries
  rw [here] at tried
  cases tried

section First
variable {w : Word α} {rest before : List (Word α)}

/-- The shortest run further on stays the shortest if those from the first word on are longer. -/
theorem IsShortest.further (best : IsShortest needle rest before run)
    (longer : ∀ first, first <+: w :: rest → Carries needle first → run.length < first.length) :
    IsShortest needle (w :: rest) (w :: before) run := by
  obtain ⟨⟨after, rfl⟩, carries, fewest, leftmost⟩ := best
  refine ⟨⟨after, rfl⟩, carries, fun other inside carries => ?_,
    fun before' other after' parts carries same => ?_⟩
  · rcases List.infix_cons_iff.mp inside with start | later
    · exact (longer other start carries).le
    · exact fewest other later carries
  · cases before' with
    | nil =>
      have start : other <+: w :: (before ++ run ++ after) := ⟨after', parts.symm⟩
      exact absurd same (longer other start carries).ne'
    | cons w' before' =>
      have further := leftmost before' other after' (List.cons.inj parts).2 carries same
      exact Nat.succ_le_succ further

theorem IsShortest.first (start : run <+: w :: rest) (carries : Carries needle run)
    (least : ∀ first, first <+: w :: rest → Carries needle first → run.length ≤ first.length)
    (later : ∀ other, other <:+: rest → Carries needle other → run.length ≤ other.length) :
    IsShortest needle (w :: rest) [] run := by
  obtain ⟨after, parts⟩ := start
  refine ⟨⟨after, parts.symm⟩, carries, fun other inside carries => ?_, fun _ _ _ _ _ _ => ?_⟩
  · rcases List.infix_cons_iff.mp inside with start | further
    · exact least other start carries
    · exact later other further carries
  · exact Nat.zero_le _

end First

theorem isSome_shortest_spans (text : needle ≠ "") (carries : Carries needle ws) :
    (shortest (spans needle ws)).isSome = true := by
  cases ws with
  | nil => exact absurd rfl (carries.ne_nil text)
  | cons w rest =>
    obtain ⟨first, found, -⟩ := tried_le text (List.prefix_refl _) carries
    rw [spans_cons, found, Option.toList_some, List.singleton_append, shortest]
    split <;> rfl

/-- The first of the shortest runs that are tried is the leftmost of all the shortest. -/
theorem isShortest_of_spans (text : needle ≠ "")
    (found : shortest (spans needle ws) = some run) :
    ∃ before, IsShortest needle ws before run := by
  induction ws generalizing run with
  | nil => cases found
  | cons w rest ih =>
    rw [spans_cons] at found
    cases here : tried needle (w :: rest) with
    | none =>
      rw [here] at found
      obtain ⟨before, best⟩ := ih found
      exact ⟨w :: before, best.further fun first start carries =>
        absurd carries (tried_none text here start)⟩
    | some first =>
      obtain ⟨start, carries⟩ := tried_some here
      have least (other : List (Word α)) (start : other <+: w :: rest)
          (carries : Carries needle other) : first.length ≤ other.length :=
        tried_least text here start carries
      rw [here, Option.toList_some, List.singleton_append, shortest] at found
      cases later : shortest (spans needle rest) with
      | none =>
        rw [later] at found
        cases found
        refine ⟨[], .first start carries least fun other inside carries => ?_⟩
        have some := isSome_shortest_spans text (carries.of_infix inside)
        rw [later] at some
        cases some
      | some other =>
        obtain ⟨before, best⟩ := ih later
        rw [later] at found
        cases found
        split
        · rename_i shorter
          exact ⟨w :: before, best.further fun first' start carries =>
            shorter.trans_le (least first' start carries)⟩
        · rename_i longer
          refine ⟨[], .first start carries least fun other' inside carries => ?_⟩
          exact (not_lt.mp longer).trans (best.fewest other' inside carries)

variable [Scalar α]

theorem locate_eq {needle : String} (text : Text.isBlankText needle = false) (p : Phrase α) :
    p.locate needle =
      (shortest (spans (Similarity.normal needle) p.words)).bind Word.boundingBox := by
  have some := mt Similarity.normal_eq_empty_iff.mp (Bool.eq_false_iff.mp text)
  unfold locate
  dsimp only
  rw [if_neg]
  · rfl
  · exact fun empty => some (String.isEmpty_iff.mp empty)

/-- A text that is not blank is found in a phrase exactly if the small letters of its words contain
it, and then it is narrowed to the leftmost of the shortest runs of words that do. -/
theorem locate_shortest (p : Phrase α) {needle : String}
    (text : Text.isBlankText needle = false) :
    ((p.locate needle).isSome = true ↔ Carries (Similarity.normal needle) p.words) ∧
      ∀ box, p.locate needle = some box →
        ∃ before run, IsShortest (Similarity.normal needle) p.words before run ∧
          Word.boundingBox run = some box := by
  have some := mt Similarity.normal_eq_empty_iff.mp (Bool.eq_false_iff.mp text)
  have narrowed (box : Rect α) (found : p.locate needle = .some box) :
      ∃ before run, IsShortest (Similarity.normal needle) p.words before run ∧
        Word.boundingBox run = .some box := by
    rw [locate_eq text] at found
    obtain ⟨run, chosen, boxed⟩ := Option.bind_eq_some_iff.mp found
    obtain ⟨before, best⟩ := isShortest_of_spans some chosen
    exact ⟨before, run, best, boxed⟩
  refine ⟨⟨fun found => ?_, fun carries => ?_⟩, narrowed⟩
  · obtain ⟨box, found⟩ := Option.isSome_iff_exists.mp found
    obtain ⟨before, run, ⟨⟨after, place⟩, carries, -, -⟩, -⟩ := narrowed box found
    exact carries.of_infix ⟨before, after, place.symm⟩
  · obtain ⟨run, chosen⟩ := Option.isSome_iff_exists.mp (isSome_shortest_spans some carries)
    obtain ⟨before, best⟩ := isShortest_of_spans some chosen
    rw [locate_eq text, chosen]
    exact isSome_boundingBox_of_ne_nil (best.carries.ne_nil some)

end Any

/-- A line on which a total is told by two words, then by one, then by one again. -/
def sums : Phrase Float :=
  ⟨[⟨"Grand", ⟨10, 10, 30, 10⟩⟩, ⟨"Total:", ⟨45, 10, 30, 10⟩⟩, ⟨"TOTAL", ⟨80, 10, 50, 10⟩⟩],
    ⟨10, 10, 120, 10⟩⟩

/-- It is narrowed to the first of the single words. -/
theorem locate_shortest_sums :
    Text.isBlankText " total" = false ∧ sums.locate " total" = some ⟨45, 10, 30, 10⟩ ∧
      ∃ before run, IsShortest "total" sums.words before run ∧
        Word.boundingBox run = some ⟨45, 10, 30, 10⟩ := by
  have text : Text.isBlankText " total" = false := by decide
  have found : sums.locate " total" = some ⟨45, 10, 30, 10⟩ := by decide +kernel
  have small : Similarity.normal " total" = "total" := by decide +kernel
  have narrowed := (locate_shortest sums text).2 _ found
  rw [small] at narrowed
  exact ⟨text, found, narrowed⟩

end Docket.Phrase
