import Docket.Layout.Phrase
import Docket.Number.Shortest
import Docket.Proofs.Order

/-! How the words of a page are shared out among its phrases. They are put in order from the top, cut
into lines where the next one lies too far below, and each line, put in order from the left, is cut
into phrases where the next word does not go on. Nothing is lost on the way, and nothing depends on
the order the words were drawn in unless two of them have one and the same corner. -/
namespace Docket

namespace Phrase

section Any
variable {α : Type}

/-- A list cut into runs wherever two neighbours do not belong together, and nowhere else. -/
structure IsCut (joins : Word α → Word α → Bool) (ws : List (Word α))
    (runs : List (List (Word α))) : Prop where
  whole : runs.flatten = ws
  nonempty : [] ∉ runs
  joined : ∀ run ∈ runs, run.IsChain fun a b => joins a b = true
  parted : runs.IsChain fun run next =>
    ∃ some some', joins (run.getLast some) (next.head some') = false

theorem IsCut.join {joins : Word α → Word α → Bool} {a b : Word α} {ws more : List (Word α)}
    {runs : List (List (Word α))} (cut : IsCut joins ws ((b :: more) :: runs))
    (joined : joins a b = true) : IsCut joins (a :: ws) ((a :: b :: more) :: runs) := by
  obtain ⟨whole, nonempty, chains, parted⟩ := cut
  refine ⟨?_, ?_, ?_, ?_⟩
  · rw [← whole]
    rfl
  · simpa using nonempty
  · intro run known
    rcases List.mem_cons.mp known with rfl | later
    · exact List.isChain_cons_cons.mpr ⟨joined, chains _ List.mem_cons_self⟩
    · exact chains run (List.mem_cons_of_mem _ later)
  · rw [List.isChain_cons] at parted ⊢
    refine ⟨fun next first => ?_, parted.2⟩
    obtain ⟨some, some', apart⟩ := parted.1 next first
    exact ⟨List.cons_ne_nil _ _, some', by rwa [List.getLast_cons some]⟩

theorem IsCut.part {joins : Word α → Word α → Bool} {a b : Word α} {ws more : List (Word α)}
    {runs : List (List (Word α))} (cut : IsCut joins ws ((b :: more) :: runs))
    (apart : joins a b = false) : IsCut joins (a :: ws) ([a] :: (b :: more) :: runs) := by
  obtain ⟨whole, nonempty, chains, parted⟩ := cut
  refine ⟨?_, ?_, ?_, ?_⟩
  · rw [← whole]
    rfl
  · simpa using nonempty
  · intro run known
    rcases List.mem_cons.mp known with rfl | later
    · exact List.isChain_singleton a
    · exact chains run later
  · exact List.isChain_cons_cons.mpr ⟨⟨by simp, by simp, apart⟩, parted⟩

theorem isCut_cutBetween (joins : Word α → Word α → Bool) (ws : List (Word α)) :
    IsCut joins ws (cutBetween joins ws) := by
  -- the first run of what follows starts with the next word, to which the new one is held
  have starts {b : Word α} {rest run : List (Word α)} {runs : List (List (Word α))}
      (cut : IsCut joins (b :: rest) (run :: runs)) : ∃ more, run = b :: more := by
    cases run with
    | nil => exact absurd List.mem_cons_self cut.nonempty
    | cons c more =>
      have same : c = b := (List.cons.inj cut.whole).1
      exact ⟨more, by rw [same]⟩
  fun_induction cutBetween joins ws with
  | case1 => exact ⟨rfl, by simp, by simp, by simp⟩
  | case2 w => exact ⟨rfl, by simp, by simp, by simp⟩
  | case3 a b rest none ih =>
    have whole := ih.whole
    rw [none] at whole
    cases whole
  | case4 a b rest run runs cut joined ih =>
    rw [cut] at ih
    obtain ⟨more, rfl⟩ := starts ih
    exact ih.join joined
  | case5 a b rest run runs cut apart ih =>
    rw [cut] at ih
    obtain ⟨more, rfl⟩ := starts ih
    exact ih.part (Bool.not_eq_true _ ▸ apart)

theorem mem_of_shortest {runs : List (List (Word α))} {run : List (Word α)}
    (found : shortest runs = some run) : run ∈ runs := by
  induction runs generalizing run with
  | nil => cases found
  | cons first runs ih =>
    rw [shortest] at found
    split at found
    · rename_i other later
      cases found
      split
      · exact List.mem_cons_of_mem _ (ih later)
      · exact List.mem_cons_self
    · cases found
      exact List.mem_cons_self

theorem sublist_of_mem_spans {needle : String} {ws run : List (Word α)}
    (known : run ∈ spans needle ws) : run.Sublist ws := by
  induction ws with
  | nil => cases known
  | cons w rest ih =>
    rcases List.mem_append.mp known with here | later
    · split at here
      · rw [List.mem_singleton.mp here]
        exact List.take_sublist ..
      · cases here
    · exact (ih later).cons w

variable [Scalar α]

/-- Whether a word is still on the line of the one before it from the top. -/
def onLine (rule : PhraseRule α) (a b : Word α) : Bool := b.box.y - a.box.y < rule.lineTolerance

/-- A phrase holds words from left to right that go on with each other, and the box around them. -/
structure IsRun (rule : PhraseRule α) (p : Phrase α) : Prop where
  nonempty : p.words ≠ []
  ordered : p.words.Pairwise fun a b => Scalar.order a.box.x b.box.x ≠ .gt
  joined : p.words.IsChain fun a b => continues rule a b = true
  box : Word.boundingBox p.words = some p.box

/-- The phrases of a line: its words from left to right, cut where the next does not go on. -/
def IsLine (rule : PhraseRule α) (line : List (Word α)) (phrases : List (Phrase α)) : Prop :=
  ∃ ordered, Arranged byLeft line ordered ∧
    IsCut (continues rule) ordered (phrases.map (·.words))

/-- The phrases of a page: each word of the page in one of them, line by line from the top. -/
structure Shares (rule : PhraseRule α) (ws : List (Word α)) (phrases : List (Phrase α)) :
    Prop where
  perm : (phrases.flatMap (·.words)).Perm ws
  runs : ∀ p ∈ phrases, IsRun rule p
  lines : ∃ ordered pieces lines, Arranged byTop ws ordered ∧ IsCut (onLine rule) ordered pieces ∧
    List.Forall₂ (IsLine rule) pieces lines ∧ phrases = lines.flatten

theorem isSome_boundingBox_of_ne_nil {ws : List (Word α)} (some : ws ≠ []) :
    (Word.boundingBox ws).isSome = true := by
  cases ws with
  | nil => exact absurd rfl some
  | cons w ws => rfl

/-- The phrases cut from a line have the runs of the line as their words, in order. -/
theorem words_filterMap_ofWords? {runs : List (List (Word α))} (nonempty : [] ∉ runs) :
    (runs.filterMap ofWords?).map (·.words) = runs := by
  induction runs with
  | nil => rfl
  | cons run runs ih =>
    obtain ⟨first, rest⟩ := not_or.mp (mt List.mem_cons.mpr nonempty)
    obtain ⟨box, boxed⟩ := Option.isSome_iff_exists.mp
      (isSome_boundingBox_of_ne_nil (Ne.symm first))
    have made : ofWords? run = some ⟨run, box⟩ := by rw [ofWords?, boxed]; rfl
    rw [List.filterMap_cons_some made, List.map_cons, ih rest]

theorem box_of_ofWords? {run : List (Word α)} {p : Phrase α} (made : ofWords? run = some p) :
    Word.boundingBox p.words = some p.box := by
  obtain ⟨box, boxed, rfl⟩ := Option.map_eq_some_iff.mp made
  exact boxed

def ofLine (rule : PhraseRule α) (line : List (Word α)) : List (Phrase α) :=
  (cutBetween (continues rule) (line.mergeSort byLeft)).filterMap ofWords?

theorem build_eq_flatten (rule : PhraseRule α) (ws : List (Word α)) :
    build rule ws =
      ((cutBetween (onLine rule) (ws.mergeSort byTop)).map (ofLine rule)).flatten := by
  rw [build, lines, List.flatMap_def, List.map_map]
  rfl

/-- Words that come from the top and on their lines from the left are only cut. -/
theorem build_of_ordered {rule : PhraseRule α} {ws : List (Word α)}
    (fromTop : ws.Pairwise fun a b => byTop a b = true)
    (fromLeft : ∀ line ∈ cutBetween (onLine rule) ws,
      line.Pairwise fun a b => byLeft a b = true) :
    build rule ws = (cutBetween (onLine rule) ws).flatMap fun line =>
      (cutBetween (continues rule) line).filterMap ofWords? := by
  rw [build_eq_flatten, List.mergeSort_of_pairwise fromTop, List.flatMap_def]
  congr 1
  refine List.map_congr_left fun line known => ?_
  rw [ofLine, List.mergeSort_of_pairwise (fromLeft line known)]

theorem words_ofLine (rule : PhraseRule α) (line : List (Word α)) :
    (ofLine rule line).map (·.words) = cutBetween (continues rule) (line.mergeSort byLeft) :=
  words_filterMap_ofWords? (isCut_cutBetween ..).nonempty

theorem isRun_of_mem_ofLine {rule : PhraseRule α} {line : List (Word α)}
    (ordered : (line.mergeSort byLeft).Pairwise fun a b => byLeft a b = true) {p : Phrase α}
    (known : p ∈ ofLine rule line) : IsRun rule p := by
  have cut := isCut_cutBetween (continues rule) (line.mergeSort byLeft)
  have among : p.words ∈ cutBetween (continues rule) (line.mergeSort byLeft) :=
    words_ofLine rule line ▸ List.mem_map_of_mem known
  obtain ⟨run, -, made⟩ := List.mem_filterMap.mp known
  refine ⟨fun none => cut.nonempty (none ▸ among), ?_, cut.joined _ among, box_of_ofWords? made⟩
  have inside : p.words.Sublist (line.mergeSort byLeft) :=
    cut.whole ▸ List.sublist_flatten_of_mem among
  exact (ordered.sublist inside).imp fun below => bne_iff_ne.mp below

/-- No word of a line is lost or met twice in its phrases. -/
theorem IsLine.perm {rule : PhraseRule α} {line : List (Word α)} {phrases : List (Phrase α)}
    (laid : IsLine rule line phrases) : (phrases.flatMap (·.words)).Perm line := by
  obtain ⟨ordered, arranged, cut⟩ := laid
  rw [List.flatMap_def, cut.whole]
  exact arranged.perm

theorem perm_flatten_of_isLine {rule : PhraseRule α} {pieces : List (List (Word α))}
    {lines : List (List (Phrase α))} (laid : List.Forall₂ (IsLine rule) pieces lines) :
    (lines.flatten.flatMap (·.words)).Perm pieces.flatten := by
  induction laid with
  | nil => exact .refl _
  | cons line _ ih =>
    rw [List.flatten_cons, List.flatten_cons, List.flatMap_append]
    exact line.perm.append ih

/-- The corner of a box around words lies at the left of one of them and at the top of one. -/
theorem corner_boundingBox {ws : List (Word α)} {box : Rect α}
    (boxed : Word.boundingBox ws = some box) :
    (∃ w ∈ ws, box.x = w.box.x) ∧ ∃ w ∈ ws, box.y = w.box.y := by
  have least (a b : α) : Scalar.min a b = a ∨ Scalar.min a b = b := by
    unfold Scalar.min
    repeat' split
    all_goals simp
  cases ws with
  | nil => cases boxed
  | cons first rest =>
    cases boxed
    induction rest using List.reverseRecOn with
    | nil => exact ⟨⟨first, List.mem_singleton_self _, rfl⟩, first, List.mem_singleton_self _, rfl⟩
    | append_singleton rest w ih =>
      obtain ⟨⟨left, known, atLeft⟩, top, known', atTop⟩ := ih
      rw [List.foldl_append, List.foldl_cons, List.foldl_nil, ← List.cons_append]
      have among : w ∈ first :: rest ++ [w] := List.mem_append_right _ List.mem_cons_self
      refine ⟨?_, ?_⟩
      · rcases least (rest.foldl (fun box w => box.union w.box) first.box).x w.box.x with same | same
        · exact ⟨left, List.mem_append_left _ known, same.trans atLeft⟩
        · exact ⟨w, among, same⟩
      · rcases least (rest.foldl (fun box w => box.union w.box) first.box).y w.box.y with same | same
        · exact ⟨top, List.mem_append_left _ known', same.trans atTop⟩
        · exact ⟨w, among, same⟩

/-- The run that a phrase is narrowed to holds some of its words. -/
theorem locate_eq_some {p : Phrase α} {needle : String} {box : Rect α}
    (found : p.locate needle = some box) :
    ∃ run, run.Sublist p.words ∧ Word.boundingBox run = some box := by
  unfold locate at found
  dsimp only at found
  split at found
  · cases found
  · obtain ⟨run, chosen, boxed⟩ := Option.bind_eq_some_iff.mp found
    exact ⟨run, sublist_of_mem_spans (mem_of_shortest chosen), boxed⟩

end Any

section Doubles

/-- Where a word starts, from the top and then from the left, as numbers that are put in order. -/
def corner (w : Word Float) : ℤ ×ₗ ℤ :=
  toLex (Dyadic.orderKey w.box.y, Dyadic.orderKey w.box.x)

theorem byTop_iff (a b : Word Float) : byTop a b = true ↔ corner a ≤ corner b := by
  rw [byTop, bne_iff_ne, corner, corner, Prod.Lex.toLex_le_toLex]
  simp only [Scalar.order, ne_eq, Ordering.then_eq_gt, compare_gt_iff_gt, compare_eq_iff_eq]
  omega

theorem byLeft_iff (a b : Word Float) :
    byLeft a b = true ↔ Dyadic.orderKey a.box.x ≤ Dyadic.orderKey b.box.x := by
  rw [byLeft, bne_iff_ne]
  simp only [Scalar.order, ne_eq, compare_gt_iff_gt, not_lt]

theorem isLine_ofLine (rule : PhraseRule Float) (line : List (Word Float)) :
    IsLine rule line (ofLine rule line) := by
  refine ⟨line.mergeSort byLeft, arranged_mergeSort byLeft_iff line, ?_⟩
  rw [words_ofLine]
  exact isCut_cutBetween ..

/-- Phrases share out the words of their page, whatever the words and the spacing are. -/
theorem build_shares (rule : PhraseRule Float) (ws : List (Word Float)) :
    Shares rule ws (build rule ws) := by
  have arranged := arranged_mergeSort byTop_iff ws
  have cut := isCut_cutBetween (onLine rule) (ws.mergeSort byTop)
  have laid : List.Forall₂ (IsLine rule) (cutBetween (onLine rule) (ws.mergeSort byTop))
      ((cutBetween (onLine rule) (ws.mergeSort byTop)).map (ofLine rule)) :=
    List.forall₂_map_right_iff.mpr (List.forall₂_same.mpr fun line _ => isLine_ofLine rule line)
  rw [build_eq_flatten]
  refine ⟨?_, fun p known => ?_, _, _, _, arranged, cut, laid, rfl⟩
  · have kept := perm_flatten_of_isLine laid
    rw [cut.whole] at kept
    exact kept.trans arranged.perm
  · obtain ⟨_, among, inside⟩ := List.mem_flatten.mp known
    obtain ⟨line, -, rfl⟩ := List.mem_map.mp among
    exact isRun_of_mem_ofLine (arranged_mergeSort byLeft_iff line).ascends inside

/-- Words with the corners all different, as the total order of numbers tells them. -/
def Apart (ws : List (Word Float)) : Prop :=
  ws.Pairwise fun a b =>
    ¬ (Scalar.order a.box.x b.box.x = .eq ∧ Scalar.order a.box.y b.box.y = .eq)

theorem corner_ne {ws : List (Word Float)} (apart : Apart ws) :
    ws.Pairwise fun a b => corner a ≠ corner b := by
  refine apart.imp fun {a b} differ same => differ ?_
  have keys := Prod.ext_iff.mp (toLex_inj.mp same)
  exact ⟨compare_eq_iff_eq.mpr keys.2, compare_eq_iff_eq.mpr keys.1⟩

/-- The same words are put in one order from the top, and everything else follows from it. -/
theorem build_perm_eq (rule : PhraseRule Float) {ws ws' : List (Word Float)}
    (perm : ws'.Perm ws) (apart : Apart ws) : build rule ws' = build rule ws := by
  rw [build, build, lines, lines, mergeSort_perm_eq byTop_iff perm (corner_ne apart)]

end Doubles
end Phrase
end Docket
