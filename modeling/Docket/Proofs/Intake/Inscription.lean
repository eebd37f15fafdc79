import Mathlib
import Docket.Intake.Lock
import Docket.Json.Atom
import Docket.Proofs.Calendar
import Docket.Proofs.Host.Naming

/-! What a lock file says. Its three lines name one holder and no other, since a token ends with a
count that a machine gives once. -/
namespace Docket

namespace Text

/-- Characters without an end of a line. -/
def OnLine (cs : List Char) : Prop := ∀ c ∈ cs, c ≠ '\n' ∧ c ≠ '\r'

namespace OnLine

theorem append {cs ds : List Char} (first : OnLine cs) (second : OnLine ds) :
    OnLine (cs ++ ds) := by
  intro c known
  exact (List.mem_append.mp known).elim (first c) (second c)

theorem of_isDigit {cs : List Char} (digits : ∀ c ∈ cs, Reading.isDigit c = true) : OnLine cs := by
  intro c known
  have digit := digits c known
  constructor <;> rintro rfl <;> cases digit

end OnLine

/-- Lines, each with its end, are the pieces of their text. -/
theorem split_lines (lines : List (List Char)) (plain : ∀ line ∈ lines, OnLine line) :
    split '\n' (lines.flatMap (· ++ ['\n'])) = lines ++ [[]] := by
  induction lines with
  | nil => rfl
  | cons line lines ih =>
    have absent : '\n' ∉ line := fun known => (plain line List.mem_cons_self '\n' known).1 rfl
    rw [List.flatMap_cons, List.append_assoc, List.singleton_append, split_append,
      split_eq_self absent, ih fun line known => plain line (List.mem_cons_of_mem _ known)]
    rfl

end Text

namespace Timestamp
open Text Date

theorem onLine_padded (width n : Nat) : OnLine (padded width n).toList :=
  .of_isDigit fun _ => isDigit_padded

theorem onLine_yearText (year : Int) : OnLine (yearText year).toList := by
  obtain ⟨n, -, -, text⟩ | ⟨n, -, text⟩ | ⟨n, -, text⟩ := yearText_cases year
  · rw [text]
    exact onLine_padded 4 n
  all_goals
    rw [text, ← List.singleton_append]
    exact OnLine.append (by simp [OnLine]) (onLine_padded 4 n)

theorem onLine_fraction (nanos : Nat) : OnLine (fraction nanos).toList := by
  have point (width n : Nat) : OnLine ("." ++ padded width n).toList := by
    rw [String.toList_append]
    exact OnLine.append (by simp [OnLine]) (onLine_padded width n)
  unfold fraction
  split
  · simp [OnLine]
  · split
    · exact point 3 _
    · split
      · exact point 6 _
      · exact point 9 _

theorem onLine_displayOffset (t : Timestamp) : OnLine t.displayOffset.toList := by
  have day : OnLine t.date.display.toList := by
    simp only [Date.display, String.toList_append]
    exact .append (.append (.append (.append (onLine_yearText _) (by simp [OnLine])) (onLine_padded 2 _))
      (by simp [OnLine])) (onLine_padded 2 _)
  simp only [displayOffset, clockText, String.toList_append]
  exact .append (.append (.append (.append (.append (.append (.append (.append day
    (by simp [OnLine])) (onLine_padded 2 _)) (by simp [OnLine])) (onLine_padded 2 _))
    (by simp [OnLine])) (onLine_padded 2 _)) (onLine_fraction _)) (by simp [OnLine])

end Timestamp

namespace Machine
open Text

/-- The number that hexadecimal digits write. -/
def hexValue (ds : List Char) : Nat :=
  ds.foldl (fun n c => n * 16 + (Json.Cursor.hexDigit? c).getD 0) 0

theorem hexDigit_digitChar : ∀ d < 16, Json.Cursor.hexDigit? (Nat.digitChar d) = some d := by decide

theorem hexValue_toDigits (n : Nat) : hexValue (Nat.toDigits 16 n) = n := by
  induction n using Nat.strongRecOn with
  | ind n ih =>
    rw [Nat.toDigits_eq_if (by decide)]
    split
    · rename_i small
      simp [hexValue, hexDigit_digitChar n small]
    · rename_i large
      have above := ih (n / 16) (by omega)
      have last := hexDigit_digitChar (n % 16) (by omega)
      rw [hexValue] at above
      rw [hexValue, List.foldl_append, above]
      simp only [List.foldl_cons, List.foldl_nil, last, Option.getD_some]
      omega

theorem hexValue_zeros (k : Nat) (ds : List Char) :
    hexValue (List.replicate k '0' ++ ds) = hexValue ds := by
  induction k with
  | zero => rfl
  | succ k ih => exact ih

/-- What comes before the count in a unique text. -/
def serialHead : String := "00000000-0000-4000-8000-"

theorem toList_serial (n : Nat) : (serial n).toList = serialHead.toList ++
    (List.replicate (12 - (Nat.toDigits 16 n).length) '0' ++ Nat.toDigits 16 n) := by
  have halves : serial n = serialHead ++
      String.ofList (List.replicate (12 - (Nat.toDigits 16 n).length) '0' ++ Nat.toDigits 16 n) :=
    rfl
  rw [halves, String.toList_append, String.toList_ofList]

/-- No unique text is given twice. -/
theorem serial_injective : Function.Injective serial := by
  intro n n' same
  have texts := congrArg String.toList same
  rw [toList_serial, toList_serial] at texts
  have digits := congrArg hexValue (List.append_cancel_left texts)
  rwa [hexValue_zeros, hexValue_zeros, hexValue_toDigits, hexValue_toDigits] at digits

theorem onLine_toDigits (n : Nat) : OnLine (Nat.toDigits 16 n) := by
  have digit (d : Nat) (small : d < 16) : OnLine [Nat.digitChar d] := by
    interval_cases d <;> simp [OnLine, Nat.digitChar]
  induction n using Nat.strongRecOn with
  | ind n ih =>
    rw [Nat.toDigits_eq_if (by decide)]
    split
    · rename_i small
      exact digit n small
    · exact .append (ih (n / 16) (by omega)) (digit _ (by omega))

theorem onLine_serial (n : Nat) : OnLine (serial n).toList := by
  rw [toList_serial]
  refine OnLine.append (by simp [serialHead, OnLine]) (.append ?_ (onLine_toDigits n))
  intro c zero
  rw [List.eq_of_mem_replicate zero]
  decide

end Machine

namespace Lock
open Text Machine

/-- The token of a process that is given a count. -/
def tokenOf (processId n : Nat) : String := s!"{processId}-{serial n}"

theorem toList_tokenOf (processId n : Nat) : (tokenOf processId n).toList =
    Nat.toDigits 10 processId ++ '-' :: (serial n).toList := by
  simp [tokenOf, toString]

theorem isDigit_toDigits {n : Nat} {c : Char} (known : c ∈ Nat.toDigits 10 n) :
    Reading.isDigit c = true := FloatFormat.digitsOf_isDigit known

theorem onLine_toString (n : Nat) : OnLine (Nat.toDigits 10 n) :=
  .of_isDigit fun _ => isDigit_toDigits

/-- Tokens of two counts differ, whatever processes they name. -/
theorem tokenOf_inj {processId processId' n n' : Nat}
    (same : tokenOf processId n = tokenOf processId' n') : n = n' := by
  have behind (processId n : Nat) :
      (tokenOf processId n).toList.dropWhile Reading.isDigit = '-' :: (serial n).toList := by
    rw [toList_tokenOf, List.dropWhile_append_of_pos fun _ => isDigit_toDigits]
    rfl
  have texts := behind processId n
  rw [same, behind, List.cons.injEq] at texts
  exact (serial_injective (String.toList_injective texts.2)).symm

theorem onLine_tokenOf (processId n : Nat) : OnLine (tokenOf processId n).toList := by
  rw [toList_tokenOf, ← List.singleton_append]
  exact .append (onLine_toString _) (.append (by simp [OnLine]) (onLine_serial n))

/-- What a holder has written when it has the lock. -/
def inscription (processId : Nat) (token : String) (time : Time) : String :=
  String.join (lines processId token time)

theorem withoutEnd_eq_self {line : List Char} (plain : OnLine line) : withoutEnd line = line := by
  rw [withoutEnd, if_neg]
  intro last
  exact (plain '\r' (List.mem_of_getLast? last)).2 rfl

theorem linesOf_inscription (processId n : Nat) (time : Time) :
    linesOf (inscription processId (tokenOf processId n) time) =
      [s!"pid={processId}", tokenLine (tokenOf processId n),
        s!"acquired_at={(Timestamp.ofTime time).displayOffset}", ""] := by
  let texts : List (List Char) := ["pid=".toList ++ Nat.toDigits 10 processId,
    "token=".toList ++ (tokenOf processId n).toList,
    "acquired_at=".toList ++ (Timestamp.ofTime time).displayOffset.toList]
  have written : (inscription processId (tokenOf processId n) time).toList =
      texts.flatMap (· ++ ['\n']) := by
    simp [inscription, lines, tokenLine, texts, String.join, toString]
  have plain : ∀ line ∈ texts, OnLine line := by
    simp only [texts, List.forall_mem_cons, List.not_mem_nil, false_imp_iff, implies_true, and_true]
    exact ⟨.append (by simp [OnLine]) (onLine_toString _), .append (by simp [OnLine]) (onLine_tokenOf _ _),
      .append (by simp [OnLine]) (Timestamp.onLine_displayOffset _)⟩
  have kept : texts.map withoutEnd = texts := by
    rw [List.map_congr_left fun line known => withoutEnd_eq_self (plain line known), List.map_id']
  rw [linesOf, written, split_lines texts plain]
  simp only [List.dropLast_concat, kept, List.length_append, List.length_singleton,
    Nat.add_sub_cancel, List.drop_left]
  simp only [texts, List.map_cons, List.map_nil, List.cons_append, List.nil_append,
    String.ofList_append, String.ofList_toList]
  rfl

theorem tokenLine_inj {token token' : String} (same : tokenLine token = tokenLine token') :
    token = token' := by
  have texts := congrArg String.toList same
  rw [tokenLine, tokenLine, String.toList_append, String.toList_append] at texts
  exact String.toList_injective (List.append_cancel_left texts)

/-- A lock file names the holder of its token and no other. -/
theorem isNamed_inscription (l : Lock) (processId n : Nat) (time : Time) :
    l.isNamed (inscription processId (tokenOf processId n) time) = true ↔
      l.token = tokenOf processId n := by
  -- the first letter tells the line of the token from the others
  have other (text : String) (first : text.toList.head? ≠ some 't') : tokenLine l.token ≠ text := by
    rintro rfl
    exact first (by simp [tokenLine])
  rw [isNamed, linesOf_inscription, List.contains_iff_mem]
  simp only [List.mem_cons, List.not_mem_nil, or_false]
  constructor
  · rintro (pid | token | time | none)
    · exact absurd pid (other _ (by simp [toString]))
    · exact tokenLine_inj token
    · exact absurd time (other _ (by simp [toString]))
    · exact absurd none (other _ (by simp))
  · intro same
    exact .inr (.inl (by rw [same]))

end Lock
end Docket
