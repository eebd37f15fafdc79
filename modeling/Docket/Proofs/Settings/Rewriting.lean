import Docket.Proofs.Json.Converting
import Docket.Proofs.Settings.Placing

/-! Records of settings read from values in memory and written again. A leaf comes back as it was but
for a number where a double stands, which comes back as the double; an object that has the keys of
the settings comes back with the same keys. So settings that were changed at one leaf are written
with this leaf changed and no other. -/
namespace Docket.Json.Value
open RecordReader

/-- What is written after reading a value in the place of settings that were written before. -/
inductive Rewritten : Value → Value → Value → Prop
  | double (x : Float) (n : Number) : Rewritten (.real x) (.number n) (.real n.toFloat)
  | flag (a b : Bool) : Rewritten (.bool a) (.bool b) (.bool b)
  | text (a b : String) : Rewritten (.string a) (.string b) (.string b)
  | natural (a : Nat) {b : Nat} (fits : b < twoTo 64) :
      Rewritten (.natural a) (.natural b) (.natural b)
  | record {old ms new : List (String × Value)} (written : String → Value)
      (keys : ∀ key o, old.lookup key = some o → new.lookup key = some (written key))
      (each : ∀ key o v, old.lookup key = some o → ms.lookup key = some v →
        Rewritten o v (written key)) : Rewritten (.object old) (.object ms) (.object new)
  | listed (old : List (String × Value)) (vs : List Value) (w : Value) :
      Rewritten (.object old) (.array vs) w

/-- What stands along a path is read and written again in its place. -/
theorem Rewritten.at? {old v w : Value} (rewritten : Rewritten old v w) {path : List String}
    {o v' : Value} (before : old.at? path = some o) (read : v.at? path = some v') :
    ∃ w', w.at? path = some w' ∧ Rewritten o v' w' := by
  induction path generalizing old v w with
  | nil =>
    cases before
    cases read
    exact ⟨w, rfl, rewritten⟩
  | cons key rest ih =>
    cases rewritten with
    | record written keys each =>
      rw [at?_object] at before read
      obtain ⟨o₁, known, before⟩ := Option.bind_eq_some_iff.mp before
      obtain ⟨v₁, there, read⟩ := Option.bind_eq_some_iff.mp read
      obtain ⟨w', found, again⟩ := ih (each key o₁ v₁ known there) before read
      exact ⟨w', by rw [at?_object, keys key o₁ known]; exact found, again⟩
    | listed => cases read
    | double | flag | text | natural =>
      refine absurd (Leaf.at?_eq ?_ read).1 (List.cons_ne_nil key rest)
      exact trivial

/-- A value in the form of what stood in its place: any number is a double where a double stood. -/
def inForm : Value → Value → Value
  | .number (.real _), .number n => .real n.toFloat
  | _, v => v

theorem sorted_real (x : Float) : (real x).sorted = real x := by
  unfold real
  split <;> rfl

theorem at?_real {ms : List (String × Value)} (once : (ms.map Prod.fst).Nodup) {key : String}
    {x : Float} (found : ms.lookup key = some (real x)) :
    (object ms).sorted.at? [key] = some (real x) := by
  rw [at?_sorted once, found]
  exact congrArg some (sorted_real x)

/-- A member that comes back, read and written again, in the place of one of the same key. -/
def Follows (ms : List (String × Value)) (old new : String × Value) : Prop :=
  old.1 = new.1 ∧ ∀ v, ms.lookup old.1 = some v → Rewritten old.2.sorted v new.2.sorted

theorem names_follows {ms old new : List (String × Value)}
    (follows : List.Forall₂ (Follows ms) old new) : old.map Prod.fst = new.map Prod.fst := by
  induction follows with
  | nil => rfl
  | cons head tail ih => rw [List.map_cons, List.map_cons, head.1, ih]

theorem lookup_follows {ms old new : List (String × Value)}
    (follows : List.Forall₂ (Follows ms) old new) {key : String} {o : Value}
    (known : old.lookup key = some o) :
    ∃ w, new.lookup key = some w ∧ ∀ v, ms.lookup key = some v → Rewritten o.sorted v w.sorted := by
  induction follows with
  | nil => cases known
  | @cons first second old new head tail ih =>
    obtain ⟨name, first⟩ := first
    obtain ⟨name', second⟩ := second
    obtain ⟨same, again⟩ := head
    cases same
    rw [lookup_entry] at known ⊢
    split at known
    · rename_i here
      subst here
      cases known
      exact ⟨second, if_pos rfl, again⟩
    · rename_i other
      rw [if_neg other]
      exact ih known

theorem rewritten_record {α : Type} {r : RecordReader α} {name : String} {v : Value} {a : α}
    {old new : List (String × Value)} (read : (r.decoder name).convert v = .ok a)
    (once : (old.map Prod.fst).Nodup)
    (follows : ∀ ms, r.Draws ms a → List.Forall₂ (Follows ms) old new) :
    Rewritten (object old).sorted v (object new).sorted := by
  cases v with
  | object ms =>
    have each := follows ms (draws_of_convert read)
    have once' : (new.map Prod.fst).Nodup := names_follows each ▸ once
    rw [sorted, sorted]
    refine .record (fun key => ((new.lookup key).map sorted).getD .null) ?_ ?_
    · intro key o known
      rw [lookup_sorted once] at known
      obtain ⟨o, there, rfl⟩ := Option.map_eq_some_iff.mp known
      obtain ⟨w, here, -⟩ := lookup_follows each there
      rw [lookup_sorted once', here]
      rfl
    · intro key o v known found
      rw [lookup_sorted once] at known
      obtain ⟨o, there, rfl⟩ := Option.map_eq_some_iff.mp known
      obtain ⟨w, here, again⟩ := lookup_follows each there
      rw [here]
      exact again v found
  | array vs => exact .listed _ vs _
  | _ => cases read

theorem rewritten_float {x y : Float} {v : Value} (read : Decoder.float.convert v = .ok y) :
    Rewritten (real x).sorted v (real y).sorted := by
  rw [sorted_real, sorted_real]
  cases v with
  | number n =>
    cases read
    exact .double x n
  | _ => cases read

theorem rewritten_boolean {a b : Bool} {v : Value} (read : Decoder.boolean.convert v = .ok b) :
    Rewritten (bool a).sorted v (bool b).sorted := by
  cases v with
  | bool =>
    cases read
    exact .flag a b
  | _ => cases read

theorem rewritten_string {a b : String} {v : Value} {expected : String}
    (read : (Decoder.string expected .ok).convert v = .ok b) :
    Rewritten (string a).sorted v (string b).sorted := by
  cases v with
  | string =>
    cases read
    exact .text a b
  | _ => cases read

theorem rewritten_natural {a b : Nat} {v : Value} (read : Decoder.natural64.convert v = .ok b) :
    Rewritten (natural a).sorted v (natural b).sorted := by
  obtain ⟨n, converted, rfl⟩ := of_map_ok read
  have inside := of_mapError_ok converted
  cases v with
  | number number =>
    cases number with
    | whole k =>
      simp only [Value.kind] at inside
      split at inside
      · rename_i range
        cases inside
        obtain ⟨k, rfl⟩ := Int.eq_ofNat_of_zero_le range.1
        have fits : k < twoTo 64 := by omega
        exact .natural a fits
      · cases inside
    | real x => cases inside
  | _ => cases inside

end Docket.Json.Value

namespace Docket
open Json Value RecordReader

theorem RegionRule.rewritten (old : RegionRule Float) {new : RegionRule Float} {v : Value}
    (read : decoder.convert v = .ok new) : Rewritten old.toJson.sorted v new.toJson.sorted := by
  refine rewritten_record read (by simp) fun ms draws => ?_
  obtain ⟨_, _, first, height, rfl⟩ := draws.field (by decide)
  obtain ⟨_, coverage, rfl⟩ := first.map
  exact .cons ⟨rfl, fun v found => rewritten_float (draws_field coverage found)⟩
    (.cons ⟨rfl, fun v found => rewritten_float (height v found)⟩ .nil)

theorem PhraseRule.rewritten (old : PhraseRule Float) {new : PhraseRule Float} {v : Value}
    (read : decoder.convert v = .ok new) : Rewritten old.toJson.sorted v new.toJson.sorted := by
  refine rewritten_record read (by simp) fun ms draws => ?_
  obtain ⟨_, _, draws₄, shift, rfl⟩ := draws.field (by decide)
  obtain ⟨_, _, draws₃, gap, rfl⟩ := draws₄.field (by decide)
  obtain ⟨_, _, draws₂, most, rfl⟩ := draws₃.field (by decide)
  obtain ⟨_, _, draws₁, least, rfl⟩ := draws₂.field (by decide)
  obtain ⟨_, tolerance, rfl⟩ := draws₁.map
  exact .cons ⟨rfl, fun _ found => rewritten_float (draws_field tolerance found)⟩
    (.cons ⟨rfl, fun v found => rewritten_float (least v found)⟩
    (.cons ⟨rfl, fun v found => rewritten_float (most v found)⟩
    (.cons ⟨rfl, fun v found => rewritten_float (gap v found)⟩
    (.cons ⟨rfl, fun v found => rewritten_float (shift v found)⟩ .nil))))

theorem CalibrationRule.rewritten (old : CalibrationRule Float) {new : CalibrationRule Float}
    {v : Value} (read : decoder.convert v = .ok new) :
    Rewritten old.toJson.sorted v new.toJson.sorted := by
  refine rewritten_record read (by simp) fun ms draws => ?_
  obtain ⟨_, _, draws₇, phrases, rfl⟩ := draws.field (by decide)
  obtain ⟨_, _, draws₆, exclude, rfl⟩ := draws₇.field (by decide)
  obtain ⟨_, _, draws₅, outlier, rfl⟩ := draws₆.field (by decide)
  obtain ⟨_, _, draws₄, distance, rfl⟩ := draws₅.field (by decide)
  obtain ⟨_, _, draws₃, cap, rfl⟩ := draws₄.field (by decide)
  obtain ⟨_, _, draws₂, low, rfl⟩ := draws₃.field (by decide)
  obtain ⟨_, _, draws₁, floor, rfl⟩ := draws₂.field (by decide)
  obtain ⟨_, threshold, rfl⟩ := draws₁.map
  exact .cons ⟨rfl, fun _ found => rewritten_float (draws_field threshold found)⟩
    (.cons ⟨rfl, fun v found => rewritten_float (floor v found)⟩
    (.cons ⟨rfl, fun v found => rewritten_float (low v found)⟩
    (.cons ⟨rfl, fun v found => rewritten_float (cap v found)⟩
    (.cons ⟨rfl, fun v found => rewritten_float (distance v found)⟩
    (.cons ⟨rfl, fun v found => rewritten_float (outlier v found)⟩
    (.cons ⟨rfl, fun v found => rewritten_boolean (exclude v found)⟩
    (.cons ⟨rfl, fun v found => old.phrases.rewritten (phrases v found)⟩ .nil)))))))

theorem Pipeline.rewritten (old : Pipeline) {new : Pipeline} {v : Value}
    (read : decoder.convert v = .ok new) : Rewritten old.toJson.sorted v new.toJson.sorted := by
  refine rewritten_record read (by simp) fun ms draws => ?_
  obtain ⟨_, _, draws₅, stale, rfl⟩ := draws.field (by decide)
  obtain ⟨_, _, draws₄, poll, rfl⟩ := draws₅.field (by decide)
  obtain ⟨_, _, draws₃, pattern, rfl⟩ := draws₄.field (by decide)
  obtain ⟨_, _, draws₂, catalog, rfl⟩ := draws₃.field (by decide)
  obtain ⟨_, _, draws₁, output, rfl⟩ := draws₂.field (by decide)
  obtain ⟨_, intake, rfl⟩ := draws₁.map
  exact .cons ⟨rfl, fun _ found => rewritten_string (draws_field intake found)⟩
    (.cons ⟨rfl, fun v found => rewritten_string (output v found)⟩
    (.cons ⟨rfl, fun v found => rewritten_string (catalog v found)⟩
    (.cons ⟨rfl, fun v found => rewritten_string (pattern v found)⟩
    (.cons ⟨rfl, fun v found => rewritten_natural (poll v found)⟩
    (.cons ⟨rfl, fun v found => rewritten_natural (stale v found)⟩ .nil)))))

/-- Settings that are read from a value in memory are written as this value is, whatever settings
stood there before. -/
theorem Settings.rewritten (old : Settings Float) {new : Settings Float} {v : Value}
    (read : decoder.convert v = .ok new) : Rewritten old.toJson.sorted v new.toJson.sorted := by
  refine rewritten_record read (by simp) fun ms draws => ?_
  obtain ⟨_, _, draws₂, pipeline, rfl⟩ := draws.field (by decide)
  obtain ⟨_, _, draws₁, calibration, rfl⟩ := draws₂.field (by decide)
  obtain ⟨_, extraction, rfl⟩ := draws₁.map
  exact .cons ⟨rfl, fun _ found => old.extraction.rewritten (draws_field extraction found)⟩
    (.cons ⟨rfl, fun v found => old.calibration.rewritten (calibration v found)⟩
    (.cons ⟨rfl, fun v found => old.pipeline.rewritten (pipeline v found)⟩ .nil))

end Docket
