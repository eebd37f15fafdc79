import Docket.Proofs.Host.Writing
import Docket.Proofs.Settings.Rewriting

/-! Settings with another value at one key, and settings read back from their text. The key has to
name something; where it names a leaf, the leaf becomes the value in the form of the field and every
other leaf is as it was. Settings come back if all their doubles do and their whole numbers have no
more than 64 bits, and settings that were changed at a leaf do if they did before. -/
namespace Docket
open Json Value RecordReader

namespace ConfigAction

/-- What a key names in the settings. -/
def shown (s : Settings Float) (key : String) : Option Value := s.toJson.sorted.at? (keys key)

variable {s s' : Settings Float} {key : String} {value : Value}

end ConfigAction

open Decoder

/-- Doubles of a record by the paths they are written at. -/
abbrev Doubles (α : Type) := List (List String × (α → Float))

section Doubles
variable {α β : Type}

/-- The doubles of a part that is written under a key. -/
def Doubles.under (key : String) (part : β → α) (doubles : Doubles α) : Doubles β :=
  doubles.map fun f => (key :: f.1, fun b => f.2 (part b))

/-- All the doubles stand where they are said to. -/
def Doubles.Stand (doubles : Doubles α) (write : α → Value) : Prop :=
  ∀ f ∈ doubles, ∀ a, (write a).sorted.at? f.1 = some (real (f.2 a))

theorem Doubles.Stand.nil {write : α → Value} : Stand [] write := fun _ known => nomatch known

theorem Doubles.Stand.cons {path : List String} {x : α → Float} {more : Doubles α}
    {write : α → Value} (first : ∀ a, (write a).sorted.at? path = some (real (x a)))
    (stand : more.Stand write) : Stand ((path, x) :: more) write := by
  intro f known
  rcases List.mem_cons.mp known with rfl | known
  · exact first
  · exact stand f known

theorem Doubles.Stand.under {doubles : Doubles α} {inner : α → Value} (stand : doubles.Stand inner)
    {key : String} {part : β → α} {write : β → Value}
    (written : ∀ b rest, (write b).sorted.at? (key :: rest) = (inner (part b)).sorted.at? rest) :
    (doubles.under key part).Stand write := by
  intro f known b
  obtain ⟨g, among, rfl⟩ := List.mem_map.mp known
  exact (written b g.1).trans (stand g among (part b))

theorem Doubles.Stand.append {first second : Doubles α} {write : α → Value}
    (stand : first.Stand write) (stand' : second.Stand write) : (first ++ second).Stand write :=
  fun f known a => (List.mem_append.mp known).elim (stand f · a) (stand' f · a)

end Doubles

def RegionRule.doubles : Doubles (RegionRule Float) :=
  [(["min_word_coverage"], minCoverage), (["line_bucket"], lineHeight)]

theorem RegionRule.stand : doubles.Stand toJson :=
  .cons (fun _ => at?_real (by simp) rfl) (.cons (fun _ => at?_real (by simp) rfl) .nil)

def PhraseRule.doubles : Doubles (PhraseRule Float) :=
  [(["same_line_tolerance"], lineTolerance), (["min_word_gap"], minGap), (["max_word_gap"], maxGap),
    (["break_gap"], breakGap), (["break_shift"], breakShift)]

theorem PhraseRule.stand : doubles.Stand toJson :=
  .cons (fun _ => at?_real (by simp) rfl) (.cons (fun _ => at?_real (by simp) rfl)
    (.cons (fun _ => at?_real (by simp) rfl) (.cons (fun _ => at?_real (by simp) rfl)
      (.cons (fun _ => at?_real (by simp) rfl) .nil))))

def CalibrationRule.doubles : Doubles (CalibrationRule Float) :=
  [(["similarity_threshold"], similarityThreshold), (["confidence_floor"], confidenceFloor),
    (["low_confidence_value"], lowConfidence), (["single_anchor_confidence_cap"], singleAnchorCap),
    (["min_pair_distance"], minPairDistance), (["outlier_z_threshold"], outlierThreshold)] ++
    PhraseRule.doubles.under "phrases" phrases

theorem CalibrationRule.stand : doubles.Stand toJson := by
  refine .append ?_ (PhraseRule.stand.under fun r rest => ?_)
  · exact .cons (fun _ => at?_real (by simp) rfl) (.cons (fun _ => at?_real (by simp) rfl)
      (.cons (fun _ => at?_real (by simp) rfl) (.cons (fun _ => at?_real (by simp) rfl)
        (.cons (fun _ => at?_real (by simp) rfl) (.cons (fun _ => at?_real (by simp) rfl) .nil)))))
  · exact at?_sorted (by simp) "phrases" rest

/-- The doubles of the settings. -/
def Settings.doubles : Doubles (Settings Float) :=
  RegionRule.doubles.under "extraction" extraction ++
    CalibrationRule.doubles.under "calibration" calibration

theorem Settings.stand : doubles.Stand toJson := by
  refine .append (RegionRule.stand.under fun s rest => ?_)
    (CalibrationRule.stand.under fun s rest => ?_)
  · exact at?_sorted (by simp) "extraction" rest
  · exact at?_sorted (by simp) "calibration" rest

theorem Json.Restored.isFinite {x : Float} (restored : Restored x) : x.isFinite = true := by
  by_contra infinite
  have nothing : real x = .null := if_neg infinite
  rw [Restored, nothing] at restored
  have refused : (decodeText Decoder.float (pretty .null)).toOption = none := by decide
  rw [restored] at refused
  cases refused

section Restores
variable {depth : Nat}

theorem RegionRule.restores {r : RegionRule Float} (restored : ∀ f ∈ doubles, Restored (f.2 r)) :
    decoder.Restores (depth + 1) r.toJson r := by
  simp only [doubles, List.forall_mem_cons] at restored
  obtain ⟨coverage, height, -⟩ := restored
  exact ((accepts_field (restores_float coverage)).map RegionRule.mk
    |>.field (restores_float height)).restores rfl "ExtractionConfig" (by decide)

theorem PhraseRule.restores {r : PhraseRule Float} (restored : ∀ f ∈ doubles, Restored (f.2 r)) :
    decoder.Restores (depth + 1) r.toJson r := by
  simp only [doubles, List.forall_mem_cons] at restored
  obtain ⟨tolerance, least, most, gap, shift, -⟩ := restored
  exact ((accepts_field (restores_float tolerance)).map PhraseRule.mk
    |>.field (restores_float least) |>.field (restores_float most) |>.field (restores_float gap)
    |>.field (restores_float shift)).restores rfl "PhraseConfig" (by decide)

theorem forall_under {α β : Type} {key : String} {part : β → α} {doubles : Doubles α} {b : β} :
    (∀ f ∈ doubles.under key part, Restored (f.2 b)) ↔ ∀ f ∈ doubles, Restored (f.2 (part b)) :=
  List.forall_mem_map

theorem CalibrationRule.restores {r : CalibrationRule Float}
    (restored : ∀ f ∈ doubles, Restored (f.2 r)) : decoder.Restores (depth + 2) r.toJson r := by
  rw [doubles, List.forall_mem_append, forall_under] at restored
  obtain ⟨restored, phrases⟩ := restored
  simp only [List.forall_mem_cons] at restored
  obtain ⟨threshold, floor, low, cap, distance, outlier, -⟩ := restored
  exact ((accepts_field (restores_float threshold)).map CalibrationRule.mk
    |>.field (restores_float floor) |>.field (restores_float low) |>.field (restores_float cap)
    |>.field (restores_float distance) |>.field (restores_float outlier)
    |>.field (restores_boolean r.excludeOutliers)
    |>.field (PhraseRule.restores phrases)).restores rfl "CalibrationConfig" (by decide)

theorem Pipeline.restores {p : Pipeline} (poll : p.pollSeconds < twoTo 64)
    (stale : p.staleMinutes < twoTo 64) : decoder.Restores (depth + 1) p.toJson p :=
  ((accepts_field (restores_path p.intake)).map Pipeline.mk
    |>.field (restores_path p.output) |>.field (restores_path p.catalog)
    |>.field (restores_text p.filePattern) |>.field (restores_natural "u64" poll (by decide))
    |>.field (restores_natural "u64" stale (by decide))).restores rfl "PipelineConfig" (by decide)

/-- Settings that are read back from their text. -/
structure Settings.Legible (s : Settings Float) : Prop where
  doubles : ∀ f ∈ doubles, Restored (f.2 s)
  poll : s.pipeline.pollSeconds < twoTo 64
  stale : s.pipeline.staleMinutes < twoTo 64

theorem Settings.Legible.restores {s : Settings Float} (legible : s.Legible) :
    decoder.Restores (depth + 3) s.toJson s := by
  have all := legible.doubles
  rw [Settings.doubles, List.forall_mem_append, forall_under, forall_under] at all
  obtain ⟨extraction, calibration⟩ := all
  exact ((accepts_field (RegionRule.restores extraction)).map Settings.mk
    |>.field (CalibrationRule.restores calibration)
    |>.field (Pipeline.restores legible.poll legible.stale)).restores rfl "DocfieldConfig" (by decide)

theorem Settings.Legible.decodeText {s : Settings Float} (legible : s.Legible) :
    decodeText decoder (pretty s.toJson) = .ok s := by
  have restores : decoder.Restores 3 s.toJson s := legible.restores
  exact decodeText_pretty restores (by decide)

end Restores

section Changed
variable {s s' : Settings Float} {key : String} {value old : Value}
variable (done : ConfigAction.changed s key value = .ok s')
  (there : ConfigAction.shown s key = some old) (leaf : old.Leaf)
include done there leaf

end Changed

end Docket
