import Docket.Calibration.AnchorMatch

/-! Settings of extraction, calibration and the pipeline, with their standard values. -/
namespace Docket

/-- Where documents come from and results go, and how the intake is watched. -/
structure Pipeline where
  intake : String
  output : String
  catalog : String
  filePattern : String
  /-- Seconds between two looks at the intake. -/
  pollSeconds : Nat
  /-- Minutes after which a lock may be taken over. -/
  staleMinutes : Nat

def Pipeline.standard : Pipeline :=
  ⟨"intake", "results", "catalog.json", "*.pdf", 300, 30⟩

structure Settings (α : Type) where
  extraction : RegionRule α
  calibration : CalibrationRule α
  pipeline : Pipeline

def Settings.standard {α : Type} [Scalar α] : Settings α := ⟨.standard, .standard, .standard⟩

end Docket
