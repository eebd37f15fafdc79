import Docket.Layout.Rect

/-! Means, spreads, medians and outliers of the offsets of anchors. -/
namespace Docket.Statistics

variable {α : Type} [Scalar α]

def count (xs : List α) : α := Scalar.ofNat xs.length

/-- No values have the mean zero. -/
def mean (xs : List α) : α := if xs.isEmpty then 0 else Scalar.sum xs / count xs

/-- Standard deviation of a whole population. -/
def deviation (xs : List α) : α :=
  if xs.isEmpty then 0
  else
    let m := mean xs
    Scalar.sqrt (Scalar.sum (xs.map fun x => Scalar.square (x - m)) / count xs)

/-- Puts a value into a descending list, behind the values that are greater. -/
def insertDescending (x : α) : List α → List α
  | [] => [x]
  | y :: ys => if x < y then y :: insertDescending x ys else x :: y :: ys

def ascending (xs : List α) : List α :=
  (xs.foldl (fun sorted x => insertDescending x sorted) []).reverse

/-- The middle value, or the mean of the two in the middle. -/
def median (xs : List α) : Option α :=
  let sorted := ascending xs
  let middle := sorted.length / 2
  if sorted.length % 2 = 0 then
    match sorted[middle - 1]?, sorted[middle]? with
    | some a, some b => some ((a + b) / Scalar.two)
    | _, _ => none
  else sorted[middle]?

/-- All pairs of an earlier and a later value. -/
def pairs {β : Type} : List β → List (β × β)
  | [] => []
  | a :: rest => rest.map (a, ·) ++ pairs rest

/-- The ratio of a found distance to the configured one, if that is wide enough. The places are
given as configured and found. -/
def distanceRatio? (minDistance : α) (a b : α × α) : Option α :=
  let configured := Scalar.abs (b.1 - a.1)
  if minDistance ≤ configured then some (Scalar.abs (b.2 - a.2) / configured) else none

/-- The median ratio over all pairs of places on an axis; 1 where no pair is wide enough. -/
def scale (minDistance : α) (places : List (α × α)) : α :=
  (median ((pairs places).filterMap fun (a, b) => distanceRatio? minDistance a b)).getD 1

/-- The spread of offsets over both axes as a part of a hundred units, 1 at most. -/
def distortion (offsets : List (α × α)) : α :=
  let x := deviation (offsets.map Prod.fst)
  let y := deviation (offsets.map Prod.snd)
  Scalar.min (Scalar.sqrt (Scalar.square x + Scalar.square y) / Scalar.ofNat 100) 1

/-- The distance from the mean in standard deviations. -/
def score (mean deviation x : α) : α :=
  if 0 < deviation then Scalar.abs ((x - mean) / deviation) else 0

/-- Which offsets lie further out than the threshold on an axis; of fewer than three none. -/
def outliers (threshold : α) (offsets : List (α × α)) : List Bool :=
  if offsets.length < 3 then offsets.map fun _ => false
  else
    let xs := offsets.map Prod.fst
    let ys := offsets.map Prod.snd
    let (meanX, deviationX) := (mean xs, deviation xs)
    let (meanY, deviationY) := (mean ys, deviation ys)
    offsets.map fun (x, y) =>
      threshold < score meanX deviationX x || threshold < score meanY deviationY y

end Docket.Statistics
