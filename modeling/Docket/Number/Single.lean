import Docket.Number.Dyadic

/-! Numbers of single precision: 24 significant bits, the least power of two `2 ^ -149`,
nothing from `2 ^ 128` on. -/
namespace Docket.Single

/-- The greatest `k` with `2 ^ k ≤ n / d`, for positive numbers. -/
def magnitude (n d : Nat) : Int :=
  let k : Int := (n.log2 : Int) - d.log2
  if d * twoTo k.toNat ≤ n * twoTo (-k).toNat then k else k - 1

/-- `n / d` rounded to a whole number, a half to the even one. -/
def nearestEven (n d : Nat) : Nat :=
  let q := n / d
  match compare (2 * (n % d)) d with
  | .lt => q
  | .gt => q + 1
  | .eq => q + q % 2

/-- `n / d` rounded once to single precision. -/
def ofFraction (negative : Bool) (n d : Nat) : Float :=
  if n = 0 then Dyadic.toFloat ⟨negative, 0, 0⟩
  else
    let e := max (magnitude n d - 23) (-149)
    let q := nearestEven (n * twoTo (-e).toNat) (d * twoTo e.toNat)
    if twoTo 128 ≤ q * twoTo e.toNat then (if negative then -1.0 / 0.0 else 1.0 / 0.0)
    else Dyadic.toFloat ⟨negative, q, e⟩

/-- A double rounded to single precision. -/
def round (x : Float) : Float :=
  match Dyadic.ofFloat? x with
  | some d => ofFraction d.negative d.fraction.1 d.fraction.2
  | none => x

end Docket.Single
