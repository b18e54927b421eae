/-
  The w planes of w projection. Plane `p` of `n` stands at `x = (p - c) / c`, `c = (n - 1) / 2`,
  between -1 and 1. With linear spacing its w is `wmax · x`, with quadratic spacing
  `wmax · sign x · x²`: the chirp rate grows with w, so planes are denser near zero. A sample goes
  to the plane whose `x` is nearest to its own; beyond the range of the planes to the first or last.
-/
import ApertureSynthesis.Argument
import ApertureSynthesis.Plane.Map

namespace ApertureSynthesis.Plane

variable {α : Type} [Scalar α]

/-- How the w of the planes depends on their number. -/
inductive Spacing where
  /-- Denser near zero. -/
  | quadratic
  /-- Evenly spaced. -/
  | linear
deriving DecidableEq, Repr

/-- The spacing that a setting names. -/
def Spacing.check : Setting α → Except (Fault α) Spacing
  | .text "quadratic" => .ok .quadratic
  | .text "linear" => .ok .linear
  | given => .error (.spacing given)

/-- Half the distance between the first and last of `n` planes. -/
def centre (n : Int) : α := ((n - 1 : Int) : α) / 2.0

/-- The w of plane `p`, where the middle of the planes is at `c`. -/
def wOf (spacing : Spacing) (wmax c : α) (p : Nat) : α :=
  let x := ((p : α) - c) / c
  match spacing with
  | .quadratic => wmax * Scalar.sign x * Scalar.sq x
  | .linear => wmax * x

/-- The w of each plane. A single plane is at zero. -/
def values (spacing : Spacing) (wmax : α) (n : Int) : List α :=
  if n = 1 then [0] else (List.range n.toNat).map (wOf spacing wmax (centre n))

/-- The w of each plane, for a greatest w and a number of planes as they are given. A single plane
    needs no greatest w. -/
def givenValues (spacing : Spacing) (wmax planes : Setting α) : Except (Fault α) (List α) := do
  let n ← planes.number
  if n == 1 then return [0]
  let wmax ← wmax.factor
  match planes.whole? with
  | some n =>
    let _ ← axisLength (α := α) (max 0 n)
    return values spacing wmax n
  | none =>
    if !Scalar.isFinite n then throw .mismatch
    return (List.range (Scalar.ceilInt n).toNat).map (wOf spacing wmax ((n - 1) / 2.0))

/-- Where a w stands on the scale on which the planes are evenly spaced from -1 to 1. -/
def scaled (spacing : Spacing) (wmax w : α) : α :=
  let x := w / wmax
  match spacing with
  | .quadratic => Scalar.sign x * Scalar.sqrt (Scalar.abs x)
  | .linear => x

/-- The plane of a w among `n`: the nearest on the even scale, the upper of two equally near,
    the first or last beyond the range. -/
def index (spacing : Spacing) (wmax : α) (n : Int) (w : α) : Int :=
  if n = 1 then 0
  else
    let p := Scalar.floorInt (centre n + centre n * scaled spacing wmax w + 0.5)
    min (max p 0) (n - 1)

/-- A w beyond the range of the planes by more than a fraction. -/
def beyond (wmax tolerance w : α) : Bool := decide (wmax * (1.0 + tolerance) < Scalar.abs w)

/-- How many w of a list are beyond the range; a single plane takes all. -/
def countBeyond (wmax : α) (n : Int) (tolerance : α) (ws : List α) : Nat :=
  if n = 1 then 0 else ws.countP (beyond wmax tolerance)

/-- The planes of an array of w, and how many are beyond the range. A single plane needs no greatest
    w. -/
def indices (spacing : Spacing) (wmax planes tolerance : Setting α) (ws : Tensor α) :
    Except (Fault α) (Tensor Int × Nat) := do
  let n ← planes.integral
  if n = 1 then return (ws.map fun _ => 0, 0)
  let wmax ← wmax.factor
  return (ws.map (index spacing wmax n), countBeyond wmax n (← tolerance.number) ws.data.toList)

/-- Assigns each row and channel the plane of its w. -/
structure Mapper (α : Type) where
  /-- The greatest w, in wavelengths. -/
  wmax : α
  /-- Number of planes. -/
  count : Int
  /-- Spacing of the planes. -/
  spacing : Spacing

namespace Mapper

variable {nchan npol : Nat}

/-- The w of each plane. -/
def planeValues (m : Mapper α) : List α := values m.spacing m.wmax m.count

/-- The mapper of parameters as they are given, of which only the spacing is checked in full. -/
def ofSettings (wmax planes spacing : Setting α) : Except (Fault α) (Mapper α) := do
  let spacing ← Spacing.check spacing
  let n ← planes.integral
  return ⟨← if n = 1 then pure 0 else wmax.factor, n, spacing⟩

/-- The w of each row and channel in wavelengths. -/
def wavelengths (vis : Visibility α nchan npol) : List α :=
  vis.rows.flatMap fun r => vis.frequency.map fun f => Visibility.wavelengths r.w f

/-- The plane map of a set of visibilities. -/
def map (m : Mapper α) (vis : Visibility α nchan npol) : Except (Fault α) PlaneMap := do
  let _ ← vis.spectrum
  let table : Tensor Int :=
    { shape := [vis.rowCount, vis.frequency.length]
      data := ((wavelengths vis).map (index m.spacing m.wmax m.count)).toArray
      size_data := by
        simp [wavelengths, volume, Visibility.rowCount, List.length_flatMap, List.map_const'] }
  PlaneMap.of? table m.count (countBeyond m.wmax m.count 1e-8 (wavelengths vis))

end Mapper

end ApertureSynthesis.Plane
