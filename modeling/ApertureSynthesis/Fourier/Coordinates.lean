/-
  Coordinates of the pixels of a transform. All arrays are centred: of `n` pixels, pixel `n / 2`
  is the zero. For even `n` the pixels are not symmetric about it.
-/
import ApertureSynthesis.Argument
import ApertureSynthesis.Raster

namespace ApertureSynthesis.Fourier

variable {α : Type} [Scalar α]

/-- Distance of pixel `k` from the centre of `n` pixels, as a fraction of the whole. -/
@[inline] def coordinate (n k : Nat) : α := (((k : Int) - (n / 2 : Nat) : Int) : α) / (n : α)

/-- The same where the number of pixels has a point. -/
def coordinateAt (n : α) (k : Nat) : α := ((k : α) - Scalar.floor (n / 2.0)) / n

/-- The coordinates of `n` pixels: they span `[-1/2, 1/2)` with zero at pixel `n / 2`. -/
def coordinates (n : Nat) : List α := (List.range n).map (coordinate n)

/-- How many whole steps begin below a number; none below zero. -/
def stepsBelow (x : α) : Except (Fault α) Nat :=
  if Scalar.isFinite x then axisLength (max 0 (-Scalar.wholePart (Scalar.floor (-x))))
  else .error .mismatch

/-- The coordinates for a number of pixels as it is given; there are none below one. -/
def givenCoordinates (n : Setting α) : Except (Fault α) (List α) :=
  match n.whole? with
  | some n => do return coordinates (← axisLength (max 0 n))
  | none => do
    let x ← n.number
    return (List.range (← stepsBelow x)).map (coordinateAt x)

/-- How many pixels an axis of a length as it is given has, and their coordinates. What is no number
    has no end. -/
def axisCoordinates (n : Setting α) : Except (Fault α) (Int × (Nat → α)) :=
  match n.whole?, n.number? with
  | some n, _ => .ok (n, coordinate n.toNat)
  | none, none => .error .missing
  | none, some x =>
    if Scalar.isFinite x then .ok (-Scalar.wholePart (Scalar.floor (-x)), coordinateAt x)
    else .error (if Scalar.isNaN x then .mismatch else .overflow)

/-- Both coordinates of each pixel of an array of given lengths, that along the columns first. -/
def coordinatePair (ny nx : Setting α) : Except (Fault α) (Raster α × Raster α) := do
  let (ny, y) ← axisCoordinates ny
  let (nx, x) ← axisCoordinates nx
  let ny ← axisLength ny
  let nx ← axisLength nx
  return (Raster.ofFn ny nx fun j _ => y j, Raster.ofFn ny nx fun _ i => x i)

end ApertureSynthesis.Fourier
