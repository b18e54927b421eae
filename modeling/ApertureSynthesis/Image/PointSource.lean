/-
  Point sources in images: a flux is added to the pixel nearest to a direction, in every channel and
  polarisation. A pixel number may be negative and then counts from the end, down to minus the
  length of the axis; any other number outside the image is refused and changes nothing. The flux is
  one number, or an array of numbers that can be stretched to one for each raster.
-/
import ApertureSynthesis.Broadcast
import ApertureSynthesis.Image.Basic

namespace ApertureSynthesis.Image

variable {α : Type} [Scalar α]

/-- The pixel nearest to an offset of `x` pixel sizes from the centre of `n` pixels. -/
def pixelOf (n : Nat) (x : α) : Except (Fault α) Int :=
  let r := Scalar.round x
  if Scalar.isNaN r then .error .mismatch
  else if !Scalar.isFinite r then .error .overflow
  else .ok (Scalar.toInt r + (n / 2 : Nat))

/-- The position that a possibly negative pixel number denotes among `n` pixels. -/
def position? (n : Nat) (k : Int) : Option Nat :=
  if 0 ≤ k ∧ k < n then some k.toNat
  else if -(n : Int) ≤ k ∧ k < 0 then some (k + n).toNat
  else none

/-- The pixel of an image that a direction falls on. -/
structure Spot (α : Type) where
  /-- The axes before the last two. -/
  lead : List Nat
  /-- Number of rows. -/
  ny : Nat
  /-- Number of columns. -/
  nx : Nat
  /-- Its row. -/
  row : Nat
  /-- Its column. -/
  column : Nat
  /-- The direction cosines of its centre. -/
  direction : α × α

/-- The pixel nearest to a direction. -/
def spot (im : Image α) (l m : α) : Except (Fault α) (Spot α) :=
  match im.coordinates with
  | none => .error .missing
  | some c => match Tensor.lastTwo? im.shape with
    | none => .error .mismatch
    | some (lead, ny, nx) => do
      let (cellX, cellY) := c.pixelSize
      let x ← pixelOf nx (l / cellX)
      let y ← pixelOf ny (m / cellY)
      match position? ny y, position? nx x with
      | some row, some column =>
        return { lead, ny, nx, row, column, direction :=
          (((x - (nx / 2 : Nat) : Int) : α) * cellX, ((y - (ny / 2 : Nat) : Int) : α) * cellY) }
      | _, _ => throw .index

/-- Position of the pixel in raster number `k`, counted from the first pixel of all. -/
def Spot.position (s : Spot α) (k : Nat) : Nat := k * (s.ny * s.nx) + (s.row * s.nx + s.column)

/-- Pixels with a flux added at a spot of each raster. -/
def Spot.brighten (s : Spot α) (p : Pixels α) (fluxes : Tensor α) : Pixels α :=
  (List.range (volume s.lead)).foldl (fun p k => p.addAt (s.position k) (fluxes.data.getD k 0)) p

/-- The fluxes of the rasters: an array stretched to the axes before the last two. -/
def Spot.fluxes (s : Spot α) (flux : Tensor α) : Except (Fault α) (Tensor α) :=
  match flux.stretch? s.lead with
  | some t => .ok t
  | none => .error .mismatch

/-- The image with a point source added, and the direction of the pixel that was used. -/
def insertPointSource (im : Image α) (l m : α) (flux : Tensor α) :
    Except (Fault α) (Image α × α × α) := do
  let s ← im.spot l m
  return ({ im with pixels := s.brighten im.pixels (← s.fluxes flux) }, s.direction)

end ApertureSynthesis.Image
