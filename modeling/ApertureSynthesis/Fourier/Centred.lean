/-
  The centred transform of rasters and tensors: zero frequency and zero position are at pixel
  `n / 2` of each axis. A raster is transformed along its rows, then along its columns. The axes of
  a tensor of rank two or more are turned so that the centre comes first, its rasters are
  transformed one by one, and the axes are turned back.
-/
import ApertureSynthesis.Tensor
import ApertureSynthesis.Fourier.Transform

namespace ApertureSynthesis.Fourier

variable {α : Type} [Scalar α]

/-- From image to grid, or back. -/
inductive Direction where
  /-- From image to grid: `e ^ (- 2 π i …)`. -/
  | forward
  /-- From grid to image: `e ^ (+ 2 π i …)`, divided by the number of pixels. -/
  | inverse
deriving DecidableEq, Repr

namespace Direction

/-- Sign of the exponent. -/
def sign : Direction → α
  | forward => -1
  | inverse => 1

/-- A sum over all `n` pixels, with the factor of the direction. -/
@[inline] def scaled (d : Direction) (n : Nat) (z : Cplx α) : Cplx α :=
  match d with
  | forward => z
  | inverse => z.divReal (n : α)

end Direction

/-- The pixel at `offset` from the centre of a periodic axis of `n` pixels whose zero comes
    first. -/
@[inline] def fromCentre (n k : Nat) : Nat := (k + (n - n / 2)) % n

/-- The transform of a centred sequence of `n` values, centred as well. -/
@[specialize] def line (root : Array (Cplx α)) (n : Nat) (x : Nat → Cplx α) : Array (Cplx α) :=
  let y := transform root n 1 fun j => x ((j + n / 2) % n)
  Array.ofFn fun k : Fin n => y.getD (fromCentre n k.val) 0

/-- The centred transform of a raster. -/
@[specialize] def raster (d : Direction) (a : Raster (Cplx α)) : Raster (Cplx α) :=
  let rowRoots := roots (d.sign : α) a.nx
  let columnRoots := roots (d.sign : α) a.ny
  let rows := Array.ofFn fun j : Fin a.ny => line rowRoots a.nx fun i => a.get j.val i
  let columns := Array.ofFn fun i : Fin a.nx =>
    line columnRoots a.ny fun j => (rows.getD j #[]).getD i.val 0
  Raster.ofFn a.ny a.nx fun k q => d.scaled (a.ny * a.nx) ((columns.getD q #[]).getD k 0)

/-- The transform of a raster whose zero comes first along rows and columns. -/
@[specialize] def plainRaster (d : Direction) (a : Raster (Cplx α)) : Raster (Cplx α) :=
  let rowRoots := roots (d.sign : α) a.nx
  let columnRoots := roots (d.sign : α) a.ny
  let rows := Array.ofFn fun j : Fin a.ny => transform rowRoots a.nx 1 fun i => a.get j.val i
  let columns := Array.ofFn fun i : Fin a.nx =>
    transform columnRoots a.ny 1 fun j => (rows.getD j #[]).getD i.val 0
  Raster.ofFn a.ny a.nx fun k q => d.scaled (a.ny * a.nx) ((columns.getD q #[]).getD k 0)

/-- Why an array has no transform. -/
inductive Obstacle where
  /-- The array is a single number. -/
  | scalar
  /-- The array has a single axis. -/
  | rank
  /-- One of the last two axes is empty. -/
  | emptyAxis
deriving DecidableEq, Repr

/-- How far each axis of an array is turned to take what comes first to the centre. Of four axes,
    which are channel, polarisation and those of the rasters, only the last two are turned; of any
    other number all are. -/
def centreTurns : List Nat → List Int
  | [_, _, ny, nx] => [0, 0, (ny / 2 : Nat), (nx / 2 : Nat)]
  | shape => shape.map fun n => ((n / 2 : Nat) : Int)

/-- An array with the centre of its axes first. -/
def centreFirst {β : Type} [Zero β] (a : Tensor β) : Tensor β :=
  a.turn ((centreTurns a.shape).map Neg.neg)

/-- An array with what came first in the centre of its axes. -/
def firstCentred {β : Type} [Zero β] (a : Tensor β) : Tensor β := a.turn (centreTurns a.shape)

/-- The centred transform of a tensor along its last two axes. -/
def tensor (d : Direction) (a : Tensor (Cplx α)) : Except Obstacle (Tensor (Cplx α)) :=
  match Tensor.lastTwo? a.shape with
  | none => .error (if a.shape.isEmpty then .scalar else .rank)
  | some (lead, ny, nx) =>
    if ny = 0 ∨ nx = 0 then .error .emptyAxis
    else
      let turned := centreFirst a
      .ok (firstCentred (Tensor.ofSlices lead ny nx fun k => plainRaster d (turned.slice ny nx k)))

end ApertureSynthesis.Fourier
