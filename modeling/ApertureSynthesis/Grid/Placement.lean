/-
  Placement of samples: for each row and channel of the visibilities, the taps on the grid and the
  grid channel. Whatever is to be done with samples, visibilities and grid have to fit first:
  polarisations, plane map, planes and cell sizes.
-/
import ApertureSynthesis.Grid.Footprint
import ApertureSynthesis.Grid.Statistics
import ApertureSynthesis.Plane.Map

namespace ApertureSynthesis.Grid

variable {α : Type} [Scalar α] {nchan npol : Nat}

/-- Refuses visibilities and plane maps that do not fit a grid and a cache. -/
def checkFit (vis : Visibility α nchan npol) (g : Grid α) (c : Cache α) (map : PlaneMap) :
    Except (Fault α) Unit :=
  if npol ≠ g.npol then .error (.polarisations npol g.npol)
  else if map.planes.shape ≠ [vis.rowCount, nchan] then
    .error (.planeMapShape map.planes.shape vis.rowCount nchan)
  else if map.count ≠ c.planeCount then .error (.planeMapCount map.count c.planeCount)
  else match g.cellSize.agree? c.cellSize with
    | none => .error .mismatch
    | some false => .error (.cellSizes g.cellSize c.cellSize)
    | some true => .ok ()

/-- What the placement of samples depends on besides the samples. -/
structure Frame (α : Type) where
  /-- The convolution function. -/
  cache : Cache α
  /-- The plane of each row and channel. -/
  map : PlaneMap
  /-- How the kernel is read between lattice points. -/
  interpolation : Interpolation
  /-- The oversampled lattice. -/
  lattice : Lattice α
  /-- Number of grid channels. -/
  gridChannels : Nat
  /-- Frequency of each channel of the visibilities. -/
  frequency : List α
  /-- Grid channel of each channel of the visibilities. -/
  channels : List Nat

/-- The frame for visibilities and a grid that fit. -/
def frame (vis : Visibility α nchan npol) (g : Grid α) (c : Cache α) (map : PlaneMap)
    (interpolation : Interpolation) : Except (Fault α) (Frame α) := do
  let lattice ← g.lattice c
  let frequency ← vis.spectrum
  let channels ← g.channelsOf vis
  return ⟨c, map, interpolation, lattice, g.nchan, frequency, channels⟩

/-- The placement of one row and channel. -/
def Frame.place (f : Frame α) (row : Nat) (r : Row α nchan npol) (chan : Nat) :
    Except (Fault α) (Placement α) :=
  let plane := (f.map.plane row chan).toNat
  match f.frequency[chan]?, f.channels[chan]?, f.cache.planes[plane]?, f.cache.supports[plane]? with
  | some hertz, some channel, some table, some support => do
    let points := axisPoints f.interpolation f.lattice.oversample
    let vs := points (f.lattice.positionV (Visibility.wavelengths r.v hertz))
    let us := points (f.lattice.positionU (Visibility.wavelengths r.u hertz))
    let runs := (← footprint table support vs us).runs f.lattice.ny f.lattice.nx
    if runs.flatten.isEmpty then return .outside
    else if channel < f.gridChannels then return .inside channel runs
    else throw .index
  | _, _, _, _ => .error .index

end ApertureSynthesis.Grid
