/-
  Weighting by density: each weight is divided by the gridded weight at the nearest cell of its
  sample, where that is positive. Samples off the grid keep their weights.
-/
import ApertureSynthesis.Grid.Lattice

namespace ApertureSynthesis.Grid

variable {α : Type} [Scalar α] {nchan npol : Nat}

/-- The nearest cells and phases of a row at some frequencies, along u and along v. -/
def nearestCells (l : Lattice α) (frequency : List α) (r : Row α nchan npol) :
    List ((Int × Int) × (Int × Int)) :=
  frequency.map fun f =>
    (nearestCell l.oversample (l.positionU (Visibility.wavelengths r.u f)),
      nearestCell l.oversample (l.positionV (Visibility.wavelengths r.v f)))

/-- Where the samples of a set of visibilities are on a grid: for each row and channel the nearest
    cell and phase in u and in v for each frequency, and for each channel its grid channel. -/
def mapping (vis : Visibility α nchan npol) (g : Grid α) (c : Cache α) :
    Except (Fault α) (List (List ((Int × Int) × (Int × Int))) × List Nat) := do
  let l ← g.lattice c
  let frequency ← vis.spectrum
  let channels ← g.channelsOf vis
  return (vis.rows.map (nearestCells l frequency), channels)

/-- The cell of the grid at a signed position. -/
def cellWithin? (g : Grid α) (v u : Int) : Option (Nat × Nat) :=
  if 0 ≤ u ∧ u < g.nx ∧ 0 ≤ v ∧ v < g.ny then some (v.toNat, u.toNat) else none

/-- A weight divided by a density, where that is positive. -/
def divideByDensity (density weight : α) : α := if 0 < density then weight / density else weight

/-- One row reweighted, given the nearest cells of its channels. -/
def reweightRow (g : Grid α) (channels : List Nat) (r : Row α nchan npol)
    (cells : List ((Int × Int) × (Int × Int))) : Except (Fault α) (Row α nchan npol) := do
  let places ← cells.zipIdx.mapM fun (((u, _), (v, _)), c) =>
    match g.cellWithin? v u, channels[c]? with
    | none, _ => pure none
    | some place, some channel =>
      if channel < g.nchan ∧ c < nchan then pure (some (channel, place)) else throw .index
    | some _, none => throw .index
  let table := places.toArray
  return r.mapSamples fun c p s =>
    match table.getD c none with
    | none => s
    | some (channel, j, i) =>
      { s with weight := divideByDensity (g.get channel p j i).re s.weight }

/-- Visibilities with their weights divided by the density on a grid of weights. -/
def reweight (vis : Visibility α nchan npol) (g : Grid α) (c : Cache α) :
    Except (Fault α) (Visibility α nchan npol) := do
  if npol ≠ g.npol then throw (.polarisations npol g.npol)
  let (cells, channels) ← mapping vis g c
  let rows ← (vis.rows.zip cells).mapM fun (r, places) => reweightRow g channels r places
  return { vis with rows := rows }

end ApertureSynthesis.Grid
