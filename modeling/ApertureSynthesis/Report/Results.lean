/-
  Reports of what the library computes: visibilities, plane maps, caches, axes, images, counters.
-/
import ApertureSynthesis.Grid.Statistics
import ApertureSynthesis.Plane.Map
import ApertureSynthesis.Report.Basic
import ApertureSynthesis.Visibility.Create
import ApertureSynthesis.Axes

namespace ApertureSynthesis.Report

/-- Bytes of storage in units of `2 ^ 30`. -/
def storage (bytes : Nat) : Report := number (Visibility.gigabytes bytes)

/-- Counters. -/
def statistics (s : Statistics) : Report :=
  record [("ngridded", whole s.gridded), ("nflagged", whole s.flagged),
    ("noutside", whole s.outside), ("nclamped", whole s.clamped)]

section Visibilities

variable {nchan npol : Nat}

/-- A property of every sample, as an array. -/
def column {β : Type} (vis : Visibility Float nchan npol) (f : Sample Float → β) : Tensor β :=
  { shape := [vis.rowCount, nchan, npol]
    data := (vis.rows.flatMap fun r => r.samples.toList.flatMap fun ps => ps.toList.map f).toArray
    size_data := by
      simp [volume, Visibility.rowCount, List.length_flatMap, List.map_const'] }

/-- Complex values of the samples. -/
def values (vis : Visibility Float nchan npol) (f : Sample Float → Cplx Float) : Report :=
  complexes (column vis f)

/-- The measured values. -/
def measured (vis : Visibility Float nchan npol) : Report := values vis Sample.value

/-- Real weights of the samples. -/
def weightsBy (vis : Visibility Float nchan npol) (f : Sample Float → Float) : Report :=
  nested (column vis f) short

/-- The weights. -/
def weights (vis : Visibility Float nchan npol) : Report := weightsBy vis Sample.weight

/-- Values, weights and flags. -/
def samplesOf (vis : Visibility Float nchan npol) : Fields :=
  [("shape", counts [vis.rowCount, nchan, npol]), ("vis", measured vis), ("weight", weights vis),
    ("flags", nested (column vis Sample.flagged) fun b => whole (if b then 1 else 0))]

/-- All there is to visibilities but their phase centre. -/
def visibilities (vis : Visibility Float nchan npol) : Report :=
  let frequency := match vis.bare, vis.frequency with
    | true, [f] => number f
    | _, fs => numbers fs
  record (samplesOf vis ++ [("uvw", list (vis.rows.map fun r => numbers [r.u, r.v, r.w])),
    ("frequency", frequency)])

/-- Coordinates in metres and in wavelengths. -/
def coordinates (vis : Visibility Float nchan npol) : Except (Fault Float) Report := do
  let along (f : Row Float nchan npol → Float) : Report := numbers (vis.rows.map f)
  let wavelengths ← vis.inWavelengths
  return record [("u", along (·.u)), ("v", along (·.v)), ("w", along (·.w)),
    ("uvw_lambda", list (wavelengths.map fun r => list (r.map numbers)))]

end Visibilities

/-- A plane map, with a number of planes. -/
def planesOf (m : PlaneMap) (count : Report) : Fields :=
  [("planes", nested m.planes whole), ("shape", counts m.planes.shape), ("nplanes", count),
    ("nclamped", whole m.clamped)]

/-- A plane map. -/
def planes (m : PlaneMap) : Fields := planesOf m (whole m.count)

/-- A cell size, with one value or several. -/
def cellSize : CellSize Float → Report
  | .single x => number x
  | .perAxis xs => numbers xs

/-- Axes. -/
def axes (a : Axes Float) : Except (Fault Float) Fields := do
  let cell ← a.cellSize
  let field := match a.fieldOfView? with
    | some (x, y) => [x, y]
    | none => []
  return [("shape", wholes a.shape), ("cellsize", numbers a.pixelSize),
    ("frequency", numbers a.frequency), ("nchan", count a.nchan), ("npol", whole a.npol),
    ("ny", whole a.ny), ("nx", whole a.nx), ("field_of_view", numbers field),
    ("uvcellsize", cellSize cell)]

/-- Pixels. -/
def pixels : Pixels Float → Report
  | .real t => reals t
  | .complex t => complexes t

/-- An image, and whether it has world coordinates. -/
def image (im : Image Float) : Report :=
  record [("data", pixels im.pixels), ("wcs", flag im.coordinates.isSome)]

/-- World coordinates, axis by axis. -/
def worldCoordinates (c : WorldCoordinates Float) : Report :=
  record [("ctype", list (c.axes.map (text ·.kind))), ("crpix", numbers (c.axes.map (·.reference))),
    ("crval", numbers (c.axes.map (·.value))), ("cdelt", numbers (c.axes.map (·.step)))]

end ApertureSynthesis.Report
