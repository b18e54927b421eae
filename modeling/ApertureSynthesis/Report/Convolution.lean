/-
  Reports of convolution functions and of grids.
-/
import ApertureSynthesis.Grid.Density
import ApertureSynthesis.Report.Results

namespace ApertureSynthesis.Report

/-- A cache; there is no largest support of none. -/
def cache (c : Cache Float) : Except (Fault Float) Fields := do
  let some widest := c.maxSupport? | throw .mismatch
  return [("name", text c.name), ("nplanes", count c.planeCount),
    ("oversample", count c.oversample), ("cutoff", number c.cutoff),
    ("supports", wholes c.supports), ("maxsupport", whole widest),
    ("plane_values", numbers c.planeValues), ("uvcellsize", cellSize c.cellSize),
    ("planes", list (c.planes.map complexes)), ("zero_w", complexes c.zeroW),
    ("size", storage c.bytes)]

/-- Where samples are on a grid: cells and phases by row and frequency, channels by row. -/
def mapping (cells : List (List ((Int × Int) × (Int × Int)))) (channels : List Nat) : Report :=
  let part (f : (Int × Int) × (Int × Int) → Int) : Report :=
    list (cells.map fun row => wholes (row.map f))
  record [("pu_grid", part (·.1.1)), ("pu_offset", part (·.1.2)), ("pv_grid", part (·.2.1)),
    ("pv_offset", part (·.2.2)), ("pfreq_grid", list (cells.map fun _ => counts channels))]

/-- The lengths of a grid. -/
def lengths (g : Grid Float) : Report :=
  record [("shape", counts g.shape), ("nchan", count g.nchan), ("npol", count g.npol),
    ("ny", count g.ny), ("nx", count g.nx), ("size", storage g.bytes)]

/-- The cells of a grid. -/
def cells (g : Grid Float) : Report := complexes g.cells

end ApertureSynthesis.Report
