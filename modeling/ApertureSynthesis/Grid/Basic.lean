/-
  Grids: complex cells by channel, polarisation, v and u, with the zero of the uv plane at cell
  `(ny / 2, nx / 2)`. A grid with one channel takes all channels of the visibilities; otherwise each
  channel of the visibilities goes to the grid channel with the nearest frequency.
-/
import ApertureSynthesis.Axes
import ApertureSynthesis.Nearest

namespace ApertureSynthesis

/-- Gridded data. -/
structure Grid (α : Type) where
  /-- The cells. -/
  cells : Tensor (Cplx α)
  /-- Number of channels. -/
  nchan : Nat
  /-- Number of polarisations. -/
  npol : Nat
  /-- Number of rows, along v. -/
  ny : Nat
  /-- Number of columns, along u. -/
  nx : Nat
  /-- Cell size in wavelengths. -/
  cellSize : CellSize α
  /-- Frequency of the grid channels in hertz. -/
  frequency : Option (List α)
  /-- The cells are those of the four axes. -/
  shape_cells : cells.shape = [nchan, npol, ny, nx]

namespace Grid

variable {α : Type} [Scalar α]

/-- Length of each axis. -/
def shape (g : Grid α) : List Nat := [g.nchan, g.npol, g.ny, g.nx]

/-- The grid of given cells. An array without four axes makes no grid. -/
def ofCells (cells : Tensor (Cplx α)) (cellSize : CellSize α) (frequency : Option (List α)) :
    Except (Fault α) (Grid α) :=
  match h : cells.shape with
  | [nchan, npol, ny, nx] => .ok ⟨cells, nchan, npol, ny, nx, cellSize, frequency, h⟩
  | _ => .error .broken

/-- An empty grid. -/
def empty (nchan npol ny nx : Nat) (cellSize : CellSize α) (frequency : Option (List α)) : Grid α :=
  ⟨Tensor.fill [nchan, npol, ny, nx] 0, nchan, npol, ny, nx, cellSize, frequency, rfl⟩

/-- An empty grid for axes. -/
def ofAxes (axes : Axes α) : Except (Fault α) (Grid α) := do
  let npol ← axisLength axes.npol
  let ny ← axisLength axes.ny
  let nx ← axisLength axes.nx
  return empty axes.nchan npol ny nx (← axes.cellSize) (some axes.frequency)

/-- The cell of a channel and polarisation in row `j` and column `i`, zero outside the grid. -/
def get (g : Grid α) (chan pol j i : Nat) : Cplx α := g.cells.get [chan, pol, j, i]

/-- Add a value to a cell. -/
@[inline] def addAt (g : Grid α) (chan pol j i : Nat) (z : Cplx α) : Grid α :=
  { g with
    cells := g.cells.modify [chan, pol, j, i] (· + z)
    shape_cells := by rw [Tensor.shape_modify, g.shape_cells] }

/-- Replace the cells by others of the same shape. -/
def withCells (g : Grid α) (cells : Tensor (Cplx α)) (h : cells.shape = g.cells.shape) : Grid α :=
  { g with cells := cells, shape_cells := by rw [h, g.shape_cells] }

/-- All cells set to zero. -/
def cleared (g : Grid α) : Grid α :=
  g.withCells (Tensor.fill g.cells.shape 0) rfl

/-- Bytes of storage, sixteen for each cell. -/
def bytes (g : Grid α) : Nat := 16 * g.cells.data.size

/-- A description of a grid in four lines, with its frequencies as they were given. -/
def text (g : Grid Float) (frequency : Setting Float) : String :=
  "Gridded data:\n" ++
  s!"\tShape: {Text.shape g.shape}\n" ++
  s!"\tUV cellsize: {g.cellSize.text}\n" ++
  s!"\tFrequency: {frequency.quoted}\n"

/-- The grid channel of each channel of visibilities. A grid with one channel takes all channels;
    the others go by frequency, which has to be known of visibilities and grid. -/
def channelsOf {nchan npol : Nat} (g : Grid α) (vis : Visibility α nchan npol) :
    Except (Fault α) (List Nat) :=
  if g.nchan = 1 then .ok (List.replicate nchan 0)
  else do
    let frequency ← vis.spectrum
    match g.frequency with
    | none => throw .unsuitable
    | some [] => throw .mismatch
    | some channels => return frequency.map fun f => (nearest? channels f).getD 0

end Grid

end ApertureSynthesis
