/-
  The axes that an image and its grid share: channels, polarisations, and `ny` by `nx` pixels of a
  size. The cell of the uv plane is one over the field of view.
-/
import ApertureSynthesis.Image.Basic

namespace ApertureSynthesis

/-- Axes of images and grids. The lengths are kept as they are asked for; a negative one is refused
    when something of that length is made. -/
structure Axes (α : Type) where
  /-- Number of image channels. -/
  nchan : Nat
  /-- Number of polarisations. -/
  npol : Int
  /-- Number of rows. -/
  ny : Int
  /-- Number of columns. -/
  nx : Int
  /-- Size of a pixel in x and y, in radians. -/
  pixelSize : List α
  /-- Frequency of each channel in hertz. -/
  frequency : List α
  /-- World coordinates, if known. -/
  coordinates : Option (WorldCoordinates α)
  /-- There is one frequency for each channel. -/
  length_frequency : frequency.length = nchan

namespace Axes

variable {α : Type} [Scalar α]

/-- Length of each axis. -/
def shape (a : Axes α) : List Int := [a.nchan, a.npol, a.ny, a.nx]

/-- Magnitudes of pixel sizes; a single one serves for both axes. -/
def sizes (pixelSize : List α) : List α :=
  match pixelSize.map Scalar.abs with
  | [x] => [x, x]
  | xs => xs

/-- Axes of four given lengths. -/
def create (nchan npol ny nx : Int) (pixelSize frequency : List α)
    (coordinates : Option (WorldCoordinates α)) : Except (Fault α) (Axes α) :=
  if h : (frequency.length : Int) = nchan then
    .ok ⟨nchan.toNat, npol, ny, nx, sizes pixelSize, frequency, coordinates, by omega⟩
  else .error (.channelCount frequency.length nchan)

/-- Axes of a shape, pixel size and frequencies as they are given. -/
def ofShape (shape pixelSize frequency : Setting α) : Except (Fault α) (Axes α) := do
  match ← shape.items with
  | [nchan, npol, ny, nx] =>
    create (← nchan.wholePart) (← npol.wholePart) (← ny.wholePart) (← nx.wholePart)
      (← pixelSize.numbers) (← frequency.numbers) none
  | _ => throw (.axesRank shape)

/-- Axes of an image. Without world coordinates there are none. -/
def ofImage (im : Image α) : Except (Fault α) (Axes α) := do
  let c ← im.located
  let frequency ← im.frequency
  match im.shape with
  | [nchan, npol, ny, nx] =>
    create nchan npol ny nx [c.pixelSize.1, c.pixelSize.2] frequency (some c)
  | shape => throw (.imageRank shape)

/-- An empty square image with real pixels and its axes; a single channel is 1 MHz wide. -/
def ofSquare (n pixel npol frequency : Setting α) : Except (Fault α) (Image α × Axes α) := do
  let im ← Image.create
    { size := n, pixel, npol, frequency, widths := .several [.real 1e6] }
  return (im, ← ofImage im)

/-- Width and height of the field of view, in direction cosines. -/
def fieldOfView? (a : Axes α) : Option (α × α) :=
  match a.pixelSize with
  | x :: y :: _ => some ((a.nx : α) * x, (a.ny : α) * y)
  | _ => none

/-- Cell size of the uv plane. -/
def cellSize? (a : Axes α) : Option (CellSize α) :=
  a.fieldOfView?.map fun (x, y) => .perAxis [1.0 / x, 1.0 / y]

/-- Cell size of the uv plane; refused for axes without pixel sizes. -/
def cellSize (a : Axes α) : Except (Fault α) (CellSize α) :=
  match a.cellSize? with
  | some c => .ok c
  | none => .error .index

/-- A description in five lines. -/
def text (a : Axes Float) : Except (Fault Float) String := do
  let cell ← a.cellSize
  return "Axes:\n" ++
    s!"\tShape: {Text.shape a.shape}\n" ++
    s!"\tCellsize (rad): {Text.numbers a.pixelSize}\n" ++
    s!"\tUV cellsize (wavelengths): {cell.text}\n" ++
    s!"\tFrequency: {Text.numbers a.frequency}\n"

end Axes

end ApertureSynthesis
