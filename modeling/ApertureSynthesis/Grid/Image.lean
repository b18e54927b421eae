/-
  From grid to image and back, by the centred transform. The image is scaled by the number of
  pixels, so that a visibility of one at a single cell gives an image of amplitude one.
-/
import ApertureSynthesis.Fourier.Centred
import ApertureSynthesis.Grid.Basic

namespace ApertureSynthesis

/-- The fault of an array without a transform. -/
def Fourier.Obstacle.fault {α : Type} : Fourier.Obstacle → Fault α
  | .scalar => .mismatch
  | .rank => .index
  | .emptyAxis => .mismatch

namespace Grid

variable {α : Type} [Scalar α]

/-- The transform of a grid to complex pixels. -/
def toImage (g : Grid α) : Except (Fault α) (Tensor (Cplx α)) :=
  match Fourier.tensor .inverse g.cells with
  | .error obstacle => .error obstacle.fault
  | .ok t => .ok (t.map fun z => Cplx.scale (g.ny : α) (Cplx.scale (g.nx : α) z))

/-- A grid filled with the transform of pixels of its shape. -/
def ofImage (g : Grid α) (pixels : Pixels α) : Except (Fault α) (Grid α) :=
  if pixels.shape ≠ g.shape then .error (.imageShape pixels.shape g.shape)
  else match Fourier.tensor .forward pixels.toComplex with
    | .error obstacle => .error obstacle.fault
    | .ok t => ofCells t g.cellSize g.frequency

end Grid

end ApertureSynthesis
