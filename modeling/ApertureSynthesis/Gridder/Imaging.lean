/-
  Imaging with a gridder: the dirty image or point spread function of visibilities, the prediction
  of visibilities from a model, and weighting by density.
-/
import ApertureSynthesis.Grid.Density
import ApertureSynthesis.Gridder.Pass

namespace ApertureSynthesis.Gridder

variable {α : Type} [Scalar α] {nchan npol : Nat}

/-- The image of visibilities, made in one pass, and the sums of weights. With `psf` all values are
    taken as one, which gives the point spread function. -/
def invert (vis : Visibility α nchan npol) (psf normalize : Bool) :
    Action α (Image α × Tensor α) := do
  let vis := if psf then vis.unit else vis
  let (grid, sums) ← beginPass
  let d ← complete (← reverse vis (some grid) (some sums))
  let image ← finalize d.grid d.sumWeights normalize
  return (image, d.sumWeights)

/-- Visibilities predicted from a model image. -/
def predict (vis : Visibility α nchan npol) (model : Image α) :
    Action α (Visibility α nchan npol) := do
  let grid ← modelToGrid model
  forward vis grid

/-- How visibilities are weighted. -/
inductive Weighting where
  /-- Weights as they are. -/
  | natural
  /-- Weights divided by their density. -/
  | uniform
deriving DecidableEq, Repr

/-- The weighting that a setting names. -/
def Weighting.check : Setting α → Except (Fault α) Weighting
  | .text "natural" => .ok .natural
  | .text "uniform" => .ok .uniform
  | given => .error (.weighting given)

/-- Visibilities with other weights. -/
def weight (vis : Visibility α nchan npol) (weighting : Weighting) :
    Action α (Visibility α nchan npol) :=
  match weighting with
  | .natural => pure vis
  | .uniform => do
    let d ← complete (← reverseWeights vis none none)
    lift (Grid.reweight vis d.grid (← theCache))

end ApertureSynthesis.Gridder
