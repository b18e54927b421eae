/-
  Passes of a gridder. A pass starts with a fresh grid and zero counters. Gridding and predicting
  outside a pass start one. A finalized pass is an image: the transform of the grid, divided by the
  sums of weights if asked for, and corrected for the gridding function.
-/
import ApertureSynthesis.Grid.Prediction
import ApertureSynthesis.Gridder.Basic

namespace ApertureSynthesis.Gridder

variable {α : Type} [Scalar α] {nchan npol : Nat}

/-- Prepares a gridder on first use. -/
def ensurePrepared : Action α Unit := do
  if (← get).stage = .unconfigured then prepare none

/-- The axes of a prepared gridder. -/
def theAxes : Action α (Axes α) := do need (← get).axes

/-- The cache of a prepared gridder. -/
def theCache : Action α (Cache α) := do need (← get).cache

/-- The corrector of a prepared gridder. -/
def theCorrector : Action α (Corrector α) := do need (← get).corrector

/-- An empty grid for the axes. -/
def createGrid : Action α (Grid α) := do
  ensurePrepared
  lift (Grid.ofAxes (← theAxes))

/-- Starts a pass: zero counters, a fresh grid and sums of weights. -/
def beginPass : Action α (Grid α × Tensor α) := do
  ensurePrepared
  modify fun g => { g with statistics := .zero, stage := .active }
  let grid ← createGrid
  return (grid, Tensor.fill [grid.nchan, grid.npol] 0)

/-- Starts a pass unless one is open. -/
def ensurePass : Action α Unit := do
  if (← get).stage ≠ .active then let _ ← beginPass

/-- Refuses a grid of another shape than the axes. -/
def checkGrid (grid : Grid α) : Action α Unit := do
  let axes ← theAxes
  if grid.shape.map Int.ofNat ≠ axes.shape then throw (.gridShape grid.shape axes.shape)

/-- The result of gridding: what was reached, and the fault that broke it off, if one did. -/
structure Accumulated (α : Type) where
  /-- Grid and sums. -/
  reached : Grid.Deposit α
  /-- Why gridding was broken off. -/
  fault : Option (Fault α)

/-- Grids with a way to add samples, into a given grid or a fresh one. Gridding that is broken off
    leaves what it had added in the grid, but no counters. -/
def accumulate (how : Grid.Contribution α) (vis : Visibility α nchan npol) (grid : Option (Grid α))
    (sums : Option (Tensor α)) : Action α (Accumulated α) := do
  ensurePrepared
  ensurePass
  let grid ← match grid with
    | some grid => pure grid
    | none => createGrid
  checkGrid grid
  let cache ← theCache
  let map ← lift ((← get).variant.planeMap vis (some cache))
  match Grid.deposit how vis grid cache map sums (← get).interpolation with
  | .error interrupted => return ⟨interrupted.reached, some interrupted.fault⟩
  | .ok d =>
    modify fun g => { g with statistics := g.statistics + d.statistics }
    return ⟨d, none⟩

/-- Grids visibilities. -/
def reverse (vis : Visibility α nchan npol) (grid : Option (Grid α)) (sums : Option (Tensor α)) :
    Action α (Accumulated α) :=
  accumulate .visibilities vis grid sums

/-- Grids the weights of visibilities. -/
def reverseWeights (vis : Visibility α nchan npol) (grid : Option (Grid α))
    (sums : Option (Tensor α)) : Action α (Accumulated α) :=
  accumulate .weights vis grid sums

/-- What was gridded, or the fault that broke gridding off. -/
def complete (a : Accumulated α) : Action α (Grid.Deposit α) :=
  match a.fault with
  | none => pure a.reached
  | some fault => throw fault

/-- Predicts visibilities from a grid. -/
def forward (vis : Visibility α nchan npol) (grid : Grid α) :
    Action α (Visibility α nchan npol) := do
  ensurePrepared
  ensurePass
  checkGrid grid
  let cache ← theCache
  let map ← lift ((← get).variant.planeMap vis (some cache))
  let (predicted, statistics) ← lift (Grid.predict vis grid cache map (← get).interpolation)
  modify fun g => { g with statistics := g.statistics + statistics }
  return predicted

/-- The grid of a model, ready for prediction: the transform of the model divided by the taper. -/
def modelToGrid (model : Image α) : Action α (Grid α) := do
  ensurePrepared
  let axes ← theAxes
  if model.shape.map Int.ofNat ≠ axes.shape then throw (.modelShape model.shape axes.shape)
  let corrected ← lift ((← theCorrector).correct model)
  let grid ← createGrid
  lift (grid.ofImage corrected.pixels)

/-- The sum of weights of a channel and polarisation. Further axes have to be of length one. -/
def weightAt (sums : Tensor α) (chan pol : Nat) : Except (Fault α) α :=
  match sums.shape with
  | n :: m :: rest =>
    if n ≤ chan ∨ m ≤ pol then .error .index
    else if volume rest = 1 then .ok (sums.data.getD (chan * m + pol) 0)
    else .error .mismatch
  | _ => .error .index

/-- The sums of weights of all channels and polarisations, in order. -/
def weightTable (sums : Tensor α) (nchan npol : Nat) : Except (Fault α) (List α) :=
  (List.range nchan).flatMapM fun c => (List.range npol).mapM fun p => weightAt sums c p

/-- Real pixels divided, raster by raster, by positive weights; zero where the weight is not
    positive. -/
def divideByWeights (pixels : Tensor α) (rasterSize : Nat) (weights : Array α) : Tensor α :=
  ⟨pixels.shape, pixels.data.mapIdx fun k x =>
    let w := weights.getD (k / rasterSize) 0
    if 0 < w then x / w else 0, by simp [pixels.size_data]⟩

/-- Turns the grid of a pass into a corrected image. -/
def finalize (grid : Grid α) (sums : Tensor α) (normalize : Bool) : Action α (Image α) := do
  if (← get).stage ≠ .active then throw (.noPass (← get).stage.name)
  checkGrid grid
  let pixels := (← lift grid.toImage).map Cplx.re
  let pixels ← if normalize then do
      let weights ← lift (weightTable sums grid.nchan grid.npol)
      pure (divideByWeights pixels (grid.ny * grid.nx) weights.toArray)
    else pure pixels
  let axes ← theAxes
  let image ← lift
      ((← theCorrector).correct { pixels := .real pixels, coordinates := axes.coordinates })
  modify fun g => { g with stage := .finalized }
  return image

end ApertureSynthesis.Gridder
