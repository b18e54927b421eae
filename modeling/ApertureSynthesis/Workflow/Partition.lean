/-
  Imaging of partitioned visibilities. Each partition is gridded into a grid of its own with the
  cache of one gridder; the grids are added up as a tree and the sum is turned into an image once.
  The steps are handed to a switch, which does them at once or keeps them as a graph.
-/
import ApertureSynthesis.Gridder.Imaging
import ApertureSynthesis.Workflow.Reduction
import ApertureSynthesis.Workflow.Switch

namespace ApertureSynthesis.Workflow

open Gridder (lift theCache theAxes ensurePrepared)
open Grid (Deposit)

variable {α : Type} [Scalar α] {nchan npol : Nat}

/-- Grids one partition into a grid of its own. -/
def gridPartition (how : Grid.Contribution α) (vis : Visibility α nchan npol) :
    Action α (Deposit α) := do
  let grid ← lift (Grid.ofAxes (← theAxes))
  let cache ← theCache
  let map ← lift ((← get).variant.planeMap vis (some cache))
  match Grid.deposit how vis grid cache map none (← get).interpolation with
  | .ok d => return d
  | .error interrupted => throw interrupted.fault

/-- Grids partitions, each into a grid of its own, and adds the grids up as a tree. -/
def gridParts (how : Grid.Contribution α) (split : Setting α)
    (parts : List (Visibility α nchan npol)) : Action α (Deposit α) := do
  let results ← parts.mapM (gridPartition how)
  lift (givenTreeSum split results)

/-- Predicts one partition from a grid. -/
def degridPartition (vis : Visibility α nchan npol) (grid : Grid α) :
    Action α (Visibility α nchan npol) := do
  let cache ← theCache
  let map ← lift ((← get).variant.planeMap vis (some cache))
  return (← lift (Grid.predict vis grid cache map (← get).interpolation)).1

/-- Why nothing can be predicted from cells that do not have four axes. -/
def misshapen (npol : Nat) (shape : List Nat) : Fault α :=
  match shape with
  | _ :: n :: rest =>
    if npol ≠ n then .polarisations npol n else if rest.length < 2 then .index else .mismatch
  | _ => .index

/-- Predicts one partition from cells for the axes of the gridder. -/
def degridCells (vis : Visibility α nchan npol) (cells : Tensor (Cplx α)) :
    Action α (Visibility α nchan npol) := do
  let axes ← theAxes
  match Grid.ofCells cells (← lift axes.cellSize) (some axes.frequency) with
  | .ok grid => degridPartition vis grid
  | .error _ => throw (misshapen npol cells.shape)

/-- Turns the sum of the grids of all partitions into an image. -/
def finalizeSum (total : Deposit α) (normalize : Bool) :
    Action α (Image α × Tensor α × Statistics) := do
  let _ ← Gridder.beginPass
  modify fun g => { g with statistics := total.statistics }
  let image ← Gridder.finalize total.grid total.sumWeights normalize
  return (image, total.sumWeights, total.statistics)

/-- The image of partitions, their sums of weights and counters. -/
def invertList (s : Switch) (parts : List (Visibility α nchan npol)) (psf normalize : Bool) :
    Action α (Work (Action α) (Image α × Tensor α × Statistics)) := do
  ensurePrepared
  let result ← s.execute do
    let total ← gridParts .visibilities (.whole 2)
        (if psf then parts.map Visibility.unit else parts)
    finalizeSum total normalize
  return s.optimize result

/-- Each partition predicted from one model. -/
def predictList (s : Switch) (parts : List (Visibility α nchan npol)) (model : Image α) :
    Action α (List (Work (Action α) (Visibility α nchan npol))) := do
  ensurePrepared
  let grid ← s.execute (Gridder.modelToGrid model)
  return s.optimizeAll (← parts.mapM fun vis => s.execute do degridPartition vis (← grid.value))

/-- Each partition weighted by the density of all. Natural weighting hands back the partitions
    themselves, and leaves the gridder alone. -/
def weightList (s : Switch) (parts : List (Visibility α nchan npol))
    (weighting : Gridder.Weighting) :
    Action α (List (Work (Action α) (Visibility α nchan npol))) :=
  match weighting with
  | .natural => pure (parts.map .done)
  | .uniform => do
    ensurePrepared
    let merged ← s.execute (gridParts .weights (.whole 2) parts)
    return s.optimizeAll (← parts.mapM fun vis => s.execute do
      lift (Grid.reweight vis (← merged.value).grid (← theCache)))

end ApertureSynthesis.Workflow
