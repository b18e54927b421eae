/-
  Degridding: the value of a sample is the sum of grid times kernel over its taps. Every sample is
  predicted, flagged or not; one off the grid is predicted as zero. Weights and flags are kept.
-/
import ApertureSynthesis.Grid.Placement

namespace ApertureSynthesis.Grid

variable {α : Type} [Scalar α] {nchan npol : Nat}

/-- The sum of grid times kernel over the taps, for one polarisation: each run is added up, and then
    the runs. -/
def predictAt (g : Grid α) (pol : Nat) : Placement α → Cplx α
  | .outside => 0
  | .inside channel runs => Cplx.sum <| runs.map fun taps =>
      Cplx.sum (taps.map fun t => g.get channel pol t.j t.i * t.value)

/-- Counts a placement. -/
def countPlacement (s : Statistics) : Placement α → Statistics
  | .outside => { s with outside := s.outside + 1 }
  | .inside _ _ => { s with gridded := s.gridded + 1 }

/-- One row with predicted values, and the placements of its channels. -/
def predictRow (f : Frame α) (g : Grid α) (row : Row α nchan npol × Nat) :
    Except (Fault α) (Row α nchan npol × List (Placement α)) := do
  let (r, k) := row
  let placements ← (List.range nchan).mapM (f.place k r)
  let table := placements.toArray
  let predicted := r.mapSamples fun c p s =>
    { s with value := predictAt g p (table.getD c .outside) }
  return (predicted, placements)

/-- Predict visibilities from a grid. -/
def predict (vis : Visibility α nchan npol) (g : Grid α) (c : Cache α) (map : PlaneMap)
    (interpolation : Interpolation) :
    Except (Fault α) (Visibility α nchan npol × Statistics) := do
  checkFit vis g c map
  let f ← frame vis g c map interpolation
  let rows ← vis.rows.zipIdx.mapM (predictRow f g)
  let statistics := (rows.flatMap Prod.snd).foldl countPlacement { clamped := map.clamped }
  return ({ vis with rows := rows.map Prod.fst }, statistics)

end ApertureSynthesis.Grid
