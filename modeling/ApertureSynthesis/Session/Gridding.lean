/-
  A session with one grid and one array of sums of weights, into which a set of visibilities is
  gridded again and again with one cache. The plane map is made anew for each use.
-/
import ApertureSynthesis.Grid.Density
import ApertureSynthesis.Grid.Deposit
import ApertureSynthesis.Grid.Image
import ApertureSynthesis.Grid.Prediction
import ApertureSynthesis.Kernel.Variant

namespace ApertureSynthesis.Session

/-- Grid, sums of weights, and what they are used with. -/
structure Gridding (nchan npol : Nat) where
  /-- The visibilities. -/
  vis : Visibility Float nchan npol
  /-- The convolution function. -/
  cache : Cache Float
  /-- How plane maps are made. -/
  planes : Except (Fault Float) PlaneMap
  /-- The interpolation asked for. -/
  interpolation : Setting Float
  /-- The grid. -/
  grid : Grid Float
  /-- The sums of weights, once there are any. -/
  sums : Option (Tensor Float)

namespace Gridding

variable {nchan npol : Nat}

/-- The plane map of a cache: a given one, that of its kind, or else plane zero for all. -/
def planesOf (vis : Visibility Float nchan npol) (cache : Cache Float)
    (variant : Option (Kernel.Variant Float)) (given : Option (Except (Fault Float) PlaneMap)) :
    Except (Fault Float) PlaneMap :=
  match given, variant with
  | some m, _ => m
  | none, some v => v.planeMap vis (some cache)
  | none, none => .ok (PlaneMap.single vis)

/-- The plane map and the interpolation; the visibilities have to fit before the interpolation is
    looked at. -/
def ready (s : Gridding nchan npol) : Except (Fault Float) (PlaneMap × Interpolation) := do
  let map ← s.planes
  Grid.checkFit s.vis s.grid s.cache map
  match Interpolation.ofSetting? s.interpolation with
  | some i => return (map, i)
  | none => throw (.interpolation s.interpolation)

/-- Grids the visibilities or their weights. What was gridded before a fault stays in the grid; sums
    of weights that were not there before are lost with it. -/
def deposit (how : Grid.Contribution Float) (s : Gridding nchan npol) :
    Except (Fault Float) Statistics × Gridding nchan npol :=
  match s.ready with
  | .error fault => (.error fault, s)
  | .ok (map, i) =>
    let { vis, cache, planes, interpolation, grid, sums } := s
    let hadSums := sums.isSome
    match Grid.deposit how vis grid cache map sums i with
    | .ok d => (.ok d.statistics, ⟨vis, cache, planes, interpolation, d.grid, some d.sumWeights⟩)
    | .error e =>
      (.error e.fault, ⟨vis, cache, planes, interpolation, e.reached.grid,
        if hadSums then some e.reached.sumWeights else none⟩)

/-- Predicts the visibilities from the grid. -/
def predict (s : Gridding nchan npol) :
    Except (Fault Float) (Visibility Float nchan npol × Statistics) := do
  let (map, i) ← s.ready
  Grid.predict s.vis s.grid s.cache map i

/-- Empties the grid and forgets the sums of weights. -/
def clear (s : Gridding nchan npol) : Gridding nchan npol :=
  { s with grid := s.grid.cleared, sums := none }

end Gridding

end ApertureSynthesis.Session
