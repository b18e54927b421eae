/-
  Gridding: every sample that is not flagged is spread over the grid with its taps. Visibilities are
  added as weight times conjugate kernel times value; their weights as weight times real kernel.
  Sums of weights and counters are kept beside the grid. A sample is skipped only if all its
  polarisations are flagged; otherwise a flag masks the weight of its polarisation.
-/
import ApertureSynthesis.Grid.Placement

namespace ApertureSynthesis.Grid

variable {α : Type} [Scalar α] {nchan npol : Nat}

/-- A grid in the course of a pass. -/
structure Deposit (α : Type) where
  /-- The grid. -/
  grid : Grid α
  /-- Sum of weights by channel and polarisation. -/
  sumWeights : Tensor α
  /-- Counters. -/
  statistics : Statistics

/-- A pass that was broken off, with what it had reached. -/
structure Interrupted (α : Type) where
  /-- Why it was broken off. -/
  fault : Fault α
  /-- Grid and sums at that point. -/
  reached : Deposit α

/-- Add values, one for each polarisation, to the entries of a channel in sums of weights. The last
    axis counts polarisations; a single value serves any number of entries. -/
def addWeights (sums : Tensor α) (channel : Nat) (values : List α) : Except (Fault α) (Tensor α) :=
  match sums.shape with
  | n :: first :: rest =>
    let last := rest.getLast?.getD first
    let block := volume (first :: rest)
    if n ≤ channel then .error .index
    else if values.length ≠ last ∧ values.length ≠ 1 then .error .mismatch
    else
      .ok ((List.range block).foldl (fun t k =>
        t.modifyAt (channel * block + k) (· + values.getD (k % values.length) 0)) sums)
  | _ => .error .index

/-- What a sample adds to the grid and to the sums of weights. -/
structure Contribution (α : Type) where
  /-- Added to a cell, from the tap there and the sample. -/
  cell : Cplx α → Sample α → Cplx α
  /-- Added to the sum of weights, from the sum of the taps and the sample. -/
  weight : Cplx α → Sample α → α

/-- Visibilities: weight times conjugate kernel times value; the weight counts with the square of
    the tap sum. -/
def Contribution.visibilities : Contribution α where
  cell tap s := tap.conj * s.weightedValue
  weight total s := s.flaggedWeight * Scalar.sq total.abs

/-- Weights: weight times real kernel; the weight counts as it is. -/
def Contribution.weights : Contribution α where
  cell tap s := Cplx.ofReal (tap.re * s.flaggedWeight)
  weight _ s := s.flaggedWeight

/-- Add the taps of a sample to the cells of a channel, polarisation by polarisation. -/
def addTaps (how : Contribution α) (channel : Nat) (taps : List (Tap α))
    (samples : List (Sample α)) (g : Grid α) : Grid α :=
  samples.zipIdx.foldl (fun g (s, pol) =>
    taps.foldl (fun g t => g.addAt channel pol t.j t.i (how.cell t.value s)) g) g

/-- Add one row and channel. -/
def addSample (how : Contribution α) (placement : Placement α) (samples : List (Sample α))
    (d : Deposit α) : Except (Interrupted α) (Deposit α) :=
  match placement with
  | .outside =>
    .ok { d with statistics := { d.statistics with outside := d.statistics.outside + 1 } }
  | .inside channel runs =>
    let taps := runs.flatten
    let statistics := { d.statistics with gridded := d.statistics.gridded + 1 }
    let total := tapTotal taps
    let grid := addTaps how channel taps samples d.grid
    match addWeights d.sumWeights channel (samples.map (how.weight total)) with
    | .ok sums => .ok ⟨grid, sums, statistics⟩
    | .error fault => .error ⟨fault, ⟨grid, d.sumWeights, statistics⟩⟩

/-- The rows with their numbers, channel by channel. -/
def samplesOf (vis : Visibility α nchan npol) :
    List (Nat × Row α nchan npol × Nat × Vector (Sample α) npol) :=
  vis.rows.zipIdx.flatMap fun (r, k) => r.samples.toList.zipIdx.map fun (ps, c) => (k, r, c, ps)

/-- Add one row and channel unless all its polarisations are flagged. -/
def step (how : Contribution α) (f : Frame α) (d : Deposit α)
    (sample : Nat × Row α nchan npol × Nat × Vector (Sample α) npol) :
    Except (Interrupted α) (Deposit α) :=
  let (k, r, c, ps) := sample
  if Row.channelFlagged ps then .ok d
  else match f.place k r c with
    | .ok placement => addSample how placement ps.toList d
    | .error fault => .error ⟨fault, d⟩

/-- Number of rows with every sample flagged. -/
def flaggedRows (vis : Visibility α nchan npol) : Nat := vis.rows.countP Row.flagged

/-- Add all samples to a grid and sums of weights, which start at zero if not given. -/
def deposit (how : Contribution α) (vis : Visibility α nchan npol) (g : Grid α) (c : Cache α)
    (map : PlaneMap) (sums : Option (Tensor α)) (interpolation : Interpolation) :
    Except (Interrupted α) (Deposit α) :=
  let start : Deposit α :=
    { grid := g
      sumWeights := sums.getD (Tensor.fill [g.nchan, g.npol] 0)
      statistics := { flagged := flaggedRows vis, clamped := map.clamped } }
  match checkFit vis g c map with
  | .error fault => .error ⟨fault, start⟩
  | .ok () => match frame vis g c map interpolation with
    | .error fault => .error ⟨fault, start⟩
    | .ok f => (samplesOf vis).foldlM (step how f) start

/-- Grid visibilities. -/
def addVisibilities (vis : Visibility α nchan npol) (g : Grid α) (c : Cache α) (map : PlaneMap)
    (sums : Option (Tensor α)) (interpolation : Interpolation) :
    Except (Interrupted α) (Deposit α) :=
  deposit .visibilities vis g c map sums interpolation

/-- Grid the weights of visibilities: the result is the density of weight on the grid. -/
def addWeightsOf (vis : Visibility α nchan npol) (g : Grid α) (c : Cache α) (map : PlaneMap)
    (sums : Option (Tensor α)) (interpolation : Interpolation) :
    Except (Interrupted α) (Deposit α) :=
  deposit .weights vis g c map sums interpolation

end ApertureSynthesis.Grid
