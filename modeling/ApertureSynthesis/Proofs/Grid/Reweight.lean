/-
  Weights divided by a density, sample by sample.

  The cell that is asked for the density is the nearest one of a sample, with the grid channel of
  its frequency (`nearestPlace`). Visibilities that fit the grid are weighted without a fault: each
  weight is divided by the density at that cell, where there is one and it is positive, and nothing
  else changes (`reweight_eq`). Positions and kernels do not depend on weights, so the visibilities
  fit as before (`Fit.withWeights`) and have the same nearest cells.
-/
import Mathlib
import ApertureSynthesis.Proofs.Grid.Counters
import ApertureSynthesis.Proofs.Grid.Density
import ApertureSynthesis.Proofs.Workflow.Rows

namespace ApertureSynthesis

/-! ## Other weights -/

namespace Visibility

section Resampled

variable {nchan npol : ℕ} {vis : Visibility ℝ nchan npol}
  {change change' : ℕ → ℕ → ℕ → Sample ℝ → Sample ℝ}

theorem rowCount_resampled : (vis.resampled change).rowCount = vis.rowCount := List.length_mapIdx

theorem sampleAt_resampled {k b p : ℕ} (hk : k < vis.rowCount) (hb : b < nchan) (hp : p < npol) :
    (vis.resampled change).sampleAt k b p = change k b p (vis.sampleAt k b p) := by
  have hk' : k < (vis.resampled change).rows.length := rowCount_resampled.trans_gt hk
  rw [sampleAt, sampleAt, dif_pos ⟨hk', hb, hp⟩, dif_pos ⟨hk, hb, hp⟩]
  simp [resampled, Row.mapSamples]

/-- Changes that agree on the samples make the same visibilities. -/
theorem resampled_congr (h : ∀ k < vis.rowCount, ∀ b < nchan, ∀ p < npol,
    change k b p (vis.sampleAt k b p) = change' k b p (vis.sampleAt k b p)) :
    vis.resampled change = vis.resampled change' := by
  unfold resampled
  congr 1
  refine List.ext_getElem (by simp) fun k hk _ => ?_
  have hk : k < vis.rows.length := by simpa using hk
  rw [List.getElem_mapIdx, List.getElem_mapIdx]
  unfold Row.mapSamples
  congr 1
  refine Vector.ext fun b hb => Vector.ext fun p hp => ?_
  have hsame := h k hk b hb p hp
  rw [sampleAt, dif_pos ⟨hk, hb, hp⟩] at hsame
  simpa using hsame

theorem resampled_resampled : (vis.resampled change).resampled change' =
    vis.resampled fun k b p s => change' k b p (change k b p s) := by
  unfold resampled
  rw [List.mapIdx_mapIdx]
  congr 2
  funext k r
  simp only [Function.comp_apply, Row.mapSamples]
  congr 1
  exact Vector.ext fun b hb => Vector.ext fun p hp => by simp

end Resampled

variable {nchan npol : ℕ}

/-- Visibilities with other weights, by row, channel and polarisation. -/
noncomputable def withWeights (vis : Visibility ℝ nchan npol) (w : ℕ → ℕ → ℕ → ℝ) :
    Visibility ℝ nchan npol :=
  vis.resampled fun k b p s => { s with weight := w k b p }

/-- The weights, by row, channel and polarisation. -/
noncomputable def weights (vis : Visibility ℝ nchan npol) (k b p : ℕ) : ℝ :=
  (vis.sampleAt k b p).weight

/-- All weights times a factor. -/
noncomputable def scaled (vis : Visibility ℝ nchan npol) (scale : ℝ) : Visibility ℝ nchan npol :=
  vis.withWeights fun k b p => scale * vis.weights k b p

section Weights

variable {vis : Visibility ℝ nchan npol} {w w' : ℕ → ℕ → ℕ → ℝ} {k b p : ℕ}

theorem rowCount_withWeights : (vis.withWeights w).rowCount = vis.rowCount := rowCount_resampled

theorem sampleAt_withWeights (hk : k < vis.rowCount) (hb : b < nchan) (hp : p < npol) :
    (vis.withWeights w).sampleAt k b p = { vis.sampleAt k b p with weight := w k b p } :=
  sampleAt_resampled hk hb hp

theorem weights_withWeights (hk : k < vis.rowCount) (hb : b < nchan) (hp : p < npol) :
    (vis.withWeights w).weights k b p = w k b p := by
  rw [weights, sampleAt_withWeights hk hb hp]

theorem withWeights_congr (h : ∀ k < vis.rowCount, ∀ b < nchan, ∀ p < npol, w k b p = w' k b p) :
    vis.withWeights w = vis.withWeights w' :=
  resampled_congr fun k hk b hb p hp => by rw [h k hk b hb p hp]

/-- Weights that were given before make no difference. -/
theorem withWeights_withWeights : (vis.withWeights w).withWeights w' = vis.withWeights w' :=
  resampled_resampled

end Weights

end Visibility

namespace Grid

variable {nchan npol : ℕ}

/-! ## Kernels and positions -/

section Positions

variable {vis : Visibility ℝ nchan npol} {g : Grid ℝ} {c : Cache ℝ} {map : PlaneMap} {l : Lattice ℝ}

/-- Other weights fit as well. -/
theorem Fit.withWeights (h : Fit vis g c map l) (w : ℕ → ℕ → ℕ → ℝ) :
    Fit (vis.withWeights w) g c map l :=
  h.congr Visibility.rowCount_withWeights rfl rfl

theorem latticePosition_withWeights (w : ℕ → ℕ → ℕ → ℝ) (l : Lattice ℝ) (k b : ℕ) :
    latticePosition (vis.withWeights w) l k b = latticePosition vis l k b := by
  have hrow : (vis.withWeights w).rows[k]? = (vis.rows[k]?).map (·.mapSamples fun b p s =>
      { s with weight := w k b p }) := List.getElem?_mapIdx
  unfold latticePosition
  rw [hrow]
  cases vis.rows[k]? with
  | none => rfl
  | some r => rfl

end Positions

/-! ## The nearest cell -/

section Nearest

variable {α : Type} [Scalar α]

/-- Grid channel, row and column of the cell that is nearest to a row and channel, if it is on the
    grid. -/
def nearestPlace (vis : Visibility α nchan npol) (g : Grid α) (c : Cache α) (k b : ℕ) :
    Option (ℕ × ℕ × ℕ) :=
  match mapping vis g c with
  | .error _ => none
  | .ok (cells, channels) =>
    match (cells.getD k [])[b]?, channels[b]? with
    | some ((u, _), (v, _)), some channel => (g.cellWithin? v u).map (channel, ·)
    | _, _ => none

/-- Grid channel, row and column of the cell that is nearest to a row at a frequency. -/
noncomputable def placeOf (g : Grid ℝ) (l : Lattice ℝ) (r : Row ℝ nchan npol) (hertz : ℝ) :
    Option (ℕ × ℕ × ℕ) :=
  (g.cellWithin? (nearestCell l.oversample (l.positionV (Visibility.wavelengths r.v hertz))).1
    (nearestCell l.oversample (l.positionU (Visibility.wavelengths r.u hertz))).1).map
    (g.channelAt hertz, ·)

/-- A weight divided by the density at a place. -/
noncomputable def dividedAt (g : Grid ℝ) (p : ℕ) (place : Option (ℕ × ℕ × ℕ)) (weight : ℝ) : ℝ :=
  match place with
  | none => weight
  | some (ch, j, i) => divideByDensity (g.get ch p j i).re weight

theorem dividedAt_of_pos {g : Grid ℝ} {ch p j i : ℕ} (h : 0 < (g.get ch p j i).re) (weight : ℝ) :
    dividedAt g p (some (ch, j, i)) weight = weight / (g.get ch p j i).re :=
  if_pos h

/-- A density of one, or one that is not positive, leaves a weight as it is. -/
theorem dividedAt_eq_self {g : Grid ℝ} {ch p j i : ℕ}
    (h : (g.get ch p j i).re = 1 ∨ ¬ 0 < (g.get ch p j i).re) (weight : ℝ) :
    dividedAt g p (some (ch, j, i)) weight = weight := by
  rcases h with hone | hnot
  · rw [dividedAt_of_pos (hone ▸ one_pos), hone, div_one]
  · exact if_neg hnot

/-- A sample off the grid is left as it is. -/
theorem weighted_eq (g : Grid ℝ) (p : ℕ) (place : Option (ℕ × ℕ × ℕ)) (s : Sample ℝ) :
    (match place with
      | none => s
      | some (ch, j, i) => { s with weight := divideByDensity (g.get ch p j i).re s.weight }) =
      { s with weight := dividedAt g p place s.weight } := by
  cases place with
  | none => rfl
  | some place => rfl

variable {vis : Visibility ℝ nchan npol} {g : Grid ℝ} {c : Cache ℝ} {map : PlaneMap} {l : Lattice ℝ}

theorem Fit.mapping_eq (h : Fit vis g c map l) :
    mapping vis g c =
      .ok (vis.rows.map (nearestCells l vis.frequency), vis.frequency.map g.channelAt) := by
  unfold mapping
  rw [h.lattice, h.channelsOf_eq, Visibility.spectrum, h.listed]
  rfl

theorem Fit.nearestPlace_getElem (h : Fit vis g c map l) {k b : ℕ} (hk : k < vis.rows.length)
    (hb : b < nchan) :
    nearestPlace vis g c k b = placeOf g l vis.rows[k] (vis.frequency.getD b 0) := by
  have hlt : b < vis.frequency.length := by rw [h.length_frequency]; exact hb
  unfold nearestPlace
  rw [h.mapping_eq]
  simp [nearestCells, placeOf, hk, hlt]

/-- A row is weighted channel by channel, by the cells that are nearest. -/
theorem Fit.reweightRow_eq (h : Fit vis g c map l) (r : Row ℝ nchan npol) :
    reweightRow g (vis.frequency.map g.channelAt) r (nearestCells l vis.frequency r) =
      .ok (r.mapSamples fun b p s =>
        { s with weight := dividedAt g p (placeOf g l r (vis.frequency.getD b 0)) s.weight }) := by
  unfold reweightRow
  refine bind_eq_ok.2 ⟨(nearestCells l vis.frequency r).zipIdx.map fun x =>
    placeOf g l r (vis.frequency.getD x.2 0), mapM_eq_ok _ fun x hx => ?_, ?_⟩
  · obtain ⟨cell, b⟩ := x
    have hcell := List.mem_zipIdx_iff_getElem?.1 hx
    have hb : b < vis.frequency.length := by
      simpa [nearestCells] using (List.getElem?_eq_some_iff.1 hcell).1
    have hnchan : b < nchan := h.length_frequency ▸ hb
    have hlt := h.channelAt_lt vis.frequency[b]
    obtain rfl : _ = cell := by simpa [nearestCells, hb] using hcell
    simp only [placeOf, List.getD_eq_getElem _ _ hb, List.getElem?_map, List.getElem?_eq_getElem hb,
      Option.map_some]
    cases g.cellWithin? _ _ with
    | none => rfl
    | some place => exact if_pos ⟨hlt, hnchan⟩
  · have hplace : ∀ b < nchan, (((nearestCells l vis.frequency r).zipIdx.map fun x =>
        placeOf g l r (vis.frequency.getD x.2 0)).toArray.getD b none) =
          placeOf g l r (vis.frequency.getD b 0) := by
      intro b hb
      have hlt : b < vis.frequency.length := by rw [h.length_frequency]; exact hb
      simp [nearestCells, hlt]
    show Except.ok _ = Except.ok _
    congr 1
    unfold Row.mapSamples
    congr 1
    refine Vector.ext fun b hb => Vector.ext fun p hp => ?_
    simp only [Vector.getElem_mapIdx, hplace b hb]
    exact weighted_eq g p _ _

/-- The weights of visibilities, each divided by what a grid of densities holds at the nearest
    cell. -/
noncomputable def dividedWeights (vis : Visibility ℝ nchan npol) (g : Grid ℝ) (c : Cache ℝ)
    (m : Grid ℝ) (k b p : ℕ) : ℝ :=
  dividedAt m p (nearestPlace vis g c k b) (vis.weights k b p)

/-- Visibilities that fit are weighted: each weight is divided by the density at the nearest cell,
    and nothing else changes. -/
theorem reweight_eq (h : Fit vis g c map l) :
    reweight vis g c = .ok (vis.withWeights (dividedWeights vis g c g)) := by
  have hweigh : Workflow.rowWeighting vis g c = .ok fun r =>
      reweightRow g (vis.frequency.map g.channelAt) r (nearestCells l vis.frequency r) := by
    unfold Workflow.rowWeighting
    rw [if_neg (not_not.2 h.npol_eq), h.lattice, Visibility.spectrum, h.listed, h.channelsOf_eq]
    rfl
  have hreweight : reweight (vis.withRows vis.rows) g c = _ := Workflow.reweight_withRows vis.rows
  rw [hweigh] at hreweight
  have hrows := mapM_eq_ok vis.rows fun r _ => h.reweightRow_eq r
  refine (hreweight.trans (congrArg (Except.map vis.withRows) hrows)).trans ?_
  -- row by row, the place and the weight are those of the number of the row
  show Except.ok (vis.withRows _) = _
  congr 1
  unfold Visibility.withRows Visibility.withWeights Visibility.resampled
  congr 1
  refine List.ext_getElem (by simp) fun k hk _ => ?_
  have hk : k < vis.rows.length := by simpa using hk
  rw [List.getElem_map, List.getElem_mapIdx]
  unfold Row.mapSamples
  congr 1
  refine Vector.ext fun b hb => Vector.ext fun p hp => ?_
  simp only [Vector.getElem_mapIdx, dividedWeights, h.nearestPlace_getElem hk hb,
    Visibility.weights, Visibility.sampleAt,
    dif_pos (And.intro hk (And.intro hb hp))]

/-- The values of the cells do not matter for which one is nearest, -/
theorem nearestPlace_alike {m : Grid ℝ} (hm : Alike g m) (k b : ℕ) :
    nearestPlace vis m c k b = nearestPlace vis g c k b := by
  obtain ⟨cells, nchan', npol', ny, nx, cellSize, frequency, hshape⟩ := g
  obtain ⟨cells', nchan'', npol'', ny', nx', cellSize', frequency', hshape'⟩ := m
  obtain ⟨rfl, rfl, rfl, rfl, rfl, rfl⟩ := hm
  rfl

theorem dividedWeights_alike {m : Grid ℝ} (hm : Alike g m) :
    dividedWeights vis m c m = dividedWeights vis g c m := by
  funext k b p
  rw [dividedWeights, nearestPlace_alike hm, dividedWeights]

/-- nor do weights. -/
theorem nearestPlace_withWeights (w : ℕ → ℕ → ℕ → ℝ) (k b : ℕ) :
    nearestPlace (vis.withWeights w) g c k b = nearestPlace vis g c k b := by
  have hcells : ∀ (l : Lattice ℝ) (frequency : List ℝ),
      (vis.withWeights w).rows.map (nearestCells l frequency) =
        vis.rows.map (nearestCells l frequency) := by
    intro l frequency
    refine List.ext_getElem (by simp [Visibility.withWeights, Visibility.resampled])
      fun k hk _ => ?_
    simp only [Visibility.withWeights, Visibility.resampled, List.getElem_map, List.getElem_mapIdx]
    rfl
  have hmapping : mapping (vis.withWeights w) g c = mapping vis g c := by
    unfold mapping
    simp only [hcells]
    rfl
  unfold nearestPlace
  rw [hmapping]

/-- A place is the nearest one if it is on the grid, and the nearest lattice points belong to its
    cell. -/
theorem Fit.nearestPlace_eq_some (h : Fit vis g c map l) {k b : ℕ} (hk : k < vis.rowCount)
    (hb : b < nchan) {ch j i : ℕ} : nearestPlace vis g c k b = some (ch, j, i) ↔
      g.channelAt (vis.frequency.getD b 0) = ch ∧ (j < g.ny ∧ i < g.nx) ∧
        (nearestCell c.oversample (latticePosition vis l k b).1).1 = j ∧
        (nearestCell c.oversample (latticePosition vis l k b).2).1 = i := by
  have hk' : k < vis.rows.length := hk
  rw [h.nearestPlace_getElem hk' hb, placeOf, h.lattice_axes.2.2]
  have hposition : latticePosition vis l k b =
      (l.positionV (Visibility.wavelengths vis.rows[k].v (vis.frequency.getD b 0)),
        l.positionU (Visibility.wavelengths vis.rows[k].u (vis.frequency.getD b 0))) := by
    simp only [latticePosition, List.getElem?_eq_getElem hk']
  rw [hposition]
  generalize (nearestCell c.oversample (l.positionV _)).1 = v
  generalize (nearestCell c.oversample (l.positionU _)).1 = u
  unfold cellWithin?
  split
  · simp only [Option.map_some, Option.some.injEq, Prod.mk.injEq]
    omega
  · simp only [Option.map_none, reduceCtorEq, false_iff]
    omega

theorem Fit.lt_of_nearestPlace (h : Fit vis g c map l) {k b : ℕ} (hk : k < vis.rowCount)
    (hb : b < nchan) {ch j i : ℕ} (hplace : nearestPlace vis g c k b = some (ch, j, i)) :
    ch < g.nchan ∧ j < g.ny ∧ i < g.nx := by
  obtain ⟨rfl, hcell, -⟩ := (h.nearestPlace_eq_some hk hb).1 hplace
  exact ⟨h.channelAt_lt _, hcell⟩

end Nearest

/-! ## Density at the nearest cell -/

section Density

open Finset

variable {vis : Visibility ℝ nchan npol} {g : Grid ℝ} {c : Cache ℝ} {map map' : PlaneMap}
  {l : Lattice ℝ} (interpolation : Interpolation)

/-- What the samples of a polarisation weigh that have a cell as their nearest, without those
    flagged. -/
noncomputable def cellWeight (vis : Visibility ℝ nchan npol) (g : Grid ℝ) (c : Cache ℝ)
    (ch p j i : ℕ) : ℝ :=
  ∑ k ∈ range vis.rowCount, ∑ b ∈ range nchan,
    if (vis.sampleAt k b p).flagged = false ∧ nearestPlace vis g c k b = some (ch, j, i) then
      vis.weights k b p
    else 0

/-- New weights that are a multiple of the old ones at a cell make a multiple of what these
    weigh. -/
theorem cellWeight_withWeights {ch p j i : ℕ} (hp : p < npol) {w : ℕ → ℕ → ℕ → ℝ} (factor : ℝ)
    (hw : ∀ k < vis.rowCount, ∀ b < nchan, nearestPlace vis g c k b = some (ch, j, i) →
      w k b p = vis.weights k b p * factor) :
    cellWeight (vis.withWeights w) g c ch p j i = cellWeight vis g c ch p j i * factor := by
  unfold cellWeight
  rw [Visibility.rowCount_withWeights, sum_mul]
  refine sum_congr rfl fun k hk => ?_
  rw [sum_mul]
  refine sum_congr rfl fun b hb => ?_
  have hk := mem_range.1 hk
  have hb := mem_range.1 hb
  rw [Visibility.weights_withWeights hk hb hp, Visibility.sampleAt_withWeights hk hb hp,
    nearestPlace_withWeights, ite_mul, zero_mul]
  exact if_ctx_congr Iff.rfl (fun hnear => hw k hk b hb hnear.2) fun _ => rfl

section Divided

variable (h : Fit vis g c map l) {m : Grid ℝ} {D : ℕ → ℕ → ℕ → ℕ → ℝ} {k b ch p j i : ℕ}
  (hk : k < vis.rowCount) (hb : b < nchan) (hp : p < npol)

include h hk hb hp

/-- A weight is divided by the density at its nearest cell, if that is positive. -/
theorem dividedWeights_of_pos (hm : Holds m g D)
    (hplace : nearestPlace vis g c k b = some (ch, j, i)) (hpos : 0 < D ch p j i) :
    dividedWeights vis g c m k b p = vis.weights k b p / D ch p j i := by
  obtain ⟨hch, hj, hi⟩ := h.lt_of_nearestPlace hk hb hplace
  have hre := hm.re hch (h.npol_eq ▸ hp) hj hi
  rw [dividedWeights, hplace, dividedAt_of_pos (hre ▸ hpos), hre]

/-- A density of one, or one that is not positive, leaves it as it is. -/
theorem dividedWeights_eq_self (hm : Holds m g D)
    (hfew : ∀ ch j i, nearestPlace vis g c k b = some (ch, j, i) →
    D ch p j i = 1 ∨ ¬ 0 < D ch p j i) : dividedWeights vis g c m k b p = vis.weights k b p := by
  unfold dividedWeights
  cases hplace : nearestPlace vis g c k b with
  | none => rfl
  | some place =>
    obtain ⟨ch, j, i⟩ := place
    obtain ⟨hch, hj, hi⟩ := h.lt_of_nearestPlace hk hb hplace
    refine dividedAt_eq_self ?_ _
    rw [hm.re hch (h.npol_eq ▸ hp) hj hi]
    exact hfew ch j i hplace

end Divided

section Weighed

variable (h : Fit vis g c map l) {m : Grid ℝ} (hm : Holds m g (cellWeight vis g c))

include h hm

/-- Divided by what they weigh together, the weights of a cell sum to one. -/
theorem cellWeight_divided {ch p j i : ℕ} (hp : p < npol) :
    cellWeight (vis.withWeights (dividedWeights vis g c m)) g c ch p j i =
      if 0 < cellWeight vis g c ch p j i then 1 else cellWeight vis g c ch p j i := by
  split
  · rename_i hpos
    rw [cellWeight_withWeights hp (cellWeight vis g c ch p j i)⁻¹ fun k hk b hb hnear => ?_,
      mul_inv_cancel₀ hpos.ne']
    rw [dividedWeights_of_pos h hk hb hp hm hnear hpos, div_eq_mul_inv]
  · rename_i hnot
    rw [cellWeight_withWeights hp 1 fun k hk b hb hnear => ?_, mul_one]
    rw [dividedWeights_eq_self h hk hb hp hm fun ch' j' i' hnear' => ?_, mul_one]
    cases hnear.symm.trans hnear'
    exact .inr hnot

/-- Divided a second time, by what they weigh then, they are the same: the sum is one where it was
    positive, and else what it was. -/
theorem divided_twice {m' : Grid ℝ}
    (hm' : Holds m' g (cellWeight (vis.withWeights (dividedWeights vis g c m)) g c)) :
    (vis.withWeights (dividedWeights vis g c m)).withWeights
        (dividedWeights (vis.withWeights (dividedWeights vis g c m)) g c m') =
      vis.withWeights (dividedWeights vis g c m) := by
  rw [Visibility.withWeights_withWeights]
  refine Visibility.withWeights_congr fun k hk b hb p hp => ?_
  rw [dividedWeights_eq_self (h.withWeights _)
    (Visibility.rowCount_withWeights.trans_gt hk) hb hp hm',
    Visibility.weights_withWeights hk hb hp]
  intro ch j i _
  rw [cellWeight_divided h hm hp]
  split
  · exact .inl rfl
  · rename_i hnot
    exact .inr hnot

end Weighed

/-- With the box function the density at a cell is what the samples weigh that have it as their
    nearest. -/
theorem density_boxCache {cellSize : CellSize ℝ}
    (h : Fit vis g (Kernel.Variant.boxCache cellSize) map l) {ch p j i : ℕ} (hj : j < g.ny)
    (hi : i < g.nx) :
    density vis g (Kernel.Variant.boxCache cellSize) map l interpolation ch p j i =
      cellWeight vis g (Kernel.Variant.boxCache cellSize) ch p j i := by
  refine sum_congr rfl fun k hk => sum_congr rfl fun b hb => ?_
  have hk := mem_range.1 hk
  have hb := mem_range.1 hb
  have hkernel : sampleKernel vis (Kernel.Variant.boxCache cellSize) map l interpolation k b j i =
      if (j : ℤ) = (nearestCell 1 (latticePosition vis l k b).1).1 ∧
        (i : ℤ) = (nearestCell 1 (latticePosition vis l k b).2).1 then 1 else 0 :=
    (h.sampleKernel_eq_kernelAt (Kernel.symmetric_boxCache cellSize) interpolation hk hb j i).trans
      (kernelAt_boxCache cellSize interpolation _ _ j i)
  have hplace : nearestPlace vis g (Kernel.Variant.boxCache cellSize) k b = some (ch, j, i) ↔ _ :=
    h.nearestPlace_eq_some hk hb
  have hone : (Kernel.Variant.boxCache cellSize).oversample = 1 := rfl
  rw [hone] at hplace
  unfold densityShare
  by_cases hcounts : Counts vis g k b ch p
  · rw [if_pos hcounts, hkernel]
    by_cases hcell : (j : ℤ) = (nearestCell 1 (latticePosition vis l k b).1).1 ∧
        (i : ℤ) = (nearestCell 1 (latticePosition vis l k b).2).1
    · rw [if_pos hcell,
        if_pos ⟨hcounts.1, hplace.2 ⟨hcounts.2, ⟨hj, hi⟩, hcell.1.symm, hcell.2.symm⟩⟩,
        Complex.one_re, mul_one]
      rfl
    · rw [if_neg hcell,
        if_neg fun hnear => hcell ⟨(hplace.1 hnear.2).2.2.1.symm, (hplace.1 hnear.2).2.2.2.symm⟩,
        Complex.zero_re, mul_zero]
  · rw [if_neg hcounts, if_neg fun hnear => hcounts ⟨hnear.1, (hplace.1 hnear.2).1⟩]

/-- What a sample adds to the density at its nearest cell is positive. -/
theorem density_nearestPlace_pos {s : ℕ} (h : Fit vis g c map l) (hplane : c.Symmetric s)
    (hunit : c.UnitTaps s) (hmiddle : ∀ dv < c.oversample, ∀ du < c.oversample,
      0 < (c.zeroW.get [dv, du, s, s]).re) {p : ℕ}
    (hweights : ∀ k < vis.rowCount, ∀ b < nchan, (vis.sampleAt k b p).flagged = false →
      0 ≤ vis.weights k b p)
    {k b ch j i : ℕ} (hk : k < vis.rowCount) (hb : b < nchan)
    (hused : (vis.sampleAt k b p).flagged = false) (hpos : 0 < vis.weights k b p)
    (hplace : nearestPlace vis g c k b = some (ch, j, i)) :
    0 < density vis g c map l interpolation ch p j i := by
  obtain ⟨hchannel, -, hv, hu⟩ := (h.nearestPlace_eq_some hk hb).1 hplace
  have hkernel : 0 < (sampleKernel vis c map l interpolation k b j i).re := by
    rw [h.sampleKernel_eq_kernelAt hplane interpolation hk hb, ← hv, ← hu]
    exact (Complex.pos_iff.1
      (hunit.kernelAt_nearestCell_pos hplane.oversample_pos interpolation _ _ hmiddle)).1
  have hnonneg : ∀ k ∈ range vis.rowCount, ∀ b ∈ range nchan,
      0 ≤ densityShare vis g c map l interpolation k b ch p j i := fun k hk b hb =>
    densityShare_nonneg h hplane hunit interpolation (mem_range.1 hk) (mem_range.1 hb)
      (hweights k (mem_range.1 hk) b (mem_range.1 hb)) j i
  calc 0 < vis.weights k b p * (sampleKernel vis c map l interpolation k b j i).re :=
    mul_pos hpos hkernel
      _ = densityShare vis g c map l interpolation k b ch p j i := (if_pos ⟨hused, hchannel⟩).symm
      _ ≤ ∑ b ∈ range nchan, densityShare vis g c map l interpolation k b ch p j i :=
        single_le_sum (hnonneg k (mem_range.2 hk)) (mem_range.2 hb)
      _ ≤ density vis g c map l interpolation ch p j i :=
        single_le_sum
          (f := fun k => ∑ b ∈ range nchan, densityShare vis g c map l interpolation k b ch p j i)
          (fun k hk => sum_nonneg (hnonneg k hk)) (mem_range.2 hk)

/-- The density of weights times a factor is that factor times the density. -/
theorem density_scaled {s : ℕ} (h : Fit vis g c map l) (hplane : c.Symmetric s) {scale : ℝ}
    (h' : Fit (vis.scaled scale) g c map' l) {ch p j i : ℕ} (hp : p < npol) :
    density (vis.scaled scale) g c map' l interpolation ch p j i =
      scale * density vis g c map l interpolation ch p j i := by
  unfold density
  rw [Visibility.scaled, Visibility.rowCount_withWeights, mul_sum]
  refine sum_congr rfl fun k hk => ?_
  rw [mul_sum]
  refine sum_congr rfl fun b hb => ?_
  have hk := mem_range.1 hk
  have hb := mem_range.1 hb
  have hk' : k < (vis.scaled scale).rowCount := Visibility.rowCount_withWeights.trans_gt hk
  have hsample : (vis.scaled scale).sampleAt k b p =
      { vis.sampleAt k b p with weight := scale * vis.weights k b p } :=
    Visibility.sampleAt_withWeights hk hb hp
  have hposition : latticePosition (vis.scaled scale) l k b = latticePosition vis l k b :=
    latticePosition_withWeights _ l k b
  have hkernel : sampleKernel (vis.scaled scale) c map' l interpolation k b j i =
      sampleKernel vis c map l interpolation k b j i := by
    rw [h'.sampleKernel_eq_kernelAt hplane interpolation hk' hb, hposition,
      h.sampleKernel_eq_kernelAt hplane interpolation hk hb]
  have hcounts : Counts (vis.scaled scale) g k b ch p ↔ Counts vis g k b ch p := by
    unfold Counts
    rw [hsample]
    rfl
  show densityShare (vis.scaled scale) g c map' l interpolation k b ch p j i = _
  unfold densityShare
  rw [hkernel, hsample, if_congr hcounts rfl rfl, mul_ite, mul_zero, ← mul_assoc]
  rfl

end Density

end Grid

end ApertureSynthesis
