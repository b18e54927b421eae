/-
  Uniform weighting finds a density for every sample that counts, and with the box function makes
  the weights of each cell sum to one.

  A run grids the weights on an empty grid and divides each by what it finds at the nearest cell,
  from whatever gridder of the setup it starts (`exists_weighted`). For the box function the density
  at a cell is what the samples there weigh, so the new weights of a cell sum to one, and a second
  run divides by one or not at all (`uniform_weights_of_box`). For the anti-aliasing function a
  sample is spread over several cells, and possibly from a lattice point in another cell than the
  nearest one; but the nearest point has a share and a positive middle tap, so that the cell gets
  something (`uniform_weights_find_density`).
-/
import Mathlib
import ApertureSynthesis.Proofs.Grid.Reweight
import ApertureSynthesis.Proofs.Gridder.PointSpread
import ApertureSynthesis.Proofs.Gridder.Reading
import ApertureSynthesis.Proofs.Gridder.SinglePlane

namespace ApertureSynthesis.Gridder

open ApertureSynthesis.Action Grid

namespace Setup

variable {nchan npol : ℕ} {σ : Setup} {vis : Visibility ℝ nchan npol}

/-! ## Runs -/

/-- From every gridder of a setup uniform weighting gives these visibilities, and leaves a gridder
    of the setup. -/
def WeighsAs (σ : Setup) (vis vis' : Visibility ℝ nchan npol) : Prop :=
  ∀ s, σ.Describes s → ∃ t, Yields (weight vis .uniform) s vis' t ∧ σ.Describes t

/-- What was gridded is what each weight is divided by. -/
theorem weighsAs_of_gridded (hb : σ.Bounded) {d : Deposit ℝ} (hd : σ.gridded .weights vis = .ok d)
    {vis' : Visibility ℝ nchan npol} (hvis' : reweight vis d.grid σ.cache = .ok vis') :
    σ.WeighsAs vis vis' := by
  intro s hs
  obtain ⟨stage, hstage, hprepared⟩ := hs.yields_ensurePrepared
  obtain ⟨begun, hpass⟩ := yields_ensurePass s.statistics hb hstage
  have hgrid := outcome_accumulate .weights vis hb hprepared hpass (.inl rfl) (.inl rfl)
  rw [hd] at hgrid
  have hread : Reads (theCache >>= fun cache => lift (reweight vis d.grid cache))
      (σ.inStage .active (begun + d.statistics)) (.ok vis') :=
      hvis' ▸ reads_theCache.bind_ok (reads_lift _)
  have hsplit : weight vis .uniform = (accumulate .weights vis none none >>= complete) >>= fun d =>
      theCache >>= fun cache => lift (reweight vis d.grid cache) := (bind_assoc _ _ _).symm
  refine ⟨σ.inStage .active (begun + d.statistics), ?_, rfl, rfl, rfl, .inr ⟨rfl, rfl⟩⟩
  rw [hsplit]
  exact (Yields.bind_iff hgrid).2 (hread.yields.2 ⟨rfl, rfl⟩)

section Uniform

variable (hb : σ.Bounded) (hnchan : 0 < σ.axes.nchan) (hnpol : σ.axes.npol = npol)
  (hlisted : vis.bare = false) (hlength : vis.frequency.length = nchan)

include hb hnchan hnpol hlisted hlength

/-- Visibilities that fit the axes have a density, and are weighted by it. -/
theorem exists_weighted :
    ∃ map d, Fit vis σ.grid σ.cache map σ.lattice ∧ σ.gridded .weights vis = .ok d ∧
    Holds d.grid σ.grid (density vis σ.grid σ.cache map σ.lattice σ.interpolation) ∧
    σ.WeighsAs vis (vis.withWeights (dividedWeights vis σ.grid σ.cache d.grid)) := by
  obtain ⟨map, hmap, hfit⟩ := σ.fit_grid hnchan hnpol hlisted hlength
  have hown := hfit σ.grid (Alike.refl _)
  have hzero : ∀ ch p j i, σ.grid.get ch p j i = 0 := fun ch p j i => Tensor.get_fill_zero _ _
  obtain ⟨F, -, d, hd, halike, -, hholds, -⟩ := exists_density hown σ.interpolation hzero
    (show ∀ t ∈ none, t = Tensor.fill [σ.grid.nchan, σ.grid.npol] 0 from nofun)
  have hgridded : σ.gridded .weights vis = .ok d := (gridded_eq_ok_of_bounded hb).2 ⟨map, hmap, hd⟩
  refine ⟨map, d, hown, hgridded, hholds, ?_⟩
  rw [← dividedWeights_alike halike]
  exact weighsAs_of_gridded hb hgridded (reweight_eq (hfit d.grid halike))

/-- With the box function the density is what the samples weigh at each cell. -/
theorem exists_weighted_box (hbox : σ.variant = .box) :
    ∃ map d, Fit vis σ.grid σ.cache map σ.lattice ∧
    σ.gridded .weights vis = .ok d ∧ Holds d.grid σ.grid (cellWeight vis σ.grid σ.cache) ∧
    σ.WeighsAs vis (vis.withWeights (dividedWeights vis σ.grid σ.cache d.grid)) := by
  obtain ⟨map, d, hfit, hd, hholds, hweights⟩ := exists_weighted hb hnchan hnpol hlisted hlength
  refine ⟨map, d, hfit, hd, fun ch hch p hp j hj i hi => ?_, hweights⟩
  have hcache : σ.cache = Kernel.Variant.boxCache σ.cell := by
    have hbuilt := σ.built
    rw [hbox] at hbuilt
    exact (Except.ok.inj hbuilt).symm
  rw [hcache] at hfit hholds ⊢
  rw [hholds ch hch p hp j hj i hi, density_boxCache σ.interpolation hfit hj hi]

/-- Weights times a factor make a density times that factor. -/
theorem exists_weighted_scaled (hkind : σ.variant = .box ∨ ∃ p, σ.variant = .spheroidal p)
    {map : PlaneMap} (hfit : Fit vis σ.grid σ.cache map σ.lattice) (scale : ℝ) : ∃ m : Grid ℝ,
      Holds m σ.grid (fun ch p j i =>
        scale * density vis σ.grid σ.cache map σ.lattice σ.interpolation ch p j i) ∧
      σ.WeighsAs (vis.scaled scale)
        (vis.withWeights (dividedWeights (vis.scaled scale) σ.grid σ.cache m)) := by
  obtain ⟨s, hplane, -, -⟩ := Kernel.exists_plane_of_buildCache σ.built hkind
  obtain ⟨map', d, hfit', -, hholds, hrun⟩ := exists_weighted hb hnchan hnpol
    (show (vis.scaled scale).bare = false from hlisted) hlength
  refine ⟨d.grid, fun ch hch p hp j hj i hi => ?_, ?_⟩
  · rw [hholds ch hch p hp j hj i hi, density_scaled σ.interpolation hfit hplane hfit'
      (hfit.npol_eq ▸ hp)]
  · have hsame : (vis.scaled scale).withWeights
        (dividedWeights (vis.scaled scale) σ.grid σ.cache d.grid) =
        vis.withWeights (dividedWeights (vis.scaled scale) σ.grid σ.cache d.grid) :=
      Visibility.withWeights_withWeights
    rwa [hsame] at hrun

end Uniform

/-! ## The box function -/

/-- With the box function the unflagged weights of each cell on the grid sum to one after uniform
    weighting, if they had a positive sum before, which is then the density. Samples off the grid
    and in cells without density keep their weights, and a second run changes nothing. -/
theorem uniform_weights_of_box (hb : σ.Bounded) (hnchan : 0 < σ.axes.nchan)
    (hnpol : σ.axes.npol = npol) (hlisted : vis.bare = false)
    (hlength : vis.frequency.length = nchan) (hbox : σ.variant = .box) :
    ∃ d w, σ.gridded .weights vis = .ok d ∧
    σ.WeighsAs vis (vis.withWeights w) ∧ σ.WeighsAs (vis.withWeights w) (vis.withWeights w) ∧
    (∀ ch < σ.grid.nchan, ∀ p < npol, ∀ j < σ.grid.ny, ∀ i < σ.grid.nx,
      (d.grid.get ch p j i).val = (cellWeight vis σ.grid σ.cache ch p j i : ℂ) ∧
      (0 < cellWeight vis σ.grid σ.cache ch p j i →
        cellWeight (vis.withWeights w) σ.grid σ.cache ch p j i = 1)) ∧
    ∀ k < vis.rowCount, ∀ b < nchan, ∀ p < npol,
      (nearestPlace vis σ.grid σ.cache k b = none → w k b p = vis.weights k b p) ∧
      ∀ ch j i, nearestPlace vis σ.grid σ.cache k b = some (ch, j, i) →
        cellWeight vis σ.grid σ.cache ch p j i = 0 → w k b p = vis.weights k b p := by
  obtain ⟨map, d, hfit, hd, hholds, hrun⟩ :=
    exists_weighted_box hb hnchan hnpol hlisted hlength hbox
  obtain ⟨_, d', -, -, hholds', hagain⟩ := exists_weighted_box hb hnchan hnpol
    (show (vis.withWeights (dividedWeights vis σ.grid σ.cache d.grid)).bare =
      false from hlisted) hlength hbox
  rw [divided_twice hfit hholds hholds'] at hagain
  refine ⟨d, _, hd, hrun, hagain, fun ch hch p hp j hj i hi => ⟨?_, fun hpos => ?_⟩,
    fun k hk b hb p hp => ⟨fun hnone => ?_, fun ch j i hplace hzero => ?_⟩⟩
  · exact hholds ch hch p (hfit.npol_eq ▸ hp) j hj i hi
  · rw [cellWeight_divided hfit hholds hp, if_pos hpos]
  · refine dividedWeights_eq_self hfit hk hb hp hholds fun ch j i hplace => ?_
    cases hnone.symm.trans hplace
  · refine dividedWeights_eq_self hfit hk hb hp hholds fun ch' j' i' hplace' => .inr ?_
    cases hplace.symm.trans hplace'
    exact hzero.not_gt

section Quarter

variable (haxes : σ.axes = smallAxes) (hcell : σ.cell = .perAxis [1 / 4, 1 / 3])

include haxes hcell

/-- Both rows have the cell in the last column as their nearest. -/
theorem nearestPlace_quarterVisibility {k : ℕ} (hk : k < 2) :
    nearestPlace quarterVisibility σ.grid σ.cache k 0 = some (0, 1, 3) := by
  obtain ⟨map, -, hfit⟩ := σ.fit_grid (by rw [haxes]; decide) (by rw [haxes]; rfl)
    (show quarterVisibility.bare = false from rfl) rfl
  have hown := hfit σ.grid (Alike.refl _)
  have hlengths := lengths_of_smallAxes haxes
  have hpos := hown.cache.1
  have hnearest : ∀ n : ℤ,
      (nearestCell σ.cache.oversample ((n * σ.cache.oversample : ℤ) : ℝ)).1 = n := by
    intro n
    rw [nearestCell, Scalar.roundInt_intCast]
    exact cellOf_mul hpos n
  refine (hown.nearestPlace_eq_some hk one_pos).2 ⟨if_pos hlengths.1, by omega, ?_⟩
  rw [latticePosition_quarterVisibility haxes hcell hk]
  exact ⟨hnearest 1, hnearest 3⟩

theorem cellWeight_quarterVisibility : cellWeight quarterVisibility σ.grid σ.cache 0 0 1 3 = 2 := by
  obtain ⟨hfirst, hsecond⟩ := sampleAt_quarterVisibility
  have hplace := nearestPlace_quarterVisibility haxes hcell (k := 0) two_pos
  have hcount : quarterVisibility.rowCount = 2 := rfl
  rw [cellWeight, hcount]
  simp [Finset.sum_range_succ, Visibility.weights, hfirst, hsecond, hplace]

end Quarter

/-- The only sample that is not flagged has a weight of two, and a weight of one afterwards. -/
theorem uniform_weights_of_box_quarterVisibility :
    ∃ (σ : Setup) (w : ℕ → ℕ → ℕ → ℝ), σ.variant = .box ∧
    σ.axes = smallAxes ∧ σ.WeighsAs quarterVisibility (quarterVisibility.withWeights w) ∧
    σ.WeighsAs (quarterVisibility.withWeights w) (quarterVisibility.withWeights w) ∧
    cellWeight quarterVisibility σ.grid σ.cache 0 0 1 3 = 2 ∧
    cellWeight (quarterVisibility.withWeights w) σ.grid σ.cache 0 0 1 3 = 1 := by
  obtain ⟨σ, hbounded, hvariant, -, haxes, hcell, -⟩ := exists_small
  obtain ⟨d, w, -, hrun, hagain, hsum, -⟩ := uniform_weights_of_box hbounded (by rw [haxes]; decide)
    (by rw [haxes]; rfl) (show quarterVisibility.bare = false from rfl) rfl hvariant
  have htwo := cellWeight_quarterVisibility haxes hcell
  have hlengths := lengths_of_smallAxes haxes
  exact ⟨σ, w, hvariant, haxes, hrun, hagain, htwo,
    (hsum 0 (by omega) 0 one_pos 1 (by omega) 3 (by omega)).2 (htwo ▸ two_pos)⟩

/-! ## The anti-aliasing function -/

/-- With the box function or the anti-aliasing function, and weights that are not negative, the
    density at the nearest cell of a sample that is not flagged and has a positive weight is
    positive, if the cell is on the grid. Uniform weighting divides by it, so that the new weight is
    positive too, and it is the same for all weights times a positive factor. -/
theorem uniform_weights_find_density (hb : σ.Bounded) (hnchan : 0 < σ.axes.nchan)
    (hnpol : σ.axes.npol = npol) (hlisted : vis.bare = false)
    (hlength : vis.frequency.length = nchan)
    (hkind : σ.variant = .box ∨ ∃ p, σ.variant = .spheroidal p)
    (hweights : ∀ k < vis.rowCount, ∀ b < nchan, ∀ p < npol, (vis.sampleAt k b p).flagged = false →
      0 ≤ vis.weights k b p) :
    ∃ d w, σ.gridded .weights vis = .ok d ∧ σ.WeighsAs vis (vis.withWeights w) ∧
      (∀ k < vis.rowCount, ∀ b < nchan, ∀ p < npol, (vis.sampleAt k b p).flagged = false →
        0 < vis.weights k b p → ∀ ch j i, nearestPlace vis σ.grid σ.cache k b = some (ch, j, i) →
          0 < (d.grid.get ch p j i).re ∧ w k b p = vis.weights k b p / (d.grid.get ch p j i).re ∧
          0 < w k b p) ∧
      ∀ scale, 0 < scale → ∃ w', σ.WeighsAs (vis.scaled scale) (vis.withWeights w') ∧
        ∀ k < vis.rowCount, ∀ b < nchan, ∀ p < npol, (vis.sampleAt k b p).flagged = false →
          0 < vis.weights k b p → nearestPlace vis σ.grid σ.cache k b ≠ none →
          w' k b p = w k b p := by
  obtain ⟨s, hplane, hunit, hmiddle⟩ := Kernel.exists_plane_of_buildCache σ.built hkind
  obtain ⟨map, d, hfit, hd, hholds, hrun⟩ := exists_weighted hb hnchan hnpol hlisted hlength
  -- what is found at the nearest cell is positive
  have hfound : ∀ k < vis.rowCount, ∀ b < nchan, ∀ p < npol, (vis.sampleAt k b p).flagged = false →
      0 < vis.weights k b p → ∀ ch j i, nearestPlace vis σ.grid σ.cache k b = some (ch, j, i) →
        0 < density vis σ.grid σ.cache map σ.lattice σ.interpolation ch p j i :=
    fun k hk b hb p hp hused hpos ch j i hplace =>
      density_nearestPlace_pos σ.interpolation hfit hplane hunit hmiddle
        (fun k hk b hb => hweights k hk b hb p hp) hk hb hused hpos hplace
  refine ⟨d, _, hd, hrun, fun k hk b hb p hp hused hpos ch j i hplace => ?_, fun scale hscale => ?_⟩
  · have hpositive := hfound k hk b hb p hp hused hpos ch j i hplace
    obtain ⟨hch, hj, hi⟩ := hfit.lt_of_nearestPlace hk hb hplace
    rw [hholds.re hch (hfit.npol_eq ▸ hp) hj hi,
      dividedWeights_of_pos hfit hk hb hp hholds hplace hpositive]
    exact ⟨hpositive, rfl, div_pos hpos hpositive⟩
  · obtain ⟨m, hmultiple, hrun'⟩ :=
      exists_weighted_scaled hb hnchan hnpol hlisted hlength hkind hfit scale
    refine ⟨_, hrun', fun k hk b hb p hp hused hpos hon => ?_⟩
    obtain ⟨⟨ch, j, i⟩, hplace⟩ := Option.ne_none_iff_exists'.1 hon
    have hpositive := hfound k hk b hb p hp hused hpos ch j i hplace
    have hplace' : nearestPlace (vis.scaled scale) σ.grid σ.cache k b = some (ch, j, i) :=
      (nearestPlace_withWeights _ k b).trans hplace
    have hweight : (vis.scaled scale).weights k b p = scale * vis.weights k b p :=
      Visibility.weights_withWeights hk hb hp
    have hfit' : Fit (vis.scaled scale) σ.grid σ.cache map σ.lattice := hfit.withWeights _
    have hk' : k < (vis.scaled scale).rowCount := Visibility.rowCount_withWeights.trans_gt hk
    rw [dividedWeights_of_pos hfit' hk' hb hp hmultiple hplace' (mul_pos hscale hpositive), hweight,
      mul_div_mul_left _ _ hscale.ne', dividedWeights_of_pos hfit hk hb hp hholds hplace hpositive]

/-- The anti-aliasing function with a half-width of one, and weights that are doubled. -/
theorem uniform_weights_find_density_narrow : ∃ p, ∃ (σ : Setup) (w w' : ℕ → ℕ → ℕ → ℝ),
    narrowArguments.request.check = .ok p ∧ σ.variant = .spheroidal p ∧ σ.axes = smallAxes ∧
    σ.WeighsAs quarterVisibility (quarterVisibility.withWeights w) ∧ 0 < w 0 0 0 ∧
    σ.WeighsAs (quarterVisibility.scaled 2) (quarterVisibility.withWeights w') ∧
    w' 0 0 0 = w 0 0 0 := by
  obtain ⟨p, σ, hp, hvariant, -, haxes, hcell, -⟩ := exists_narrow
  obtain ⟨d, w, -, hrun, hpositive, hscaled⟩ := uniform_weights_find_density
    (bounded_of_smallAxes haxes) (by rw [haxes]; decide) (by rw [haxes]; rfl)
    (show quarterVisibility.bare = false from rfl) rfl (.inr ⟨p, hvariant⟩) weight_quarterVisibility
  obtain ⟨w', hrun', hsame⟩ := hscaled 2 two_pos
  have hplace := nearestPlace_quarterVisibility haxes hcell (k := 0) two_pos
  have hrow : 0 < quarterVisibility.rowCount := two_pos
  have hused : (quarterVisibility.sampleAt 0 0 0).flagged = false := by
    rw [sampleAt_quarterVisibility.1]
  have hweight : 0 < quarterVisibility.weights 0 0 0 := by
    rw [Visibility.weights, sampleAt_quarterVisibility.1]
    exact two_pos
  exact ⟨p, σ, w, w', hp, hvariant, haxes, hrun,
    (hpositive 0 hrow 0 one_pos 0 one_pos hused hweight 0 1 3 hplace).2.2, hrun',
    hsame 0 hrow 0 one_pos 0 one_pos hused hweight (hplace ▸ Option.some_ne_none _)⟩

end Setup

end ApertureSynthesis.Gridder
