/-
  The point spread function of the box function and of the anti-aliasing function peaks at one.

  Every sample of value one whose footprint is on the grid gives its weight to the pixel in the
  middle of the image, where all waves are one, and the same weight to its sum of weights, where the
  square of what its kernel adds up to is one as well. The taper is one there too, because it is the
  sum of the central taps. So the pixel is a sum of weights divided by itself
  (`invert_peak_eq_one`).
-/
import Mathlib
import ApertureSynthesis.Proofs.Grid.Density
import ApertureSynthesis.Proofs.UnitTaper
import ApertureSynthesis.Proofs.Gridder.OnCell

namespace ApertureSynthesis

open Finset ComplexConjugate

/-! ## Visibilities of value one -/

namespace Visibility

variable {nchan npol : ℕ} {vis : Visibility ℝ nchan npol}

theorem rowCount_unit (vis : Visibility ℝ nchan npol) : vis.unit.rowCount = vis.rowCount :=
  List.length_map _

theorem frequency_unit (vis : Visibility ℝ nchan npol) : vis.unit.frequency = vis.frequency := rfl

/-- Samples keep weight and flag, and have the value one. -/
theorem sampleAt_unit {k b p : ℕ} (hk : k < vis.rowCount) (hb : b < nchan) (hp : p < npol) :
    vis.unit.sampleAt k b p = ⟨1, (vis.sampleAt k b p).weight, (vis.sampleAt k b p).flagged⟩ := by
  have hk' : k < vis.unit.rows.length := (rowCount_unit vis).trans_gt hk
  rw [sampleAt, sampleAt, dif_pos ⟨hk', hb, hp⟩, dif_pos ⟨hk, hb, hp⟩]
  simp [unit, mapRows, Row.mapSamples]

/-- Where a footprint lies does not depend on values. -/
theorem sampleFootprint_unit (c : Cache ℝ) (map : PlaneMap) (l : Grid.Lattice ℝ)
    (interpolation : Interpolation) (k b : ℕ) :
    Grid.sampleFootprint vis.unit c map l interpolation k b =
      Grid.sampleFootprint vis c map l interpolation k b := by
  have hrow : vis.unit.rows[k]? =
      vis.rows[k]?.map (Row.mapSamples fun _ _ s => { s with value := 1 }) :=
    List.getElem?_map
  unfold Grid.sampleFootprint
  rw [hrow, frequency_unit]
  dsimp only
  cases vis.rows[k]? with
  | none => rfl
  | some r =>
    cases vis.frequency[b]? with
    | none => rfl
    | some hertz => 
      cases c.planes[(map.plane k b).toNat]? with
      | none => rfl
      | some plane => cases c.supports[(map.plane k b).toNat]? <;> rfl

end Visibility

namespace Gridder

namespace Setup

variable {σ : Setup} {nchan npol : ℕ} {vis : Visibility ℝ nchan npol}

/-! ## Where samples lie -/

/-- The footprint of a row and channel, with the plane map of the kind. -/
noncomputable def footprintOf (σ : Setup) (vis : Visibility ℝ nchan npol) (k b : ℕ) :
    Except (Fault ℝ) (Grid.Footprint ℝ) := do
  let map ← σ.variant.planeMap vis (some σ.cache)
  Grid.sampleFootprint vis σ.cache map σ.lattice σ.interpolation k b

/-- The whole footprint of a row and channel is on the grid. -/
def IsInside (σ : Setup) (vis : Visibility ℝ nchan npol) (k b : ℕ) : Prop :=
  ∃ f, σ.footprintOf vis k b = .ok f ∧ f.Inside σ.grid.ny σ.grid.nx

/-- The whole footprint of a row and channel is off the grid. -/
def IsOutside (σ : Setup) (vis : Visibility ℝ nchan npol) (k b : ℕ) : Prop :=
  ∃ f, σ.footprintOf vis k b = .ok f ∧ f.Outside σ.grid.ny σ.grid.nx

noncomputable instance (σ : Setup) (vis : Visibility ℝ nchan npol) (k b : ℕ) :
    Decidable (σ.IsInside vis k b) := Classical.propDecidable _

/-! ## Taps and taper -/

/-- Gridders for the box function or the anti-aliasing function have one plane, whose taps sum to
    one for each phase. -/
theorem exists_unitTaps (σ : Setup) (hkind : σ.variant = .box ∨ ∃ p, σ.variant = .spheroidal p) :
    ∃ s, σ.cache.Symmetric s ∧ σ.cache.UnitTaps s := by
  obtain ⟨s, hsymmetric, hunit, -⟩ := Kernel.exists_plane_of_buildCache σ.built hkind
  exact ⟨s, hsymmetric, hunit⟩

end Setup

end Gridder

/-- The wave of the middle of an axis is one everywhere. -/
theorem Fourier.wave_centre (d : Direction) (n k : ℕ) : wave d n (n / 2) k = 1 := by
  rw [← unitRoot_zpow, sub_self, zero_mul, zpow_zero]

/-! ## Direct sums of samples of value one -/

namespace Gridder

namespace Setup

variable {σ : Setup} {nchan npol : ℕ} {vis : Visibility ℝ nchan npol}

theorem footprintOf_eq (hkind : σ.variant = .box ∨ ∃ p, σ.variant = .spheroidal p) (k b : ℕ) :
    σ.footprintOf vis k b =
      Grid.sampleFootprint vis σ.cache (PlaneMap.single vis) σ.lattice σ.interpolation k b := by
  unfold footprintOf
  rcases hkind with hbox | ⟨p, hspheroidal⟩
  · rw [hbox]
    rfl
  · rw [hspheroidal]
    rfl

theorem footprintOf_unit (hkind : σ.variant = .box ∨ ∃ p, σ.variant = .spheroidal p) (k b : ℕ) :
    σ.footprintOf vis.unit k b = σ.footprintOf vis k b := by
  have hmap : PlaneMap.single vis.unit = PlaneMap.single vis := by
    unfold PlaneMap.single
    simp only [Visibility.rowCount_unit]
  rw [footprintOf_eq hkind, footprintOf_eq hkind, Visibility.sampleFootprint_unit, hmap]

theorem isInside_unit (hkind : σ.variant = .box ∨ ∃ p, σ.variant = .spheroidal p) (k b : ℕ) :
    σ.IsInside vis.unit k b ↔ σ.IsInside vis k b := by
  unfold IsInside
  rw [footprintOf_unit hkind]

theorem isOutside_unit (hkind : σ.variant = .box ∨ ∃ p, σ.variant = .spheroidal p) (k b : ℕ) :
    σ.IsOutside vis.unit k b ↔ σ.IsOutside vis k b := by
  unfold IsOutside
  rw [footprintOf_unit hkind]

/-- The sum of the weights of the samples that are not flagged, go to a channel and lie on the
    grid. -/
noncomputable def insideWeight (σ : Setup) (vis : Visibility ℝ nchan npol) (ch p : ℕ) : ℝ :=
  ∑ k ∈ range vis.rowCount, ∑ b ∈ range nchan,
    if (vis.sampleAt k b p).flagged = false ∧ σ.grid.channelAt (vis.frequency.getD b 0) = ch ∧
        σ.IsInside vis k b then (vis.sampleAt k b p).weight else 0

/-- On the grid of a setup a sample has its whole kernel or nothing of it. -/
theorem sum_sampleKernel (hkind : σ.variant = .box ∨ ∃ p, σ.variant = .spheroidal p)
    (hfit : Grid.Fit vis σ.grid σ.cache (PlaneMap.single vis) σ.lattice) {k b : ℕ}
    (hk : k < vis.rowCount) (hb : b < nchan) (hplaced : σ.IsInside vis k b ∨ σ.IsOutside vis k b) :
    ∑ j ∈ range σ.grid.ny, ∑ i ∈ range σ.grid.nx,
        Grid.sampleKernel vis σ.cache (PlaneMap.single vis) σ.lattice σ.interpolation k b j i =
      if σ.IsInside vis k b then 1 else 0 := by
  obtain ⟨s, hsymmetric, hunit⟩ := σ.exists_unitTaps hkind
  by_cases hinside : σ.IsInside vis k b
  · obtain ⟨f, hf, hin⟩ := hinside
    rw [if_pos ⟨f, hf, hin⟩]
    rw [footprintOf_eq hkind] at hf
    exact hfit.sum_sampleKernel_eq_one hsymmetric σ.interpolation hk hb hunit hf hin
  · obtain ⟨f, hf, hout⟩ := hplaced.resolve_left hinside
    rw [if_neg hinside]
    rw [footprintOf_eq hkind] at hf
    exact hfit.sum_sampleKernel_of_outside σ.interpolation hf hout

/-- Every sample that is not flagged has its whole footprint on the grid or off it. -/
def Placed (σ : Setup) (vis : Visibility ℝ nchan npol) : Prop :=
  ∀ k < vis.rowCount, ∀ b < nchan, (∃ p < npol, (vis.sampleAt k b p).flagged = false) →
    σ.IsInside vis k b ∨ σ.IsOutside vis k b

section Unit

variable (hkind : σ.variant = .box ∨ ∃ p, σ.variant = .spheroidal p)
  (hfit : Grid.Fit vis.unit σ.grid σ.cache (PlaneMap.single vis.unit) σ.lattice)
  (hplaced : σ.Placed vis) {ch p : ℕ} (hp : p < npol)

include hkind hfit hplaced hp

/-- What the kernel of a sample of value one adds up to, where the sample counts. -/
theorem sum_sampleKernel_unit {k b : ℕ} (hk : k < vis.rowCount) (hb : b < nchan)
    (hflag : (vis.sampleAt k b p).flagged = false) :
    ∑ j ∈ range σ.grid.ny, ∑ i ∈ range σ.grid.nx,
        Grid.sampleKernel vis.unit σ.cache (PlaneMap.single vis.unit) σ.lattice
          σ.interpolation k b j i =
      if σ.IsInside vis k b then 1 else 0 := by
  have hlies := hplaced k hk b hb ⟨p, hp, hflag⟩
  rw [← isInside_unit hkind, ← isOutside_unit hkind] at hlies
  rw [sum_sampleKernel hkind hfit ((Visibility.rowCount_unit vis).trans_gt hk) hb hlies]
  exact if_congr (isInside_unit hkind k b) rfl rfl

/-- The sums of weights of samples of value one. -/
theorem directWeight_unit :
    Grid.directWeight vis.unit σ.grid σ.cache (PlaneMap.single vis.unit) σ.lattice
      σ.interpolation ch p = σ.insideWeight vis ch p := by
  unfold Grid.directWeight insideWeight
  rw [Visibility.rowCount_unit]
  refine sum_congr rfl fun k hk => sum_congr rfl fun b hb => ?_
  have hk' := mem_range.1 hk
  have hb' := mem_range.1 hb
  rw [Visibility.sampleAt_unit hk' hb' hp, Visibility.frequency_unit]
  dsimp only
  by_cases hcounts : (vis.sampleAt k b p).flagged = false ∧
      σ.grid.channelAt (vis.frequency.getD b 0) = ch
  · rw [if_pos hcounts, sum_sampleKernel_unit hkind hfit hplaced hp hk' hb' hcounts.1]
    by_cases hinside : σ.IsInside vis k b
    · rw [if_pos hinside, if_pos ⟨hcounts.1, hcounts.2, hinside⟩, norm_one, one_pow, mul_one]
    · rw [if_neg hinside, if_neg fun h => hinside h.2.2, norm_zero, zero_pow two_ne_zero, mul_zero]
  · rw [if_neg hcounts, if_neg fun h => hcounts ⟨h.1, h.2.1⟩]

/-- The cells of samples of value one add up to their sum of weights. -/
theorem sum_directSum_unit :
    ∑ j ∈ range σ.grid.ny, ∑ i ∈ range σ.grid.nx, Grid.directSum vis.unit σ.grid σ.cache
        (PlaneMap.single vis.unit) σ.lattice σ.interpolation ch p j i =
      (σ.insideWeight vis ch p : ℂ) := by
  unfold Grid.directSum insideWeight
  rw [Visibility.rowCount_unit, sum_raster_comm, Complex.ofReal_sum]
  refine sum_congr rfl fun k hk => ?_
  rw [Complex.ofReal_sum]
  refine sum_congr rfl fun b hb => ?_
  have hk' := mem_range.1 hk
  have hb' := mem_range.1 hb
  rw [Visibility.sampleAt_unit hk' hb' hp, Visibility.frequency_unit]
  dsimp only
  by_cases hcounts : (vis.sampleAt k b p).flagged = false ∧
      σ.grid.channelAt (vis.frequency.getD b 0) = ch
  · simp only [hcounts, and_self, if_true, true_and, Cplx.val_one, mul_one, ← mul_sum, ← map_sum]
    rw [sum_sampleKernel_unit hkind hfit hplaced hp hk' hb' hcounts.1]
    by_cases hinside : σ.IsInside vis k b
    · rw [if_pos hinside, if_pos hinside, map_one, mul_one]
    · rw [if_neg hinside, if_neg hinside, map_zero, mul_zero, Complex.ofReal_zero]
  · rw [if_neg fun h => hcounts ⟨h.1, h.2.1⟩, Complex.ofReal_zero]
    exact sum_eq_zero fun j _ => sum_eq_zero fun i _ => if_neg hcounts

end Unit

end Setup

/-! ## The peak -/

/-- For the box function and the anti-aliasing function, where every sample that is not flagged has
    its whole footprint on the grid or off it: the point spread function is one in the middle of
    every channel and polarisation with a positive sum of weights, and that sum is of the weights of
    the samples on the grid that are not flagged and go to the channel. -/
theorem invert_peak_eq_one {nchan npol : ℕ} {vis : Visibility ℝ nchan npol} (σ : Setup)
    (hkind : σ.variant = .box ∨ ∃ p, σ.variant = .spheroidal p) (hb : σ.Bounded)
    (hnchan : 0 < σ.axes.nchan) (hnpol : σ.axes.npol = npol) (hlisted : vis.bare = false)
    (hlength : vis.frequency.length = nchan) {s : Gridder ℝ} (hs : σ.Describes s)
    (hplaced : ∀ k < vis.rowCount, ∀ b < nchan, (∃ p < npol, (vis.sampleAt k b p).flagged = false) →
      σ.IsInside vis k b ∨ σ.IsOutside vis k b) :
    ∃ image sums pixels s', Action.Yields (invert vis true true) s (image, sums) s' ∧
      image.pixels = .real pixels ∧ pixels.shape.map Int.ofNat = σ.axes.shape ∧
      sums.shape = [σ.axes.nchan, npol] ∧
      ∀ ch p, ch < σ.axes.nchan → p < npol →
        sums.get [ch, p] = (∑ k ∈ range vis.rowCount, ∑ b ∈ range nchan,
          if (vis.sampleAt k b p).flagged = false ∧
              σ.grid.channelAt (vis.frequency.getD b 0) = ch ∧ σ.IsInside vis k b then
            (vis.sampleAt k b p).weight else 0) ∧
        (0 < sums.get [ch, p] →
          pixels.get [ch, p, σ.axes.ny.toNat / 2, σ.axes.nx.toNat / 2] = 1) := by
  obtain ⟨support, hsymmetric, hunit⟩ := σ.exists_unitTaps hkind
  obtain ⟨hny, hnx⟩ := σ.length_pos
  obtain ⟨map, hmap, hfit⟩ : ∃ map, σ.variant.planeMap vis.unit (some σ.cache) = .ok map ∧
      ∀ g, Grid.Alike σ.grid g → Grid.Fit vis.unit g σ.cache map σ.lattice :=
    σ.fit_grid hnchan hnpol hlisted hlength
  obtain rfl := Setup.planeMap_eq hkind hmap
  obtain ⟨image, sums, pixels, statistics, hinvert, hpixels, hshape, hsumshape, hsum, hpixel⟩ :=
    Setup.exists_image true true vis (if_pos rfl) hb hs hmap hfit
  have hgridpol : σ.grid.npol = npol := by
    show σ.axes.npol.toNat = npol
    omega
  have hfitgrid := hfit σ.grid (Grid.Alike.refl _)
  refine ⟨image, sums, pixels, _, hinvert, hpixels, ?_, ?_, fun ch p hch hp => ?_⟩
  · rw [hshape, Setup.shape_grid hb]
  · rw [hsumshape, hgridpol]
    rfl
  have hp' : p < σ.grid.npol := hgridpol ▸ hp
  have hweight : sums.get [ch, p] = σ.insideWeight vis ch p := by
    rw [hsum ch p hch hp', Setup.directWeight_unit hkind hfitgrid hplaced hp]
  refine ⟨hweight, fun hpos => ?_⟩
  have hcentre := hpixel ch p (σ.grid.ny / 2) (σ.grid.nx / 2) hch hp'
    (Nat.div_lt_self (show 0 < σ.axes.ny.toNat by omega) one_lt_two)
    (Nat.div_lt_self (show 0 < σ.axes.nx.toNat by omega) one_lt_two)
  -- all waves of the middle are one, so the pixel is the sum of the cells
  simp only [Fourier.wave_centre, mul_one] at hcentre
  rw [Setup.sum_directSum_unit hkind hfitgrid hplaced hp, Complex.ofReal_re, ← hweight] at hcentre
  refine hcentre.trans ?_
  have htaper : σ.corrector.inverse.get (σ.grid.ny / 2) (σ.grid.nx / 2) = 1 :=
    Corrector.inverse_centre σ.corrected hsymmetric.toEvenTaps hunit
  rw [htaper, mul_one, scaleBy, if_pos rfl, if_pos hpos, div_self hpos.ne']

/-- With one phase, a position in the middle of a cell uses that cell alone. -/
theorem axisPoints_intCast (interpolation : Interpolation) (n : ℤ) :
    Grid.axisPoints interpolation 1 (n : ℝ) = (.ofLattice 1 n 1, []) := by
  simp [Grid.axisPoints, Grid.lowerPoint, Scalar.roundInt_intCast]

/-- The box function puts a sample in the middle of a cell into that cell. -/
theorem exists_footprint_unitTap (interpolation : Interpolation) (v u : ℤ) :
    ∃ f, Grid.footprint (Kernel.Variant.unitTap (α := ℝ)) ((0 : ℕ) : ℤ)
        (Grid.axisPoints interpolation 1 (v : ℝ))
        (Grid.axisPoints interpolation 1 (u : ℝ)) = .ok f ∧
      f.v = v ∧ f.v + f.height = v + 1 ∧ f.u = u ∧ f.u + f.width = u + 1 := by
  have hcell : ∀ n, Grid.cellOf 1 n = n := by
    intro n
    rw [Grid.cellOf]
    omega
  obtain ⟨f, hf⟩ : ∃ f, Grid.footprint (Kernel.Variant.unitTap (α := ℝ)) ((0 : ℕ) : ℤ)
      (Grid.axisPoints interpolation 1 (v : ℝ)) (Grid.axisPoints interpolation 1 (u : ℝ)) = .ok f :=
    ⟨_, Grid.footprint_axisPoints_eq interpolation one_pos rfl _ _⟩
  have hrectangle := Grid.rectangle_of_footprint interpolation one_pos rfl v u hf
  simp only [axisPoints_intCast, Grid.lastCell, List.getLast?_nil, Option.getD_none,
    Grid.AxisPoint.ofLattice, hcell] at hrectangle
  exact ⟨f, hf, by omega, by omega, by omega, by omega⟩

/-- Both rows are in the middle of a cell, in the last column of three by four cells. -/
theorem latticePosition_quarterVisibility {σ : Setup} (haxes : σ.axes = Setup.smallAxes)
    (hcell : σ.cell = .perAxis [1 / 4, 1 / 3]) {k : ℕ} (hk : k < 2) :
    Grid.latticePosition Grid.quarterVisibility σ.lattice k 0 =
      (((1 * σ.cache.oversample : ℤ) : ℝ), ((3 * σ.cache.oversample : ℤ) : ℝ)) := by
  obtain ⟨r, hr, hu, hv⟩ := Grid.exists_row_quarterVisibility hk
  have hcells : σ.cell.axes? = some (1 / 4, 1 / 3) := by
    rw [hcell]
    rfl
  have hpixel : σ.axes.pixelSize = [1, 1] := by
    rw [haxes]
    rfl
  obtain ⟨hdu, hdv, -, -⟩ := Setup.lattice_of_axes hcells hpixel
  have hlengths : σ.lattice.ny = 3 ∧ σ.lattice.nx = 4 := (Setup.lengths_of_smallAxes haxes).2
  have hoversample : σ.lattice.oversample = σ.cache.oversample := rfl
  have hpositionV : σ.lattice.positionV (Visibility.wavelengths r.v 299792458) =
      ((1 * σ.cache.oversample : ℤ) : ℝ) := by
    rw [Grid.wavelengths_quarterVisibility, hv, Grid.Lattice.positionV, hdv,
      hlengths.1, hoversample]
    norm_num
  have hpositionU : σ.lattice.positionU (Visibility.wavelengths r.u 299792458) =
      ((3 * σ.cache.oversample : ℤ) : ℝ) := by
    rw [Grid.wavelengths_quarterVisibility, hu, Grid.Lattice.positionU, hdu,
      hlengths.2, hoversample]
    norm_num
  simp only [Grid.latticePosition, hr]
  exact Prod.ext hpositionV hpositionU

theorem isInside_quarterVisibility {σ : Setup} (hvariant : σ.variant = .box)
    (haxes : σ.axes = Setup.smallAxes) (hcell : σ.cell = .perAxis [1 / 4, 1 / 3])
    (hcache : σ.cache = Kernel.Variant.boxCache (.perAxis [1 / 4, 1 / 3])) {k : ℕ} (hk : k < 2) :
    σ.IsInside Grid.quarterVisibility k 0 := by
  have hposition := latticePosition_quarterVisibility haxes hcell hk
  have hone : σ.cache.oversample = 1 := by
    rw [hcache]
    rfl
  rw [hone, Nat.cast_one, mul_one, mul_one] at hposition
  have hk' : k < Grid.quarterVisibility.rows.length := hk
  simp only [Grid.latticePosition, List.getElem?_eq_getElem hk', Prod.mk.injEq] at hposition
  obtain ⟨f, hf, hfv, hfheight, hfu, hfwidth⟩ := exists_footprint_unitTap σ.interpolation 1 3
  rw [← hposition.1, ← hposition.2] at hf
  refine ⟨f, ?_, ?_⟩
  · rw [Setup.footprintOf_eq (.inl hvariant), Grid.sampleFootprint, Grid.plane_single,
      List.getElem?_eq_getElem hk', hcache]
    exact hf
  · unfold Grid.Footprint.Inside
    have hlengths := Setup.lengths_of_smallAxes haxes
    omega

/-- The image of a sample of weight two, next to a flagged one. -/
theorem invert_peak_quarterVisibility :
    ∃ image sums pixels s', Action.Yields (invert Grid.quarterVisibility true true)
        (new .box (some Setup.smallAxes) .linear) (image, sums) s' ∧
      image.pixels = .real pixels ∧ sums.get [0, 0] = 2 ∧ pixels.get [0, 0, 1, 2] = 1 := by
  obtain ⟨σ, hbounded, hvariant, hinterpolation, haxes, hcell, hcache⟩ := Setup.exists_small
  have hinside : ∀ k < 2, σ.IsInside Grid.quarterVisibility k 0 := fun k hk =>
    isInside_quarterVisibility hvariant haxes hcell hcache hk
  obtain ⟨image, sums, pixels, s', hinvert, hpixels, -, -, hpeak⟩ := invert_peak_eq_one σ
    (.inl hvariant) hbounded (by rw [haxes]; decide) (by rw [haxes]; rfl)
    (show Grid.quarterVisibility.bare = false from rfl) rfl σ.describes_new
    (fun k hk b hb _ => by
      obtain rfl : b = 0 := by omega
      exact .inl (hinside k hk))
  rw [hvariant, hinterpolation, haxes] at hinvert
  obtain ⟨hsum, hone⟩ := hpeak 0 0 (by rw [haxes]; decide) (by decide)
  have hchannel : ∀ hertz, σ.grid.channelAt hertz = 0 := by
    intro hertz
    refine if_pos ?_
    show σ.axes.nchan = 1
    rw [haxes]
    rfl
  obtain ⟨hfirst, hsecond⟩ := Grid.sampleAt_quarterVisibility
  have htwo : sums.get [0, 0] = 2 := by
    rw [hsum, show Grid.quarterVisibility.rowCount = 2 from rfl]
    simp [sum_range_succ, hfirst, hsecond, hchannel, hinside]
  have hcentre : σ.axes.ny.toNat / 2 = 1 ∧ σ.axes.nx.toNat / 2 = 2 := by
    rw [haxes]
    exact ⟨rfl, rfl⟩
  rw [hcentre.1, hcentre.2] at hone
  exact ⟨image, sums, pixels, s', hinvert, hpixels, htwo, hone (htwo ▸ two_pos)⟩

end Gridder

end ApertureSynthesis
