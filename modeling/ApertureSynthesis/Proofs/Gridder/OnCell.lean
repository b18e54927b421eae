/-
  Prediction is exact for samples in the middle of a grid cell.

  Such a sample uses one lattice point along each axis, at the central phase, so its prediction is
  the central taps against the cells about its own. The wave between such a cell and a pixel is the
  wave of the sample's cell times that of the tap's place, and the sum over the taps is the
  response, which is the taper (`taper_eq_response`). The model was divided by the taper before, so
  what remains is the direct Fourier sum over the pixels where the taper is positive.
-/
import Mathlib
import ApertureSynthesis.Proofs.Grid.Inside
import ApertureSynthesis.Proofs.Gridder.Setup
import ApertureSynthesis.Proofs.Taper
import ApertureSynthesis.Visibility.PointSource

namespace ApertureSynthesis

open Finset

/-! ## Waves about a cell -/

namespace Corrector

variable {c : Cache ℝ} {s : ℕ}

/-- The wave between a cell about another and a pixel. -/
theorem wave_about {n y j : ℕ} {v : ℤ} (hv : s ≤ v) :
    Fourier.wave .forward n ((v - s).toNat + y) j =
      Fourier.unitRoot .forward n ^ ((v - (n / 2 : ℕ)) * ((j : ℤ) - (n / 2 : ℕ))) *
        Fourier.unitRoot .forward n ^ (((y : ℤ) - s) * ((j : ℤ) - (n / 2 : ℕ))) := by
  have hne : Fourier.unitRoot .forward n ≠ 0 := Complex.exp_ne_zero _
  have hplace : (((v - s).toNat + y : ℕ) : ℤ) - (n / 2 : ℕ) = v - (n / 2 : ℕ) + ((y : ℤ) - s) := by
    omega
  rw [← Fourier.unitRoot_zpow, hplace, add_mul, zpow_add₀ hne]

/-- The central taps against a transform about a cell: each pixel has the wave of the cell and the
    response to the taps. -/
theorem sum_taps_transform (ny nx : ℕ) {v u : ℤ} (hv : s ≤ v) (hu : s ≤ u) (a : ℕ → ℕ → ℂ) :
    ∑ y ∈ range (2 * s + 1), ∑ x ∈ range (2 * s + 1),
        (∑ j ∈ range ny, ∑ i ∈ range nx, a j i *
          (Fourier.wave .forward ny ((v - s).toNat + y) j *
            Fourier.wave .forward nx ((u - s).toNat + x) i)) * (c.centralTap y x : ℂ) =
      ∑ j ∈ range ny, ∑ i ∈ range nx, a j i * response c s ny nx j i *
        (Fourier.unitRoot .forward ny ^ ((v - (ny / 2 : ℕ)) * ((j : ℤ) - (ny / 2 : ℕ))) *
          Fourier.unitRoot .forward nx ^ ((u - (nx / 2 : ℕ)) * ((i : ℤ) - (nx / 2 : ℕ)))) := by
  simp only [sum_mul]
  rw [sum_raster_comm]
  refine sum_congr rfl fun j _ => sum_congr rfl fun i _ => ?_
  rw [response, mul_sum, sum_mul]
  refine sum_congr rfl fun y _ => ?_
  rw [mul_sum, sum_mul]
  refine sum_congr rfl fun x _ => ?_
  rw [wave_about hv, wave_about hu]
  ring

/-- The response divided by the taper. -/
theorem inverse_mul_response {ny nx : ℤ} {k : Corrector ℝ} (h : create c ny nx = .ok k)
    (hc : c.EvenTaps s) {j i : ℕ} (hj : j < ny.toNat) (hi : i < nx.toNat) :
    (k.inverse.get j i : ℂ) * response c s ny.toNat nx.toNat j i =
      if 0 < k.taper.get j i then 1 else 0 := by
  obtain ⟨hny, hnx⟩ := ny_taper h
  rw [← taper_eq_response h hc hj hi, get_inverse k (hny ▸ hj) (hnx ▸ hi)]
  split
  · rename_i hpos
    rw [← Complex.ofReal_mul, inv_mul_cancel₀ hpos.ne', Complex.ofReal_one]
  · rw [Complex.ofReal_zero, zero_mul]

end Corrector

/-! ## Directions -/

/-- Cells of one over the field of view: a whole number of them is a wave over the image. -/
theorem unitRoot_zpow_of_cell {n : ℕ} (hn : 0 < n) {x cell : ℝ} {A : ℤ}
    (h : x / (1 / (n * cell)) = A) (m : ℤ) :
    Fourier.unitRoot .forward n ^ (A * m) =
      Complex.exp (-2 * Real.pi * Complex.I * (x * (m * cell) : ℝ)) := by
  have hne : (n : ℝ) ≠ 0 := by positivity
  have hA : (A : ℝ) = x * (n * cell) := by rw [← h, one_div, div_inv_eq_mul]
  rw [Fourier.unitRoot, ← Complex.exp_int_mul]
  congr 1
  have hreal : (A * m : ℝ) * (-1 * 2 * Real.pi / n) = -2 * Real.pi * (x * (m * cell)) := by
    rw [hA]
    field_simp
  calc ((A * m : ℤ) : ℂ) *
      (((Fourier.Direction.forward.sign : ℝ) * 2 * Real.pi / n : ℝ) * Complex.I)
      = ((A * m : ℝ) * (-1 * 2 * Real.pi / n) : ℝ) * Complex.I := by
        simp only [Fourier.Direction.sign]
        push_cast
        ring
    _ = -2 * Real.pi * Complex.I * (x * (m * cell) : ℝ) := by
        rw [hreal]
        push_cast
        ring

/-- The phase factor of a source, without a w coordinate. -/
theorem Visibility.val_phasorAt {nchan npol : ℕ} (l m : ℝ) (r : Row ℝ nchan npol) (hertz : ℝ) :
    (phasorAt l m { r with w := 0 } hertz).val =
      Complex.exp (-2 * Real.pi * Complex.I *
        (wavelengths r.u hertz * l + wavelengths r.v hertz * m : ℝ)) := by
  have hw : wavelengths (0 : ℝ) hertz = 0 := zero_mul _
  unfold phasorAt
  dsimp only
  rw [Cplx.val_cis, hw, zero_mul, add_zero, Scalar.two_literal]
  congr 1
  show ((-(2 * Real.pi) * _ : ℝ) : ℂ) * Complex.I = _
  push_cast
  ring

/-! ## Samples on cells -/

namespace Gridder

namespace Setup

variable {σ : Setup} {nchan npol : ℕ} {vis : Visibility ℝ nchan npol}

/-- Gridders for the box function or the anti-aliasing function have symmetric caches. -/
theorem exists_symmetric (σ : Setup) (hkind : σ.variant = .box ∨ ∃ p, σ.variant = .spheroidal p) :
    ∃ s, σ.cache.Symmetric s :=
  Kernel.symmetric_of_buildCache σ.built hkind

/-- They map all samples to their plane. -/
theorem planeMap_eq (hkind : σ.variant = .box ∨ ∃ p, σ.variant = .spheroidal p) {map : PlaneMap}
    (hmap : σ.variant.planeMap vis (some σ.cache) = .ok map) : map = PlaneMap.single vis := by
  rcases hkind with hbox | ⟨p, hspheroidal⟩
  · rw [hbox] at hmap
    cases hmap
    rfl
  · rw [hspheroidal] at hmap
    cases hmap
    rfl

/-- A sample in the middle of a cell has the central taps about that cell for its kernel. -/
theorem sampleKernel_of_cell {s : ℕ} (hsymmetric : σ.cache.Symmetric s) {k b : ℕ}
    {r : Row ℝ nchan npol} {hertz : ℝ} (hr : vis.rows[k]? = some r)
    (hhertz : vis.frequency[b]? = some hertz) {A B : ℤ}
    (hu : Visibility.wavelengths r.u hertz / σ.lattice.du = A)
    (hv : Visibility.wavelengths r.v hertz / σ.lattice.dv = B) (j i : ℤ) :
    Grid.sampleKernel vis σ.cache (PlaneMap.single vis) σ.lattice σ.interpolation k b j i =
      Grid.tapAt σ.cache.zeroW s (σ.cache.oversample / 2 : ℕ) (σ.cache.oversample / 2 : ℕ)
        (j - (B + (σ.grid.ny / 2 : ℕ)) + s) (i - (A + (σ.grid.nx / 2 : ℕ)) + s) := by
  have hplane := Grid.plane_single vis k b
  have hposition : ∀ (x d : ℝ) (n : ℕ) (C : ℤ), x / d = C →
      (x / d + (n : ℕ)) * (σ.cache.oversample : ℝ) =
        (((C + (n : ℕ)) * σ.cache.oversample : ℤ) : ℝ) := by
    intro x d n C h
    rw [h]
    push_cast
    rfl
  rw [Grid.sampleKernel_eq σ.lattice σ.interpolation hr hhertz
    (by rw [hplane, hsymmetric.planes]; rfl) (s := s) (by rw [hplane, hsymmetric.supports]; rfl)]
  have hpositionV : σ.lattice.positionV (Visibility.wavelengths r.v hertz) =
      (((B + (σ.grid.ny / 2 : ℕ)) * σ.cache.oversample : ℤ) : ℝ) := hposition _ _ _ B hv
  have hpositionU : σ.lattice.positionU (Visibility.wavelengths r.u hertz) =
      (((A + (σ.grid.nx / 2 : ℕ)) * σ.cache.oversample : ℤ) : ℝ) := hposition _ _ _ A hu
  rw [hpositionV, hpositionU, Grid.kernelAt_of_cell hsymmetric.oversample_pos]

/-- The cells of a setup, from the sizes of its pixels. -/
theorem lattice_of_axes {du dv : ℝ} (hcell : σ.cell.axes? = some (du, dv)) {cellx celly : ℝ}
    {more : List ℝ} (hpixel : σ.axes.pixelSize = cellx :: celly :: more) :
    σ.lattice.du = du ∧ σ.lattice.dv = dv ∧ du = 1 / (σ.grid.nx * cellx) ∧
      dv = 1 / (σ.grid.ny * celly) := by
  obtain ⟨hny, hnx⟩ := σ.length_pos
  have hcast : ∀ n : ℤ, 0 < n → ((n.toNat : ℕ) : ℝ) = n := fun n hn => by
    rw [← Int.cast_natCast, Int.toNat_of_nonneg hn.le]
  have hsizes : σ.pixel = (cellx, celly) := by rw [pixel, hpixel]
  rw [cell_eq, hsizes] at hcell
  cases hcell
  unfold lattice
  rw [hsizes]
  show _ ∧ _ ∧ _ = 1 / (((σ.axes.nx.toNat : ℕ) : ℝ) * cellx) ∧
    _ = 1 / (((σ.axes.ny.toNat : ℕ) : ℝ) * celly)
  rw [hcast _ hnx, hcast _ hny]
  exact ⟨rfl, rfl, rfl, rfl⟩

/-- A model's grid against the central taps about a cell: the model's pixels with positive taper
    against the wave of the cell. -/
theorem sum_modelGrid_tapAt {s : ℕ} (hsymmetric : σ.cache.Symmetric s) {m : Grid ℝ} {ch p : ℕ}
    {a : ℕ → ℕ → ℂ}
    (hm : ∀ k q, k < σ.grid.ny → q < σ.grid.nx → (m.get ch p k q).val =
      ∑ j ∈ range σ.grid.ny, ∑ i ∈ range σ.grid.nx, a j i * (σ.corrector.inverse.get j i : ℂ) *
        (Fourier.wave .forward σ.grid.ny k j * Fourier.wave .forward σ.grid.nx q i))
    {v u : ℤ} (hv : s ≤ v ∧ v + s < σ.grid.ny) (hu : s ≤ u ∧ u + s < σ.grid.nx) :
    ∑ k ∈ range σ.grid.ny, ∑ q ∈ range σ.grid.nx, (m.get ch p k q).val *
        Grid.tapAt σ.cache.zeroW s (σ.cache.oversample / 2 : ℕ) (σ.cache.oversample / 2 : ℕ)
          (k - v + s) (q - u + s) =
      ∑ j ∈ range σ.grid.ny, ∑ i ∈ range σ.grid.nx, if 0 < σ.corrector.taper.get j i then
        a j i * (Fourier.unitRoot .forward σ.grid.ny ^
            ((v - (σ.grid.ny / 2 : ℕ)) * ((j : ℤ) - (σ.grid.ny / 2 : ℕ))) *
          Fourier.unitRoot .forward σ.grid.nx ^
            ((u - (σ.grid.nx / 2 : ℕ)) * ((i : ℤ) - (σ.grid.nx / 2 : ℕ)))) else 0 := by
  calc ∑ k ∈ range σ.grid.ny, ∑ q ∈ range σ.grid.nx, (m.get ch p k q).val *
        Grid.tapAt σ.cache.zeroW s (σ.cache.oversample / 2 : ℕ) (σ.cache.oversample / 2 : ℕ)
          (k - v + s) (q - u + s)
      = ∑ y ∈ range (2 * s + 1), ∑ x ∈ range (2 * s + 1),
        (m.get ch p ((v - s).toNat + y) ((u - s).toNat + x)).val * (σ.cache.zeroW.get
          [σ.cache.oversample / 2, σ.cache.oversample / 2, y, x]).val :=
        Grid.sum_tapAt σ.cache.zeroW hv hu _ _ fun k q => (m.get ch p k q).val
    _ = ∑ y ∈ range (2 * s + 1), ∑ x ∈ range (2 * s + 1),
        (∑ j ∈ range σ.grid.ny, ∑ i ∈ range σ.grid.nx,
          a j i * (σ.corrector.inverse.get j i : ℂ) *
            (Fourier.wave .forward σ.grid.ny ((v - s).toNat + y) j *
              Fourier.wave .forward σ.grid.nx ((u - s).toNat + x) i)) *
                (σ.cache.centralTap y x : ℂ) := by
        refine sum_congr rfl fun y hy => sum_congr rfl fun x hx => ?_
        have hy' := mem_range.1 hy
        have hx' := mem_range.1 hx
        rw [hm _ _ (by omega) (by omega), hsymmetric.real y (by omega) x (by omega)]
    _ = _ := by
        rw [Corrector.sum_taps_transform _ _ hv.1 hu.1 fun j i =>
          a j i * (σ.corrector.inverse.get j i : ℂ)]
        refine sum_congr rfl fun j hj => sum_congr rfl fun i hi => ?_
        have hinverse : (σ.corrector.inverse.get j i : ℂ) *
            Corrector.response σ.cache s σ.grid.ny σ.grid.nx j i =
              if 0 < σ.corrector.taper.get j i then 1 else 0 :=
          Corrector.inverse_mul_response σ.corrected hsymmetric.toEvenTaps (mem_range.1 hj)
            (mem_range.1 hi)
        rw [mul_assoc (a j i), hinverse]
        split
        · rw [mul_one]
        · rw [mul_zero, zero_mul]

end Setup

/-! ## Prediction -/

variable {nchan npol : ℕ} {vis : Visibility ℝ nchan npol}

/-- For the box function and the anti-aliasing function, a sample in the middle of a cell whose taps
    are on the grid is predicted as the direct Fourier sum over the pixels of the model where the
    taper is positive, with the phase factor of each pixel's direction. -/
theorem predict_eq_fourier_sum (σ : Setup)
    (hkind : σ.variant = .box ∨ ∃ p, σ.variant = .spheroidal p) (hb : σ.Bounded)
    (hnchan : 0 < σ.axes.nchan) (hnpol : σ.axes.npol = npol) (hlisted : vis.bare = false)
    (hlength : vis.frequency.length = nchan) {model : Image ℝ}
    (hshape : model.shape.map Int.ofNat = σ.axes.shape) {s : Gridder ℝ} (hs : σ.Describes s)
    {du dv : ℝ} (hcell : σ.cell.axes? = some (du, dv)) {cellx celly : ℝ} {more : List ℝ}
    (hpixel : σ.axes.pixelSize = cellx :: celly :: more) :
    ∃ vis' s', Action.Yields (predict vis model) s vis' s' ∧ σ.Describes s' ∧
      ∃ support : ℕ, σ.cache.supports = [(support : ℤ)] ∧
      ∀ (k b : ℕ) (r : Row ℝ nchan npol) (hertz u v : ℝ) (A B : ℤ),
        vis.rows[k]? = some r → vis.frequency[b]? = some hertz →
        u = Visibility.wavelengths r.u hertz → v = Visibility.wavelengths r.v hertz →
        u / du = A → v / dv = B →
        0 ≤ A + σ.axes.nx / 2 - support → A + σ.axes.nx / 2 + support < σ.axes.nx →
        0 ≤ B + σ.axes.ny / 2 - support → B + σ.axes.ny / 2 + support < σ.axes.ny →
        (∀ p < npol, (vis'.sampleAt k b p).value.val =
          ∑ j ∈ range σ.axes.ny.toNat, ∑ i ∈ range σ.axes.nx.toNat,
            if 0 < σ.corrector.taper.get j i then
              (model.pixels.toComplex.get [σ.grid.channelAt hertz, p, j, i]).val *
                Complex.exp (-2 * Real.pi * Complex.I *
                  (u * ((i - σ.axes.nx / 2 : ℤ) * cellx) +
                    v * ((j - σ.axes.ny / 2 : ℤ) * celly) : ℝ))
            else 0) ∧
        ∀ l m : ℝ, (Visibility.phasorAt l m { r with w := 0 } hertz).val =
          Complex.exp (-2 * Real.pi * Complex.I * (u * l + v * m : ℝ)) := by
  obtain ⟨support, hsymmetric⟩ := σ.exists_symmetric hkind
  have hmodel := Setup.eq_shape_grid hb hshape
  obtain ⟨map, hmap, hfit⟩ := σ.fit_grid hnchan hnpol hlisted hlength
  obtain ⟨corrected, grid, hcorrect, hgrid, halike, hgridcell⟩ := σ.exists_modelGrid hmodel
  obtain ⟨vis', counted, hpredict, hvalue⟩ :=
    Setup.exists_predict hb hs hmap hfit hmodel hcorrect hgrid halike
  have hsingle := Setup.planeMap_eq hkind hmap
  subst hsingle
  refine ⟨vis', _, hpredict, ⟨rfl, rfl, rfl, .inr ⟨rfl, rfl⟩⟩, support, hsymmetric.supports, ?_⟩
  rintro k b r hertz u v A B hr hhertz rfl rfl hA hB hleft hright htop hbottom
  refine ⟨fun p hp => ?_, fun l m => Visibility.val_phasorAt l m r hertz⟩
  obtain ⟨hnypos, hnxpos⟩ := σ.length_pos
  have hny : (σ.grid.ny : ℤ) = σ.axes.ny := Int.toNat_of_nonneg hnypos.le
  have hnx : (σ.grid.nx : ℤ) = σ.axes.nx := Int.toNat_of_nonneg hnxpos.le
  have hhalfy : ((σ.grid.ny / 2 : ℕ) : ℤ) = σ.axes.ny / 2 := by omega
  have hhalfx : ((σ.grid.nx / 2 : ℕ) : ℤ) = σ.axes.nx / 2 := by omega
  have hpol : p < σ.grid.npol := by
    show p < σ.axes.npol.toNat
    omega
  have hfrequency : vis.frequency.getD b 0 = hertz := by
    rw [List.getD_eq_getElem?_getD, hhertz, Option.getD_some]
  have hchannel := (hfit σ.grid (Grid.Alike.refl _)).channelAt_lt hertz
  obtain ⟨hdu, hdv, hdux, hdvy⟩ := Setup.lattice_of_axes hcell hpixel
  have hvisible : k < vis.rowCount ∧ b < nchan :=
    ⟨(List.getElem?_eq_some_iff.1 hr).1, hlength ▸ (List.getElem?_eq_some_iff.1 hhertz).1⟩
  rw [hvalue k hvisible.1 b hvisible.2 p hp, hfrequency]
  simp only [Setup.sampleKernel_of_cell hsymmetric hr hhertz (hdu ▸ hA) (hdv ▸ hB)]
  rw [Setup.sum_modelGrid_tapAt hsymmetric
    (fun k q hk hq => hgridcell (σ.grid.channelAt hertz) p k q hchannel hpol hk hq)
    (by omega) (by omega)]
  refine sum_congr rfl fun j _ => sum_congr rfl fun i _ => ?_
  rw [add_sub_cancel_right, add_sub_cancel_right, unitRoot_zpow_of_cell (by omega) (hdvy ▸ hB),
    unitRoot_zpow_of_cell (by omega) (hdux ▸ hA), ← Complex.exp_add, hhalfx, hhalfy, ← mul_add,
    ← Complex.ofReal_add, add_comm (Visibility.wavelengths r.v hertz * _)]

/-- The box function has the taper one. -/
theorem Setup.taper_box {σ : Setup} {cell : CellSize ℝ}
    (hcache : σ.cache = Kernel.Variant.boxCache cell) {j i : ℕ} (hj : j < σ.axes.ny.toNat)
    (hi : i < σ.axes.nx.toNat) : σ.corrector.taper.get j i = 1 := by
  have hcorrected := σ.corrected
  rw [hcache] at hcorrected
  have htaper :=
    Corrector.taper_eq_response hcorrected (Kernel.symmetric_boxCache cell).toEvenTaps hj hi
  simpa [Corrector.response, Kernel.centralTap_boxCache] using htaper

theorem exp_quarter : Complex.exp (-2 * Real.pi * Complex.I * (1 / 4 : ℝ)) = -Complex.I := by
  have hturn : (-2 * Real.pi * Complex.I * (1 / 4 : ℝ) : ℂ) = -(Real.pi / 2 * Complex.I) := by
    push_cast
    ring
  rw [hturn, Complex.exp_neg, Complex.exp_pi_div_two_mul_I, Complex.inv_I]

/-- A sample one cell from the centre sees a source one pixel from the centre a quarter turn
    away. -/
theorem predict_quarterVisibility :
    ∃ vis' s', Action.Yields (predict Grid.quarterVisibility Setup.pointModel)
        (new .box (some Setup.smallAxes) .linear) vis' s' ∧
      (vis'.sampleAt 0 0 0).value.val = -Complex.I := by
  obtain ⟨σ, hbounded, hvariant, hinterpolation, haxes, hcell, hcache⟩ := Setup.exists_small
  have hshape : Setup.pointModel.shape.map Int.ofNat = σ.axes.shape := by rw [haxes]; rfl
  have hcells : σ.cell.axes? = some (1 / 4, 1 / 3) := by rw [hcell]; rfl
  have hpixel : σ.axes.pixelSize = [1, 1] := by rw [haxes]; rfl
  obtain ⟨vis', s', hpredict, -, support, hsupport, hsample⟩ := predict_eq_fourier_sum σ
    (.inl hvariant) hbounded (by rw [haxes]; decide) (by rw [haxes]; rfl)
    (show Grid.quarterVisibility.bare = false from rfl) rfl hshape σ.describes_new hcells hpixel
  rw [hvariant, hinterpolation, haxes] at hpredict
  refine ⟨vis', s', hpredict, ?_⟩
  have hzero : support = 0 := by
    rw [hcache] at hsupport
    simpa [Kernel.Variant.boxCache] using hsupport.symm
  subst hzero
  obtain ⟨hvalue, -⟩ := hsample 0 0 _ 299792458 _ _ 1 0 rfl rfl rfl rfl
    (by rw [Grid.wavelengths_quarterVisibility]; norm_num [Grid.quarterVisibility])
    (by rw [Grid.wavelengths_quarterVisibility]; norm_num [Grid.quarterVisibility])
    (by rw [haxes]; decide) (by rw [haxes]; decide) (by rw [haxes]; decide) (by rw [haxes]; decide)
  have hlengths : σ.axes.ny.toNat = 3 ∧ σ.axes.nx.toNat = 4 ∧ σ.axes.ny / 2 = 1 ∧
      σ.axes.nx / 2 = 2 := by
    rw [haxes]
    exact ⟨rfl, rfl, rfl, rfl⟩
  have hchannel : σ.grid.channelAt 299792458 = 0 := by
    have hone : σ.grid.nchan = 1 := by
      show σ.axes.nchan = 1
      rw [haxes]
      rfl
    exact if_pos hone
  have hterm : ∀ j ∈ range 3, ∀ i ∈ range 4,
      (if 0 < σ.corrector.taper.get j i then
        (((Pixels.real Setup.pointPixels).toComplex.get [0, 0, j, i]).val : ℂ) *
          Complex.exp (-2 * Real.pi * Complex.I *
            (1 / 4 * ((i - 2 : ℤ) * 1) + 0 * ((j - 1 : ℤ) * 1) : ℝ)) else 0) =
      if j = 1 ∧ i = 3 then -Complex.I else 0 := by
    intro j hj i hi
    have hj' := mem_range.1 hj
    have hi' := mem_range.1 hi
    have htaper : σ.corrector.taper.get j i = 1 :=
      Setup.taper_box hcache (hlengths.1 ▸ hj') (hlengths.2.1 ▸ hi')
    have hwithin : Tensor.Within Setup.pointPixels.shape [0, 0, j, i] :=
      ⟨by decide, by decide, hj', hi', trivial⟩
    rw [if_pos (htaper ▸ one_pos), Pixels.val_toComplex_real hwithin, Setup.get_pointPixels hj' hi']
    by_cases hsource : j = 1 ∧ i = 3
    · obtain ⟨rfl, rfl⟩ := hsource
      rw [if_pos ⟨rfl, rfl⟩, if_pos ⟨rfl, rfl⟩, ← exp_quarter]
      norm_num
    · rw [if_neg hsource, if_neg hsource, Complex.ofReal_zero, zero_mul]
  rw [hvalue 0 (by decide), hchannel, hlengths.1, hlengths.2.1, hlengths.2.2.1, hlengths.2.2.2,
    Grid.wavelengths_quarterVisibility, Grid.wavelengths_quarterVisibility]
  exact (sum_congr rfl fun j hj => sum_congr rfl (hterm j hj)).trans (by simp [sum_range_succ])

end Gridder

end ApertureSynthesis
