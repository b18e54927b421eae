/-
  Prediction is the adjoint of imaging.

  From model to samples there are a division by the taper, a transform, and degridding; from samples
  to image gridding, a transform, the real part, and a division by the taper. Degridding and
  gridding are adjoint to each other (`sum_conj_directSum`), and so are the transforms of the two
  directions, because their waves are conjugate (`re_sum_wave`). Nothing depends on the kind of
  convolution function, on its taper, or on the parity of the axes.
-/
import Mathlib
import ApertureSynthesis.Proofs.Gridder.Setup

namespace ApertureSynthesis.Gridder

open ComplexConjugate Finset

/-! ## The transforms -/

/-- The forward transform of a real raster against a grid is the raster against the real part of the
    grid's inverse transform. -/
theorem re_sum_wave (ny nx : ℕ) (a : ℕ → ℕ → ℝ) (d : ℕ → ℕ → ℂ) :
    (∑ k ∈ range ny, ∑ q ∈ range nx, conj (d k q) *
        ∑ j ∈ range ny, ∑ i ∈ range nx, (a j i : ℂ) *
          (Fourier.wave .forward ny k j * Fourier.wave .forward nx q i)).re =
      ∑ j ∈ range ny, ∑ i ∈ range nx, a j i *
        (∑ k ∈ range ny, ∑ q ∈ range nx, d k q *
          (Fourier.wave .inverse ny j k * Fourier.wave .inverse nx i q)).re := by
  have hwave : ∀ n k j, Fourier.wave .forward n k j = conj (Fourier.wave .inverse n j k) := by
    intro n k j
    rw [← Fourier.conj_wave_forward, Complex.conj_conj, Fourier.wave_comm]
  have hexchange : ∑ k ∈ range ny, ∑ q ∈ range nx, conj (d k q) *
        ∑ j ∈ range ny, ∑ i ∈ range nx, (a j i : ℂ) *
          (Fourier.wave .forward ny k j * Fourier.wave .forward nx q i) =
      ∑ j ∈ range ny, ∑ i ∈ range nx, (a j i : ℂ) * conj (∑ k ∈ range ny, ∑ q ∈ range nx,
        d k q * (Fourier.wave .inverse ny j k * Fourier.wave .inverse nx i q)) := by
    simp only [mul_sum, map_sum]
    rw [sum_raster_comm]
    refine sum_congr rfl fun j _ => sum_congr rfl fun i _ => sum_congr rfl fun k _ =>
      sum_congr rfl fun q _ => ?_
    rw [hwave, hwave, map_mul, map_mul]
    ring
  rw [hexchange, Complex.re_sum]
  refine sum_congr rfl fun j _ => ?_
  rw [Complex.re_sum]
  refine sum_congr rfl fun i _ => ?_
  rw [Complex.re_ofReal_mul, Complex.conj_re]

/-- A grid against the grid of a real model is the image of the first against the model: both divide
    by the taper, one before its transform and one after. -/
theorem Setup.re_sum_conj_modelGrid (σ : Setup) {model : Tensor (Cplx ℝ)} {m pixels : Tensor ℝ}
    {grid : Grid ℝ} {d : ℕ → ℕ → ℕ → ℕ → ℂ}
    (hreal : ∀ ch p j i, ch < σ.grid.nchan → p < σ.grid.npol → j < σ.grid.ny → i < σ.grid.nx →
      (model.get [ch, p, j, i]).val = (m.get [ch, p, j, i] : ℂ))
    (hcell : ∀ ch p k q, ch < σ.grid.nchan → p < σ.grid.npol → k < σ.grid.ny → q < σ.grid.nx →
      (grid.get ch p k q).val = ∑ j ∈ range σ.grid.ny, ∑ i ∈ range σ.grid.nx,
        (model.get [ch, p, j, i]).val * (σ.corrector.inverse.get j i : ℂ) *
          (Fourier.wave .forward σ.grid.ny k j * Fourier.wave .forward σ.grid.nx q i))
    (hpixel : ∀ ch p j i, ch < σ.grid.nchan → p < σ.grid.npol → j < σ.grid.ny → i < σ.grid.nx →
      pixels.get [ch, p, j, i] = (∑ k ∈ range σ.grid.ny, ∑ q ∈ range σ.grid.nx, d ch p k q *
        (Fourier.wave .inverse σ.grid.ny j k * Fourier.wave .inverse σ.grid.nx i q)).re *
          σ.corrector.inverse.get j i) :
    (∑ ch ∈ range σ.grid.nchan, ∑ p ∈ range σ.grid.npol, ∑ k ∈ range σ.grid.ny,
        ∑ q ∈ range σ.grid.nx, conj (d ch p k q) * (grid.get ch p k q).val).re =
      ∑ ch ∈ range σ.grid.nchan, ∑ p ∈ range σ.grid.npol, ∑ j ∈ range σ.grid.ny,
        ∑ i ∈ range σ.grid.nx, pixels.get [ch, p, j, i] * m.get [ch, p, j, i] := by
  rw [Complex.re_sum]
  refine sum_congr rfl fun ch hch => ?_
  rw [Complex.re_sum]
  refine sum_congr rfl fun p hp => ?_
  have hch' := mem_range.1 hch
  have hp' := mem_range.1 hp
  have hcorrected : ∀ j ∈ range σ.grid.ny, ∀ i ∈ range σ.grid.nx,
      (model.get [ch, p, j, i]).val * (σ.corrector.inverse.get j i : ℂ) =
        ((m.get [ch, p, j, i] * σ.corrector.inverse.get j i : ℝ) : ℂ) := by
    intro j hj i hi
    rw [hreal ch p j i hch' hp' (mem_range.1 hj) (mem_range.1 hi), Complex.ofReal_mul]
  rw [sum_congr rfl fun k hk => sum_congr rfl fun q hq => by
    rw [hcell ch p k q hch' hp' (mem_range.1 hk) (mem_range.1 hq),
      sum_congr rfl fun j hj => sum_congr rfl fun i hi => by rw [hcorrected j hj i hi]]]
  rw [re_sum_wave]
  refine sum_congr rfl fun j hj => sum_congr rfl fun i hi => ?_
  rw [hpixel ch p j i hch' hp' (mem_range.1 hj) (mem_range.1 hi)]
  ring

/-! ## The pipeline -/

variable {nchan npol : ℕ} {vis : Visibility ℝ nchan npol}

/-- A gridder predicts visibilities from a real model, and any gridder of the same setup makes an
    image of visibilities, such that the masked values against the predictions are the image against
    the model. -/
theorem invert_adjoint_predict (σ : Setup) (hb : σ.Bounded) (hnchan : 0 < σ.axes.nchan)
    (hnpol : σ.axes.npol = npol) (hlisted : vis.bare = false)
    (hlength : vis.frequency.length = nchan) {model : Image ℝ} {m : Tensor ℝ}
    (hreal : model.pixels = .real m) (hshape : m.shape.map Int.ofNat = σ.axes.shape) {s : Gridder ℝ}
    (hs : σ.Describes s) :
    ∃ vis' s', Action.Yields (predict vis model) s vis' s' ∧ σ.Describes s' ∧
      ∀ t, σ.Describes t → ∃ image sums pixels t',
        Action.Yields (invert vis false false) t (image, sums) t' ∧
        image.pixels = .real pixels ∧ pixels.shape = m.shape ∧
        (∑ k ∈ range vis.rowCount, ∑ b ∈ range nchan, ∑ p ∈ range npol,
            conj ((vis.sampleAt k b p).flaggedWeight * (vis.sampleAt k b p).value.val) *
              (vis'.sampleAt k b p).value.val).re =
          ∑ ch ∈ range σ.axes.nchan, ∑ p ∈ range npol, ∑ j ∈ range σ.axes.ny.toNat,
            ∑ i ∈ range σ.axes.nx.toNat, pixels.get [ch, p, j, i] * m.get [ch, p, j, i] := by
  have hmshape := Setup.eq_shape_grid hb hshape
  have hmodel : model.shape = σ.grid.shape := by
    rw [Image.shape, hreal]
    exact hmshape
  obtain ⟨map, hmap, hfit⟩ := σ.fit_grid hnchan hnpol hlisted hlength
  obtain ⟨corrected, grid, hcorrect, hgrid, halike, hcell⟩ := σ.exists_modelGrid hmodel
  obtain ⟨vis', counted, hpredict, hvalue⟩ :=
    Setup.exists_predict hb hs hmap hfit hmodel hcorrect hgrid halike
  refine ⟨vis', _, hpredict, ⟨rfl, rfl, rfl, .inr ⟨rfl, rfl⟩⟩, fun t ht => ?_⟩
  obtain ⟨image, sums, pixels, statistics, hinvert, hpixels, hpixelshape, hpixel⟩ :=
    Setup.exists_invert hb ht hmap hfit
  refine ⟨image, sums, pixels, _, hinvert, hpixels, hpixelshape.trans hmshape.symm, ?_⟩
  have hgridpol : σ.grid.npol = npol := by
    show σ.axes.npol.toNat = npol
    omega
  have hreal' : ∀ ch p j i, ch < σ.grid.nchan → p < σ.grid.npol → j < σ.grid.ny → i < σ.grid.nx →
      (model.pixels.toComplex.get [ch, p, j, i]).val = (m.get [ch, p, j, i] : ℂ) := by
    intro ch p j i hch hp hj hi
    rw [hreal, Pixels.val_toComplex_real (hmshape ▸ ⟨hch, hp, hj, hi, trivial⟩)]
  calc (∑ k ∈ range vis.rowCount, ∑ b ∈ range nchan, ∑ p ∈ range npol,
        conj ((vis.sampleAt k b p).flaggedWeight * (vis.sampleAt k b p).value.val) *
          (vis'.sampleAt k b p).value.val).re
      = (∑ k ∈ range vis.rowCount, ∑ b ∈ range nchan, ∑ p ∈ range npol,
        conj ((vis.sampleAt k b p).flaggedWeight * (vis.sampleAt k b p).value.val) *
          ∑ j ∈ range σ.grid.ny, ∑ i ∈ range σ.grid.nx,
            (grid.get (σ.grid.channelAt (vis.frequency.getD b 0)) p j i).val *
              Grid.sampleKernel vis σ.cache map σ.lattice σ.interpolation k b j i).re := by
        refine congrArg Complex.re (sum_congr rfl fun k hk => sum_congr rfl fun b hb' =>
          sum_congr rfl fun p hp => ?_)
        rw [hvalue k (mem_range.1 hk) b (mem_range.1 hb') p (mem_range.1 hp)]
    _ = (∑ ch ∈ range σ.grid.nchan, ∑ p ∈ range σ.grid.npol, ∑ k ∈ range σ.grid.ny,
        ∑ q ∈ range σ.grid.nx,
          conj (Grid.directSum vis σ.grid σ.cache map σ.lattice σ.interpolation ch p k q) *
            (grid.get ch p k q).val).re := by
        rw [Grid.sum_conj_directSum (hfit σ.grid (Grid.Alike.refl _)) σ.interpolation
          fun ch p k q => (grid.get ch p k q).val]
    _ = ∑ ch ∈ range σ.grid.nchan, ∑ p ∈ range σ.grid.npol, ∑ j ∈ range σ.grid.ny,
        ∑ i ∈ range σ.grid.nx, pixels.get [ch, p, j, i] * m.get [ch, p, j, i] :=
        σ.re_sum_conj_modelGrid hreal' hcell hpixel
    _ = _ := by
        rw [hgridpol]
        rfl

/-- The pixel of a source in the dirty image of one sample, and the sample's value against its
    prediction from that source. -/
theorem invert_adjoint_predict_quarterVisibility :
    ∃ vis' s' image sums pixels t',
      Action.Yields (predict Grid.quarterVisibility Setup.pointModel)
        (new .box (some Setup.smallAxes) .linear) vis' s' ∧
      Action.Yields (invert Grid.quarterVisibility false false) s' (image, sums) t' ∧
      image.pixels = .real pixels ∧
      (2 * conj (3 + 4 * Complex.I) * (vis'.sampleAt 0 0 0).value.val).re =
        pixels.get [0, 0, 1, 3] := by
  obtain ⟨σ, hbounded, hvariant, hinterpolation, haxes, -, -⟩ := Setup.exists_small
  obtain ⟨vis', s', hpredict, hs', hadjoint⟩ := invert_adjoint_predict σ hbounded
    (by rw [haxes]; decide) (by rw [haxes]; rfl)
    (show Grid.quarterVisibility.bare = false from rfl) rfl
    (show Setup.pointModel.pixels = .real Setup.pointPixels from rfl) (by rw [haxes]; rfl)
    σ.describes_new
  obtain ⟨image, sums, pixels, t', hinvert, hpixels, -, hsum⟩ := hadjoint s' hs'
  rw [hvariant, hinterpolation, haxes] at hpredict
  refine ⟨vis', s', image, sums, pixels, t', hpredict, hinvert, hpixels, ?_⟩
  obtain ⟨hfirst, hsecond⟩ := Grid.sampleAt_quarterVisibility
  have hrows : Grid.quarterVisibility.rowCount = 2 := rfl
  have hlengths : σ.axes.nchan = 1 ∧ σ.axes.ny.toNat = 3 ∧ σ.axes.nx.toNat = 4 := by
    rw [haxes]
    exact ⟨rfl, rfl, rfl⟩
  rw [hrows, hlengths.1, hlengths.2.1, hlengths.2.2] at hsum
  have hpoint : ∀ j < 3, ∀ i < 4, Setup.pointPixels.get [0, 0, j, i] =
      if j = 1 ∧ i = 3 then 1 else 0 :=
    fun j hj i hi => Setup.get_pointPixels hj hi
  simpa [sum_range_succ, hfirst, hsecond, Grid.flaggedWeight_real, Grid.val_quarterVisibility,
    hpoint, mul_comm] using hsum

end ApertureSynthesis.Gridder
