/-
  Visibilities and images that fit the axes of a gridder can be gridded, predicted and imaged.

  `fit_grid` is for every kind of convolution function: visibilities with a frequency for each
  channel and the polarisations of the axes have a plane map and pass all checks.
-/
import Mathlib
import ApertureSynthesis.Proofs.Gridder.Action
import ApertureSynthesis.Proofs.Taper

namespace ApertureSynthesis.Gridder.Setup

variable {σ : Setup}

/-! ## Cells -/

/-- Sizes of a pixel in x and y. -/
noncomputable def pixel (σ : Setup) : ℝ × ℝ :=
  match σ.axes.pixelSize with
  | x :: y :: _ => (x, y)
  | _ => (0, 0)

/-- The cell is one over the field of view. -/
theorem cell_eq (σ : Setup) :
    σ.cell = .perAxis [1 / (σ.axes.nx * σ.pixel.1), 1 / (σ.axes.ny * σ.pixel.2)] := by
  have hcell := σ.cellSize_axes
  unfold Axes.cellSize Axes.cellSize? Axes.fieldOfView? at hcell
  unfold pixel
  split at hcell
  · rename_i c hc
    cases hcell
    split at hc
    · rename_i x y rest hpixel
      rw [hpixel]
      simp only [Option.map_some, Scalar.one_literal] at hc
      exact (Option.some.inj hc).symm
    · cases hc
  · cases hcell

/-- The lattice of the grid of a setup. -/
noncomputable def lattice (σ : Setup) : Grid.Lattice ℝ :=
  ⟨1 / (σ.axes.nx * σ.pixel.1), 1 / (σ.axes.ny * σ.pixel.2), σ.axes.nx.toNat, σ.axes.ny.toNat,
    σ.cache.oversample⟩

theorem lattice_grid (σ : Setup) : σ.grid.lattice σ.cache = .ok σ.lattice := by
  have haxes : σ.grid.cellSize.axes? =
      some (1 / (σ.axes.nx * σ.pixel.1), 1 / (σ.axes.ny * σ.pixel.2)) := by
    show σ.cell.axes? = _
    rw [cell_eq]
    rfl
  unfold Grid.lattice
  rw [haxes]
  rfl

theorem close_self (x : ℝ) : CellSize.close x x = true := by
  simp [CellSize.close]

/-! ## Visibilities -/

variable {nchan npol : ℕ} {vis : Visibility ℝ nchan npol}

/-- Visibilities with a frequency for each channel and the polarisations of the axes fit the grid of
    a setup, with the plane map of its kind. -/
theorem fit_grid (σ : Setup) (hnchan : 0 < σ.axes.nchan) (hnpol : σ.axes.npol = npol)
    (hlisted : vis.bare = false) (hlength : vis.frequency.length = nchan) :
    ∃ map, σ.variant.planeMap vis (some σ.cache) = .ok map ∧
      ∀ g, Grid.Alike σ.grid g → Grid.Fit vis g σ.cache map σ.lattice := by
  have hbuilt := σ.built
  rw [cell_eq] at hbuilt
  obtain ⟨hwell, hcell⟩ := Kernel.wellFormed_of_buildCache hbuilt
  obtain ⟨map, hmap, hshape, hcount⟩ := Kernel.exists_planeMap hbuilt hlisted hlength
  have hchecked : Grid.checkFit vis σ.grid σ.cache map = .ok () := by
    have hagree : σ.grid.cellSize.agree? σ.cache.cellSize = some true := by
      show σ.cell.agree? σ.cache.cellSize = _
      rw [hcell, cell_eq]
      simp [CellSize.agree?, CellSize.values, close_self]
    have hpol : npol = σ.grid.npol := by
      show npol = σ.axes.npol.toNat
      omega
    unfold Grid.checkFit
    rw [if_neg (not_not.2 hpol), if_neg (not_not.2 hshape), if_neg (not_not.2 hcount), hagree]
  have hfit : Grid.Fit vis σ.grid σ.cache map σ.lattice :=
    { cache := hwell
      checked := hchecked
      listed := hlisted
      length_frequency := hlength
      nchan_pos := hnchan
      tuned := .inr ⟨σ.axes.frequency, rfl, σ.axes.length_frequency⟩
      lattice := lattice_grid σ }
  exact ⟨map, hmap, fun g hg => hfit.of_alike hg⟩

/-! ## Models -/

/-- A model of the shape of the axes makes a grid: the transform of the model divided by the taper
    where that is positive. -/
theorem exists_modelGrid (σ : Setup) {model : Image ℝ} (hshape : model.shape = σ.grid.shape) :
    ∃ corrected m, σ.corrector.correct model = .ok corrected ∧
      σ.grid.ofImage corrected.pixels = .ok m ∧ Grid.Alike σ.grid m ∧
      ∀ ch p k q, ch < σ.grid.nchan → p < σ.grid.npol → k < σ.grid.ny → q < σ.grid.nx →
        (m.get ch p k q).val = ∑ j ∈ Finset.range σ.grid.ny, ∑ i ∈ Finset.range σ.grid.nx,
          (model.pixels.toComplex.get [ch, p, j, i]).val * (σ.corrector.inverse.get j i : ℂ) *
            (Fourier.wave .forward σ.grid.ny k j * Fourier.wave .forward σ.grid.nx q i) := by
  obtain ⟨hny, hnx⟩ := σ.length_pos
  obtain ⟨htny, htnx⟩ := Corrector.ny_taper σ.corrected
  have hraster : σ.corrector.inverse.ny = σ.grid.ny ∧ σ.corrector.inverse.nx = σ.grid.nx :=
    ⟨htny, htnx⟩
  have htaper : model.shape =
      [σ.grid.nchan, σ.grid.npol, σ.corrector.taper.ny, σ.corrector.taper.nx] := by
    rw [hshape, htny, htnx]
    rfl
  obtain ⟨corrected, hcorrect, hpixels⟩ := σ.corrector.exists_correct model htaper
  have hcorrectedshape : corrected.pixels.shape = σ.grid.shape := by
    rw [hpixels, Pixels.shape_mulRaster, ← hshape]
    rfl
  obtain ⟨m, hm, halike, hget⟩ := σ.grid.exists_ofImage (show 0 < σ.axes.ny.toNat by omega)
    (show 0 < σ.axes.nx.toNat by omega) hcorrectedshape
  refine ⟨corrected, m, hcorrect, hm, halike, fun ch p k q hch hp hk hq => ?_⟩
  rw [hget ch p k q hch hp hk hq]
  refine Finset.sum_congr rfl fun j hj => Finset.sum_congr rfl fun i hi => ?_
  have hmodel : model.pixels.shape =
      [σ.grid.nchan, σ.grid.npol, σ.corrector.inverse.ny, σ.corrector.inverse.nx] := by
    rw [hraster.1, hraster.2]
    exact hshape
  rw [hpixels, Pixels.get_mulRaster hmodel hch hp (hraster.1 ▸ Finset.mem_range.1 hj)
    (hraster.2 ▸ Finset.mem_range.1 hi)]

/-! ## Prediction and imaging -/

/-- From a gridder of a setup, visibilities are predicted as sums of the model's grid times
    kernel. -/
theorem exists_predict (hb : σ.Bounded) {s : Gridder ℝ} (hs : σ.Describes s) {map : PlaneMap}
    (hmap : σ.variant.planeMap vis (some σ.cache) = .ok map)
    (hfit : ∀ g, Grid.Alike σ.grid g → Grid.Fit vis g σ.cache map σ.lattice)
    {model corrected : Image ℝ} (hshape : model.shape = σ.grid.shape)
    (hcorrect : σ.corrector.correct model = .ok corrected) {m : Grid ℝ}
    (hm : σ.grid.ofImage corrected.pixels = .ok m) (halike : Grid.Alike σ.grid m) :
    ∃ vis' statistics, Action.Yields (predict vis model) s vis' (σ.inStage .active statistics) ∧
      ∀ k < vis.rowCount, ∀ b < nchan, ∀ p < npol, (vis'.sampleAt k b p).value.val =
        ∑ j ∈ Finset.range σ.grid.ny, ∑ i ∈ Finset.range σ.grid.nx,
          (m.get (σ.grid.channelAt (vis.frequency.getD b 0)) p j i).val *
            Grid.sampleKernel vis σ.cache map σ.lattice σ.interpolation k b j i := by
  obtain ⟨vis', counted, hpredict, -, hsample⟩ :=
    Grid.predict_samples (hfit m halike) σ.interpolation
  obtain ⟨stage, hstage, hfirst⟩ := hs.prepared
  obtain ⟨statistics, hforward⟩ := yields_forward s.statistics hb hstage
    halike hmap hpredict
  have hmodel := yields_modelToGrid s.statistics hb hstage hshape hcorrect hm
  refine ⟨vis', statistics, (hfirst _ _ _ hmodel).bind hforward, fun k hk b hb' p hp => ?_⟩
  rw [(hsample k hk b hb' p hp).2.2, Grid.channelAt_alike halike, halike.ny, halike.nx]

/-- The grid and the sums of a pass make an image: the inverse transform of the cells, divided by
    the sums if that is asked for, and corrected. -/
theorem exists_finalize (hb : σ.Bounded) {g : Grid ℝ} (hg : Grid.Alike σ.grid g) {sums : Tensor ℝ}
    (hsums : sums.shape = [σ.grid.nchan, σ.grid.npol]) (normalize : Bool) (counted : Statistics) :
    ∃ image pixels, Action.Yields (finalize g sums normalize) (σ.inStage .active counted) image
        (σ.inStage .finalized counted) ∧
      image.pixels = .real pixels ∧ pixels.shape = σ.grid.shape ∧
      ∀ ch p j i, ch < σ.grid.nchan → p < σ.grid.npol → j < σ.grid.ny → i < σ.grid.nx →
        pixels.get [ch, p, j, i] = scaleBy normalize (sums.get [ch, p])
          (∑ k ∈ Finset.range σ.grid.ny, ∑ q ∈ Finset.range σ.grid.nx, (g.get ch p k q).val *
            (Fourier.wave .inverse σ.grid.ny j k * Fourier.wave .inverse σ.grid.nx i q)).re *
          σ.corrector.inverse.get j i := by
  obtain ⟨hny, hnx⟩ := σ.length_pos
  obtain ⟨htny, htnx⟩ := Corrector.ny_taper σ.corrected
  have hsums' : sums.shape = [g.nchan, g.npol] := by rw [hsums, hg.nchan, hg.npol]
  obtain ⟨t, ht, htshape, htget⟩ := g.exists_toImage
    (by rw [hg.ny]; show 0 < σ.axes.ny.toNat; omega)
    (by rw [hg.nx]; show 0 < σ.axes.nx.toNat; omega)
  have hpass : (passPixels g sums normalize t).shape = σ.grid.shape := by
    rw [shape_passPixels, htshape, hg.nchan, hg.npol, hg.ny, hg.nx]
    rfl
  have hraw :
      (⟨.real (passPixels g sums normalize t), σ.axes.coordinates, .double⟩ : Image ℝ).shape =
      [σ.grid.nchan, σ.grid.npol, σ.corrector.taper.ny, σ.corrector.taper.nx] := by
    rw [htny, htnx]
    exact hpass
  obtain ⟨image, himage, hpixels⟩ := σ.corrector.exists_correct _ hraw
  refine ⟨image, _, yields_finalize counted hb hg ht hsums' normalize himage, hpixels, hpass, ?_⟩
  intro ch p j i hch hp hj hi
  have hwithin : Tensor.Within (passPixels g sums normalize t).shape [ch, p, j, i] :=
    hpass ▸ ⟨hch, hp, hj, hi, trivial⟩
  have hproduct := Pixels.get_mulRaster (r := σ.corrector.inverse) hraw hch hp
    (show j < σ.corrector.taper.ny from htny ▸ hj) (show i < σ.corrector.taper.nx from htnx ▸ hi)
  have hch' : ch < g.nchan := hg.nchan ▸ hch
  have hp' : p < g.npol := hg.npol ▸ hp
  have hj' : j < g.ny := hg.ny ▸ hj
  have hi' : i < g.nx := hg.nx ▸ hi
  rw [Pixels.val_toComplex_real hwithin, get_passPixels hsums' normalize htshape hch' hp' hj' hi',
    ← Cplx.val_re, htget ch p j i hch' hp' hj' hi', hg.ny, hg.nx] at hproduct
  have hpixel := (Pixels.val_toComplex_real (by exact hwithin)).symm.trans hproduct
  rwa [← Complex.ofReal_mul, Complex.ofReal_inj] at hpixel

/-- The image of visibilities is the image of the direct sum, divided by the sums of weights if that
    is asked for, and corrected. -/
theorem exists_image (psf normalize : Bool) (vis₀ : Visibility ℝ nchan npol)
    (hvis : (if psf then vis₀.unit else vis₀) = vis) (hb : σ.Bounded) {s : Gridder ℝ}
    (hs : σ.Describes s) {map : PlaneMap} (hmap : σ.variant.planeMap vis (some σ.cache) = .ok map)
    (hfit : ∀ g, Grid.Alike σ.grid g → Grid.Fit vis g σ.cache map σ.lattice) :
    ∃ image sums pixels statistics',
      Action.Yields (invert vis₀ psf normalize) s (image, sums) (σ.inStage .finalized statistics') ∧
      image.pixels = .real pixels ∧ pixels.shape = σ.grid.shape ∧
      sums.shape = [σ.grid.nchan, σ.grid.npol] ∧
      (∀ ch p, ch < σ.grid.nchan → p < σ.grid.npol → sums.get [ch, p] =
        Grid.directWeight vis σ.grid σ.cache map σ.lattice σ.interpolation ch p) ∧
      ∀ ch p j i, ch < σ.grid.nchan → p < σ.grid.npol → j < σ.grid.ny → i < σ.grid.nx →
        pixels.get [ch, p, j, i] = scaleBy normalize (sums.get [ch, p])
          (∑ k ∈ Finset.range σ.grid.ny, ∑ q ∈ Finset.range σ.grid.nx,
            Grid.directSum vis σ.grid σ.cache map σ.lattice σ.interpolation ch p k q *
              (Fourier.wave .inverse σ.grid.ny j k * Fourier.wave .inverse σ.grid.nx i q)).re *
          σ.corrector.inverse.get j i := by
  obtain ⟨d, hd, hadds⟩ := Grid.addVisibilities_adds (hfit σ.grid (Grid.Alike.refl _))
    σ.interpolation (some (Tensor.fill [σ.grid.nchan, σ.grid.npol] 0))
    (fun t ht => by cases ht; rfl)
  have hsums : d.sumWeights.shape = [σ.grid.nchan, σ.grid.npol] := hadds.shape
  obtain ⟨image, pixels, hfinal, hpixels, hshape, hget⟩ :=
    exists_finalize hb hadds.alike hsums normalize (.zero + d.statistics)
  obtain ⟨stage, hstage, hfirst⟩ := hs.prepared
  have hbegin := hfirst _ _ _ (yields_beginPass s.statistics hb hstage)
  have hreverse := yields_accumulate .zero hb (Grid.Alike.refl σ.grid) hmap hd
  have hinvert : Action.Yields (invert vis₀ psf normalize) s (image, d.sumWeights)
      (σ.inStage .finalized (.zero + d.statistics)) := by
    unfold invert
    rw [hvis]
    exact hbegin.bind (hreverse.bind ((Action.Yields.pure _).bind
      (hfinal.bind (Action.Yields.pure _))))
  refine ⟨image, d.sumWeights, pixels, _, hinvert, hpixels, hshape, hsums,
    fun ch p hch hp => ?_, ?_⟩
  · rw [hadds.weight ch p hch hp, Option.getD_some, Tensor.get_fill_zero, zero_add]
  · intro ch p j i hch hp hj hi
    rw [hget ch p j i hch hp hj hi]
    congr 3
    refine Finset.sum_congr rfl fun k hk => Finset.sum_congr rfl fun q hq => ?_
    -- every cell of the grid of a fresh pass starts at zero
    have hzero : (σ.grid.get ch p k q).val = 0 := by
      rw [Grid.get, grid, Grid.empty, Tensor.get_fill_zero, Cplx.val_zero]
    rw [hadds.cell ch p k q hch hp (Finset.mem_range.1 hk) (Finset.mem_range.1 hq), hzero, zero_add]

/-- The image of visibilities is the image of the direct sum, corrected. -/
theorem exists_invert (hb : σ.Bounded) {s : Gridder ℝ} (hs : σ.Describes s) {map : PlaneMap}
    (hmap : σ.variant.planeMap vis (some σ.cache) = .ok map)
    (hfit : ∀ g, Grid.Alike σ.grid g → Grid.Fit vis g σ.cache map σ.lattice) :
    ∃ image sums pixels statistics',
      Action.Yields (invert vis false false) s (image, sums) (σ.inStage .finalized statistics') ∧
      image.pixels = .real pixels ∧ pixels.shape = σ.grid.shape ∧
      ∀ ch p j i, ch < σ.grid.nchan → p < σ.grid.npol → j < σ.grid.ny → i < σ.grid.nx →
        pixels.get [ch, p, j, i] = (∑ k ∈ Finset.range σ.grid.ny, ∑ q ∈ Finset.range σ.grid.nx,
          Grid.directSum vis σ.grid σ.cache map σ.lattice σ.interpolation ch p k q *
            (Fourier.wave .inverse σ.grid.ny j k * Fourier.wave .inverse σ.grid.nx i q)).re *
          σ.corrector.inverse.get j i := by
  obtain ⟨image, sums, pixels, statistics', hinvert, hpixels, hshape, -, -, hget⟩ :=
    exists_image false false vis rfl hb hs hmap hfit
  exact ⟨image, sums, pixels, statistics', hinvert, hpixels, hshape, hget⟩

/-! ## Gridders for the box function -/

theorem describes_new (σ : Setup) :
    σ.Describes (new σ.variant (some σ.axes) σ.interpolation) := ⟨rfl, rfl, rfl, .inl rfl⟩

/-- The box function has a corrector for images of any size. -/
theorem exists_create_boxCache {α : Type} [Scalar α] (cell : CellSize α) {ny nx : ℤ}
    (h : 1 ≤ min ny nx) :
    ∃ corrector, Corrector.create (Kernel.Variant.boxCache cell) ny nx = .ok corrector :=
  Corrector.exists_create_of_shape (s := 0) Nat.one_pos rfl (by omega)

/-- There is a setup for the box function over any axes with pixels. -/
theorem exists_box {axes : Axes ℝ} {cell : CellSize ℝ} (hcell : axes.cellSize = .ok cell)
    (hny : 0 < axes.ny) (hnx : 0 < axes.nx) (interpolation : Interpolation) :
    ∃ σ : Setup, σ.variant = .box ∧ σ.interpolation = interpolation ∧
      σ.axes = axes ∧ σ.cell = cell ∧ σ.cache = Kernel.Variant.boxCache cell := by
  obtain ⟨corrector, hcorrector⟩ :=
    exists_create_boxCache cell (show 1 ≤ min axes.ny axes.nx by omega)
  exact ⟨⟨.box, interpolation, axes, cell, _, corrector, hcell, rfl, hcorrector⟩, rfl,
    rfl, rfl, rfl, rfl⟩

/-- Three rows of four pixels. -/
noncomputable def smallAxes : Axes ℝ :=
  ⟨1, 1, 3, 4, [1, 1], Grid.quarterVisibility.frequency, none, rfl⟩

theorem cellSize_smallAxes : smallAxes.cellSize = .ok (.perAxis [1 / 4, 1 / 3]) := by
  simp [smallAxes, Axes.cellSize, Axes.cellSize?, Axes.fieldOfView?]

theorem bounded_of_smallAxes (haxes : σ.axes = smallAxes) : σ.Bounded := by
  constructor <;> rw [haxes] <;> decide

theorem lengths_of_smallAxes (haxes : σ.axes = smallAxes) :
    σ.grid.nchan = 1 ∧ σ.grid.ny = 3 ∧ σ.grid.nx = 4 := by
  unfold grid
  rw [haxes]
  exact ⟨rfl, rfl, rfl⟩

theorem exists_small : ∃ σ : Setup, σ.Bounded ∧ σ.variant = .box ∧ σ.interpolation = .linear ∧
    σ.axes = smallAxes ∧ σ.cell = .perAxis [1 / 4, 1 / 3] ∧
    σ.cache = Kernel.Variant.boxCache (.perAxis [1 / 4, 1 / 3]) := by
  obtain ⟨σ, hvariant, hinterpolation, haxes, hcell, hcache⟩ :=
    exists_box cellSize_smallAxes (by decide) (by decide) .linear
  exact ⟨σ, bounded_of_smallAxes haxes, hvariant, hinterpolation, haxes, hcell, hcache⟩

/-- A source of unit flux, one pixel from the centre. -/
noncomputable def pointPixels : Tensor ℝ :=
  Tensor.ofFn [1, 1, 3, 4] fun index => if index = [0, 0, 1, 3] then 1 else 0

/-- The source as an image. -/
noncomputable def pointModel : Image ℝ := ⟨.real pointPixels, none, .double⟩

theorem get_pointPixels {j i : ℕ} (hj : j < 3) (hi : i < 4) :
    pointPixels.get [0, 0, j, i] = if j = 1 ∧ i = 3 then 1 else 0 := by
  have hwithin : Tensor.Within [1, 1, 3, 4] [0, 0, j, i] := ⟨by decide, by decide, hj, hi, trivial⟩
  rw [pointPixels, Tensor.get_ofFn _ hwithin]
  simp

end ApertureSynthesis.Gridder.Setup
