/-
  Gridding is direct summation.

  `addVisibilities_adds` gives the grid and the sums of weights after a pass as what they were
  before, plus one term for each sample that is not flagged: weight times value times the conjugate
  of the sample's kernel at the cell, and weight times the square of what the kernel adds up to on
  the grid. Rows and channels count alike wherever their footprints lie; what is off the grid is
  missing from the sums of the kernel and changes nothing else.
-/
import Mathlib
import ApertureSynthesis.Proofs.Grid.Deposit

namespace ApertureSynthesis.Grid

open ComplexConjugate

/-! ## Visibilities as contributions -/

theorem flaggedWeight_real (s : Sample ℝ) :
    s.flaggedWeight = if s.flagged = false then s.weight else 0 := by
  unfold Sample.flaggedWeight Sample.mask
  cases s.flagged <;> simp

theorem val_weightedValue (s : Sample ℝ) :
    s.weightedValue.val = if s.flagged = false then (s.weight : ℂ) * s.value.val else 0 := by
  rw [Sample.weightedValue, Cplx.val_mul, Cplx.val_ofReal, flaggedWeight_real]
  cases s.flagged <;> simp [mul_comm]

theorem masked_visibilities : (Contribution.visibilities : Contribution ℝ).Masked where
  cell_zero s := by
    apply Cplx.val_injective
    simp [Contribution.visibilities]
  cell_flagged tap s hs := by
    apply Cplx.val_injective
    simp [Contribution.visibilities, val_weightedValue, hs]
  weight_flagged total s hs := by
    simp [Contribution.visibilities, flaggedWeight_real, hs]

/-- What a sample gives to a cell: weight times value times conjugate kernel, unless it is
    flagged. -/
theorem cellShare_visibilities (F : Footprint ℝ) (channel : ℕ) (samples : ℕ → Sample ℝ)
    (ch p j i : ℕ) :
    cellShare .visibilities F channel samples ch p j i =
      if (samples p).flagged = false ∧ channel = ch then
        ((samples p).weight : ℂ) * (samples p).value.val * conj (F.read j i).val
      else 0 := by
  unfold cellShare
  by_cases hch : channel = ch
  · cases hf : (samples p).flagged <;>
      simp [Contribution.visibilities, val_weightedValue, hch, hf, mul_comm]
  · simp [hch]

/-- The taps on the grid add up to the kernel on the grid. -/
theorem val_tapTotal (F : Footprint ℝ) (ny nx : ℕ) :
    (tapTotal (F.runs ny nx).flatten).val =
      ∑ j ∈ Finset.range ny, ∑ i ∈ Finset.range nx, (F.read j i).val := by
  rw [tapTotal, Cplx.val_sum, List.map_map]
  exact sum_runs F ny nx (fun _ _ tap => tap.val) fun _ _ => rfl

/-- What a sample gives to a sum of weights: weight times the square of the kernel on the grid, also
    where its whole footprint is off the grid. -/
theorem weightShare_visibilities (F : Footprint ℝ) (ny nx channel : ℕ) (samples : ℕ → Sample ℝ)
    (ch p : ℕ) :
    weightShare .visibilities F ny nx channel samples ch p =
      if (samples p).flagged = false ∧ channel = ch then
        (samples p).weight *
          ‖∑ j ∈ Finset.range ny, ∑ i ∈ Finset.range nx, (F.read j i).val‖ ^ 2
      else 0 := by
  have hweight : Contribution.visibilities.weight (tapTotal (F.runs ny nx).flatten) (samples p) =
      if (samples p).flagged = false then (samples p).weight *
        ‖∑ j ∈ Finset.range ny, ∑ i ∈ Finset.range nx, (F.read j i).val‖ ^ 2 else 0 := by
    rw [← val_tapTotal, ← Cplx.abs_val, ← Scalar.sq_real, ← ite_zero_mul,
      ← flaggedWeight_real]
    rfl
  unfold weightShare
  by_cases hch : channel = ch
  · by_cases hempty : (F.runs ny nx).flatten = []
    · have hzero : ∑ j ∈ Finset.range ny, ∑ i ∈ Finset.range nx, (F.read j i).val = 0 := by
        rw [← val_tapTotal, hempty]
        rfl
      rw [if_neg fun h => h.2 hempty, hzero]
      simp
    · rw [if_pos ⟨hch, hempty⟩, hweight]
      simp [hch]
  · simp [hch]

/-! ## The direct sum -/

section Visibilities

variable {nchan npol : ℕ} {vis : Visibility ℝ nchan npol} {g : Grid ℝ} {c : Cache ℝ}
  {map : PlaneMap} {l : Lattice ℝ}

/-- The direct sum at a cell: weight times value times conjugate kernel, over the samples of a
    polarisation that are not flagged and go to the channel. -/
noncomputable def directSum (vis : Visibility ℝ nchan npol) (g : Grid ℝ) (c : Cache ℝ)
    (map : PlaneMap) (l : Lattice ℝ) (interpolation : Interpolation) (ch p j i : ℕ) : ℂ :=
  ∑ k ∈ Finset.range vis.rowCount, ∑ b ∈ Finset.range nchan,
    if (vis.sampleAt k b p).flagged = false ∧ g.channelAt (vis.frequency.getD b 0) = ch then
      ((vis.sampleAt k b p).weight : ℂ) * (vis.sampleAt k b p).value.val *
        conj (sampleKernel vis c map l interpolation k b j i)
    else 0

/-- The direct sum of weights: weight times the square of the kernel's sum on the grid, over the
    same samples. -/
noncomputable def directWeight (vis : Visibility ℝ nchan npol) (g : Grid ℝ) (c : Cache ℝ)
    (map : PlaneMap) (l : Lattice ℝ) (interpolation : Interpolation) (ch p : ℕ) : ℝ :=
  ∑ k ∈ Finset.range vis.rowCount, ∑ b ∈ Finset.range nchan,
    if (vis.sampleAt k b p).flagged = false ∧ g.channelAt (vis.frequency.getD b 0) = ch then
      (vis.sampleAt k b p).weight *
        ‖∑ j ∈ Finset.range g.ny, ∑ i ∈ Finset.range g.nx,
          sampleKernel vis c map l interpolation k b j i‖ ^ 2
    else 0

/-- Gridding visibilities that fit adds the direct sums. -/
theorem addVisibilities_adds (h : Fit vis g c map l) (interpolation : Interpolation)
    (sums : Option (Tensor ℝ)) (hs : ∀ t ∈ sums, t.shape = [g.nchan, g.npol]) :
    ∃ d, addVisibilities vis g c map sums interpolation = .ok d ∧
      Deposit.Adds ⟨g, sums.getD (Tensor.fill [g.nchan, g.npol] 0),
          { flagged := flaggedRows vis, clamped := map.clamped }⟩ d
        (fun ch p j i => directSum vis g c map l interpolation ch p j i)
        (directWeight vis g c map l interpolation) := by
  obtain ⟨F, hread, d, hd, hadds⟩ := deposit_adds h masked_visibilities interpolation sums hs
  refine ⟨d, hd, hadds.congr (fun ch p j i _ => ?_) fun ch p _ => ?_⟩
  · refine Finset.sum_congr rfl fun k hk => Finset.sum_congr rfl fun b hb => ?_
    rw [cellShare_visibilities, (hread k (Finset.mem_range.1 hk) b (Finset.mem_range.1 hb)).2]
  · refine Finset.sum_congr rfl fun k hk => Finset.sum_congr rfl fun b hb => ?_
    rw [weightShare_visibilities]
    simp only [(hread k (Finset.mem_range.1 hk) b (Finset.mem_range.1 hb)).2]

/-- Gridding visibilities that fit gives the direct sum over all samples that are not flagged, on
    top of what grid and sums of weights held before. -/
theorem addVisibilities_eq_direct_sum (h : Fit vis g c map l) (interpolation : Interpolation)
    (sums : Option (Tensor ℝ)) (hs : ∀ t ∈ sums, t.shape = [g.nchan, g.npol]) :
    ∃ d, addVisibilities vis g c map sums interpolation = .ok d ∧
      Alike g d.grid ∧ d.sumWeights.shape = [g.nchan, g.npol] ∧
      (∀ ch p j i, ch < g.nchan → p < g.npol → j < g.ny → i < g.nx →
        (d.grid.get ch p j i).val = (g.get ch p j i).val +
          ∑ k ∈ Finset.range vis.rowCount, ∑ b ∈ Finset.range nchan,
            if (vis.sampleAt k b p).flagged = false ∧
                g.channelAt (vis.frequency.getD b 0) = ch then
              ((vis.sampleAt k b p).weight : ℂ) * (vis.sampleAt k b p).value.val *
                conj (sampleKernel vis c map l interpolation k b j i)
            else 0) ∧
      ∀ ch p, ch < g.nchan → p < g.npol →
        d.sumWeights.get [ch, p] =
          (sums.getD (Tensor.fill [g.nchan, g.npol] 0)).get [ch, p] +
          ∑ k ∈ Finset.range vis.rowCount, ∑ b ∈ Finset.range nchan,
            if (vis.sampleAt k b p).flagged = false ∧
                g.channelAt (vis.frequency.getD b 0) = ch then
              (vis.sampleAt k b p).weight *
                ‖∑ j ∈ Finset.range g.ny, ∑ i ∈ Finset.range g.nx,
                  sampleKernel vis c map l interpolation k b j i‖ ^ 2
            else 0 := by
  obtain ⟨d, hd, hadds⟩ := addVisibilities_adds h interpolation sums hs
  have hshape : (sums.getD (Tensor.fill [g.nchan, g.npol] 0)).shape = [g.nchan, g.npol] := by
    cases sums with
    | none => rfl
    | some t => exact hs t rfl
  exact ⟨d, hd, hadds.alike, hadds.shape.trans hshape, hadds.cell, hadds.weight⟩

end Visibilities

/-! ## A sample between two cells -/

/-- Two rows at a quarter of a wavelength, the second one flagged. -/
noncomputable def quarterVisibility : Visibility ℝ 1 1 where
  rows := [⟨1 / 4, 0, 0, #v[#v[⟨⟨3, 4⟩, 2, false⟩]]⟩, ⟨1 / 4, 0, 0, #v[#v[⟨⟨5, 6⟩, 1, true⟩]]⟩]
  frequency := [299792458]
  bare := false
  phaseCentre := none

/-- Three by three cells of one wavelength. -/
noncomputable def smallGrid : Grid ℝ := empty 1 1 3 3 (.perAxis [1, 1]) none

/-- One plane of one tap at each of two phases. -/
noncomputable def twoPhases : Cache ℝ where
  planes := [Tensor.fill [2, 2, 1, 1] 1]
  supports := [0]
  planeValues := [0]
  oversample := 2
  cutoff := 1
  zeroW := Tensor.fill [2, 2, 1, 1] 1
  cellSize := .single 1
  name := "box"

theorem fit_quarterVisibility :
    Fit quarterVisibility smallGrid twoPhases (PlaneMap.single quarterVisibility)
      ⟨1, 1, 3, 3, 2⟩ where
  cache := by
    refine ⟨by decide, rfl, fun p hp => ⟨0, ?_⟩⟩
    obtain rfl : p = 0 := by simpa [twoPhases] using hp
    exact ⟨rfl, rfl⟩
  checked := by
    simp [checkFit, quarterVisibility, smallGrid, empty, twoPhases, PlaneMap.single,
      Visibility.rowCount, Cache.planeCount, CellSize.agree?, CellSize.values, CellSize.close]
  listed := rfl
  length_frequency := rfl
  nchan_pos := by decide
  tuned := .inl rfl
  lattice := rfl

theorem sampleAt_quarterVisibility :
    quarterVisibility.sampleAt 0 0 0 = ⟨⟨3, 4⟩, 2, false⟩ ∧
      quarterVisibility.sampleAt 1 0 0 = ⟨⟨5, 6⟩, 1, true⟩ := ⟨rfl, rfl⟩

theorem exists_row_quarterVisibility {k : ℕ} (hk : k < 2) :
    ∃ r : Row ℝ 1 1, quarterVisibility.rows[k]? = some r ∧ r.u = 1 / 4 ∧ r.v = 0 := by
  interval_cases k
  · exact ⟨_, rfl, rfl, rfl⟩
  · exact ⟨_, rfl, rfl, rfl⟩

theorem val_quarterVisibility : (⟨3, 4⟩ : Cplx ℝ).val = 3 + 4 * Complex.I := by
  apply Complex.ext <;> simp

theorem get_smallGrid (j i : ℕ) : (smallGrid.get 0 0 j i).val = 0 := by
  rw [Grid.get, smallGrid, empty, Tensor.get_fill_zero, Cplx.val_zero]

theorem wavelengths_quarterVisibility (x : ℝ) : Visibility.wavelengths x 299792458 = x := by
  unfold Visibility.wavelengths Scalar.lightSpeed
  norm_num

/-- A sample a quarter of a cell from a cell's centre: with linear interpolation half of it goes to
    that cell and half to the next. -/
theorem sampleKernel_quarterVisibility (k : ℕ) (hk : k < 2) (j i : ℤ) :
    sampleKernel quarterVisibility twoPhases (PlaneMap.single quarterVisibility) ⟨1, 1, 3, 3, 2⟩
        .linear k 0 j i =
      if j = 1 ∧ (i = 1 ∨ i = 2) then 1 / 2 else 0 := by
  obtain ⟨r, hr, hu, hv⟩ := exists_row_quarterVisibility hk
  have hplane := plane_single quarterVisibility k 0
  have hcolumn : usedPoints .linear 2 (5 / 2) = [(2, 1 / 2), (3, 1 / 2)] := by
    have hfloor : ⌊(5 / 2 : ℝ)⌋ = 2 := by norm_num
    rw [usedPoints, if_pos ⟨rfl, by decide⟩, Int.fract, hfloor]
    norm_num
  have hline : usedPoints .linear 2 2 = [(2, 1), (3, 0)] := by
    have hfloor : ⌊(2 : ℝ)⌋ = 2 := by norm_num
    rw [usedPoints, if_pos ⟨rfl, by decide⟩, Int.fract, hfloor]
    norm_num
  have hpositionV : Lattice.positionV (⟨1, 1, 3, 3, 2⟩ : Lattice ℝ) 0 = 2 := by
    norm_num [Lattice.positionV]
  have hpositionU : Lattice.positionU (⟨1, 1, 3, 3, 2⟩ : Lattice ℝ) (1 / 4) = 5 / 2 := by
    norm_num [Lattice.positionU]
  have htap : ∀ pv pu y x : ℤ, 0 ≤ pv → pv < 2 → 0 ≤ pu → pu < 2 →
      tapAt (Tensor.fill [2, 2, 1, 1] 1) 0 pv pu y x = if y = 0 ∧ x = 0 then 1 else 0 := by
    intro pv pu y x _ _ _ _
    unfold tapAt
    by_cases hyx : y = 0 ∧ x = 0
    · rw [if_pos (by omega), if_pos hyx, Tensor.get_fill, Cplx.val_one]
      exact ⟨by omega, by omega, by omega, by omega, trivial⟩
    · rw [if_neg (by omega), if_neg hyx]
  rw [sampleKernel_eq _ _ hr (show quarterVisibility.frequency[0]? = some 299792458 from rfl)
    (by rw [hplane]; rfl) (s := 0)
    (by rw [hplane]; rfl), hu, hv, wavelengths_quarterVisibility, wavelengths_quarterVisibility]
  show kernelAt (Tensor.fill [2, 2, 1, 1] 1) 0 .linear 2 _ _ j i = _
  rw [hpositionV, hpositionU, kernelAt, hcolumn, hline]
  simp only [List.map_cons, List.map_nil, phaseOf, cellOf, Nat.cast_ofNat, Nat.cast_zero]
  norm_num [htap, sub_eq_zero]
  rcases eq_or_ne i 1 with rfl | hi
  · simp
  · simp [hi]

theorem addVisibilities_quarterVisibility :
    Fit quarterVisibility smallGrid twoPhases (PlaneMap.single quarterVisibility) ⟨1, 1, 3, 3, 2⟩ ∧
    ∃ d, addVisibilities quarterVisibility smallGrid twoPhases (PlaneMap.single quarterVisibility)
        none .linear = .ok d ∧
      (d.grid.get 0 0 1 1).val = 3 + 4 * Complex.I ∧
      (d.grid.get 0 0 1 2).val = 3 + 4 * Complex.I ∧
      d.sumWeights.get [0, 0] = 2 := by
  obtain ⟨d, hd, -, -, hcell, hweight⟩ :=
    addVisibilities_eq_direct_sum fit_quarterVisibility .linear
      none (fun t ht => by cases ht)
  obtain ⟨hfirst, hsecond⟩ := sampleAt_quarterVisibility
  have hchannel : ∀ hertz, smallGrid.channelAt hertz = 0 := fun _ => rfl
  have hrows : quarterVisibility.rowCount = 2 := rfl
  have hcells : smallGrid.ny = 3 ∧ smallGrid.nx = 3 := ⟨rfl, rfl⟩
  have hkernel := sampleKernel_quarterVisibility 0 (by decide)
  have htwo : conj (2 : ℂ) = 2 := map_ofNat _ 2
  refine ⟨fit_quarterVisibility, d, hd, ?_, ?_, ?_⟩
  · rw [hcell 0 0 1 1 (by decide) (by decide) (by decide) (by decide), hrows]
    simp [Finset.sum_range_succ, hfirst, hsecond, hchannel, hkernel, get_smallGrid,
      val_quarterVisibility, htwo]
    ring
  · rw [hcell 0 0 1 2 (by decide) (by decide) (by decide) (by decide), hrows]
    simp [Finset.sum_range_succ, hfirst, hsecond, hchannel, hkernel, get_smallGrid,
      val_quarterVisibility, htwo]
    ring
  · rw [hweight 0 0 (by decide) (by decide), hrows, hcells.1, hcells.2]
    simp [Finset.sum_range_succ, hfirst, hsecond, hchannel, hkernel, Tensor.get_fill_zero]
    left
    norm_num

end ApertureSynthesis.Grid
