/-
  The density of weight on a grid is a partition of unity.

  A pass over weights adds, for each sample that is not flagged, its weight times its kernel to the
  cells, and its weight to the sum of weights if its footprint has a cell of the grid
  (`exists_density`). Where the only plane has unit taps, no kernel is negative and each gives at
  most its whole to the grid: all of it if the footprint is on the grid, nothing if it is off the
  grid, and else what is left after clipping. So what the cells hold together is bounded by the sum
  of weights (`sum_density_le`), and the two are equal if nothing is clipped (`sum_density_eq`).
  Read the other way, a constant grid predicts its constant (`predict_constant`).
-/
import Mathlib
import ApertureSynthesis.Proofs.Grid.Adjoint
import ApertureSynthesis.Proofs.Grid.Shares
import ApertureSynthesis.Proofs.Kernel.Construction

namespace ApertureSynthesis.Grid

open Finset ComplexOrder

/-! ## Weights as contributions -/

theorem masked_weights : (Contribution.weights : Contribution ℝ).Masked where
  cell_zero s := by
    apply Cplx.val_injective
    simp [Contribution.weights]
  cell_flagged tap s hs := by
    apply Cplx.val_injective
    simp [Contribution.weights, flaggedWeight_real, hs]
  weight_flagged total s hs := by
    simp [Contribution.weights, flaggedWeight_real, hs]

/-- What a sample gives to a cell: weight times real kernel, unless it is flagged. -/
theorem cellShare_weights (F : Footprint ℝ) (channel : ℕ) (samples : ℕ → Sample ℝ) (ch p j i : ℕ) :
    cellShare .weights F channel samples ch p j i =
      ((if (samples p).flagged = false ∧ channel = ch then
        (samples p).weight * (F.read j i).val.re else 0 : ℝ) : ℂ) := by
  unfold cellShare
  by_cases hch : channel = ch
  · cases hf : (samples p).flagged <;>
      simp [Contribution.weights, flaggedWeight_real, hch, hf, mul_comm]
  · simp [hch]

/-- What a sample gives to a sum of weights: its weight if a tap is on the grid. -/
theorem weightShare_weights (F : Footprint ℝ) (ny nx channel : ℕ) (samples : ℕ → Sample ℝ)
    (ch p : ℕ) :
    weightShare .weights F ny nx channel samples ch p =
      if (samples p).flagged = false ∧ channel = ch ∧ (F.runs ny nx).flatten ≠ [] then
        (samples p).weight else 0 := by
  unfold weightShare
  show (if _ then (samples p).flaggedWeight else 0) = _
  rw [flaggedWeight_real, ← ite_and]
  exact if_congr and_comm rfl rfl

/-- A footprint off the grid has no tap there. -/
theorem runs_of_outside {α : Type} [Scalar α] {F : Footprint α} {ny nx : ℕ} (h : F.Outside ny nx) :
    (F.runs ny nx).flatten = [] := by
  unfold Footprint.Outside at h
  rw [flatten_runs, List.flatMap_eq_nil_iff]
  intro j hj
  have hj := mem_covered.1 hj
  refine List.map_eq_nil_iff.2 (List.eq_nil_iff_forall_not_mem.2 fun i hi => ?_)
  have hi := mem_covered.1 hi
  omega

variable {nchan npol : ℕ} {vis : Visibility ℝ nchan npol} {g : Grid ℝ} {c : Cache ℝ}
  {map : PlaneMap} {l : Lattice ℝ}

/-! ## The density -/

/-- A sample of a polarisation is not flagged and goes to a channel of the grid. -/
def Counts (vis : Visibility ℝ nchan npol) (g : Grid ℝ) (k b ch p : ℕ) : Prop :=
  (vis.sampleAt k b p).flagged = false ∧ g.channelAt (vis.frequency.getD b 0) = ch

noncomputable instance (vis : Visibility ℝ nchan npol) (g : Grid ℝ) (k b ch p : ℕ) :
    Decidable (Counts vis g k b ch p) :=
  inferInstanceAs (Decidable (_ ∧ _))

/-- What a sample adds to the density at a cell: weight times real kernel. -/
noncomputable def densityShare (vis : Visibility ℝ nchan npol) (g : Grid ℝ) (c : Cache ℝ)
    (map : PlaneMap) (l : Lattice ℝ) (interpolation : Interpolation) (k b ch p j i : ℕ) : ℝ :=
  if Counts vis g k b ch p then
    (vis.sampleAt k b p).weight * (sampleKernel vis c map l interpolation k b j i).re
  else 0

/-- The density of weight at a cell. -/
noncomputable def density (vis : Visibility ℝ nchan npol) (g : Grid ℝ) (c : Cache ℝ)
    (map : PlaneMap) (l : Lattice ℝ) (interpolation : Interpolation) (ch p j i : ℕ) : ℝ :=
  ∑ k ∈ range vis.rowCount, ∑ b ∈ range nchan, densityShare vis g c map l interpolation k b ch p j i

/-- A grid that holds a real number in each cell. -/
def Holds (m g : Grid ℝ) (D : ℕ → ℕ → ℕ → ℕ → ℝ) : Prop :=
  ∀ ch < g.nchan, ∀ p < g.npol, ∀ j < g.ny, ∀ i < g.nx, (m.get ch p j i).val = (D ch p j i : ℂ)

section Holds

variable {m : Grid ℝ} {D : ℕ → ℕ → ℕ → ℕ → ℝ} {ch p j i : ℕ} (hm : Holds m g D) (hch : ch < g.nchan)
  (hp : p < g.npol) (hj : j < g.ny) (hi : i < g.nx)

include hm hch hp hj hi

theorem Holds.re : (m.get ch p j i).re = D ch p j i := by
  rw [← Cplx.val_re, hm ch hch p hp j hj i hi, Complex.ofReal_re]

theorem Holds.im : (m.get ch p j i).im = 0 := by
  rw [← Cplx.val_im, hm ch hch p hp j hj i hi, Complex.ofReal_im]

end Holds

/-- A pass over the weights of visibilities that fit adds their density. -/
theorem addWeightsOf_adds (h : Fit vis g c map l) (interpolation : Interpolation)
    (sums : Option (Tensor ℝ)) (hs : ∀ t ∈ sums, t.shape = [g.nchan, g.npol]) :
    ∃ F : ℕ → ℕ → Footprint ℝ,
      (∀ k < vis.rowCount, ∀ b < nchan,
        sampleFootprint vis c map l interpolation k b = .ok (F k b) ∧
        ∀ j i : ℤ, ((F k b).read j i).val = sampleKernel vis c map l interpolation k b j i) ∧
      ∃ d, addWeightsOf vis g c map sums interpolation = .ok d ∧
        Deposit.Adds ⟨g, sums.getD (Tensor.fill [g.nchan, g.npol] 0),
            { flagged := flaggedRows vis, clamped := map.clamped }⟩ d
          (fun ch p j i => (density vis g c map l interpolation ch p j i : ℂ))
          (fun ch p => ∑ k ∈ range vis.rowCount, ∑ b ∈ range nchan,
            weightShare .weights (F k b) g.ny g.nx (g.channelAt (vis.frequency.getD b 0))
              (vis.sampleAt k b) ch p) := by
  obtain ⟨F, hF, d, hd, hadds⟩ := deposit_adds h masked_weights interpolation sums hs
  refine ⟨F, hF, d, hd, hadds.congr (fun ch p j i _ => ?_) fun _ _ _ => rfl⟩
  rw [density, Complex.ofReal_sum]
  refine sum_congr rfl fun k hk => ?_
  rw [Complex.ofReal_sum]
  refine sum_congr rfl fun b hb => ?_
  rw [cellShare_weights, (hF k (mem_range.1 hk) b (mem_range.1 hb)).2]
  rfl

/-- From empty cells it leaves the density and the sums of weights. -/
theorem exists_density (h : Fit vis g c map l) (interpolation : Interpolation)
    (hzero : ∀ ch p j i, g.get ch p j i = 0) {sums : Option (Tensor ℝ)}
    (hsums : ∀ t ∈ sums, t = Tensor.fill [g.nchan, g.npol] 0) :
    ∃ F : ℕ → ℕ → Footprint ℝ,
      (∀ k < vis.rowCount, ∀ b < nchan,
        sampleFootprint vis c map l interpolation k b = .ok (F k b) ∧
        ∀ j i : ℤ, ((F k b).read j i).val = sampleKernel vis c map l interpolation k b j i) ∧
      ∃ d, addWeightsOf vis g c map sums interpolation = .ok d ∧ Alike g d.grid ∧
        d.sumWeights.shape = [g.nchan, g.npol] ∧
        Holds d.grid g (density vis g c map l interpolation) ∧
        ∀ ch < g.nchan, ∀ p < g.npol, d.sumWeights.get [ch, p] =
          ∑ k ∈ range vis.rowCount, ∑ b ∈ range nchan,
            weightShare .weights (F k b) g.ny g.nx (g.channelAt (vis.frequency.getD b 0))
              (vis.sampleAt k b) ch p := by
  have hstart : sums.getD (Tensor.fill [g.nchan, g.npol] 0) = Tensor.fill [g.nchan, g.npol] 0 := by
    cases sums with
    | none => rfl
    | some t => exact hsums t rfl
  obtain ⟨F, hF, d, hd, hadds⟩ := addWeightsOf_adds h interpolation sums
    fun t ht => by rw [hsums t ht]; rfl
  refine ⟨F, hF, d, hd, hadds.alike, by rw [hadds.shape, hstart]; rfl,
    fun ch hch p hp j hj i hi => ?_, fun ch hch p hp => ?_⟩
  · rw [hadds.cell ch p j i hch hp hj hi, hzero, Cplx.val_zero, zero_add]
  · rw [hadds.weight ch p hch hp, hstart, Tensor.get_fill_zero, zero_add]

/-! ## Kernels of a single plane -/

/-- The position of a row and channel on the lattice, along v and along u. -/
noncomputable def latticePosition (vis : Visibility ℝ nchan npol) (l : Lattice ℝ) (k b : ℕ) :
    ℝ × ℝ :=
  match vis.rows[k]? with
  | some r => (l.positionV (Visibility.wavelengths r.v (vis.frequency.getD b 0)),
      l.positionU (Visibility.wavelengths r.u (vis.frequency.getD b 0)))
  | none => (0, 0)

namespace Fit

section Plane

variable {s : ℕ} (h : Fit vis g c map l) (hplane : c.Symmetric s) (interpolation : Interpolation)
  {k b : ℕ} (hk : k < vis.rowCount) (hb : b < nchan)

include h hplane hk hb

omit interpolation in
/-- Every sample uses the only plane. -/
theorem exists_only_plane : c.planes[(map.plane k b).toNat]? = some c.zeroW ∧
    c.supports[(map.plane k b).toNat]? = some (s : ℤ) := by
  have hwithin := PlaneMap.plane_within h.shape_planes hk hb
  have hcount : c.planeCount = 1 := by
    rw [Cache.planeCount, hplane.planes]
    rfl
  rw [h.count_eq, hcount] at hwithin
  have hzero : map.plane k b = 0 := by omega
  rw [hzero, hplane.planes, hplane.supports]
  exact ⟨rfl, rfl⟩

/-- The kernel of a sample is made of the taps of the only plane. -/
theorem sampleKernel_eq_kernelAt (j i : ℤ) : sampleKernel vis c map l interpolation k b j i =
    kernelAt c.zeroW s interpolation c.oversample (latticePosition vis l k b).1
      (latticePosition vis l k b).2 j i := by
  obtain ⟨htable, hsupport⟩ := h.exists_only_plane hplane hk hb
  have hlt : b < vis.frequency.length := by rw [h.length_frequency]; exact hb
  have hr : vis.rows[k]? = some vis.rows[k] := List.getElem?_eq_getElem hk
  rw [sampleKernel_eq l interpolation hr (List.getElem?_eq_getElem hlt) htable hsupport]
  simp only [latticePosition, hr, List.getD_eq_getElem _ _ hlt]

variable (hunit : c.UnitTaps s)

include hunit

theorem sampleKernel_nonneg (j i : ℤ) : 0 ≤ sampleKernel vis c map l interpolation k b j i := by
  rw [h.sampleKernel_eq_kernelAt hplane interpolation hk hb]
  exact hunit.kernelAt_nonneg hplane.oversample_pos interpolation _ _ j i

theorem re_sampleKernel_nonneg (j i : ℤ) :
    0 ≤ (sampleKernel vis c map l interpolation k b j i).re :=
  (Complex.nonneg_iff.1 (h.sampleKernel_nonneg hplane interpolation hk hb hunit j i)).1

theorem sum_sampleKernel_le_one (ny nx : ℕ) :
    ∑ j ∈ range ny, ∑ i ∈ range nx, sampleKernel vis c map l interpolation k b j i ≤ 1 := by
  simp only [h.sampleKernel_eq_kernelAt hplane interpolation hk hb]
  exact hunit.sum_kernelAt_le_one hplane.oversample_pos interpolation _ _ ny nx

/-- A footprint on the grid keeps the whole kernel. -/
theorem sum_sampleKernel_eq_one {f : Footprint ℝ}
    (hf : sampleFootprint vis c map l interpolation k b = .ok f) {ny nx : ℕ}
    (hin : f.Inside ny nx) :
    ∑ j ∈ range ny, ∑ i ∈ range nx, sampleKernel vis c map l interpolation k b j i = 1 := by
  obtain ⟨htable, hsupport⟩ := h.exists_only_plane hplane hk hb
  refine h.sum_sampleKernel_of_inside interpolation
    (fun plane s' hplane' hs' pv hpv pu hpu => ?_) hf hin
  cases htable.symm.trans hplane'
  obtain rfl : s = s' := Int.ofNat.inj (Option.some.inj (hsupport.symm.trans hs'))
  exact hunit.sum_val hpv hpu

end Plane

end Fit

/-! ## The share of a sample -/

section Share

variable {s : ℕ} (h : Fit vis g c map l) (hplane : c.Symmetric s) (hunit : c.UnitTaps s)
  (interpolation : Interpolation) {k b ch p ny nx : ℕ} (hk : k < vis.rowCount) (hb : b < nchan)
  {F : Footprint ℝ}
  (hread : ∀ j i : ℤ, (F.read j i).val = sampleKernel vis c map l interpolation k b j i)

/-- What a sample adds to the cells together. -/
theorem sum_densityShare :
    ∑ j ∈ range ny, ∑ i ∈ range nx, densityShare vis g c map l interpolation k b ch p j i =
    if Counts vis g k b ch p then (vis.sampleAt k b p).weight *
      (∑ j ∈ range ny,
        ∑ i ∈ range nx, sampleKernel vis c map l interpolation k b j i).re else 0 := by
  unfold densityShare
  split
  · simp only [Complex.re_sum, mul_sum]
  · simp only [sum_const_zero]

theorem weightShare_of_counts (hcounts : Counts vis g k b ch p) :
    weightShare .weights F ny nx (g.channelAt (vis.frequency.getD b 0)) (vis.sampleAt k b) ch p =
      if (F.runs ny nx).flatten = [] then 0 else (vis.sampleAt k b p).weight := by
  rw [weightShare_weights]
  split
  · rename_i hon
    rw [if_neg hon.2.2]
  · rename_i hoff
    rw [if_pos (not_not.1 fun hne => hoff ⟨hcounts.1, hcounts.2, hne⟩)]

theorem weightShare_of_not_counts (hcounts : ¬ Counts vis g k b ch p) :
    weightShare .weights F ny nx (g.channelAt (vis.frequency.getD b 0))
      (vis.sampleAt k b) ch p = 0 := by
  rw [weightShare_weights, if_neg fun hon => hcounts ⟨hon.1, hon.2.1⟩]

include hread in
/-- Without a tap on the grid the kernel has nothing there. -/
theorem sum_sampleKernel_of_runs (hempty : (F.runs ny nx).flatten = []) :
    ∑ j ∈ range ny, ∑ i ∈ range nx, sampleKernel vis c map l interpolation k b j i = 0 := by
  simp only [← hread]
  rw [← val_tapTotal, hempty]
  rfl

include h hplane hunit hk hb

theorem densityShare_nonneg
    (hweight : (vis.sampleAt k b p).flagged = false → 0 ≤ (vis.sampleAt k b p).weight) (j i : ℕ) :
    0 ≤ densityShare vis g c map l interpolation k b ch p j i := by
  unfold densityShare
  split
  · rename_i hcounts
    exact mul_nonneg (hweight hcounts.1)
      (h.re_sampleKernel_nonneg hplane interpolation hk hb hunit j i)
  · exact le_rfl

include hread

/-- A sample gives the cells no more than it counts for. -/
theorem sum_densityShare_le
    (hweight : (vis.sampleAt k b p).flagged = false → 0 ≤ (vis.sampleAt k b p).weight) :
    ∑ j ∈ range ny, ∑ i ∈ range nx, densityShare vis g c map l interpolation k b ch p j i ≤
      weightShare .weights F ny nx (g.channelAt (vis.frequency.getD b 0))
        (vis.sampleAt k b) ch p := by
  rw [sum_densityShare]
  by_cases hcounts : Counts vis g k b ch p
  · rw [if_pos hcounts, weightShare_of_counts hcounts]
    split
    · rename_i hempty
      rw [sum_sampleKernel_of_runs interpolation hread hempty, Complex.zero_re, mul_zero]
    · have hle := h.sum_sampleKernel_le_one hplane interpolation hk hb hunit ny nx
      exact mul_le_of_le_one_right (hweight hcounts.1) (Complex.le_def.1 hle).1
  · rw [if_neg hcounts, weightShare_of_not_counts hcounts]

/-- A sample that is not clipped gives the cells what it counts for. -/
theorem sum_densityShare_eq (hf : sampleFootprint vis c map l interpolation k b = .ok F)
    (hlies : Counts vis g k b ch p → F.Inside ny nx ∨ F.Outside ny nx) :
    ∑ j ∈ range ny, ∑ i ∈ range nx, densityShare vis g c map l interpolation k b ch p j i =
      weightShare .weights F ny nx (g.channelAt (vis.frequency.getD b 0))
        (vis.sampleAt k b) ch p := by
  rw [sum_densityShare]
  by_cases hcounts : Counts vis g k b ch p
  · rw [if_pos hcounts, weightShare_of_counts hcounts]
    rcases hlies hcounts with hin | hout
    · have hwhole := h.sum_sampleKernel_eq_one hplane interpolation hk hb hunit hf hin
      have hon : (F.runs ny nx).flatten ≠ [] := fun hempty =>
        one_ne_zero (hwhole.symm.trans (sum_sampleKernel_of_runs interpolation hread hempty))
      rw [if_neg hon, hwhole, Complex.one_re, mul_one]
    · have hempty := runs_of_outside hout
      rw [if_pos hempty, sum_sampleKernel_of_runs interpolation hread hempty,
        Complex.zero_re, mul_zero]
  · rw [if_neg hcounts, weightShare_of_not_counts hcounts]

end Share

/-! ## All samples -/

section Samples

variable {s : ℕ} (h : Fit vis g c map l) (hplane : c.Symmetric s) (hunit : c.UnitTaps s)
  (interpolation : Interpolation)

/-- The cells of a polarisation together. -/
theorem sum_density (ch p ny nx : ℕ) :
    ∑ j ∈ range ny, ∑ i ∈ range nx, density vis g c map l interpolation ch p j i =
      ∑ k ∈ range vis.rowCount, ∑ b ∈ range nchan, ∑ j ∈ range ny, ∑ i ∈ range nx,
        densityShare vis g c map l interpolation k b ch p j i :=
  sum_raster_comm _ _ _ _ _

include h hplane hunit

theorem density_nonneg {p : ℕ} (hweights : ∀ k < vis.rowCount, ∀ b < nchan,
      (vis.sampleAt k b p).flagged = false → 0 ≤ (vis.sampleAt k b p).weight) (ch j i : ℕ) :
    0 ≤ density vis g c map l interpolation ch p j i :=
  sum_nonneg fun k hk => sum_nonneg fun b hb =>
    densityShare_nonneg h hplane hunit interpolation (mem_range.1 hk) (mem_range.1 hb)
      (hweights k (mem_range.1 hk) b (mem_range.1 hb)) j i

section Footprints

variable {ch p ny nx : ℕ} {F : ℕ → ℕ → Footprint ℝ}
  (hF : ∀ k < vis.rowCount, ∀ b < nchan,
    sampleFootprint vis c map l interpolation k b = .ok (F k b) ∧
    ∀ j i : ℤ, ((F k b).read j i).val = sampleKernel vis c map l interpolation k b j i)

include hF

/-- They hold no more than the samples count for, -/
theorem sum_density_le
    (hweights : ∀ k < vis.rowCount, ∀ b < nchan, (vis.sampleAt k b p).flagged = false →
      0 ≤ (vis.sampleAt k b p).weight) :
    ∑ j ∈ range ny, ∑ i ∈ range nx, density vis g c map l interpolation ch p j i ≤
      ∑ k ∈ range vis.rowCount, ∑ b ∈ range nchan,
        weightShare .weights (F k b) ny nx (g.channelAt (vis.frequency.getD b 0))
          (vis.sampleAt k b) ch p := by
  rw [sum_density]
  exact sum_le_sum fun k hk => sum_le_sum fun b hb =>
    sum_densityShare_le h hplane hunit interpolation (mem_range.1 hk) (mem_range.1 hb)
      (hF k (mem_range.1 hk) b (mem_range.1 hb)).2 (hweights k (mem_range.1 hk) b (mem_range.1 hb))

/-- and just that if none is clipped. -/
theorem sum_density_eq (hlies : ∀ k < vis.rowCount, ∀ b < nchan, Counts vis g k b ch p →
      ∃ f, sampleFootprint vis c map l interpolation k b = .ok f ∧
        (f.Inside ny nx ∨ f.Outside ny nx)) :
    ∑ j ∈ range ny, ∑ i ∈ range nx, density vis g c map l interpolation ch p j i =
      ∑ k ∈ range vis.rowCount, ∑ b ∈ range nchan,
        weightShare .weights (F k b) ny nx (g.channelAt (vis.frequency.getD b 0))
          (vis.sampleAt k b) ch p := by
  rw [sum_density]
  refine sum_congr rfl fun k hk => sum_congr rfl fun b hb => ?_
  obtain ⟨hf, hread⟩ := hF k (mem_range.1 hk) b (mem_range.1 hb)
  refine sum_densityShare_eq h hplane hunit interpolation (mem_range.1 hk)
    (mem_range.1 hb) hread hf ?_
  intro hcounts
  obtain ⟨f, hf', hplaced⟩ := hlies k (mem_range.1 hk) b (mem_range.1 hb) hcounts
  obtain rfl : F k b = f := Except.ok.inj (hf.symm.trans hf')
  exact hplaced

end Footprints

/-- A grid that is constant on each channel and polarisation predicts its constant, where the whole
    footprint is on the grid. -/
theorem predict_constant {m : Grid ℝ} (hm : Alike g m) {constant : ℕ → ℕ → Cplx ℝ}
    (hconstant : ∀ ch p j i, ch < g.nchan → p < g.npol → j < g.ny → i < g.nx →
      m.get ch p j i = constant ch p) :
    ∃ vis' statistics, predict vis m c map interpolation = .ok (vis', statistics) ∧
      ∀ k < vis.rowCount, ∀ b < nchan, ∀ p < npol,
        (∃ f, sampleFootprint vis c map l interpolation k b = .ok f ∧ f.Inside g.ny g.nx) →
          (vis'.sampleAt k b p).value = constant (g.channelAt (vis.frequency.getD b 0)) p := by
  obtain ⟨vis', statistics, hpredict, -, hsample⟩ := predict_samples (h.of_alike hm) interpolation
  refine ⟨vis', statistics, hpredict, fun k hk b hb p hp hin => ?_⟩
  obtain ⟨f, hf, hin⟩ := hin
  apply Cplx.val_injective
  rw [(hsample k hk b hb p hp).2.2, channelAt_alike hm, hm.ny, hm.nx]
  have hcell : ∀ j ∈ range g.ny, ∀ i ∈ range g.nx,
      (m.get (g.channelAt (vis.frequency.getD b 0)) p j i).val *
          sampleKernel vis c map l interpolation k b j i =
        (constant (g.channelAt (vis.frequency.getD b 0)) p).val *
          sampleKernel vis c map l interpolation k b j i := by
    intro j hj i hi
    rw [hconstant _ p j i (h.channelAt_lt _) (h.npol_eq ▸ hp) (mem_range.1 hj) (mem_range.1 hi)]
  rw [sum_congr rfl fun j hj => sum_congr rfl fun i hi => hcell j hj i hi]
  simp only [← mul_sum]
  rw [h.sum_sampleKernel_eq_one hplane interpolation hk hb hunit hf hin, mul_one]

end Samples

/-- With the box function or the anti-aliasing function, weights that are not negative and are
    gridded from zero make cells that are not negative and together no more than the sum of weights,
    and just that where every sample that counts has its whole footprint on the grid or off it. And
    a grid that is constant on each channel and polarisation predicts its constant for every sample
    with its footprint on the grid. -/
theorem weights_partition_unity {variant : Kernel.Variant ℝ} {cellSize : CellSize ℝ}
    {shape : List ℤ} {frequency : Setting ℝ}
    (hbuilt : variant.buildCache cellSize shape frequency = .ok c)
    (hkind : variant = .box ∨ ∃ p, variant = .spheroidal p) (h : Fit vis g c map l)
    (interpolation : Interpolation)
    (hweights : ∀ k < vis.rowCount, ∀ b < nchan, ∀ p < npol, (vis.sampleAt k b p).flagged = false →
      0 ≤ (vis.sampleAt k b p).weight)
    (hzero : ∀ ch p j i, g.get ch p j i = 0) {sums : Option (Tensor ℝ)}
    (hsums : ∀ t ∈ sums, t = Tensor.fill [g.nchan, g.npol] 0) :
    (∃ d, addWeightsOf vis g c map sums interpolation = .ok d ∧ Alike g d.grid ∧
      d.sumWeights.shape = [g.nchan, g.npol] ∧
      ∀ ch < g.nchan, ∀ p < g.npol,
        (∀ j < g.ny, ∀ i < g.nx, (d.grid.get ch p j i).im = 0 ∧ 0 ≤ (d.grid.get ch p j i).re) ∧
        ∑ j ∈ range g.ny, ∑ i ∈ range g.nx, (d.grid.get ch p j i).re ≤ d.sumWeights.get [ch, p] ∧
        ((∀ k < vis.rowCount, ∀ b < nchan, Counts vis g k b ch p →
            ∃ f, sampleFootprint vis c map l interpolation k b = .ok f ∧
              (f.Inside g.ny g.nx ∨ f.Outside g.ny g.nx)) →
          ∑ j ∈ range g.ny, ∑ i ∈ range g.nx, (d.grid.get ch p j i).re =
            d.sumWeights.get [ch, p])) ∧
    ∀ (m : Grid ℝ) (constant : ℕ → ℕ → Cplx ℝ), Alike g m →
      (∀ ch p j i, ch < g.nchan → p < g.npol → j < g.ny → i < g.nx →
        m.get ch p j i = constant ch p) →
      ∃ vis' statistics, predict vis m c map interpolation = .ok (vis', statistics) ∧
        ∀ k < vis.rowCount, ∀ b < nchan, ∀ p < npol,
          (∃ f, sampleFootprint vis c map l interpolation k b = .ok f ∧ f.Inside g.ny g.nx) →
            (vis'.sampleAt k b p).value = constant (g.channelAt (vis.frequency.getD b 0)) p := by
  obtain ⟨s, hplane, hunit, -⟩ := Kernel.exists_plane_of_buildCache hbuilt hkind
  refine ⟨?_, fun m constant hm hconstant =>
    predict_constant h hplane hunit interpolation hm hconstant⟩
  obtain ⟨F, hF, d, hd, halike, hshape, hholds, hcounted⟩ :=
    exists_density h interpolation hzero hsums
  refine ⟨d, hd, halike, hshape, fun ch hch p hp => ?_⟩
  have hnonneg : ∀ k < vis.rowCount, ∀ b < nchan, (vis.sampleAt k b p).flagged = false →
      0 ≤ (vis.sampleAt k b p).weight := fun k hk b hb => hweights k hk b hb p (h.npol_eq ▸ hp)
  have hsum : ∑ j ∈ range g.ny, ∑ i ∈ range g.nx, (d.grid.get ch p j i).re =
      ∑ j ∈ range g.ny, ∑ i ∈ range g.nx, density vis g c map l interpolation ch p j i :=
    sum_congr rfl fun j hj => sum_congr rfl fun i hi =>
      hholds.re hch hp (mem_range.1 hj) (mem_range.1 hi)
  refine ⟨fun j hj i hi => ⟨hholds.im hch hp hj hi, ?_⟩, ?_, fun hlies => ?_⟩
  · rw [hholds.re hch hp hj hi]
    exact density_nonneg h hplane hunit interpolation hnonneg ch j i
  · rw [hsum, hcounted ch hch p hp]
    exact sum_density_le h hplane hunit interpolation hF hnonneg
  · rw [hsum, hcounted ch hch p hp]
    exact sum_density_eq h hplane hunit interpolation hF hlies

/-! ## Constant cells -/

theorem weight_quarterVisibility : ∀ k < quarterVisibility.rowCount, ∀ b < 1, ∀ p < 1,
    (quarterVisibility.sampleAt k b p).flagged = false →
    0 ≤ (quarterVisibility.sampleAt k b p).weight := by
  intro k hk b hb p hp _
  obtain rfl : b = 0 := by omega
  obtain rfl : p = 0 := by omega
  obtain ⟨hfirst, hsecond⟩ := sampleAt_quarterVisibility
  obtain rfl | rfl : k = 0 ∨ k = 1 := by
    have hcount : quarterVisibility.rowCount = 2 := rfl
    omega
  · rw [hfirst]
    exact zero_le_two
  · rw [hsecond]
    exact zero_le_one

/-- Five by five cells of one wavelength that all hold one value. -/
noncomputable def constantGrid (z : Cplx ℝ) : Grid ℝ :=
  ⟨Tensor.fill [1, 1, 5, 5] z, 1, 1, 5, 5, .perAxis [1, 1], none, rfl⟩

theorem get_constantGrid (z : Cplx ℝ) {ch p j i : ℕ} (hch : ch < 1) (hp : p < 1) (hj : j < 5)
    (hi : i < 5) :
    (constantGrid z).get ch p j i = z :=
  Tensor.get_fill z ⟨hch, hp, hj, hi, trivial⟩

/-- A cache of one plane for cells of one wavelength serves these cells. -/
theorem fit_constantGrid {c : Cache ℝ} (hc : c.WellFormed) (hcell : c.cellSize = .perAxis [1, 1])
    (hcount : c.planeCount = 1) (z : Cplx ℝ) :
    Fit quarterVisibility (constantGrid z) c (PlaneMap.single quarterVisibility)
      ⟨1, 1, 5, 5, c.oversample⟩ where
  cache := hc
  checked := by
    simp [checkFit, quarterVisibility, constantGrid, PlaneMap.single, Visibility.rowCount, hcount,
      hcell, CellSize.agree?, CellSize.values, CellSize.close]
  listed := rfl
  length_frequency := rfl
  nchan_pos := one_pos
  tuned := .inl rfl
  lattice := rfl

/-- Between two columns, taps no more than one cell from the middle are on the grid. -/
theorem inside_constantGrid {c : Cache ℝ} (hos : c.oversample = 2) {s : ℕ} (hs : s ≤ 1)
    (hc : c.Symmetric s) {k : ℕ} (hk : k < 2) :
    ∃ f, sampleFootprint quarterVisibility c (PlaneMap.single quarterVisibility)
      ⟨1, 1, 5, 5, c.oversample⟩ .linear k 0 = .ok f ∧ f.Inside 5 5 := by
  obtain ⟨r, hr, hu, hv⟩ := exists_row_quarterVisibility hk
  have hshape : c.zeroW.shape = [2, 2, 2 * s + 1, 2 * s + 1] := hos ▸ hc.shape
  have hpositionV : Lattice.positionV (⟨1, 1, 5, 5, 2⟩ : Lattice ℝ) 0 = 4 := by
    norm_num [Lattice.positionV]
  have hpositionU : Lattice.positionU (⟨1, 1, 5, 5, 2⟩ : Lattice ℝ) (1 / 4) = 9 / 2 := by
    norm_num [Lattice.positionU]
  have hline : axisPoints .linear 2 (4 : ℝ) = (.ofLattice 2 4 1, []) := by
    simp [axisPoints, lowerPoint, Scalar.floorInt_real, Scalar.floor_real]
  have hcolumn : axisPoints .linear 2 (9 / 2 : ℝ) =
      (.ofLattice 2 4 (1 / 2), [.ofLattice 2 5 (1 / 2)]) := by
    have hlower : lowerPoint .linear 2 (9 / 2 : ℝ) = (4, 1 / 2) := by
      have hfloor : ⌊(9 / 2 : ℝ)⌋ = 4 := by norm_num
      rw [lowerPoint_linear_two, Int.fract, hfloor]
      norm_num
    rw [axisPoints, hlower]
    norm_num
  obtain ⟨f, hf⟩ : ∃ f, footprint c.zeroW (s : ℤ) (axisPoints .linear 2 (4 : ℝ))
      (axisPoints .linear 2 (9 / 2 : ℝ)) = .ok f :=
      ⟨_, footprint_axisPoints_eq .linear two_pos hshape _ _⟩
  have hrectangle := rectangle_of_footprint .linear two_pos hshape (4 : ℝ) (9 / 2) hf
  simp only [hline, hcolumn, lastCell, AxisPoint.ofLattice, cellOf, List.getLast?_nil,
    List.getLast?_singleton, Option.getD_none, Option.getD_some] at hrectangle
  refine ⟨f, ?_, ?_⟩
  · simp only [sampleFootprint, plane_single, hr, hc.planes, hc.supports, hos]
    show footprint c.zeroW (s : ℤ)
      (axisPoints .linear 2
        (Lattice.positionV ⟨1, 1, 5, 5, 2⟩ (Visibility.wavelengths r.v 299792458)))
      (axisPoints .linear 2
        (Lattice.positionU ⟨1, 1, 5, 5, 2⟩ (Visibility.wavelengths r.u 299792458))) = _
    rw [hu, hv, wavelengths_quarterVisibility, wavelengths_quarterVisibility,
      hpositionV, hpositionU]
    exact hf
  · unfold Footprint.Inside
    omega

/-- The anti-aliasing function with a half-width of one: all of the weight goes to the cells, and
    constant cells predict their constant. -/
theorem weights_partition_unity_narrow :
    ∃ c cache, Kernel.narrowRequest.check = .ok (.fitting c) ∧
      (Kernel.Variant.spheroidal (.fitting c)).buildCache (.perAxis [1, 1])
      [3, 3] .absent = .ok cache ∧
      (∃ d, addWeightsOf quarterVisibility (constantGrid 0) cache
          (PlaneMap.single quarterVisibility) none
          .linear = .ok d ∧
        ∑ j ∈ range 5, ∑ i ∈ range 5, (d.grid.get 0 0 j i).re = d.sumWeights.get [0, 0]) ∧
      ∃ vis' statistics, predict quarterVisibility (constantGrid ⟨7, 8⟩) cache
          (PlaneMap.single quarterVisibility) .linear = .ok (vis', statistics) ∧
        (vis'.sampleAt 0 0 0).value = ⟨7, 8⟩ := by
  have hcell : (CellSize.perAxis [(1 : ℝ), 1]).values ≠ [] := List.cons_ne_nil _ _
  obtain ⟨c, cache, hc, hbuild⟩ :=
    Kernel.exists_build_narrow (fun t ht => absurd ht (Option.not_mem_none t))
      (List.cons_ne_nil (Kernel.PlaneValue.ofScalar 0) []) hcell
      (show 3 ≤ min (3 : ℤ) 3 by decide) "spheroidal"
  have hbuilt : (Kernel.Variant.spheroidal (.fitting c)).buildCache (.perAxis [1, 1])
      [3, 3] .absent = .ok cache := hbuild
  obtain ⟨s, hplane, -, -⟩ := Kernel.exists_plane_of_buildCache hbuilt (.inr ⟨_, rfl⟩)
  have hcomplete := Kernel.complete_of_build hbuild
  have hos : cache.oversample = 2 := by
    obtain ⟨c', hc', htwo, -⟩ := Kernel.fitting_of_check (by decide) hc
    obtain rfl : c = c' := Kernel.Parameters.fitting.inj hc'
    rw [hcomplete.oversample]
    exact_mod_cast (Option.some.inj htwo).symm
  have hs : s ≤ 1 := by
    have hfits := (hcomplete.fits s (by rw [hplane.supports]; exact List.mem_singleton_self _)).2
    omega
  obtain ⟨hwell, hcells⟩ := Kernel.wellFormed_of_buildCache hbuilt
  have hfit := fit_constantGrid hwell hcells hcomplete.count
  have hinside : ∀ k < 2, ∃ f,
      sampleFootprint quarterVisibility cache (PlaneMap.single quarterVisibility)
      ⟨1, 1, 5, 5, cache.oversample⟩ .linear k 0 = .ok f ∧ f.Inside 5 5 :=
    fun k hk => inside_constantGrid hos hs hplane hk
  have hzero : ∀ ch p j i, (constantGrid 0).get ch p j i = 0 :=
    fun ch p j i => Tensor.get_fill_zero _ _
  obtain ⟨⟨d, hd, -, -, hcells⟩, hconstant⟩ :=
    weights_partition_unity hbuilt (.inr ⟨_, rfl⟩) (hfit 0) .linear
      weight_quarterVisibility hzero (show ∀ t ∈ none, t = Tensor.fill [1, 1] 0 from nofun)
  refine ⟨c, cache, hc, hbuilt, ⟨d, hd, (hcells 0 one_pos 0 one_pos).2.2 ?_⟩, ?_⟩
  · intro k hk b hb _
    obtain rfl : b = 0 := by omega
    obtain ⟨f, hf, hin⟩ := hinside k hk
    exact ⟨f, hf, .inl hin⟩
  · obtain ⟨vis', statistics, hpredict, hvalue⟩ :=
      hconstant (constantGrid ⟨7, 8⟩) (fun _ _ => ⟨7, 8⟩)
        ⟨rfl, rfl, rfl, rfl, rfl, rfl⟩ fun ch p j i hch hp hj hi => get_constantGrid _ hch hp hj hi
    exact ⟨vis', statistics, hpredict, hvalue 0 two_pos 0 one_pos 0 one_pos (hinside 0 two_pos)⟩

end ApertureSynthesis.Grid
