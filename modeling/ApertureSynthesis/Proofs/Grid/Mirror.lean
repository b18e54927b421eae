/-
  Gridding and the symmetry of visibilities.

  The visibilities of a real sky are the same measured from either end of a baseline, up to
  conjugation. So `Visibility.mirrored` changes nothing but the sign of the coordinates and the
  values to their conjugates. On the lattice it reflects each position at the zero of the uv plane,
  the middle of a cell; so with the anti-aliasing function the kernel of a sample is reflected
  (`Fit.sampleKernel_mirrored`), the direct sums at opposite cells are conjugates, and sums of
  weights and counters stay the same where no footprint is clipped (`mirrored_is_conjugate`). The
  kernels ask that no point that is used is halfway between two cells, which matters with an even
  number of points for each cell and taps of less than three cells only; a sample halfway between
  two cells goes to the upper one on both sides (`halfway_is_not_conjugate`).
-/
import Mathlib
import ApertureSynthesis.Proofs.Grid.Counters
import ApertureSynthesis.Proofs.Grid.Density
import ApertureSynthesis.Proofs.Kernel.Mirror

namespace ApertureSynthesis

open Finset ComplexConjugate

/-! ## Mirrored visibilities -/

section Mirrored

variable {α : Type} [Scalar α] {nchan npol : ℕ}

/-- The baseline from its other end. -/
def Row.mirrored (r : Row α nchan npol) : Row α nchan npol :=
  { r.mapSamples fun _ _ s => { s with value := s.value.conj } with
    u := -r.u, v := -r.v, w := -r.w }

/-- Coordinates with the other sign and conjugate values, of the same weights and flags. -/
def Visibility.mirrored (vis : Visibility α nchan npol) : Visibility α nchan npol :=
  vis.mapRows Row.mirrored

namespace Visibility

variable {vis : Visibility α nchan npol}

theorem rowCount_mirrored : vis.mirrored.rowCount = vis.rowCount := List.length_map _

theorem flagged_mirrored (r : Row α nchan npol) : r.mirrored.flagged = r.flagged := by
  rw [Bool.eq_iff_iff, Row.flagged_iff, Row.flagged_iff]
  simp [Row.AllFlagged, Row.mirrored, Row.mapSamples]

theorem unflagged_mirrored : vis.mirrored.Unflagged = vis.Unflagged := by
  funext k b
  simp [Unflagged, mirrored, mapRows, Row.mirrored, Row.mapSamples]

theorem flaggedRows_mirrored : Grid.flaggedRows vis.mirrored = Grid.flaggedRows vis := by
  unfold Grid.flaggedRows mirrored mapRows
  rw [List.countP_map]
  exact List.countP_congr fun r _ => by rw [Function.comp_apply, flagged_mirrored]

omit [Scalar α] in
/-- No row and channel is counted where none has the property. -/
theorem count_eq_zero {P : ℕ → ℕ → Prop} (h : ∀ k b, ¬ P k b) : vis.count P = 0 := by
  classical
  exact card_eq_zero.2 (filter_false_of_mem fun x _ => h x.1 x.2)

theorem count_mirrored (P : ℕ → ℕ → Prop) : vis.mirrored.count P = vis.count P := by
  unfold count
  rw [rowCount_mirrored]

end Visibility

end Mirrored

namespace Visibility

variable {nchan npol : ℕ} {vis : Visibility ℝ nchan npol}

theorem sampleAt_mirrored {k b p : ℕ} (hk : k < vis.rowCount) (hb : b < nchan) (hp : p < npol) :
    vis.mirrored.sampleAt k b p =
      { vis.sampleAt k b p with value := (vis.sampleAt k b p).value.conj } := by
  have hk' : k < vis.mirrored.rows.length := rowCount_mirrored.trans_gt hk
  rw [sampleAt, sampleAt, dif_pos ⟨hk', hb, hp⟩, dif_pos ⟨hk, hb, hp⟩]
  simp [mirrored, mapRows, Row.mirrored, Row.mapSamples]

/-- A sample that is not flagged is one of a row and channel that is used. -/
theorem unflagged_of_sampleAt {k b p : ℕ} (hk : k < vis.rowCount) (hb : b < nchan) (hp : p < npol)
    (h : (vis.sampleAt k b p).flagged = false) : vis.Unflagged k b := by
  rw [sampleAt, dif_pos ⟨hk, hb, hp⟩] at h
  exact ⟨hk, hb, p, hp, h⟩

end Visibility

namespace Grid

/-! ## Footprints that are not clipped -/

section Unclipped

variable {nchan npol : ℕ} {vis : Visibility ℝ nchan npol} {g : Grid ℝ} {c : Cache ℝ}
  {map : PlaneMap} {l : Lattice ℝ} {interpolation : Interpolation}

/-- Every row and channel that is used has its whole footprint on the grid. -/
def Unclipped (vis : Visibility ℝ nchan npol) (g : Grid ℝ) (c : Cache ℝ) (map : PlaneMap)
    (l : Lattice ℝ) (interpolation : Interpolation) : Prop :=
  ∀ k b, vis.Unflagged k b →
    ∃ F, sampleFootprint vis c map l interpolation k b = .ok F ∧ F.Inside g.ny g.nx

/-- A footprint on the grid touches it. -/
theorem Fit.touches_of_inside (h : Fit vis g c map l) {k b : ℕ} (hk : k < vis.rowCount)
    (hb : b < nchan) {F : Footprint ℝ} (hF : sampleFootprint vis c map l interpolation k b = .ok F)
    (hin : F.Inside g.ny g.nx) : Touches vis g c map interpolation k b := by
  have hframe := h.frame_eq interpolation
  obtain ⟨F', hplace, hF', -⟩ := h.exists_footprint interpolation hk hb hframe
  obtain rfl : F = F' := Except.ok.inj (hF.symm.trans hF')
  obtain ⟨plane, s, xv, xu, -, -, hshape, hfootprint, -⟩ := h.exists_sample interpolation hF
  have hrectangle := rectangle_of_footprint interpolation h.cache.1 hshape xv xu hfootprint
  have hv := cell_mem_axisPoints interpolation h.cache.1 xv List.mem_cons_self
  have hu := cell_mem_axisPoints interpolation h.cache.1 xu List.mem_cons_self
  obtain ⟨⟨hv0, hvny⟩, hu0, hunx⟩ := hin
  by_contra hnot
  refine placement_eq_outside_iff.1
    ((outside_iff h.cache hframe (List.getElem?_eq_getElem hk) hplace).2 hnot) ⟨?_, ?_⟩
  · exact ⟨F.v.toNat, by omega, by omega, by omega⟩
  · exact ⟨F.u.toNat, by omega, by omega, by omega⟩

/-- Without clipping all rows and channels that are used count as gridded. -/
theorem Fit.statistics_of_unclipped (h : Fit vis g c map l)
    (hwhole : Unclipped vis g c map l interpolation) {how : Contribution ℝ}
    {sums : Option (Tensor ℝ)} {d : Deposit ℝ}
    (hd : deposit how vis g c map sums interpolation = .ok d) :
    d.statistics = ⟨vis.count vis.Unflagged, flaggedRows vis, 0, map.clamped⟩ := by
  have haccount := depositAccount_of_ok h.cache hd
  have hnone :
      vis.count (fun k b => vis.Unflagged k b ∧ ¬ Touches vis g c map interpolation k b) = 0 := by
    refine Visibility.count_eq_zero fun k b hused => hused.2 ?_
    obtain ⟨F, hF, hin⟩ := hwhole k b hused.1
    obtain ⟨hk, hb, -⟩ := hused.1
    exact h.touches_of_inside hk hb hF hin
  have houtside : d.statistics.outside = 0 := by rw [haccount.outside, hnone, Nat.cast_zero]
  have hgridded : d.statistics.gridded = vis.count vis.Unflagged := by
    rw [← haccount.total, houtside, add_zero]
  obtain ⟨hflagged, hclamped⟩ := deposit_counters hd
  exact Statistics.ext hgridded hflagged houtside hclamped

end Unclipped

/-! ## Mirrored positions and kernels -/

section Mirror

variable {nchan npol : ℕ} {vis : Visibility ℝ nchan npol} {g : Grid ℝ} {c : Cache ℝ}
  {map : PlaneMap} {l : Lattice ℝ}

theorem Lattice.positionU_neg (l : Lattice ℝ) (u : ℝ) : l.positionU (-u) =
    ((2 * ((l.nx / 2 : ℕ) * l.oversample) : ℤ) : ℝ) - l.positionU u := by
  unfold Lattice.positionU
  rw [neg_div]
  generalize l.nx / 2 = middle
  push_cast
  ring

theorem Lattice.positionV_neg (l : Lattice ℝ) (v : ℝ) : l.positionV (-v) =
    ((2 * ((l.ny / 2 : ℕ) * l.oversample) : ℤ) : ℝ) - l.positionV v := by
  unfold Lattice.positionV
  rw [neg_div]
  generalize l.ny / 2 = middle
  push_cast
  ring

/-- Positions are reflected at the zero of the uv plane. -/
theorem latticePosition_mirrored (l : Lattice ℝ) {k : ℕ} (hk : k < vis.rowCount) (b : ℕ) :
    latticePosition vis.mirrored l k b =
      (((2 * ((l.ny / 2 : ℕ) * l.oversample) : ℤ) : ℝ) - (latticePosition vis l k b).1,
        ((2 * ((l.nx / 2 : ℕ) * l.oversample) : ℤ) : ℝ) - (latticePosition vis l k b).2) := by
  have hwavelengths : ∀ x hertz : ℝ, Visibility.wavelengths (-x) hertz =
      -Visibility.wavelengths x hertz :=
    fun x hertz => neg_mul x _
  have hr : vis.rows[k]? = some vis.rows[k] := List.getElem?_eq_getElem hk
  have hmirrored : vis.mirrored.rows[k]? = some vis.rows[k].mirrored := by
    rw [Visibility.mirrored, Visibility.mapRows, List.getElem?_map, hr, Option.map_some]
  simp only [latticePosition, hr, hmirrored]
  rw [← Lattice.positionV_neg, ← Lattice.positionU_neg, ← hwavelengths, ← hwavelengths]
  rfl

/-- Mirrored visibilities fit as well. -/
theorem Fit.mirrored (h : Fit vis g c map l) : Fit vis.mirrored g c map l :=
  h.congr Visibility.rowCount_mirrored rfl rfl

/-- The footprint of a sample is made of the taps of the only plane. -/
theorem Fit.sampleFootprint_eq_footprint {s : ℕ} (h : Fit vis g c map l) (hplane : c.Symmetric s)
    (interpolation : Interpolation) {k b : ℕ} (hk : k < vis.rowCount) (hb : b < nchan) :
    sampleFootprint vis c map l interpolation k b = footprint c.zeroW s
      (axisPoints interpolation c.oversample (latticePosition vis l k b).1)
      (axisPoints interpolation c.oversample (latticePosition vis l k b).2) := by
  obtain ⟨htable, hsupport⟩ := h.exists_only_plane hplane hk hb
  have hlt : b < vis.frequency.length := by rw [h.length_frequency]; exact hb
  have hr : vis.rows[k]? = some vis.rows[k] := List.getElem?_eq_getElem hk
  simp only [sampleFootprint, latticePosition, hr, List.getElem?_eq_getElem hlt, htable, hsupport,
    List.getD_eq_getElem _ _ hlt]

/-- The points that a row and channel uses along both axes have their taps on both sides: they are
    not halfway between two cells, or the taps reach as far as the gridding function. -/
def Balanced (vis : Visibility ℝ nchan npol) (c : Cache ℝ) (l : Lattice ℝ)
    (interpolation : Interpolation) (s k b : ℕ) : Prop :=
  ∀ q, Uses interpolation c.oversample (latticePosition vis l k b).1 q ∨
    Uses interpolation c.oversample (latticePosition vis l k b).2 q →
    3 ≤ s ∨ ¬ Halfway c.oversample q

section Kernel

variable {s : ℕ} (h : Fit vis g c map l) (hplane : c.Symmetric s) (htaps : c.AxisTaps s)
  (interpolation : Interpolation)

include h hplane htaps

/-- The kernel of a mirrored sample at the opposite cell. -/
theorem Fit.sampleKernel_mirrored {k b : ℕ} (hk : k < vis.rowCount) (hb : b < nchan)
    (hbalanced : Balanced vis c l interpolation s k b) {j j' i i' : ℕ}
    (hj : j + j' = 2 * (g.ny / 2)) (hi : i + i' = 2 * (g.nx / 2)) :
    sampleKernel vis.mirrored c map l interpolation k b j' i' =
      sampleKernel vis c map l interpolation k b j i := by
  obtain ⟨hnx, hny, hos⟩ := h.lattice_axes
  have hrow : (j' : ℤ) = 2 * (g.ny / 2 : ℕ) - j := by omega
  have hcolumn : (i' : ℤ) = 2 * (g.nx / 2 : ℕ) - i := by omega
  rw [h.sampleKernel_eq_kernelAt hplane interpolation hk hb,
    h.mirrored.sampleKernel_eq_kernelAt hplane interpolation
      (Visibility.rowCount_mirrored.trans_gt hk) hb,
    latticePosition_mirrored l hk, hny, hnx, hos, hrow, hcolumn]
  exact htaps.kernelAt_mirror interpolation h.cache.1 (fun q hq => hbalanced q (.inl hq))
    (fun q hq => hbalanced q (.inr hq)) _ _ _ _

/-- Direct sums of mirrored visibilities at opposite cells. -/
theorem Fit.directSum_mirrored (hunit : c.UnitTaps s)
    (hbalanced : ∀ k b, vis.Unflagged k b → Balanced vis c l interpolation s k b)
    {ch p j j' i i' : ℕ} (hp : p < npol) (hj : j + j' = 2 * (g.ny / 2))
    (hi : i + i' = 2 * (g.nx / 2)) :
    directSum vis.mirrored g c map l interpolation ch p j' i' =
      conj (directSum vis g c map l interpolation ch p j i) := by
  unfold directSum
  rw [Visibility.rowCount_mirrored, map_sum]
  refine sum_congr rfl fun k hk => ?_
  rw [map_sum]
  refine sum_congr rfl fun b hb => ?_
  have hk := mem_range.1 hk
  have hb := mem_range.1 hb
  rw [Visibility.sampleAt_mirrored hk hb hp, apply_ite conj, map_zero]
  refine if_ctx_congr Iff.rfl (fun hused => ?_) fun _ => rfl
  have hreal := Complex.conj_eq_iff_im.2
    (Complex.nonneg_iff.1 (h.sampleKernel_nonneg hplane interpolation hk hb hunit j i)).2.symm
  rw [h.sampleKernel_mirrored hplane htaps interpolation hk hb
    (hbalanced k b (Visibility.unflagged_of_sampleAt hk hb hp hused.1)) hj hi]
  simp only [map_mul, Complex.conj_ofReal, hreal, Cplx.val_conj]

omit htaps in
/-- Where no footprint is clipped the direct sums of weights count each sample with its weight. -/
theorem Fit.directWeight_of_unclipped (hunit : c.UnitTaps s)
    (hwhole : Unclipped vis g c map l interpolation) {ch p : ℕ} (hp : p < npol) :
    directWeight vis g c map l interpolation ch p =
      ∑ k ∈ range vis.rowCount, ∑ b ∈ range nchan,
        if (vis.sampleAt k b p).flagged = false ∧ g.channelAt (vis.frequency.getD b 0) = ch then
          (vis.sampleAt k b p).weight
        else 0 := by
  unfold directWeight
  refine sum_congr rfl fun k hk => sum_congr rfl fun b hb => ?_
  have hk := mem_range.1 hk
  have hb := mem_range.1 hb
  refine if_ctx_congr Iff.rfl (fun hused => ?_) fun _ => rfl
  obtain ⟨F, hF, hin⟩ := hwhole k b (Visibility.unflagged_of_sampleAt hk hb hp hused.1)
  rw [h.sum_sampleKernel_eq_one hplane interpolation hk hb hunit hF hin, norm_one, one_pow, mul_one]

omit htaps in
theorem Fit.directWeight_mirrored (hunit : c.UnitTaps s)
    (hwhole : Unclipped vis g c map l interpolation)
    (hwhole' : Unclipped vis.mirrored g c map l interpolation) {ch p : ℕ} (hp : p < npol) :
    directWeight vis.mirrored g c map l interpolation ch p =
      directWeight vis g c map l interpolation ch p := by
  rw [h.directWeight_of_unclipped hplane interpolation hunit hwhole hp,
    h.mirrored.directWeight_of_unclipped hplane interpolation hunit hwhole' hp,
    Visibility.rowCount_mirrored]
  refine sum_congr rfl fun k hk => sum_congr rfl fun b hb => ?_
  rw [Visibility.sampleAt_mirrored (mem_range.1 hk) (mem_range.1 hb) hp]
  rfl

end Kernel

/-! ## The main statement -/

/-- With the anti-aliasing function, mirrored visibilities that are gridded from zero make cells
    that are the conjugates of those that the visibilities make on the other side of the zero of the
    uv plane, and the same sums of weights and counters, if no footprint is clipped on either side.
    Lattice points halfway between two cells, which there are with an even number of points for each
    cell only, may be used if the taps reach three cells to either side. -/
theorem mirrored_is_conjugate {parameters : Kernel.Parameters ℝ} {cellSize : CellSize ℝ}
    {shape : List ℤ} {frequency : Setting ℝ}
    (hbuilt : (Kernel.Variant.spheroidal parameters).buildCache cellSize shape frequency = .ok c)
    (h : Fit vis g c map l) (interpolation : Interpolation)
    (hwhole : Unclipped vis g c map l interpolation)
    (hwhole' : Unclipped vis.mirrored g c map l interpolation)
    (hzero : ∀ ch p j i, g.get ch p j i = 0)
    (hhalf : Odd c.oversample ∨ (∀ s ∈ c.supports, 3 ≤ s) ∨ ∀ k b, vis.Unflagged k b →
      ∀ q, Uses interpolation c.oversample (latticePosition vis l k b).1 q ∨
        Uses interpolation c.oversample (latticePosition vis l k b).2 q →
        ¬ Halfway c.oversample q) :
    ∃ d d', addVisibilities vis g c map none interpolation = .ok d ∧
      addVisibilities vis.mirrored g c map none interpolation = .ok d' ∧
      (∀ ch < g.nchan, ∀ p < g.npol, ∀ j < g.ny, ∀ j' < g.ny, ∀ i < g.nx, ∀ i' < g.nx,
        j + j' = 2 * (g.ny / 2) → i + i' = 2 * (g.nx / 2) →
          d'.grid.get ch p j' i' = (d.grid.get ch p j i).conj) ∧
      d'.sumWeights = d.sumWeights ∧ d'.statistics = d.statistics := by
  obtain ⟨s, hplane, hunit, htaps⟩ := Kernel.exists_axisTaps_of_spheroidal hbuilt
  have hbalanced : ∀ k b, vis.Unflagged k b → Balanced vis c l interpolation s k b := by
    intro k b hused q hq
    rcases hhalf with hodd | hwide | havoids
    · exact .inr (not_halfway_of_odd hodd q)
    · have hthree : (3 : ℤ) ≤ s :=
        hwide s (by rw [hplane.supports]; exact List.mem_singleton_self _)
      exact .inl (by exact_mod_cast hthree)
    · exact .inr (havoids k b hused q hq)
  obtain ⟨d, hd, hadds⟩ := addVisibilities_adds h interpolation none nofun
  obtain ⟨d', hd', hadds'⟩ := addVisibilities_adds h.mirrored interpolation none nofun
  refine ⟨d, d', hd, hd', fun ch hch p hp j hj j' hj' i hi i' hi' hrow hcolumn => ?_, ?_, ?_⟩
  · apply Cplx.val_injective
    rw [Cplx.val_conj, hadds.cell ch p j i hch hp hj hi, hadds'.cell ch p j' i' hch hp hj' hi',
      hzero, hzero, Cplx.val_zero, zero_add, zero_add]
    exact h.directSum_mirrored hplane htaps interpolation hunit hbalanced
      (h.npol_eq ▸ hp) hrow hcolumn
  · refine Tensor.ext_get (hadds'.shape.trans hadds.shape.symm) fun index hindex => ?_
    rw [hadds'.shape] at hindex
    obtain ⟨front, ch, p, rfl, hfront, hch, hp⟩ := Tensor.exists_of_within_raster
      (show Tensor.Within ([] ++ [g.nchan, g.npol]) index from hindex)
    obtain rfl : front = [] := List.eq_nil_of_length_eq_zero (Tensor.length_of_within hfront)
    rw [List.nil_append, hadds.weight ch p hch hp, hadds'.weight ch p hch hp,
      h.directWeight_mirrored hplane interpolation hunit hwhole hwhole' (h.npol_eq ▸ hp)]
  · rw [h.statistics_of_unclipped hwhole hd, h.mirrored.statistics_of_unclipped hwhole' hd',
      Visibility.flaggedRows_mirrored, Visibility.unflagged_mirrored, Visibility.count_mirrored]

end Mirror

/-! ## A single tap -/

section Lattice

variable (interpolation : Interpolation) (oversample : ℕ) (q : ℤ)

theorem lowerPoint_intCast : lowerPoint interpolation oversample (q : ℝ) = (q, 0) := by
  unfold lowerPoint
  split
  · rw [Scalar.roundInt_intCast]
  · rw [Scalar.floorInt_real, Scalar.floor_real, Int.floor_intCast, sub_self]

theorem axisPoints_intCast :
    axisPoints interpolation oversample (q : ℝ) = (.ofLattice oversample q 1, []) := by
  simp [axisPoints, lowerPoint_intCast]

/-- A position on the lattice uses its own point only. -/
theorem uses_intCast_iff {q' : ℤ} : Uses interpolation oversample (q : ℝ) q' ↔ q' = q := by
  simp [Uses, lowerPoint_intCast]

end Lattice

/-- A sample at a coordinate along u, in wavelengths. -/
noncomputable def sampleOn (u : ℝ) (z : Cplx ℝ) : Visibility ℝ 1 1 :=
  { quarterVisibility with rows := [⟨u, 0, 0, #v[#v[⟨z, 1, false⟩]]⟩] }

theorem mirrored_sampleOn (u : ℝ) (z : Cplx ℝ) :
    (sampleOn u z).mirrored = sampleOn (-u) z.conj := by
  unfold Visibility.mirrored Visibility.mapRows sampleOn Row.mirrored Row.mapSamples
  simp

theorem latticePosition_sampleOn {u : ℝ} {q : ℤ} (hq : (u + 1) * 2 = q) (z : Cplx ℝ) :
    latticePosition (sampleOn u z) ⟨1, 1, 3, 3, 2⟩ 0 0 = (((2 : ℤ) : ℝ), (q : ℝ)) := by
  simp only [latticePosition, sampleOn, quarterVisibility, List.getElem?_cons_zero,
    List.getD_cons_zero, wavelengths_quarterVisibility]
  norm_num [Lattice.positionV, Lattice.positionU, hq]

/-- A cache of the anti-aliasing function with two points for each cell and a single tap, for cells
    of one wavelength. -/
structure SingleTap (c : Cache ℝ) : Prop where
  /-- It was built, -/
  built : (Kernel.Variant.spheroidal (.fitting (Kernel.searchedConfig 1 one_pos))).buildCache
    (.perAxis [1, 1]) [1, 1, 3, 3] .absent = .ok c
  /-- with two points for each cell, -/
  oversample : c.oversample = 2
  /-- a single tap, -/
  symmetric : c.Symmetric 0
  /-- for each axis, -/
  axisTaps : c.AxisTaps 0
  /-- tables of their shapes -/
  wellFormed : c.WellFormed
  /-- and cells of one wavelength. -/
  cellSize : c.cellSize = .perAxis [1, 1]

theorem exists_singleTap : ∃ c, SingleTap c := by
  obtain ⟨cache, hbuilt⟩ :=
    Kernel.exists_spheroidal_of_cutoff_one (c := Kernel.searchedConfig 1 one_pos) rfl rfl
      (show (CellSize.perAxis [(1 : ℝ), 1]).values ≠ [] from List.cons_ne_nil _ _)
      (show 1 ≤ min (3 : ℤ) 3 by decide)
  obtain ⟨c, ny, nx, support, table, kernel, planes, hc, hconstruction⟩ :=
    Kernel.exists_built_of_spheroidal hbuilt
  cases hc
  obtain rfl : support = 0 := by
    have hfound := hconstruction.found
    rw [Kernel.supportOf_of_cutoff_one rfl rfl] at hfound
    exact (Except.ok.inj hfound).symm
  obtain ⟨hwell, hcells⟩ := Kernel.wellFormed_of_buildCache hbuilt
  exact ⟨cache, hbuilt, hconstruction.cache_oversample, hconstruction.symmetric,
    hconstruction.axisTaps, hwell, hcells⟩

namespace SingleTap

variable {c : Cache ℝ} (h : SingleTap c) {u : ℝ} (z : Cplx ℝ) (interpolation : Interpolation)

include h

theorem fit (u : ℝ) :
    Fit (sampleOn u z) smallGrid c (PlaneMap.single (sampleOn u z)) ⟨1, 1, 3, 3, 2⟩ where
  cache := h.wellFormed
  checked := by
    have hcount : c.planeCount = 1 := by
      rw [Cache.planeCount, h.symmetric.planes]
      rfl
    simp [checkFit, sampleOn, smallGrid, empty, PlaneMap.single, Visibility.rowCount, hcount,
      h.cellSize, CellSize.agree?, CellSize.values, CellSize.close]
  listed := rfl
  length_frequency := rfl
  nchan_pos := one_pos
  tuned := .inl rfl
  lattice := by
    rw [← h.oversample]
    rfl

variable {q : ℤ} (hq : (u + 1) * 2 = q)

include hq

/-- The sample goes to the cell of its lattice point. -/
theorem sampleKernel_eq (j i : ℤ) :
    sampleKernel (sampleOn u z) c (PlaneMap.single (sampleOn u z))
      ⟨1, 1, 3, 3, 2⟩ interpolation 0 0 j i = if j = 1 ∧ i = cellOf 2 q then 1 else 0 := by
  have hmiddle : cellOf 2 2 = 1 := rfl
  rw [(h.fit z u).sampleKernel_eq_kernelAt h.symmetric interpolation one_pos one_pos,
    latticePosition_sampleOn hq, h.axisTaps.kernelAt_intCast, h.oversample,
    Kernel.axisTap_zero two_pos, Kernel.axisTap_zero two_pos, hmiddle]
  by_cases hj : j = 1 <;> by_cases hi : i = cellOf 2 q <;> simp [hj, hi]

/-- If this is a cell of the grid nothing is clipped. -/
theorem unclipped (hcell : 0 ≤ cellOf 2 q ∧ cellOf 2 q < 3) :
    Unclipped (sampleOn u z) smallGrid c (PlaneMap.single (sampleOn u z))
      ⟨1, 1, 3, 3, 2⟩ interpolation := by
  rintro k b ⟨hk, hb, -⟩
  obtain rfl : k = 0 := Nat.lt_one_iff.1 hk
  obtain rfl : b = 0 := Nat.lt_one_iff.1 hb
  have hfit := h.fit z u
  obtain ⟨F, -, hF, -⟩ :=
    hfit.exists_footprint interpolation one_pos one_pos (hfit.frame_eq interpolation)
  refine ⟨F, hF, ?_⟩
  have hshape := h.symmetric.shape
  rw [hfit.sampleFootprint_eq_footprint h.symmetric interpolation one_pos one_pos,
    latticePosition_sampleOn hq] at hF
  have hrectangle := rectangle_of_footprint interpolation h.wellFormed.1 hshape _ _ hF
  rw [axisPoints_intCast, axisPoints_intCast, h.oversample] at hrectangle
  have hmiddle : cellOf 2 2 = 1 := rfl
  simp only [lastCell, AxisPoint.ofLattice, List.getLast?_nil, Option.getD_none,
    hmiddle] at hrectangle
  have hsize : smallGrid.ny = 3 ∧ smallGrid.nx = 3 := ⟨rfl, rfl⟩
  unfold Footprint.Inside
  rw [hsize.1, hsize.2]
  omega

theorem exists_gridded :
    ∃ d, addVisibilities (sampleOn u z) smallGrid c (PlaneMap.single (sampleOn u z)) none
      interpolation = .ok d ∧
    ∀ i < 3, (d.grid.get 0 0 1 i).val = if (i : ℤ) = cellOf 2 q then z.val else 0 := by
  obtain ⟨d, hd, hadds⟩ := addVisibilities_adds (h.fit z u) interpolation none nofun
  refine ⟨d, hd, fun i hi => ?_⟩
  have hsample : (sampleOn u z).sampleAt 0 0 0 = ⟨z, 1, false⟩ := rfl
  have hrows : (sampleOn u z).rowCount = 1 := rfl
  have hchannel : ∀ hertz, smallGrid.channelAt hertz = 0 := fun _ => rfl
  rw [hadds.cell 0 0 1 i one_pos one_pos (show 1 < 3 from by decide) hi, get_smallGrid,
    directSum, hrows]
  simp only [sum_range_one, hsample, hchannel, h.sampleKernel_eq z interpolation hq]
  by_cases hcell : (i : ℤ) = cellOf 2 q <;> simp [hcell]

end SingleTap

theorem get_smallGrid_eq_zero (ch p j i : ℕ) : smallGrid.get ch p j i = 0 :=
  Tensor.get_fill_zero _ _

/-- A sample in the middle of a cell, one cell from the zero of the uv plane. -/
theorem mirrored_is_conjugate_onCell : ∃ c d d',
    (Kernel.Variant.spheroidal (.fitting (Kernel.searchedConfig 1 one_pos))).buildCache
      (.perAxis [1, 1]) [1, 1, 3, 3] .absent = .ok c ∧
    addVisibilities (sampleOn 1 ⟨1, 2⟩) smallGrid c (PlaneMap.single (sampleOn 1 ⟨1, 2⟩)) none
      .linear = .ok d ∧
    addVisibilities (sampleOn 1 ⟨1, 2⟩).mirrored smallGrid c
      (PlaneMap.single (sampleOn 1 ⟨1, 2⟩)) none
      .linear = .ok d' ∧
    (d.grid.get 0 0 1 2).val = (⟨1, 2⟩ : Cplx ℝ).val ∧
    d'.grid.get 0 0 1 0 = (d.grid.get 0 0 1 2).conj ∧
    d'.sumWeights = d.sumWeights ∧ d'.statistics = d.statistics := by
  obtain ⟨c, h⟩ := exists_singleTap
  have hq : ((1 : ℝ) + 1) * 2 = (4 : ℤ) := by norm_num
  have hq' : (-1 + 1 : ℝ) * 2 = (0 : ℤ) := by norm_num
  have hcell : cellOf 2 4 = 2 := rfl
  have hwhole := h.unclipped ⟨1, 2⟩ .linear hq (by decide)
  have hwhole' : Unclipped (sampleOn 1 ⟨1, 2⟩).mirrored smallGrid c
      (PlaneMap.single (sampleOn 1 ⟨1, 2⟩)) ⟨1, 1, 3, 3, 2⟩ .linear := by
    rw [mirrored_sampleOn]
    exact h.unclipped _ .linear hq' (by decide)
  have havoids : ∀ k b, (sampleOn 1 ⟨1, 2⟩).Unflagged k b → ∀ q,
      Uses .linear c.oversample (latticePosition (sampleOn 1 ⟨1, 2⟩) ⟨1, 1, 3, 3, 2⟩ k b).1 q ∨
        Uses .linear c.oversample (latticePosition (sampleOn 1 ⟨1, 2⟩) ⟨1, 1, 3, 3, 2⟩ k b).2 q →
      ¬ Halfway c.oversample q := by
    rintro k b ⟨hk, hb, -⟩ q huses ⟨m, hm⟩
    obtain rfl : k = 0 := Nat.lt_one_iff.1 hk
    obtain rfl : b = 0 := Nat.lt_one_iff.1 hb
    rw [latticePosition_sampleOn hq, uses_intCast_iff, uses_intCast_iff] at huses
    rw [h.oversample] at hm
    omega
  obtain ⟨d, d', hd, hd', hconjugate, hweights, hstatistics⟩ :=
    mirrored_is_conjugate h.built (h.fit _ 1) .linear
      hwhole hwhole' get_smallGrid_eq_zero (.inr (.inr havoids))
  obtain ⟨d₁, hd₁, hvalue⟩ := h.exists_gridded ⟨1, 2⟩ .linear hq
  obtain rfl : d = d₁ := Except.ok.inj (hd.symm.trans hd₁)
  refine ⟨c, d, d', h.built, hd, hd', ?_, ?_, hweights, hstatistics⟩
  · rw [hvalue 2 (by decide), if_pos (by rw [hcell]; rfl)]
  · exact hconjugate 0 one_pos 0 one_pos 1 (show 1 < 3 by decide) 1 (show 1 < 3 by decide) 2
      (show 2 < 3 by decide) 0 (show 0 < 3 by decide) rfl rfl

/-- A sample halfway between two cells goes to the upper one, and so does the mirrored sample:
    nothing is clipped, but where the conjugate is to be the grid stays empty. -/
theorem halfway_is_not_conjugate : ∃ c d d',
    (Kernel.Variant.spheroidal (.fitting (Kernel.searchedConfig 1 one_pos))).buildCache
      (.perAxis [1, 1]) [1, 1, 3, 3] .absent = .ok c ∧
    Fit (sampleOn (1 / 2) ⟨1, 2⟩) smallGrid c (PlaneMap.single (sampleOn (1 / 2) ⟨1, 2⟩))
      ⟨1, 1, 3, 3, 2⟩ ∧
    Unclipped (sampleOn (1 / 2) ⟨1, 2⟩) smallGrid c (PlaneMap.single (sampleOn (1 / 2) ⟨1, 2⟩))
      ⟨1, 1, 3, 3, 2⟩ .linear ∧
    Unclipped (sampleOn (1 / 2) ⟨1, 2⟩).mirrored smallGrid c
      (PlaneMap.single (sampleOn (1 / 2) ⟨1, 2⟩))
      ⟨1, 1, 3, 3, 2⟩ .linear ∧
    (∀ ch p j i, smallGrid.get ch p j i = 0) ∧
    addVisibilities (sampleOn (1 / 2) ⟨1, 2⟩) smallGrid c
      (PlaneMap.single (sampleOn (1 / 2) ⟨1, 2⟩)) none
      .linear = .ok d ∧
    addVisibilities (sampleOn (1 / 2) ⟨1, 2⟩).mirrored smallGrid c
      (PlaneMap.single (sampleOn (1 / 2) ⟨1, 2⟩)) none .linear = .ok d' ∧
    (d.grid.get 0 0 1 2).val = (⟨1, 2⟩ : Cplx ℝ).val ∧ (d'.grid.get 0 0 1 0).val = 0 ∧
    d'.grid.get 0 0 1 0 ≠ (d.grid.get 0 0 1 2).conj := by
  obtain ⟨c, h⟩ := exists_singleTap
  have hq : ((1 : ℝ) / 2 + 1) * 2 = (3 : ℤ) := by norm_num
  have hq' : (-(1 / 2) + 1 : ℝ) * 2 = (1 : ℤ) := by norm_num
  have hcell : cellOf 2 3 = 2 := rfl
  have hcell' : cellOf 2 1 = 1 := rfl
  obtain ⟨d, hd, hvalue⟩ := h.exists_gridded ⟨1, 2⟩ .linear hq
  obtain ⟨d', hd', hvalue'⟩ := h.exists_gridded (Cplx.conj ⟨1, 2⟩) .linear hq'
  have hupper : (d.grid.get 0 0 1 2).val = (⟨1, 2⟩ : Cplx ℝ).val := by
    rw [hvalue 2 (by decide), if_pos (by rw [hcell]; rfl)]
  have hempty : (d'.grid.get 0 0 1 0).val = 0 := by
    rw [hvalue' 0 (by decide), if_neg (by rw [hcell']; decide)]
  refine ⟨c, d, d', h.built, h.fit _ _, h.unclipped _ .linear hq (by decide), ?_,
    get_smallGrid_eq_zero, hd, ?_, hupper, hempty, fun heq => ?_⟩
  · rw [mirrored_sampleOn]
    exact h.unclipped _ .linear hq' (by decide)
  · rw [mirrored_sampleOn]
    exact hd'
  · rw [heq, Cplx.val_conj, hupper, map_eq_zero] at hempty
    exact one_ne_zero (congrArg Complex.re hempty)

end Grid

end ApertureSynthesis
