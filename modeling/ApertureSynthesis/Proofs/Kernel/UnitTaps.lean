/-
  The taps of the zero-w kernel at every phase.

  A tap is the product of two samples of the gridding function, one for each axis, so the tap sum of
  a phase is the product of two sums along an axis (`tapSum_eq_mul`). The middle tap is at most half
  a cell from the centre, where the gridding function is positive; so no sum is zero, whatever the
  support. Divided by its sum, each phase has taps that are not negative and sum to one
  (`Cache.UnitTaps`, `unitTaps_normalise`). `exists_taps_of_buildCache` and
  `exists_plane_of_buildCache` are what caches have of this that were built.
-/
import Mathlib
import ApertureSynthesis.Proofs.Sums
import ApertureSynthesis.Proofs.Kernel.Spheroidal

namespace ApertureSynthesis

/-! ## Tap sums -/

theorem sum_map_range_flatMap (m n : ℕ) (f : ℕ → ℕ → ℝ) :
    ((List.range m).flatMap fun v => (List.range n).map (f v)).sum =
      ∑ v ∈ Finset.range m, ∑ u ∈ Finset.range n, f v u := by
  rw [List.flatMap, List.sum_flatten, List.map_map, sum_map_range]
  refine Finset.sum_congr rfl fun v _ => ?_
  exact sum_map_range n (f v)

/-- For each phase the taps of the zero-w kernel, of a half-width, are real, none is negative, and
    they sum to one. -/
structure Cache.UnitTaps (c : Cache ℝ) (s : ℕ) : Prop where
  /-- Its table has phases and taps. -/
  shape : c.zeroW.shape = [c.oversample, c.oversample, 2 * s + 1, 2 * s + 1]
  /-- Taps are real, -/
  real : ∀ dv < c.oversample, ∀ du < c.oversample, ∀ v ≤ 2 * s, ∀ u ≤ 2 * s,
    (c.zeroW.get [dv, du, v, u]).im = 0
  /-- not negative -/
  nonneg : ∀ dv < c.oversample, ∀ du < c.oversample, ∀ v ≤ 2 * s, ∀ u ≤ 2 * s,
    0 ≤ (c.zeroW.get [dv, du, v, u]).re
  /-- and sum to one. -/
  sum_eq_one : ∀ dv < c.oversample, ∀ du < c.oversample,
    ∑ v ∈ Finset.range (2 * s + 1), ∑ u ∈ Finset.range (2 * s + 1),
      (c.zeroW.get [dv, du, v, u]).re = 1

namespace Kernel

theorem tapSum_eq_sum (t : Tensor (Cplx ℝ)) (width dv du : ℕ) :
    tapSum t width dv du =
      ∑ v ∈ Finset.range width, ∑ u ∈ Finset.range width, (t.get [dv, du, v, u]).re := by
  rw [tapSum, Scalar.sum_real, sum_map_range_flatMap]

section Table

variable {c : Config ℝ} {s : ℕ} {t : Tensor (Cplx ℝ)}

/-- The sum of the samples of the gridding function at the taps of one axis. -/
noncomputable def axisSum (oversample support d : ℕ) : ℝ :=
  ∑ t ∈ Finset.range (2 * support + 1), profile oversample (tapDistance oversample support d t)

/-- The middle tap is within half a cell of the centre. -/
theorem profile_middle_pos {oversample support d : ℕ} (hd : d < oversample) :
    0 < profile oversample (tapDistance oversample support d support) := by
  refine profile_pos ?_
  rw [tapDistance, sub_self, mul_zero, sub_zero, abs_lt]
  omega

theorem axisSum_pos {oversample support d : ℕ} (hd : d < oversample) :
    0 < axisSum oversample support d :=
  Finset.sum_pos' (fun t _ => profile_nonneg _ _)
    ⟨support, Finset.mem_range.2 (by omega), profile_middle_pos hd⟩

theorem tapSum_eq_mul (h : tapTable (α := ℝ) (zeroWKernel c) c.oversample s = .ok t) {dv du : ℕ}
    (hdv : dv < c.oversample) (hdu : du < c.oversample) :
    tapSum t (2 * s + 1) dv du = axisSum c.oversample s dv * axisSum c.oversample s du := by
  rw [tapSum_eq_sum, axisSum, axisSum, Finset.sum_mul_sum]
  refine Finset.sum_congr rfl fun v hv => Finset.sum_congr rfl fun u hu => ?_
  rw [get_tapTable h hdv hdu (Nat.le_of_lt_succ (Finset.mem_range.1 hv))
    (Nat.le_of_lt_succ (Finset.mem_range.1 hu)), Cplx.ofReal]

theorem tapSum_pos (h : tapTable (α := ℝ) (zeroWKernel c) c.oversample s = .ok t) {dv du : ℕ}
    (hdv : dv < c.oversample) (hdu : du < c.oversample) : 0 < tapSum t (2 * s + 1) dv du := by
  rw [tapSum_eq_mul h hdv hdu]
  exact mul_pos (axisSum_pos hdv) (axisSum_pos hdu)

/-- Every tap sum of a table is positive. -/
theorem tapSums_pos (h : tapTable (α := ℝ) (zeroWKernel c) c.oversample s = .ok t) :
    ∀ x ∈ (tapSums t c.oversample (2 * s + 1)).data, 0 < x := by
  intro x hx
  obtain ⟨k, hk, rfl⟩ := Array.mem_iff_getElem.1 hx
  have hk' : k < c.oversample * c.oversample := by
    simpa [tapSums, Raster.ofFn] using hk
  simp only [tapSums, Raster.ofFn, Array.getElem_ofFn]
  exact tapSum_pos h (Nat.div_lt_of_lt_mul hk') (Nat.mod_lt _ c.oversample_pos)

/-- A tap of the zero-w kernel divided by the sum of its phase. -/
theorem get_normalise (h : tapTable (α := ℝ) (zeroWKernel c) c.oversample s = .ok t) {dv du v u : ℕ}
    (hdv : dv < c.oversample) (hdu : du < c.oversample) (hv : v ≤ 2 * s) (hu : u ≤ 2 * s) :
    (normalise t (tapSums t c.oversample (2 * s + 1))).get [dv, du, v, u] =
      (t.get [dv, du, v, u]).divReal (tapSum t (2 * s + 1) dv du) := by
  have hwithin : Tensor.Within t.shape [dv, du, v, u] := by
    obtain ⟨-, -, -, hshape, -⟩ := exists_of_tapTable h
    rw [hshape]
    exact ⟨hdv, hdu, by omega, by omega, trivial⟩
  rw [normalise, Tensor.get_ofFn _ hwithin]
  dsimp only
  rw [tapSums, Raster.get_ofFn _ hdv hdu]

end Table

section Cache

variable {cache : Cache ℝ}

/-- The taps of zero w, divided by the sum of their phase, sum to one for each phase. -/
theorem unitTaps_normalise {c : Config ℝ} {s : ℕ} {t : Tensor (Cplx ℝ)}
    (h : tapTable (α := ℝ) (zeroWKernel c) c.oversample s = .ok t)
    (hoversample : cache.oversample = c.oversample)
    (hzeroW : cache.zeroW = normalise t (tapSums t c.oversample (2 * s + 1))) :
    cache.UnitTaps s := by
  obtain ⟨-, -, -, hshape, -⟩ := exists_of_tapTable h
  refine ⟨?_, ?_, ?_, ?_⟩
  · rw [hzeroW, hoversample]
    exact hshape
  · intro dv hdv du hdu v hv u hu
    rw [hoversample] at hdv hdu
    rw [hzeroW, get_normalise h hdv hdu hv hu, get_tapTable h hdv hdu hv hu]
    exact zero_div _
  · intro dv hdv du hdu v hv u hu
    rw [hoversample] at hdv hdu
    rw [hzeroW, get_normalise h hdv hdu hv hu, get_tapTable h hdv hdu hv hu]
    exact div_nonneg (mul_nonneg (profile_nonneg _ _) (profile_nonneg _ _))
      (tapSum_pos h hdv hdu).le
  · intro dv hdv du hdu
    rw [hoversample] at hdv hdu
    have hdivided : ∀ v ∈ Finset.range (2 * s + 1), ∀ u ∈ Finset.range (2 * s + 1),
        (cache.zeroW.get [dv, du, v, u]).re =
          (t.get [dv, du, v, u]).re / tapSum t (2 * s + 1) dv du := by
      intro v hv u hu
      rw [hzeroW, get_normalise h hdv hdu (Nat.le_of_lt_succ (Finset.mem_range.1 hv))
        (Nat.le_of_lt_succ (Finset.mem_range.1 hu))]
      rfl
    calc ∑ v ∈ Finset.range (2 * s + 1), ∑ u ∈ Finset.range (2 * s + 1),
          (cache.zeroW.get [dv, du, v, u]).re
        = ∑ v ∈ Finset.range (2 * s + 1), ∑ u ∈ Finset.range (2 * s + 1),
            (t.get [dv, du, v, u]).re / tapSum t (2 * s + 1) dv du :=
          Finset.sum_congr rfl fun v hv => Finset.sum_congr rfl fun u hu => hdivided v hv u hu
      _ = (∑ v ∈ Finset.range (2 * s + 1), ∑ u ∈ Finset.range (2 * s + 1),
            (t.get [dv, du, v, u]).re) / tapSum t (2 * s + 1) dv du := by
          rw [Finset.sum_div]
          exact Finset.sum_congr rfl fun v _ => (Finset.sum_div _ _ _).symm
      _ = 1 := by
          rw [← tapSum_eq_sum]
          exact div_self (tapSum_pos h hdv hdu).ne'

/-- Every tap of the box function is its only one. -/
theorem get_zeroW_boxCache_of_lt (cellSize : CellSize ℝ) {dv du v u : ℕ} (hdv : dv < 1)
    (hdu : du < 1) (hv : v ≤ 2 * 0) (hu : u ≤ 2 * 0) :
    (Variant.boxCache cellSize).zeroW.get [dv, du, v, u] = (1 : Cplx ℝ) := by
  obtain rfl : dv = 0 := by omega
  obtain rfl : du = 0 := by omega
  obtain rfl : v = 0 := by omega
  obtain rfl : u = 0 := by omega
  exact get_zeroW_boxCache cellSize

theorem unitTaps_boxCache (cellSize : CellSize ℝ) : (Variant.boxCache cellSize).UnitTaps 0 := by
  refine ⟨rfl, ?_, ?_, ?_⟩
  · intro dv hdv du hdu v hv u hu
    rw [get_zeroW_boxCache_of_lt cellSize hdv hdu hv hu]
    rfl
  · intro dv hdv du hdu v hv u hu
    rw [get_zeroW_boxCache_of_lt cellSize hdv hdu hv hu]
    exact zero_le_one
  · intro dv hdv du hdu
    rw [mul_zero, zero_add, Finset.sum_range_one, Finset.sum_range_one,
      get_zeroW_boxCache_of_lt cellSize hdv hdu le_rfl le_rfl]
    rfl

theorem middle_pos_boxCache {cellSize : CellSize ℝ} {dv du : ℕ} (hdv : dv < 1) (hdu : du < 1) :
    0 < ((Variant.boxCache cellSize).zeroW.get [dv, du, 0, 0]).re := by
  rw [get_zeroW_boxCache_of_lt cellSize hdv hdu le_rfl le_rfl]
  exact zero_lt_one

theorem Built.unitTaps {c : Config ℝ} {term : Option (PlaneTerm ℝ)} {values : List (PlaneValue ℝ)}
    {cellSize : CellSize ℝ} {ny nx : ℤ} {support : ℕ} {table : Tensor (Cplx ℝ)}
    {kernel : ℝ → Raster (Cplx ℝ)} {planes : List (Tensor (Cplx ℝ) × ℕ)}
    (h : Built c term values cellSize ny nx cache support table kernel planes) :
    cache.UnitTaps support :=
  unitTaps_normalise h.tapped h.cache_oversample h.cache_zeroW

/-- The middle tap of each phase is positive. -/
theorem Built.middle_pos {c : Config ℝ} {term : Option (PlaneTerm ℝ)} {values : List (PlaneValue ℝ)}
    {cellSize : CellSize ℝ} {ny nx : ℤ} {support : ℕ} {table : Tensor (Cplx ℝ)}
    {kernel : ℝ → Raster (Cplx ℝ)} {planes : List (Tensor (Cplx ℝ) × ℕ)}
    (h : Built c term values cellSize ny nx cache support table kernel planes) {dv du : ℕ}
    (hdv : dv < cache.oversample) (hdu : du < cache.oversample) :
    0 < (cache.zeroW.get [dv, du, support, support]).re := by
  rw [h.cache_oversample] at hdv hdu
  rw [h.cache_zeroW, get_normalise h.tapped hdv hdu (by omega) (by omega),
    get_tapTable h.tapped hdv hdu (by omega) (by omega)]
  exact div_pos (mul_pos (profile_middle_pos hdv) (profile_middle_pos hdu))
    (tapSum_pos h.tapped hdv hdu)

variable {variant : Variant ℝ} {cellSize : CellSize ℝ} {shape : List ℤ} {frequency : Setting ℝ}

/-- For every kind of convolution function the taps of zero w are symmetric at the central phase,
    and sum to one for each phase. -/
theorem exists_taps_of_buildCache (h : variant.buildCache cellSize shape frequency = .ok cache) :
    ∃ s, cache.EvenTaps s ∧ cache.UnitTaps s := by
  rcases buildCache_cases h with ⟨-, rfl⟩ |
    ⟨c, term, values, ny, nx, support, table, kernel, planes, hbuilt, -⟩
  · exact ⟨0, (symmetric_boxCache _).toEvenTaps, unitTaps_boxCache _⟩
  · exact ⟨support, hbuilt.evenTaps, hbuilt.unitTaps⟩

/-- For the box function and the anti-aliasing function they are the only plane, and the middle tap
    of each phase is positive. -/
theorem exists_plane_of_buildCache (h : variant.buildCache cellSize shape frequency = .ok cache)
    (hkind : variant = .box ∨ ∃ p, variant = .spheroidal p) :
    ∃ s, cache.Symmetric s ∧ cache.UnitTaps s ∧
      ∀ dv < cache.oversample, ∀ du < cache.oversample,
        0 < (cache.zeroW.get [dv, du, s, s]).re := by
  rcases buildCache_cases h with ⟨-, rfl⟩ |
    ⟨c, term, values, ny, nx, support, table, kernel, planes, hbuilt, hvalues⟩
  · exact ⟨0, symmetric_boxCache _, unitTaps_boxCache _, fun dv hdv du hdu =>
      middle_pos_boxCache hdv hdu⟩
  · rcases hvalues with ⟨p, -, rfl, rfl⟩ | ⟨m, p, rfl, -⟩ | ⟨a, p, given, rfl⟩
    · exact ⟨support, hbuilt.symmetric, hbuilt.unitTaps, fun dv hdv du hdu =>
        hbuilt.middle_pos hdv hdu⟩
    · rcases hkind with hbox | ⟨q, hq⟩
      · cases hbox
      · cases hq
    · rcases hkind with hbox | ⟨q, hq⟩
      · cases hbox
      · cases hq

end Cache

end Kernel

end ApertureSynthesis
