/-
  The anti-aliasing kernel of a sample on the other side of a cell.

  Along each axis a lattice point gives a cell one sample of the gridding function, divided by the
  sum of its taps (`axisTap`), and a tap is the product of two of these (`Cache.AxisTaps`). A
  reflection at a cell only changes the sign of the distance between lattice point and cell. But a
  lattice point halfway between two cells belongs to the upper one, and so does its reflection
  (`cellOf_mirror`): then the window of taps is not reflected, and the outermost taps are missing on
  one side. From a half-width of three on they are zero. So a kernel is reflected with its position
  (`AxisTaps.kernelAt_mirror`) where no point that is used is halfway, or with half-widths from
  three on.
-/
import Mathlib
import ApertureSynthesis.Proofs.Grid.Reach
import ApertureSynthesis.Proofs.Grid.Shares
import ApertureSynthesis.Proofs.Kernel.WorkingGrid
import ApertureSynthesis.Proofs.Rounding

namespace ApertureSynthesis

/-! ## Reflected lattice points -/

namespace Grid

variable {oversample : ℕ}

/-- A lattice point in the middle between two cells. -/
def Halfway (oversample : ℕ) (q : ℤ) : Prop := ∃ k : ℤ, 2 * q = oversample * (2 * k + 1)

/-- With an odd number of points for each cell none is halfway. -/
theorem not_halfway_of_odd (h : Odd oversample) (q : ℤ) : ¬ Halfway oversample q := by
  rintro ⟨k, hk⟩
  have hodd : Odd ((oversample : ℤ) * (2 * k + 1)) := h.natCast.mul ⟨k, rfl⟩
  rw [← hk] at hodd
  exact Int.not_odd_iff_even.2 (even_two_mul q) hodd

theorem toNat_phaseOf_lt (hos : 0 < oversample) (q : ℤ) :
    (phaseOf oversample q).toNat < oversample := by
  have hlow := phaseOf_nonneg hos q
  have hhigh := phaseOf_lt hos q
  omega

theorem cellOf_eq_iff (hos : 0 < oversample) {q k : ℤ} : cellOf oversample q = k ↔
    k * oversample ≤ q + (oversample / 2 : ℕ) ∧
      q + (oversample / 2 : ℕ) < k * oversample + oversample := by
  have hpos : (0 : ℤ) < oversample := by exact_mod_cast hos
  unfold cellOf
  rw [Int.ediv_eq_iff_of_pos hpos]

/-- The reflection of a lattice point belongs to the reflection of its cell, unless the point is
    halfway: then the reflection belongs to the cell above. -/
theorem cellOf_mirror (hos : 0 < oversample) (c q : ℤ) :
    cellOf oversample (2 * (c * oversample) - q) = 2 * c - cellOf oversample q ∨
      2 * q = oversample * (2 * cellOf oversample q - 1) ∧
        cellOf oversample (2 * (c * oversample) - q) = 2 * c - cellOf oversample q + 1 := by
  obtain ⟨hlow, hhigh⟩ := (cellOf_eq_iff hos).1 (rfl : cellOf oversample q = _)
  generalize cellOf oversample q = k at hlow hhigh ⊢
  rw [cellOf_eq_iff hos, cellOf_eq_iff hos]
  have hreflected : (2 * c - k) * (oversample : ℤ) = 2 * (c * oversample) - k * oversample := by
    ring
  have habove : (2 * c - k + 1) * (oversample : ℤ) = 2 * (c * oversample) - k * oversample +
      oversample := by
    ring
  have hmiddle : (oversample : ℤ) * (2 * k - 1) = 2 * (k * oversample) - oversample := by ring
  rw [hreflected, habove, hmiddle]
  generalize c * (oversample : ℤ) = m
  generalize k * (oversample : ℤ) = n at hlow hhigh ⊢
  omega

end Grid

open Grid

/-! ## Taps along an axis -/

namespace Kernel

variable {oversample s : ℕ}

/-- What a lattice point gives to cell `j` of an axis: the sample of the gridding function at its
    distance, divided by the sum of the taps about its cell; nothing beyond the half-width. -/
noncomputable def axisTap (oversample s : ℕ) (q j : ℤ) : ℝ :=
  if |j - cellOf oversample q| ≤ s then
    profile oversample (q - oversample * j) / axisSum oversample s (phaseOf oversample q).toNat
  else 0

/-- The tap of a phase for a cell is as far from the centre as the lattice point from the cell. -/
theorem tapDistance_of_lattice (hos : 0 < oversample) {q j : ℤ}
    (hj : |j - cellOf oversample q| ≤ s) :
    tapDistance oversample s (phaseOf oversample q).toNat (j - cellOf oversample q + s).toNat =
      q - oversample * j := by
  have hposition := samplePosition_of_lattice (n := 0) hos hj
  rw [samplePosition_eq_tapDistance] at hposition
  omega

/-- The sum of the taps about the cell of a lattice point, cell by cell. -/
theorem axisSum_phaseOf (hos : 0 < oversample) (q : ℤ) :
    axisSum oversample s (phaseOf oversample q).toNat = ∑ t ∈ Finset.range (2 * s + 1),
      profile oversample (q - oversample * (cellOf oversample q + (t - s))) := by
  refine Finset.sum_congr rfl fun t ht => ?_
  have hnear : |cellOf oversample q + ((t : ℤ) - s) - cellOf oversample q| ≤ s := by
    have ht := Finset.mem_range.1 ht
    rw [abs_le]
    omega
  have hdistance := tapDistance_of_lattice hos hnear
  have htap : (cellOf oversample q + ((t : ℤ) - s) - cellOf oversample q + s).toNat = t := by omega
  rw [htap] at hdistance
  rw [hdistance]

/-- The taps of a phase and of the phase of its reflection have the same sum. -/
theorem axisSum_mirror (hos : 0 < oversample) (c q : ℤ) :
    axisSum oversample s (phaseOf oversample (2 * (c * oversample) - q)).toNat =
      axisSum oversample s (phaseOf oversample q).toNat := by
  rcases cellOf_mirror hos c q with hcell | ⟨hhalf, hcell⟩
  · -- the cells are reflected, so the taps are those of the other side
    rw [axisSum_phaseOf hos, axisSum_phaseOf hos, hcell, ← Finset.sum_range_reflect]
    refine Finset.sum_congr rfl fun t ht => ?_
    have ht := Finset.mem_range.1 ht
    have hplace : ((2 * s + 1 - 1 - t : ℕ) : ℤ) = 2 * s - t := by omega
    rw [hplace, ← profile_neg]
    congr 1
    ring
  · -- halfway the phase is the same
    have hphase : phaseOf oversample (2 * (c * oversample) - q) = phaseOf oversample q := by
      unfold phaseOf
      rw [hcell]
      linarith
    rw [hphase]

/-- Reflected at a cell, a lattice point gives to the reflection of a cell what it gives to the
    cell. -/
theorem axisTap_mirror (hos : 0 < oversample) {q : ℤ} (hq : 3 ≤ s ∨ ¬ Halfway oversample q)
    (c j : ℤ) :
    axisTap oversample s (2 * (c * oversample) - q) (2 * c - j) = axisTap oversample s q j := by
  have hprofile : profile oversample (2 * (c * oversample) - q - oversample * (2 * c - j)) =
      profile oversample (q - oversample * j) := by
    rw [← profile_neg]
    congr 1
    ring
  unfold axisTap
  rw [hprofile, axisSum_mirror hos]
  rcases cellOf_mirror hos c q with hcell | ⟨hhalf, hcell⟩
  · have hdistance : 2 * c - j - (2 * c - cellOf oversample q) =
        -(j - cellOf oversample q) := by ring
    rw [hcell, hdistance, abs_neg]
  · have hthree : 3 ≤ s :=
      hq.resolve_right fun hno => hno ⟨cellOf oversample q - 1, by rw [hhalf]; ring⟩
    by_cases hfar : 3 * (oversample : ℤ) < |q - oversample * j|
    · -- beyond three cells the gridding function has nothing to give
      rw [profile, if_neg (not_le.2 hfar), zero_div, ite_self, ite_self]
    · -- the windows differ farther out
      have hpos : (0 : ℤ) < oversample := by exact_mod_cast hos
      have hdouble : 2 * (q - oversample * j) =
          oversample * (2 * (cellOf oversample q - j) - 1) := by
        rw [mul_sub, hhalf]
        ring
      have hnear : |2 * (cellOf oversample q - j) - 1| ≤ 6 := by
        have habs : (oversample : ℤ) * |2 * (cellOf oversample q - j) - 1| =
            2 * |q - oversample * j| := by
          rw [← abs_of_pos hpos, ← abs_mul, abs_of_pos hpos, ← hdouble, abs_mul, abs_two]
        refine le_of_mul_le_mul_left ?_ hpos
        rw [habs]
        linarith [not_lt.1 hfar]
      rw [abs_le] at hnear
      rw [if_pos (by rw [hcell, abs_le]; omega), if_pos (by rw [abs_le]; omega)]

/-- A single tap goes to the cell of its lattice point as a whole. -/
theorem axisTap_zero (hos : 0 < oversample) (q j : ℤ) :
    axisTap oversample 0 q j = if j = cellOf oversample q then 1 else 0 := by
  unfold axisTap
  by_cases hj : j = cellOf oversample q
  · have hsum : axisSum oversample 0 (phaseOf oversample q).toNat =
        profile oversample (q - oversample * j) := by
      rw [axisSum_phaseOf hos, hj]
      simp
    rw [if_pos (by rw [hj, sub_self, abs_zero]; exact le_rfl), if_pos hj, ← hsum,
      div_self (axisSum_pos (toNat_phaseOf_lt hos q)).ne']
  · rw [if_neg hj, if_neg]
    rwa [Nat.cast_zero, abs_nonpos_iff, sub_eq_zero]

end Kernel

open Kernel

/-! ## Caches -/

/-- A tap of the zero-w kernel, of a half-width, is a product of one tap for each axis. -/
def Cache.AxisTaps (c : Cache ℝ) (s : ℕ) : Prop :=
  ∀ v u j i : ℤ, tapAt c.zeroW s (phaseOf c.oversample v) (phaseOf c.oversample u)
    (j - cellOf c.oversample v + s) (i - cellOf c.oversample u + s) =
      ((axisTap c.oversample s v j * axisTap c.oversample s u i : ℝ) : ℂ)

namespace Kernel

theorem Built.axisTaps {c : Config ℝ} {term : Option (PlaneTerm ℝ)} {values : List (PlaneValue ℝ)}
    {cellSize : CellSize ℝ} {ny nx : ℤ} {cache : Cache ℝ} {support : ℕ} {table : Tensor (Cplx ℝ)}
    {kernel : ℝ → Raster (Cplx ℝ)} {planes : List (Tensor (Cplx ℝ) × ℕ)}
    (h : Built c term values cellSize ny nx cache support table kernel planes) :
    cache.AxisTaps support := by
  intro v u j i
  rw [h.cache_oversample]
  have hos := c.oversample_pos
  have hphase : ∀ q : ℤ, (phaseOf c.oversample q).toNat < c.oversample := toNat_phaseOf_lt hos
  unfold tapAt axisTap
  by_cases hin : |j - cellOf c.oversample v| ≤ support ∧ |i - cellOf c.oversample u| ≤ support
  · have hv := abs_le.1 hin.1
    have hu := abs_le.1 hin.2
    rw [if_pos (by omega), if_pos hin.1, if_pos hin.2, h.cache_zeroW,
      get_normalise h.tapped (hphase v) (hphase u) (by omega) (by omega),
      get_tapTable h.tapped (hphase v) (hphase u) (by omega) (by omega),
      tapSum_eq_mul h.tapped (hphase v) (hphase u), tapDistance_of_lattice hos hin.1,
      tapDistance_of_lattice hos hin.2, Cplx.val_divReal, Cplx.val_ofReal, ← Complex.ofReal_div,
      mul_div_mul_comm]
  · have hzero : ¬(0 ≤ j - cellOf c.oversample v + support ∧
        j - cellOf c.oversample v + support ≤ 2 * support ∧
        0 ≤ i - cellOf c.oversample u + support ∧
        i - cellOf c.oversample u + support ≤ 2 * support) := by
      rw [abs_le, abs_le] at hin
      omega
    rw [if_neg hzero]
    rcases not_and_or.1 hin with hv | hu
    · rw [if_neg hv, zero_mul, Complex.ofReal_zero]
    · rw [if_neg hu, mul_zero, Complex.ofReal_zero]

/-- The only plane of the anti-aliasing function has unit taps that are products of one tap for each
    axis. -/
theorem exists_axisTaps_of_spheroidal {p : Parameters ℝ} {cellSize : CellSize ℝ} {shape : List ℤ}
    {frequency : Setting ℝ} {cache : Cache ℝ}
    (h : (Variant.spheroidal p).buildCache cellSize shape frequency = .ok cache) :
    ∃ s, cache.Symmetric s ∧ cache.UnitTaps s ∧ cache.AxisTaps s := by
  obtain ⟨c, ny, nx, support, table, kernel, planes, -, hbuilt⟩ := exists_built_of_spheroidal h
  exact ⟨support, hbuilt.symmetric, hbuilt.unitTaps, hbuilt.axisTaps⟩

end Kernel

/-! ## Reflected kernels -/

namespace Grid

variable (interpolation : Interpolation) {oversample : ℕ}

/-- At a lattice point a mixture is its value there. -/
theorem mixture_intCast (q : ℤ) (f : ℤ → ℂ) : mixture interpolation oversample q f = f q :=
  sum_usedPoints_intCast interpolation q f

/-- Only values at points that are used matter. -/
theorem mixture_congr (hos : 0 < oversample) {x : ℝ} {f f' : ℤ → ℂ}
    (h : ∀ q, Uses interpolation oversample x q → f q = f' q) :
    mixture interpolation oversample x f = mixture interpolation oversample x f' := by
  refine congrArg List.sum (List.map_congr_left fun a ha => ?_)
  by_cases hw : a.2 = 0
  · rw [hw, Complex.ofReal_zero, zero_mul, zero_mul]
  · rw [h a.1 ((uses_iff_weight_ne_zero interpolation hos x a.1).2 ⟨a.2, ha, hw⟩)]

/-- Between two lattice points, the reflection at a lattice point exchanges them and their
    shares. -/
theorem floor_reflect {x : ℝ} (hx : Int.fract x ≠ 0) (k : ℤ) :
    ⌊(k : ℝ) - x⌋ = k - ⌊x⌋ - 1 ∧ Int.fract ((k : ℝ) - x) = 1 - Int.fract x := by
  have hpos : 0 < Int.fract x := lt_of_le_of_ne (Int.fract_nonneg x) hx.symm
  have hlt := Int.fract_lt_one x
  have hfloor : ⌊(k : ℝ) - x⌋ = k - ⌊x⌋ - 1 := by
    rw [Int.floor_eq_iff]
    push_cast
    constructor
    · linarith [Int.self_sub_floor x]
    · linarith [Int.self_sub_floor x]
  refine ⟨hfloor, ?_⟩
  rw [Int.fract, Int.fract, hfloor]
  push_cast
  ring

/-- The points that a reflected position uses are the reflected points, with the same shares. -/
theorem mixture_reflect (x : ℝ) (k : ℤ) (f : ℤ → ℂ) :
    mixture interpolation oversample ((2 * k : ℤ) - x) f =
      mixture interpolation oversample x fun q => f (2 * k - q) := by
  by_cases hfract : Int.fract x = 0
  · -- on the lattice there is one point only
    obtain ⟨q, rfl⟩ : ∃ q : ℤ, x = q := ⟨⌊x⌋, by linarith [Int.self_sub_floor x]⟩
    rw [← Int.cast_sub, mixture_intCast, mixture_intCast]
  · obtain ⟨hfloor, hrest⟩ := floor_reflect hfract (2 * k)
    have hlower : 2 * k - ⌊x⌋ - 1 = 2 * k - (⌊x⌋ + 1) := by ring
    have hupper : 2 * k - (⌊x⌋ + 1) + 1 = 2 * k - ⌊x⌋ := by ring
    unfold mixture usedPoints
    split
    · rw [hfloor, hrest]
      simp only [List.map_cons, List.map_nil, List.sum_cons, List.sum_nil, hlower,
        hupper, sub_sub_cancel]
      ring
    · rw [Scalar.roundInt_reflect]
      rfl

end Grid

namespace Cache.AxisTaps

variable {c : Cache ℝ} {s : ℕ} (h : c.AxisTaps s) (interpolation : Interpolation)

include h

/-- At lattice points a kernel is the product of their taps. -/
theorem kernelAt_intCast (v u j i : ℤ) : kernelAt c.zeroW s interpolation c.oversample v u j i =
    ((axisTap c.oversample s v j * axisTap c.oversample s u i : ℝ) : ℂ) := by
  rw [kernelAt_eq_mixture, mixture_intCast, mixture_intCast]
  exact h v u j i

/-- The kernel of a position that is reflected at a cell is reflected at this cell, where each point
    that is used has its taps on both sides. -/
theorem kernelAt_mirror (hos : 0 < c.oversample) {xv xu : ℝ}
    (hv : ∀ q, Uses interpolation c.oversample xv q → 3 ≤ s ∨ ¬ Halfway c.oversample q)
    (hu : ∀ q, Uses interpolation c.oversample xu q → 3 ≤ s ∨ ¬ Halfway c.oversample q)
    (cv cu j i : ℤ) :
    kernelAt c.zeroW s interpolation c.oversample ((2 * (cv * c.oversample) : ℤ) - xv)
        ((2 * (cu * c.oversample) : ℤ) - xu) (2 * cv - j) (2 * cu - i) =
      kernelAt c.zeroW s interpolation c.oversample xv xu j i := by
  rw [kernelAt_eq_mixture, kernelAt_eq_mixture, mixture_reflect]
  refine mixture_congr interpolation hos fun v hvused => ?_
  rw [mixture_reflect]
  refine mixture_congr interpolation hos fun u huused => ?_
  rw [h, h, axisTap_mirror hos (hv v hvused), axisTap_mirror hos (hu u huused)]

end Cache.AxisTaps

end ApertureSynthesis
