/-
  Samples whose footprint lies on the grid as a whole, or off it.

  Where the taps of each phase sum to one, so does the kernel of a sample over the unbounded grid,
  whatever mixture of lattice points it is: the shares of the points sum to one. A footprint wholly
  on the grid keeps all of it (`sum_kernelAt_of_inside`), one wholly off the grid nothing
  (`kernelAt_of_outside`).
-/
import Mathlib
import ApertureSynthesis.Proofs.Grid.Placement

namespace ApertureSynthesis.Grid

open Finset

/-! ## Taps about a cell -/

/-- All cells against the taps about one of them, where the grid holds these. -/
theorem sum_tapAt (plane : Tensor (Cplx ℝ)) {s ny nx : ℕ} {v u : ℤ} (hv : s ≤ v ∧ v + s < ny)
    (hu : s ≤ u ∧ u + s < nx) (pv pu : ℕ) (f : ℕ → ℕ → ℂ) :
    ∑ k ∈ range ny, ∑ q ∈ range nx, f k q * tapAt plane s pv pu (k - v + s) (q - u + s) =
      ∑ y ∈ range (2 * s + 1), ∑ x ∈ range (2 * s + 1),
        f ((v - s).toNat + y) ((u - s).toNat + x) * (plane.get [pv, pu, y, x]).val := by
  have hrows : (v - s).toNat + (2 * s + 1) ≤ ny := by omega
  have hcolumns : (u - s).toNat + (2 * s + 1) ≤ nx := by omega
  rw [← sum_square hrows hcolumns fun k q y x => f k q * (plane.get [pv, pu, y, x]).val]
  refine sum_congr rfl fun k _ => sum_congr rfl fun q _ => ?_
  unfold tapAt
  by_cases hin : (v - s).toNat ≤ k ∧ k < (v - s).toNat + (2 * s + 1) ∧ (u - s).toNat ≤ q ∧
      q < (u - s).toNat + (2 * s + 1)
  · have hy : ((k : ℤ) - v + s).toNat = k - (v - s).toNat := by omega
    have hx : ((q : ℤ) - u + s).toNat = q - (u - s).toNat := by omega
    rw [if_pos hin, if_pos (by omega), Int.toNat_natCast, Int.toNat_natCast, hy, hx]
  · rw [if_neg hin, if_neg (by omega), mul_zero]

/-- A sum over a raster of weighted terms. -/
theorem sum_raster_map {β : Type} (u v : Finset ℕ) (xs : List β) (w : β → ℂ) (f : β → ℕ → ℕ → ℂ) :
    ∑ j ∈ u, ∑ i ∈ v, (xs.map fun x => w x * f x j i).sum =
      (xs.map fun x => w x * ∑ j ∈ u, ∑ i ∈ v, f x j i).sum := by
  induction xs with
  | nil => simp only [List.map_nil, List.sum_nil, sum_const_zero]
  | cons x xs ih => simp only [List.map_cons, List.sum_cons, sum_add_distrib, ih, ← mul_sum]

/-! ## Where a footprint lies -/

/-- Every cell of a footprint is on a grid of `ny` by `nx` cells. -/
def Footprint.Inside {α : Type} (f : Footprint α) (ny nx : ℕ) : Prop :=
  (0 ≤ f.v ∧ f.v + f.height ≤ ny) ∧ 0 ≤ f.u ∧ f.u + f.width ≤ nx

/-- No cell of a footprint is on the grid: it ends before the first row or column, or starts after
    the last. -/
def Footprint.Outside {α : Type} (f : Footprint α) (ny nx : ℕ) : Prop :=
  (f.v + f.height ≤ 0 ∨ ny ≤ f.v) ∨ f.u + f.width ≤ 0 ∨ nx ≤ f.u

section Sample

variable {plane : Tensor (Cplx ℝ)} {oversample s : ℕ} (interpolation : Interpolation)

/-- A footprint is the rectangle around the taps of all its points. -/
theorem rectangle_of_footprint (hos : 0 < oversample)
    (hshape : plane.shape = [oversample, oversample, 2 * s + 1, 2 * s + 1]) (xv xu : ℝ)
    {f : Footprint ℝ} (h : footprint plane s (axisPoints interpolation oversample xv)
      (axisPoints interpolation oversample xu) = .ok f) :
    (f.v = (axisPoints interpolation oversample xv).1.cell - s ∧
      f.v + f.height = lastCell (axisPoints interpolation oversample xv).1
        (axisPoints interpolation oversample xv).2 + s + 1) ∧
    f.u = (axisPoints interpolation oversample xu).1.cell - s ∧
      f.u + f.width = lastCell (axisPoints interpolation oversample xu).1
        (axisPoints interpolation oversample xu).2 + s + 1 := by
  rw [footprint_axisPoints_eq interpolation hos hshape] at h
  exact rectangle_tapsAround interpolation hos plane s xv xu (Except.ok.inj h)

/-- The shares of the points of an axis sum to one. -/
theorem sum_weight (hos : 0 < oversample) (position : ℝ) :
    ((allPoints (axisPoints interpolation oversample position)).map AxisPoint.weight).sum = 1 := by
  rcases axisPoints_cases interpolation hos position with ⟨q, hpoints, -⟩ | ⟨q, w, hpoints, -⟩
  · rw [hpoints]
    exact add_zero 1
  · rw [hpoints]
    show 1 - w + (w + 0) = 1
    ring

/-- The phases of the points of an axis are those of the table. -/
theorem phase_of_mem (hos : 0 < oversample) (position : ℝ) {a : AxisPoint ℝ}
    (ha : a ∈ allPoints (axisPoints interpolation oversample position)) :
    0 ≤ a.phase ∧ a.phase < oversample :=
  of_decide_eq_true (List.all_eq_true.1 (phasesWithin_axisPoints interpolation hos position) a ha)

/-- A kernel whose taps sum to one for each phase keeps all of it on a grid that holds the
    footprint. -/
theorem sum_kernelAt_of_inside (hos : 0 < oversample)
    (hshape : plane.shape = [oversample, oversample, 2 * s + 1, 2 * s + 1])
    (hunit : ∀ pv < oversample, ∀ pu < oversample, ∑ y ∈ range (2 * s + 1), ∑ x ∈ range (2 * s + 1),
      (plane.get [pv, pu, y, x]).val = 1) {xv xu : ℝ} {f : Footprint ℝ}
    (hf : footprint plane s (axisPoints interpolation oversample xv)
      (axisPoints interpolation oversample xu) = .ok f) {ny nx : ℕ} (hin : f.Inside ny nx) :
    ∑ j ∈ range ny, ∑ i ∈ range nx, kernelAt plane s interpolation oversample xv xu j i = 1 := by
  have hrectangle := rectangle_of_footprint interpolation hos hshape xv xu hf
  obtain ⟨⟨hv0, hvny⟩, hu0, hunx⟩ := hin
  -- the taps about each pair of points are on the grid as a whole
  have hpair : ∀ a ∈ allPoints (axisPoints interpolation oversample xv),
      ∀ b ∈ allPoints (axisPoints interpolation oversample xu),
      ∑ j ∈ range ny, ∑ i ∈ range nx,
        tapAt plane s a.phase b.phase (j - a.cell + s) (i - b.cell + s) = 1 := by
    intro a ha b hb
    have hrow := cell_mem_axisPoints interpolation hos xv ha
    have hcolumn := cell_mem_axisPoints interpolation hos xu hb
    have hpv := phase_of_mem interpolation hos xv ha
    have hpu := phase_of_mem interpolation hos xu hb
    have hv : (s : ℤ) ≤ a.cell ∧ a.cell + s < ny := by omega
    have hu : (s : ℤ) ≤ b.cell ∧ b.cell + s < nx := by omega
    have hsum := sum_tapAt plane hv hu a.phase.toNat b.phase.toNat fun _ _ => 1
    simp only [one_mul, Int.toNat_of_nonneg hpv.1, Int.toNat_of_nonneg hpu.1] at hsum
    rw [hsum, hunit _ (by omega) _ (by omega)]
  have hweight : ∀ x : ℝ,
      ((allPoints (axisPoints interpolation oversample x)).map fun a => (a.weight : ℂ)).sum =
        1 := by
    intro x
    have hcast := map_list_sum Complex.ofRealHom
      ((allPoints (axisPoints interpolation oversample x)).map AxisPoint.weight)
    rw [sum_weight interpolation hos x, map_one, List.map_map] at hcast
    exact hcast.symm
  simp only [kernelAt_eq_sum_points hos]
  rw [sum_raster_map, ← hweight xv]
  congr 1
  refine List.map_congr_left fun a ha => ?_
  rw [sum_raster_map, List.map_congr_left fun b hb => by rw [hpair a ha b hb, mul_one], hweight xu,
    mul_one]

/-- A kernel has nothing on a grid beside its footprint. -/
theorem kernelAt_of_outside (hos : 0 < oversample)
    (hshape : plane.shape = [oversample, oversample, 2 * s + 1, 2 * s + 1]) {xv xu : ℝ}
    {f : Footprint ℝ} (hf : footprint plane s (axisPoints interpolation oversample xv)
      (axisPoints interpolation oversample xu) =
        .ok f) {ny nx : ℕ} (hout : f.Outside ny nx) {j i : ℕ}
    (hj : j < ny) (hi : i < nx) : kernelAt plane s interpolation oversample xv xu j i = 0 := by
  have hrectangle := rectangle_of_footprint interpolation hos hshape xv xu hf
  refine kernelAt_eq_zero interpolation plane hos xv xu ?_
  unfold Footprint.Outside at hout
  omega

end Sample

/-! ## The footprint of a row and channel -/

section Visibilities

variable {nchan npol : ℕ}

variable {vis : Visibility ℝ nchan npol} {g : Grid ℝ} {c : Cache ℝ} {map : PlaneMap} {l : Lattice ℝ}
  (interpolation : Interpolation) {k b : ℕ} {f : Footprint ℝ}

/-- The sample of a footprint, with its plane. -/
theorem Fit.exists_sample (h : Fit vis g c map l)
    (hf : sampleFootprint vis c map l interpolation k b = .ok f) :
    ∃ plane, ∃ s : ℕ, ∃ xv xu : ℝ, c.planes[(map.plane k b).toNat]? = some plane ∧
      c.supports[(map.plane k b).toNat]? = some (s : ℤ) ∧
      plane.shape = [c.oversample, c.oversample, 2 * s + 1, 2 * s + 1] ∧
      footprint plane s (axisPoints interpolation c.oversample xv)
        (axisPoints interpolation c.oversample xu) = .ok f ∧
      ∀ j i : ℤ, sampleKernel vis c map l interpolation k b j i =
        kernelAt plane s interpolation c.oversample xv xu j i := by
  unfold sampleFootprint at hf
  dsimp only at hf
  split at hf
  · rename_i r hertz plane support hr hhertz hplane hs
    have hk : k < vis.rowCount := (List.getElem?_eq_some_iff.1 hr).1
    have hb : b < nchan := h.length_frequency ▸ (List.getElem?_eq_some_iff.1 hhertz).1
    obtain ⟨plane', s, hplane', hs', hshape⟩ := h.exists_plane hk hb
    rw [hplane] at hplane'
    cases hplane'
    rw [hs] at hs'
    cases hs'
    exact ⟨plane, s, _, _, hplane, hs, hshape, hf,
      fun j i => sampleKernel_eq l interpolation hr hhertz hplane hs j i⟩
  · cases hf

/-- A footprint on the grid keeps the whole kernel of its sample. -/
theorem Fit.sum_sampleKernel_of_inside (h : Fit vis g c map l)
    (hunit : ∀ plane, ∀ s : ℕ, c.planes[(map.plane k b).toNat]? = some plane →
      c.supports[(map.plane k b).toNat]? = some (s : ℤ) → ∀ pv < c.oversample, ∀ pu < c.oversample,
        ∑ y ∈ range (2 * s + 1), ∑ x ∈ range (2 * s + 1), (plane.get [pv, pu, y, x]).val = 1)
    (hf : sampleFootprint vis c map l interpolation k b = .ok f) {ny nx : ℕ}
    (hin : f.Inside ny nx) :
    ∑ j ∈ range ny, ∑ i ∈ range nx, sampleKernel vis c map l interpolation k b j i = 1 := by
  obtain ⟨plane, s, xv, xu, hplane, hs, hshape, hfootprint, hkernel⟩ :=
    h.exists_sample interpolation hf
  simp only [hkernel]
  exact sum_kernelAt_of_inside interpolation h.cache.1 hshape
    (hunit plane s hplane hs) hfootprint hin

/-- A footprint off the grid leaves nothing of it there. -/
theorem Fit.sum_sampleKernel_of_outside (h : Fit vis g c map l)
    (hf : sampleFootprint vis c map l interpolation k b = .ok f) {ny nx : ℕ}
    (hout : f.Outside ny nx) :
    ∑ j ∈ range ny, ∑ i ∈ range nx, sampleKernel vis c map l interpolation k b j i = 0 := by
  obtain ⟨plane, s, xv, xu, -, -, hshape, hfootprint, hkernel⟩ := h.exists_sample interpolation hf
  refine sum_eq_zero fun j hj => sum_eq_zero fun i hi => ?_
  rw [hkernel]
  exact kernelAt_of_outside interpolation h.cache.1 hshape hfootprint hout (mem_range.1 hj)
    (mem_range.1 hi)

end Visibilities

end ApertureSynthesis.Grid
