/-
  The kernel of a sample, and the footprint that the library spreads it with.

  `kernelAt` is the kernel between lattice points, written out: at each cell of the unbounded grid
  the taps of all pairs of lattice points that the sample uses, weighted by their shares. A
  footprint is a rectangle of taps. `footprint_axisPoints_eq` says that on a plane of the right
  shape the footprint is always found, in any arithmetic, and `read_tapsAround` that it reads as the
  kernel everywhere, whether a single lattice point is used, points that fall in neighbouring cells,
  or cells before the first of the grid. `sum_runs` turns a sum over the taps that are left after
  clipping into a sum over the cells of the grid.
-/
import Mathlib
import ApertureSynthesis.Proofs.Sums
import ApertureSynthesis.Proofs.Grid.Lattice
import ApertureSynthesis.Proofs.Tensor

namespace ApertureSynthesis.Grid

/-! ## The kernel of a sample -/

/-- The tap of a plane of half-width `s` for a pair of phases, at a place of its table; zero beside
    the table. -/
noncomputable def tapAt (plane : Tensor (Cplx ℝ)) (s : ℕ) (pv pu y x : ℤ) : ℂ :=
  if 0 ≤ y ∧ y ≤ 2 * s ∧ 0 ≤ x ∧ x ≤ 2 * s then
    (plane.get [pv.toNat, pu.toNat, y.toNat, x.toNat]).val
  else 0

/-- The kernel of a sample at lattice positions `xv` and `xu`, in row `j` and column `i` of the
    unbounded grid. -/
noncomputable def kernelAt (plane : Tensor (Cplx ℝ)) (s : ℕ) (interpolation : Interpolation)
    (oversample : ℕ) (xv xu : ℝ) (j i : ℤ) : ℂ :=
  ((usedPoints interpolation oversample xv).map fun v =>
    ((usedPoints interpolation oversample xu).map fun u =>
      (v.2 : ℂ) * u.2 * tapAt plane s (phaseOf oversample v.1) (phaseOf oversample u.1)
        (j - cellOf oversample v.1 + s) (i - cellOf oversample u.1 + s)).sum).sum

/-- The kernel as a sum over the points that carry something. -/
theorem kernelAt_eq_sum_points {oversample : ℕ} (hos : 0 < oversample)
    (plane : Tensor (Cplx ℝ)) (s : ℕ) (interpolation : Interpolation) (xv xu : ℝ) (j i : ℤ) :
    kernelAt plane s interpolation oversample xv xu j i =
      ((allPoints (axisPoints interpolation oversample xv)).map fun a =>
        (a.weight : ℂ) * ((allPoints (axisPoints interpolation oversample xu)).map fun b =>
          (b.weight : ℂ) * tapAt plane s a.phase b.phase (j - a.cell + s)
            (i - b.cell + s)).sum).sum := by
  have hinner : ∀ cell phase : ℤ,
      ((allPoints (axisPoints interpolation oversample xu)).map fun b =>
        (b.weight : ℂ) * tapAt plane s phase b.phase (j - cell + s) (i - b.cell + s)).sum =
      ((usedPoints interpolation oversample xu).map fun u =>
        (u.2 : ℂ) * tapAt plane s phase (phaseOf oversample u.1) (j - cell + s)
          (i - cellOf oversample u.1 + s)).sum := fun cell phase =>
    sum_axisPoints interpolation hos xu fun c p => tapAt plane s phase p (j - cell + s) (i - c + s)
  simp only [hinner]
  rw [sum_axisPoints interpolation hos xv fun cell phase =>
    ((usedPoints interpolation oversample xu).map fun u =>
      (u.2 : ℂ) * tapAt plane s phase (phaseOf oversample u.1) (j - cell + s)
        (i - cellOf oversample u.1 + s)).sum]
  simp only [kernelAt, mul_assoc, List.sum_map_mul_left]

/-- At the middle of a cell the kernel is the taps of the central phase about that cell. -/
theorem kernelAt_of_cell {oversample : ℕ} (hos : 0 < oversample) (plane : Tensor (Cplx ℝ)) (s : ℕ)
    (interpolation : Interpolation) (v u j i : ℤ) :
    kernelAt plane s interpolation oversample ((v * oversample : ℤ) : ℝ)
      ((u * oversample : ℤ) : ℝ) j i =
      tapAt plane s (oversample / 2 : ℕ) (oversample / 2 : ℕ) (j - v + s) (i - u + s) := by
  simp only [kernelAt, mul_assoc, List.sum_map_mul_left]
  rw [sum_usedPoints_intCast interpolation (v * oversample) fun q =>
    ((usedPoints interpolation oversample ((u * oversample : ℤ) : ℝ)).map fun p =>
      (p.2 : ℂ) * tapAt plane s (phaseOf oversample q) (phaseOf oversample p.1)
        (j - cellOf oversample q + s) (i - cellOf oversample p.1 + s)).sum]
  rw [sum_usedPoints_intCast interpolation (u * oversample) fun q =>
    tapAt plane s (phaseOf oversample (v * oversample)) (phaseOf oversample q)
      (j - cellOf oversample (v * oversample) + s) (i - cellOf oversample q + s)]
  rw [phaseOf_mul hos, phaseOf_mul hos, cellOf_mul hos, cellOf_mul hos]

/-! ## Reading a footprint -/

/-- A cell of the unbounded grid lies in the rectangle of a footprint. -/
def Footprint.Covers {α : Type} (f : Footprint α) (j i : ℤ) : Prop :=
  (f.v ≤ j ∧ j < f.v + f.height) ∧ f.u ≤ i ∧ i < f.u + f.width

instance {α : Type} (f : Footprint α) (j i : ℤ) : Decidable (f.Covers j i) :=
  inferInstanceAs (Decidable ((_ ∧ _) ∧ _ ∧ _))

/-- The tap of a footprint at a cell of the unbounded grid, zero outside its rectangle. -/
def Footprint.read {α : Type} [Scalar α] (f : Footprint α) (j i : ℤ) : Cplx α :=
  if f.Covers j i then f.tap (j - f.v).toNat (i - f.u).toNat else 0

theorem mem_covered {start : ℤ} {width n j : ℕ} :
    j ∈ covered start width n ↔ j < n ∧ start ≤ j ∧ (j : ℤ) < start + width := by
  rw [covered, List.mem_range'_1]
  omega

/-- The cells on the grid with what a footprint has there. -/
theorem flatten_runs {α : Type} [Scalar α] (f : Footprint α) (ny nx : ℕ) :
    (f.runs ny nx).flatten = (covered f.v f.height ny).flatMap (f.tapsInRow nx) := by
  unfold Footprint.runs
  split
  · rw [List.flatten_singleton, List.flatMap_def]
  · rw [List.flatMap_def]

/-- A sum over the taps on the grid, whose terms are zero where the tap is, runs over all cells. -/
theorem sum_runs {M : Type} [AddCommMonoid M] (f : Footprint ℝ) (ny nx : ℕ)
    (F : ℕ → ℕ → Cplx ℝ → M) (hF : ∀ j i, F j i 0 = 0) :
    ((f.runs ny nx).flatten.map fun t => F t.j t.i t.value).sum =
      ∑ j ∈ Finset.range ny, ∑ i ∈ Finset.range nx, F j i (f.read j i) := by
  have hrow : ∀ j : ℕ, ((f.tapsInRow nx j).map fun t => F t.j t.i t.value).sum =
      ∑ i ∈ Finset.range nx, if f.u ≤ i ∧ (i : ℤ) < f.u + f.width then
        F j i (f.tap ((j : ℤ) - f.v).toNat ((i : ℤ) - f.u).toNat) else 0 := by
    intro j
    rw [Footprint.tapsInRow, List.map_map, ← sum_map_covered]
    rfl
  rw [flatten_runs, sum_map_flatMap]
  simp only [hrow]
  rw [sum_map_covered]
  refine Finset.sum_congr rfl fun j _ => ?_
  by_cases hj : f.v ≤ j ∧ (j : ℤ) < f.v + f.height
  · rw [if_pos hj]
    refine Finset.sum_congr rfl fun i _ => ?_
    by_cases hi : f.u ≤ i ∧ (i : ℤ) < f.u + f.width
    · rw [if_pos hi, Footprint.read, if_pos ⟨hj, hi⟩]
    · rw [if_neg hi, Footprint.read, if_neg fun h => hi h.2, hF]
  · rw [if_neg hj]
    refine (Finset.sum_eq_zero fun i _ => ?_).symm
    rw [Footprint.read, if_neg fun h => hj h.1, hF]

/-! ## The footprint of a sample -/

section Table

variable {α : Type} [Scalar α]

/-- The taps around lattice points: those of the table for a single point, else the mixture. -/
def tapsAround (plane : Tensor (Cplx α)) (s : ℕ) (vs us : AxisPoint α × List (AxisPoint α)) :
    Footprint α where
  v := vs.1.cell - s
  u := us.1.cell - s
  height := (lastCell vs.1 vs.2 - vs.1.cell + (2 * s + 1)).toNat
  width := (lastCell us.1 us.2 - us.1.cell + (2 * s + 1)).toNat
  tap := if vs.2.isEmpty && us.2.isEmpty then
      fun y x => plane.get [vs.1.phase.toNat, us.1.phase.toNat, y, x]
    else mixedTap plane (2 * s + 1) (vs.1 :: vs.2) (us.1 :: us.2) vs.1.cell us.1.cell

/-- Points with phases of a table of half-width `s`, in order, have a footprint on it. -/
theorem footprint_eq {plane : Tensor (Cplx α)} {oversample s : ℕ}
    (hshape : plane.shape = [oversample, oversample, 2 * s + 1, 2 * s + 1])
    {vs us : AxisPoint α × List (AxisPoint α)} (hvphase : phasesWithin oversample vs = true)
    (huphase : phasesWithin oversample us = true) (hv : vs.1.cell ≤ lastCell vs.1 vs.2)
    (hu : us.1.cell ≤ lastCell us.1 us.2) :
    footprint plane s vs us = .ok (tapsAround plane s vs us) := by
  obtain ⟨a, as⟩ := vs
  obtain ⟨b, bs⟩ := us
  simp only at hv hu
  have hheight : 0 ≤ lastCell a as - a.cell + (2 * s + 1) := by omega
  have hwidth : 0 ≤ lastCell b bs - b.cell + (2 * s + 1) := by omega
  have hstretch : stretches (2 * s + 1) [2 * s + 1, 2 * s + 1] = true := by simp [stretches]
  unfold footprint tapsAround
  simp only [hshape, hvphase, huphase, Bool.and_self, Bool.not_true, Bool.false_eq_true, if_false]
  by_cases hsingle : as = [] ∧ bs = []
  · obtain ⟨rfl, rfl⟩ := hsingle
    have hone : (2 * (s : ℤ) + 1).toNat = 2 * s + 1 := by omega
    simp [lastCell, hone]
  · have hmix : (as.isEmpty && bs.isEmpty) = false := by
      rw [Bool.eq_false_iff]
      simpa only [ne_eq, Bool.and_eq_true, List.isEmpty_iff] using hsingle
    simp [hmix, hheight, hwidth, hstretch]

/-- Wherever a sample lies, it has a footprint on a table of the right shape. -/
theorem footprint_axisPoints_eq {plane : Tensor (Cplx α)} {oversample s : ℕ}
    (interpolation : Interpolation) (hos : 0 < oversample)
    (hshape : plane.shape = [oversample, oversample, 2 * s + 1, 2 * s + 1]) (xv xu : α) :
    footprint plane s (axisPoints interpolation oversample xv)
      (axisPoints interpolation oversample xu) =
      .ok (tapsAround plane s (axisPoints interpolation oversample xv)
        (axisPoints interpolation oversample xu)) :=
  footprint_eq hshape (phasesWithin_axisPoints interpolation hos xv)
    (phasesWithin_axisPoints interpolation hos xu)
    (cell_mem_axisPoints interpolation hos xv List.mem_cons_self).2
    (cell_mem_axisPoints interpolation hos xu List.mem_cons_self).2

/-- It is the rectangle around the taps of all points of the sample. -/
theorem rectangle_tapsAround {oversample : ℕ} (interpolation : Interpolation) (hos : 0 < oversample)
    (plane : Tensor (Cplx α)) (s : ℕ) (xv xu : α) {f : Footprint α}
    (h : tapsAround plane s (axisPoints interpolation oversample xv)
      (axisPoints interpolation oversample xu) = f) :
    (f.v = (axisPoints interpolation oversample xv).1.cell - s ∧
      f.v + f.height = lastCell (axisPoints interpolation oversample xv).1
        (axisPoints interpolation oversample xv).2 + s + 1) ∧
    f.u = (axisPoints interpolation oversample xu).1.cell - s ∧
      f.u + f.width = lastCell (axisPoints interpolation oversample xu).1
        (axisPoints interpolation oversample xu).2 + s + 1 := by
  have hv := cell_mem_axisPoints interpolation hos xv List.mem_cons_self
  have hu := cell_mem_axisPoints interpolation hos xu List.mem_cons_self
  subst h
  dsimp only [tapsAround]
  omega

end Table

section Sample

variable {plane : Tensor (Cplx ℝ)} {oversample s : ℕ}

/-- On a plane of half-width `s` the tap of two phases is that of the table. -/
theorem val_planeTap (hshape : plane.shape = [oversample, oversample, 2 * s + 1, 2 * s + 1])
    (pv pu y x : ℤ) :
    (planeTap plane (2 * (s : ℤ) + 1) pv pu y x).val = tapAt plane s pv pu y x := by
  unfold planeTap tapAt
  by_cases hin : 0 ≤ y ∧ y ≤ 2 * s ∧ 0 ≤ x ∧ x ≤ 2 * s
  · -- a table of one tap is read at its only place, which is where both coordinates are
    have halong : ∀ k : ℤ, 0 ≤ k → k ≤ 2 * s →
        (if 2 * s + 1 = 1 then 0 else k.toNat) = k.toNat := by
      intro k h0 hk
      split
      · omega
      · rfl
    rw [if_pos hin, if_pos (by omega)]
    simp only [hshape]
    rw [halong y hin.1 hin.2.1, halong x hin.2.2.1 hin.2.2.2]
  · rw [if_neg hin, if_neg (by omega), Cplx.val_zero]

theorem val_mixedTap (hshape : plane.shape = [oversample, oversample, 2 * s + 1, 2 * s + 1])
    (vs us : List (AxisPoint ℝ)) (v0 u0 : ℤ) (y x : ℕ) :
    (mixedTap plane (2 * (s : ℤ) + 1) vs us v0 u0 y x).val =
      (vs.map fun a => (a.weight : ℂ) * (us.map fun b =>
        (b.weight : ℂ) * tapAt plane s a.phase b.phase (y - (a.cell - v0))
          (x - (b.cell - u0))).sum).sum := by
  have hterm : ∀ a b : AxisPoint ℝ,
      (Cplx.scale (a.weight * b.weight) (planeTap plane (2 * (s : ℤ) + 1) a.phase b.phase
        (y - (a.cell - v0)) (x - (b.cell - u0)))).val =
      (a.weight : ℂ) * ((b.weight : ℂ) *
        tapAt plane s a.phase b.phase (y - (a.cell - v0)) (x - (b.cell - u0))) := by
    intro a b
    rw [Cplx.val_scale, val_planeTap hshape, ← mul_assoc, ← Complex.ofReal_mul]
  unfold mixedTap
  rw [Cplx.val_sum, sum_map_flatMap]
  simp only [List.map_map, Function.comp_def, hterm, List.sum_map_mul_left]

variable (interpolation : Interpolation)

/-- Beside the rectangle around all points no pair of them has a tap. -/
theorem kernelAt_eq_zero (plane : Tensor (Cplx ℝ)) (hos : 0 < oversample) (xv xu : ℝ) {j i : ℤ}
    (hout : ¬ ((axisPoints interpolation oversample xv).1.cell - s ≤ j ∧
      j ≤ lastCell (axisPoints interpolation oversample xv).1
        (axisPoints interpolation oversample xv).2 + s ∧
      (axisPoints interpolation oversample xu).1.cell - s ≤ i ∧
      i ≤ lastCell (axisPoints interpolation oversample xu).1
        (axisPoints interpolation oversample xu).2 + s)) :
    kernelAt plane s interpolation oversample xv xu j i = 0 := by
  rw [kernelAt_eq_sum_points hos]
  refine List.sum_eq_zero fun z hz => ?_
  obtain ⟨a, ha, rfl⟩ := List.mem_map.1 hz
  have hrow := cell_mem_axisPoints interpolation hos xv ha
  rw [mul_eq_zero]
  right
  refine List.sum_eq_zero fun z hz => ?_
  obtain ⟨b, hb, rfl⟩ := List.mem_map.1 hz
  have hcolumn := cell_mem_axisPoints interpolation hos xu hb
  rw [tapAt, if_neg (by omega), mul_zero]

/-- On a plane of the right shape the taps around the points of a sample read as its kernel. -/
theorem read_tapsAround (hos : 0 < oversample)
    (hshape : plane.shape = [oversample, oversample, 2 * s + 1, 2 * s + 1]) (xv xu : ℝ) (j i : ℤ) :
    ((tapsAround plane s (axisPoints interpolation oversample xv)
      (axisPoints interpolation oversample xu)).read j i).val =
      kernelAt plane s interpolation oversample xv xu j i := by
  have hzero := kernelAt_eq_zero interpolation plane hos xv xu (s := s) (j := j) (i := i)
  have hsum := kernelAt_eq_sum_points hos plane s interpolation xv xu j i
  have hvone : (axisPoints interpolation oversample xv).2 = [] →
      (axisPoints interpolation oversample xv).1.weight = 1 := weight_of_single interpolation xv
  have huone : (axisPoints interpolation oversample xu).2 = [] →
      (axisPoints interpolation oversample xu).1.weight = 1 := weight_of_single interpolation xu
  -- from here on only these facts about the points matter
  generalize axisPoints interpolation oversample xv = vs at *
  generalize axisPoints interpolation oversample xu = us at *
  obtain ⟨a, as⟩ := vs
  obtain ⟨b, bs⟩ := us
  simp only at hzero hvone huone
  by_cases hsingle : as = [] ∧ bs = []
  · -- a single lattice point: the taps of its phases as they are
    obtain ⟨rfl, rfl⟩ := hsingle
    have hone : (2 * (s : ℤ) + 1).toNat = 2 * s + 1 := by omega
    have hrows : (a.cell - s ≤ j ∧ j < a.cell - s + (2 * s + 1 : ℕ)) ↔
        (0 ≤ j - a.cell + s ∧ j - a.cell + s ≤ 2 * s) := by omega
    have hcolumns : (b.cell - s ≤ i ∧ i < b.cell - s + (2 * s + 1 : ℕ)) ↔
        (0 ≤ i - b.cell + s ∧ i - b.cell + s ≤ 2 * s) := by omega
    rw [hsum]
    simp only [tapsAround, lastCell, List.getLast?_nil, Option.getD_none, sub_self, zero_add, hone,
      List.isEmpty_nil, Bool.and_self, if_true, Footprint.read, Footprint.Covers, hrows, hcolumns,
      allPoints, List.map_cons, List.map_nil, List.sum_cons, List.sum_nil, add_zero, hvone rfl,
      huone rfl, Complex.ofReal_one, one_mul, tapAt, and_assoc, apply_ite Cplx.val, Cplx.val_zero,
      show j - (a.cell - s) = j - a.cell + s by omega, show i - (b.cell - s) =
        i - b.cell + s by omega]
  · -- several points: the mixture of their taps on the rectangle around them
    have hmix : (as.isEmpty && bs.isEmpty) = false := by
      rw [Bool.eq_false_iff]
      simpa only [ne_eq, Bool.and_eq_true, List.isEmpty_iff] using hsingle
    simp only [tapsAround, hmix, Bool.false_eq_true, if_false, Footprint.read]
    split
    · rename_i hcovers
      obtain ⟨⟨hv0, -⟩, hu0, -⟩ := hcovers
      simp only at hv0 hu0
      rw [val_mixedTap hshape, hsum]
      have hrow : ∀ c : ℤ, ((j - (a.cell - s)).toNat : ℤ) - (c - a.cell) = j - c + s := by
        intro c
        omega
      have hcolumn : ∀ c : ℤ, ((i - (b.cell - s)).toNat : ℤ) - (c - b.cell) = i - c + s := by
        intro c
        omega
      simp only [hrow, hcolumn, allPoints]
    · rename_i hcovers
      rw [Cplx.val_zero, hzero]
      simp only [Footprint.Covers] at hcovers ⊢
      omega

end Sample

end ApertureSynthesis.Grid
