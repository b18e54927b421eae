/-
  The oversampled lattice: each lattice point is one cell and one phase, and the points that a
  sample uses along an axis carry it whole.

  `usedPoints` lists the lattice points of a position as the interpolation defines them, without
  leaving out those that carry nothing; `axisPoints` leaves them out, and `sum_axisPoints` says that
  no weighted sum over the points sees the difference.
-/
import Mathlib
import ApertureSynthesis.Proofs.Exact
import ApertureSynthesis.Grid.Footprint

namespace ApertureSynthesis.Grid

/-! ## Cell and phase of a lattice point -/

section Point

variable {oversample : ℕ}

theorem phaseOf_eq_emod (q : ℤ) :
    phaseOf oversample q = (q + (oversample / 2 : ℕ)) % (oversample : ℤ) := by
  have h := Int.emod_def (q + (oversample / 2 : ℕ)) (oversample : ℤ)
  unfold phaseOf cellOf
  rw [h, Int.mul_comm]
  omega

theorem phaseOf_nonneg (hos : 0 < oversample) (q : ℤ) : 0 ≤ phaseOf oversample q := by
  rw [phaseOf_eq_emod]
  exact Int.emod_nonneg _ (by omega)

theorem phaseOf_lt (hos : 0 < oversample) (q : ℤ) : phaseOf oversample q < oversample := by
  rw [phaseOf_eq_emod]
  exact Int.emod_lt_of_pos _ (by omega)

/-- The next lattice point is in the same cell or in the next one. -/
theorem cellOf_succ (hos : 0 < oversample) (q : ℤ) :
    cellOf oversample q ≤ cellOf oversample (q + 1) ∧
      cellOf oversample (q + 1) ≤ cellOf oversample q + 1 := by
  have hpos : (0 : ℤ) < oversample := by omega
  unfold cellOf
  constructor
  · exact Int.ediv_le_ediv hpos (by omega)
  · calc (q + 1 + (oversample / 2 : ℕ)) / (oversample : ℤ)
        ≤ (q + (oversample / 2 : ℕ) + 1 * oversample) / (oversample : ℤ) :=
          Int.ediv_le_ediv hpos (by omega)
      _ = (q + (oversample / 2 : ℕ)) / (oversample : ℤ) + 1 := Int.add_mul_ediv_right _ _ hpos.ne'

/-- The lattice point in the middle of a cell. -/
theorem cellOf_mul (hos : 0 < oversample) (k : ℤ) : cellOf oversample (k * oversample) = k := by
  have hpos : (0 : ℤ) < oversample := by omega
  unfold cellOf
  rw [Int.add_comm, Int.add_mul_ediv_right _ _ hpos.ne',
    Int.ediv_eq_zero_of_lt (by omega) (by omega), Int.zero_add]

theorem phaseOf_mul (hos : 0 < oversample) (k : ℤ) :
    phaseOf oversample (k * oversample) = (oversample / 2 : ℕ) := by
  unfold phaseOf
  rw [cellOf_mul hos]
  omega

end Point

/-! ## The points of a position -/

/-- The lattice points that a position uses along one axis, each with its share: the two either side
    by their distance, or with nearest interpolation or one point per cell the nearest alone. -/
noncomputable def usedPoints (interpolation : Interpolation) (oversample : ℕ) (position : ℝ) :
    List (ℤ × ℝ) :=
  if interpolation = .linear ∧ 1 < oversample then
    [(⌊position⌋, 1 - Int.fract position), (⌊position⌋ + 1, Int.fract position)]
  else [(Scalar.roundInt position, 1)]

/-- All points of an axis, the first with the rest. -/
def allPoints {α : Type} (points : AxisPoint α × List (AxisPoint α)) : List (AxisPoint α) :=
  points.1 :: points.2

variable (interpolation : Interpolation) {oversample : ℕ}

/-- A position uses the nearest point alone, or the points either side of it. -/
theorem lowerPoint_cases (hos : 0 < oversample) (position : ℝ) :
    (lowerPoint interpolation oversample position = (Scalar.roundInt position, 0) ∧
      usedPoints interpolation oversample position = [(Scalar.roundInt position, 1)]) ∨
    (lowerPoint interpolation oversample position = (⌊position⌋, Int.fract position) ∧
      usedPoints interpolation oversample position =
        [(⌊position⌋, 1 - Int.fract position), (⌊position⌋ + 1, Int.fract position)]) := by
  by_cases hnear : interpolation = .nearest ∨ oversample = 1
  · refine .inl ⟨if_pos hnear, if_neg ?_⟩
    rintro ⟨rfl, hone⟩
    rcases hnear with hnear | hnear
    · cases hnear
    · omega
  · have hlinear : interpolation = .linear ∧ 1 < oversample := by
      rw [not_or] at hnear
      refine ⟨?_, by omega⟩
      cases interpolation with
      | nearest => exact absurd rfl hnear.1
      | linear => rfl
    refine .inr ⟨?_, if_pos hlinear⟩
    rw [lowerPoint, if_neg hnear, Scalar.floorInt_real, Scalar.floor_real]
    rfl

/-- With two points per cell, linear interpolation starts at the lower point. -/
theorem lowerPoint_linear_two (x : ℝ) : lowerPoint .linear 2 x = (⌊x⌋, Int.fract x) := by
  rw [lowerPoint, if_neg (by decide), Scalar.floorInt_real, Scalar.floor_real]
  rfl

/-- The points of an axis are a single one, or two that follow each other on the lattice. -/
theorem axisPoints_cases (hos : 0 < oversample) (position : ℝ) :
    (∃ q, axisPoints interpolation oversample position = (.ofLattice oversample q 1, []) ∧
      ∀ F : ℤ → ℂ, ((usedPoints interpolation oversample position).map fun p =>
        (p.2 : ℂ) * F p.1).sum = F q) ∨
    (∃ q w, axisPoints interpolation oversample position =
        (.ofLattice oversample q (1 - w), [.ofLattice oversample (q + 1) w]) ∧
      usedPoints interpolation oversample position = [(q, 1 - w), (q + 1, w)]) := by
  rcases lowerPoint_cases interpolation hos position with ⟨hlower, hused⟩ | ⟨hlower, hused⟩
  · left
    refine ⟨Scalar.roundInt position, ?_, fun F => ?_⟩
    · simp [axisPoints, hlower]
    · rw [hused]
      simp
  · by_cases hfract : Int.fract position = 0
    · left
      refine ⟨⌊position⌋, ?_, fun F => ?_⟩
      · simp [axisPoints, hlower, hfract]
      · rw [hused, hfract]
        simp
    · right
      refine ⟨⌊position⌋, Int.fract position, ?_, hused⟩
      simp [axisPoints, hlower, hfract]

/-- Leaving out the points that carry nothing changes no weighted sum. -/
theorem sum_axisPoints (hos : 0 < oversample) (position : ℝ) (F : ℤ → ℤ → ℂ) :
    ((allPoints (axisPoints interpolation oversample position)).map fun a =>
        (a.weight : ℂ) * F a.cell a.phase).sum =
      ((usedPoints interpolation oversample position).map fun p =>
        (p.2 : ℂ) * F (cellOf oversample p.1) (phaseOf oversample p.1)).sum := by
  rcases axisPoints_cases interpolation hos position with
    ⟨q, hpoints, hsum⟩ | ⟨q, w, hpoints, hused⟩
  · rw [hpoints, hsum fun q => F (cellOf oversample q) (phaseOf oversample q)]
    simp [allPoints, AxisPoint.ofLattice]
  · rw [hpoints, hused]
    simp [allPoints, AxisPoint.ofLattice]

/-- A position on the lattice uses that point alone. -/
theorem sum_usedPoints_intCast (q : ℤ) (F : ℤ → ℂ) :
    ((usedPoints interpolation oversample (q : ℝ)).map fun p => (p.2 : ℂ) * F p.1).sum = F q := by
  unfold usedPoints
  split
  · rw [Int.floor_intCast, Int.fract_intCast]
    simp
  · rw [Scalar.roundInt_intCast]
    simp

section Scalar

variable {α : Type} [Scalar α]

/-- In any arithmetic the points of an axis are a single one, or two that follow each other. -/
theorem exists_axisPoints (oversample : ℕ) (position : α) :
    (∃ q, axisPoints interpolation oversample position = (.ofLattice oversample q 1, [])) ∨
      ∃ q w, axisPoints interpolation oversample position =
        (.ofLattice oversample q (1 - w), [.ofLattice oversample (q + 1) w]) := by
  unfold axisPoints
  dsimp only
  split
  · exact .inl ⟨_, rfl⟩
  · exact .inr ⟨_, _, rfl⟩

theorem phasesWithin_axisPoints (hos : 0 < oversample) (position : α) :
    phasesWithin oversample (axisPoints interpolation oversample position) = true := by
  rcases exists_axisPoints interpolation oversample position with ⟨q, hpoints⟩ | ⟨q, w, hpoints⟩
  · simp [hpoints, phasesWithin, AxisPoint.ofLattice, phaseOf_nonneg hos, phaseOf_lt hos]
  · simp [hpoints, phasesWithin, AxisPoint.ofLattice, phaseOf_nonneg hos, phaseOf_lt hos]

/-- A single point carries the whole sample. -/
theorem weight_of_single (position : α)
    (h : (axisPoints interpolation oversample position).2 = []) :
    (axisPoints interpolation oversample position).1.weight = 1 := by
  rcases exists_axisPoints interpolation oversample position with ⟨q, hpoints⟩ | ⟨q, w, hpoints⟩
  · rw [hpoints]
    rfl
  · rw [hpoints] at h
    cases h

/-- Every point lies between the first cell and the last. -/
theorem cell_mem_axisPoints (hos : 0 < oversample) (position : α) {a : AxisPoint α}
    (ha : a ∈ allPoints (axisPoints interpolation oversample position)) :
    (axisPoints interpolation oversample position).1.cell ≤ a.cell ∧
      a.cell ≤ lastCell (axisPoints interpolation oversample position).1
        (axisPoints interpolation oversample position).2 := by
  rcases exists_axisPoints interpolation oversample position with ⟨q, hpoints⟩ | ⟨q, w, hpoints⟩
  · rw [hpoints] at ha ⊢
    obtain rfl : a = .ofLattice oversample q 1 := by simpa [allPoints] using ha
    exact ⟨le_refl _, le_refl _⟩
  · have hsucc := (cellOf_succ hos q).1
    rw [hpoints] at ha ⊢
    simp only [allPoints, List.mem_cons, List.not_mem_nil, or_false] at ha
    rcases ha with rfl | rfl
    · exact ⟨le_refl _, hsucc⟩
    · exact ⟨hsucc, le_refl _⟩

end Scalar

end ApertureSynthesis.Grid
