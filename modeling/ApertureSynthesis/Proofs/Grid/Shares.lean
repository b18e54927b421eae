/-
  What a kernel of unit taps gives to the cells of a grid.

  A kernel is a mixture, along each axis, of the taps about the lattice points that a sample uses
  (`kernelAt_eq_mixture`). Their shares are not negative and sum to one, and so do the taps of each
  phase. So a kernel is nowhere negative (`kernelAt_nonneg`), and the part of it that a grid holds
  is at most one, wherever it lies (`sum_kernelAt_le_one`). The nearest lattice point always has a
  share, so that with positive middle taps its cell gets something (`kernelAt_nearestCell_pos`),
  also where the sample is spread from other cells. A single tap for each cell goes there as a whole
  (`kernelAt_boxCache`).
-/
import Mathlib
import ApertureSynthesis.Proofs.Grid.Inside
import ApertureSynthesis.Proofs.Kernel.UnitTaps

namespace ApertureSynthesis

open Finset ComplexOrder

namespace Grid

variable (interpolation : Interpolation) {oversample : ℕ}

/-! ## Shares of lattice points -/

theorem share_nonneg (position : ℝ) {a : ℤ × ℝ}
    (ha : a ∈ usedPoints interpolation oversample position) :
    0 ≤ a.2 := by
  unfold usedPoints at ha
  split at ha
  · simp only [List.mem_cons, List.not_mem_nil, or_false] at ha
    rcases ha with rfl | rfl
    · exact (sub_pos.2 (Int.fract_lt_one position)).le
    · exact Int.fract_nonneg position
  · obtain rfl := List.mem_singleton.1 ha
    exact zero_le_one

theorem sum_share (position : ℝ) :
    ((usedPoints interpolation oversample position).map fun a => (a.2 : ℂ)).sum = 1 := by
  unfold usedPoints
  split
  · simp
  · simp

/-- The nearest lattice point is used, and has a share. -/
theorem exists_nearest_share (position : ℝ) : ∃ a ∈ usedPoints interpolation oversample position,
    a.1 = Scalar.roundInt position ∧ 0 < a.2 := by
  unfold usedPoints
  split
  · rcases Scalar.roundInt_cases position with hdown | ⟨hup, hfract⟩
    · exact ⟨_, List.mem_cons_self, hdown.symm, sub_pos.2 (Int.fract_lt_one position)⟩
    · exact ⟨_, List.mem_cons_of_mem _ List.mem_cons_self, hup.symm, hfract⟩
  · exact ⟨_, List.mem_cons_self, rfl, one_pos⟩

/-! ## Mixtures -/

/-- Values at lattice points, mixed by the shares of the points of a position. -/
noncomputable def mixture (interpolation : Interpolation) (oversample : ℕ) (position : ℝ)
    (f : ℤ → ℂ) : ℂ :=
  ((usedPoints interpolation oversample position).map fun a => (a.2 : ℂ) * f a.1).sum

section Mixture

variable {position : ℝ} {f : ℤ → ℂ}

theorem term_nonneg (hf : ∀ q, 0 ≤ f q) :
    ∀ z ∈ (usedPoints interpolation oversample position).map fun a => (a.2 : ℂ) * f a.1, 0 ≤ z := by
  intro z hz
  obtain ⟨a, ha, rfl⟩ := List.mem_map.1 hz
  exact mul_nonneg (Complex.zero_le_real.2 (share_nonneg interpolation position ha)) (hf a.1)

theorem mixture_nonneg (hf : ∀ q, 0 ≤ f q) : 0 ≤ mixture interpolation oversample position f :=
  List.sum_nonneg (term_nonneg interpolation hf)

theorem mixture_le_one (hf : ∀ q, f q ≤ 1) : mixture interpolation oversample position f ≤ 1 := by
  rw [← sum_share interpolation position]
  refine List.sum_le_sum fun a ha => ?_
  exact mul_le_of_le_one_right
    (Complex.zero_le_real.2 (share_nonneg interpolation position ha)) (hf a.1)

/-- A mixture has something of the value at the nearest point. -/
theorem mixture_pos (hf : ∀ q, 0 ≤ f q) (hpos : 0 < f (Scalar.roundInt position)) :
    0 < mixture interpolation oversample position f := by
  obtain ⟨a, ha, hnear, hshare⟩ : ∃ a ∈ usedPoints interpolation oversample position,
      a.1 = Scalar.roundInt position ∧ 0 < a.2 := exists_nearest_share interpolation position
  calc 0 < (a.2 : ℂ) * f a.1 := mul_pos (Complex.zero_lt_real.2 hshare) (hnear ▸ hpos)
    _ ≤ mixture interpolation oversample position f :=
      List.single_le_sum (term_nonneg interpolation hf) _ (List.mem_map.2 ⟨a, ha, rfl⟩)

theorem sum_mixture (u v : Finset ℕ) (position : ℝ) (f : ℤ → ℕ → ℕ → ℂ) :
    ∑ j ∈ u, ∑ i ∈ v, mixture interpolation oversample position (fun q => f q j i) =
      mixture interpolation oversample position fun q => ∑ j ∈ u, ∑ i ∈ v, f q j i :=
  sum_raster_map u v _ _ _

/-- With one point for each cell the nearest carries all. -/
theorem mixture_one (position : ℝ) (f : ℤ → ℂ) :
    mixture interpolation 1 position f = f (Scalar.roundInt position) := by
  have hused : usedPoints interpolation 1 position = [(Scalar.roundInt position, 1)] :=
    if_neg fun h => absurd h.2 (lt_irrefl 1)
  rw [mixture, hused]
  simp

end Mixture

/-- The kernel of a sample is a mixture of the taps about the points that it uses. -/
theorem kernelAt_eq_mixture (plane : Tensor (Cplx ℝ)) (s : ℕ) (xv xu : ℝ) (j i : ℤ) :
    kernelAt plane s interpolation oversample xv xu j i =
      mixture interpolation oversample xv fun v => mixture interpolation oversample xu fun u =>
        tapAt plane s (phaseOf oversample v) (phaseOf oversample u) (j - cellOf oversample v + s)
          (i - cellOf oversample u + s) := by
  simp only [kernelAt, mixture, mul_assoc, List.sum_map_mul_left]

/-! ## Taps on a grid -/

/-- A run of cells holds no more of what is spread over a window than the window. -/
theorem sum_window_le {f : ℤ → ℂ} {w : ℕ} (hf : ∀ z, 0 ≤ f z)
    (hout : ∀ z : ℤ, ¬(0 ≤ z ∧ z < w) → f z = 0) (n : ℕ) (a : ℤ) :
    ∑ j ∈ range n, f (j + a) ≤ ∑ y ∈ range w, f y := by
  have hinside : ∀ {j : ℕ}, j ∈ (range n).filter (fun j : ℕ => 0 ≤ j + a ∧ j + a < w) →
      0 ≤ (j : ℤ) + a ∧ (j : ℤ) + a < w := fun hj => (mem_filter.1 hj).2
  calc ∑ j ∈ range n, f (j + a)
      = ∑ j ∈ (range n).filter (fun j : ℕ => 0 ≤ j + a ∧ j + a < w), f (j + a) := by
        refine (sum_filter_of_ne fun j _ hne => ?_).symm
        exact not_not.1 fun hj => hne (hout _ hj)
    _ = ∑ j ∈ (range n).filter (fun j : ℕ => 0 ≤ j + a ∧ j + a < w),
    f (((j + a).toNat : ℕ) : ℤ) := by
        refine sum_congr rfl fun j hj => ?_
        rw [Int.toNat_of_nonneg (hinside hj).1]
    _ = ∑ y ∈ ((range n).filter (fun j : ℕ => 0 ≤ j + a ∧ j + a < w)).image
          (fun j : ℕ => ((j : ℤ) + a).toNat), f y := by
        refine (sum_image (f := fun y : ℕ => f y) fun j hj j' hj' heq => ?_).symm
        have hj := hinside (mem_coe.1 hj)
        have hj' := hinside (mem_coe.1 hj')
        omega
    _ ≤ ∑ y ∈ range w, f y := by
        refine sum_le_sum_of_subset_of_nonneg (fun y hy => ?_) fun y _ _ => hf y
        obtain ⟨j, hj, rfl⟩ := mem_image.1 hy
        have hj := hinside hj
        exact mem_range.2 (by omega)

end Grid

namespace Cache.UnitTaps

open Grid

variable {c : Cache ℝ} {s : ℕ} (h : c.UnitTaps s)

include h

/-- A tap as a complex number. -/
theorem val_eq_re {pv pu y x : ℕ} (hpv : pv < c.oversample) (hpu : pu < c.oversample)
    (hy : y ≤ 2 * s) (hx : x ≤ 2 * s) :
    (c.zeroW.get [pv, pu, y, x]).val = ((c.zeroW.get [pv, pu, y, x]).re : ℂ) := by
  apply Complex.ext
  · rfl
  · exact h.real pv hpv pu hpu y hy x hx

/-- Real taps that sum to one sum to one as complex numbers. -/
theorem sum_val {pv pu : ℕ} (hpv : pv < c.oversample) (hpu : pu < c.oversample) :
    ∑ y ∈ range (2 * s + 1), ∑ x ∈ range (2 * s + 1), (c.zeroW.get [pv, pu, y, x]).val = 1 := by
  rw [sum_congr rfl fun y hy => sum_congr rfl fun x hx => h.val_eq_re hpv hpu
    (Nat.le_of_lt_succ (mem_range.1 hy)) (Nat.le_of_lt_succ (mem_range.1 hx))]
  exact_mod_cast h.sum_eq_one pv hpv pu hpu

section Taps

variable {pv pu : ℤ} (hpv : 0 ≤ pv ∧ pv < c.oversample) (hpu : 0 ≤ pu ∧ pu < c.oversample)

include hpv hpu

theorem tapAt_nonneg (y x : ℤ) : 0 ≤ tapAt c.zeroW s pv pu y x := by
  unfold tapAt
  split
  · rw [h.val_eq_re (by omega) (by omega) (by omega) (by omega)]
    exact Complex.zero_le_real.2 (h.nonneg _ (by omega) _ (by omega) _ (by omega) _ (by omega))
  · exact le_rfl

/-- The taps about a cell add up to at most one on a grid, wherever the cell is. -/
theorem sum_tapAt_le_one (v u : ℤ) (ny nx : ℕ) :
    ∑ j ∈ range ny, ∑ i ∈ range nx, tapAt c.zeroW s pv pu (j - v + s) (i - u + s) ≤ 1 := by
  have hbeside : ∀ y x : ℤ, ¬((0 ≤ y ∧ y < (2 * s + 1 : ℕ)) ∧ 0 ≤ x ∧ x < (2 * s + 1 : ℕ)) →
      tapAt c.zeroW s pv pu y x = 0 := fun y x hout => if_neg (by push_cast at hout; omega)
  have hrow : ∀ j : ℕ, (j : ℤ) - v + s = j + (s - v) := fun j => by omega
  have hcolumn : ∀ i : ℕ, (i : ℤ) - u + s = i + (s - u) := fun i => by omega
  simp only [hrow, hcolumn]
  calc ∑ j ∈ range ny, ∑ i ∈ range nx, tapAt c.zeroW s pv pu (j + (s - v)) (i + (s - u))
      ≤ ∑ j ∈ range ny, ∑ x ∈ range (2 * s + 1), tapAt c.zeroW s pv pu (j + (s - v)) x :=
        sum_le_sum fun j _ => sum_window_le (fun x => h.tapAt_nonneg hpv hpu _ x)
          (fun x hx => hbeside _ x fun hin => hx hin.2) nx _
    _ ≤ ∑ y ∈ range (2 * s + 1), ∑ x ∈ range (2 * s + 1), tapAt c.zeroW s pv pu y x :=
        sum_window_le (f := fun y => ∑ x ∈ range (2 * s + 1), tapAt c.zeroW s pv pu y x)
          (fun y => sum_nonneg fun x _ => h.tapAt_nonneg hpv hpu y x)
          (fun y hy => sum_eq_zero fun x _ => hbeside y x fun hin => hy hin.1) ny _
    _ = ∑ y ∈ range (2 * s + 1), ∑ x ∈ range (2 * s + 1),
          (c.zeroW.get [pv.toNat, pu.toNat, y, x]).val := by
        refine sum_congr rfl fun y hy => sum_congr rfl fun x hx => ?_
        have hy := mem_range.1 hy
        have hx := mem_range.1 hx
        rw [tapAt, if_pos (by omega), Int.toNat_natCast, Int.toNat_natCast]
    _ = 1 := h.sum_val (by omega) (by omega)

end Taps

/-! ## The kernel of a sample -/

section Kernel

variable (hos : 0 < c.oversample) (interpolation : Interpolation) (xv xu : ℝ)

include hos

/-- The taps about the cells of any two points. -/
theorem pair_nonneg (v u j i : ℤ) :
    0 ≤ tapAt c.zeroW s (phaseOf c.oversample v) (phaseOf c.oversample u)
      (j - cellOf c.oversample v + s) (i - cellOf c.oversample u + s) :=
  h.tapAt_nonneg ⟨phaseOf_nonneg hos v, phaseOf_lt hos v⟩
    ⟨phaseOf_nonneg hos u, phaseOf_lt hos u⟩ _ _

/-- A kernel of unit taps is nowhere negative. -/
theorem kernelAt_nonneg (j i : ℤ) :
    0 ≤ kernelAt c.zeroW s interpolation c.oversample xv xu j i := by
  rw [kernelAt_eq_mixture]
  exact mixture_nonneg interpolation fun v => mixture_nonneg interpolation fun u =>
    h.pair_nonneg hos v u j i

/-- A grid holds at most the whole of it. -/
theorem sum_kernelAt_le_one (ny nx : ℕ) :
    ∑ j ∈ range ny, ∑ i ∈ range nx, kernelAt c.zeroW s interpolation c.oversample xv
      xu j i ≤ 1 := by
  simp only [kernelAt_eq_mixture]
  rw [sum_mixture]
  refine mixture_le_one interpolation fun v => ?_
  rw [sum_mixture]
  refine mixture_le_one interpolation fun u => ?_
  exact h.sum_tapAt_le_one ⟨phaseOf_nonneg hos v, phaseOf_lt hos v⟩
    ⟨phaseOf_nonneg hos u, phaseOf_lt hos u⟩ _ _ ny nx

/-- With positive middle taps the cell of the nearest lattice point gets something. -/
theorem kernelAt_nearestCell_pos (hmiddle : ∀ dv < c.oversample, ∀ du < c.oversample,
    0 < (c.zeroW.get [dv, du, s, s]).re) :
    0 < kernelAt c.zeroW s interpolation c.oversample xv xu (nearestCell c.oversample xv).1
      (nearestCell c.oversample xu).1 := by
  -- the nearest points of both axes have their middle tap there
  have htap : ∀ v u : ℤ,
      0 < tapAt c.zeroW s (phaseOf c.oversample v) (phaseOf c.oversample u) s s := by
    intro v u
    have hpv := phaseOf_nonneg hos v
    have hpu := phaseOf_nonneg hos u
    have hpv' := phaseOf_lt hos v
    have hpu' := phaseOf_lt hos u
    rw [tapAt, if_pos (by omega), Int.toNat_natCast,
      h.val_eq_re (by omega) (by omega) (by omega) (by omega)]
    exact Complex.zero_lt_real.2 (hmiddle _ (by omega) _ (by omega))
  rw [kernelAt_eq_mixture]
  refine mixture_pos interpolation
    (fun v => mixture_nonneg interpolation fun u => h.pair_nonneg hos v u _ _) ?_
  refine mixture_pos interpolation (fun u => h.pair_nonneg hos _ u _ _) ?_
  unfold nearestCell
  rw [sub_self, sub_self, zero_add]
  exact htap _ _

end Kernel

end Cache.UnitTaps

namespace Grid

/-- The box function gives a whole sample to the nearest cell. -/
theorem kernelAt_boxCache (cellSize : CellSize ℝ) (interpolation : Interpolation) (xv xu : ℝ)
    (j i : ℤ) :
    kernelAt (Kernel.Variant.boxCache cellSize).zeroW 0 interpolation 1 xv xu j i =
      if j = (nearestCell 1 xv).1 ∧ i = (nearestCell 1 xu).1 then 1 else 0 := by
  have hphase : ∀ q : ℤ, (phaseOf 1 q).toNat < 1 := by
    intro q
    have hlt : phaseOf 1 q < (1 : ℕ) := phaseOf_lt one_pos q
    omega
  rw [kernelAt_eq_mixture, mixture_one, mixture_one]
  unfold tapAt nearestCell
  by_cases hcell : j = cellOf 1 (Scalar.roundInt xv) ∧ i = cellOf 1 (Scalar.roundInt xu)
  · rw [if_pos (by omega), if_pos hcell,
      Kernel.get_zeroW_boxCache_of_lt cellSize (hphase _) (hphase _)
      (by omega) (by omega), Cplx.val_one]
  · rw [if_neg (by omega), if_neg hcell]

end Grid

end ApertureSynthesis
