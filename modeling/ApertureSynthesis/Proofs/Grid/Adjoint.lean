/-
  Degridding is the adjoint of gridding.

  Both directions sum over pairs of a sample and a cell with the same kernel, one of them with its
  conjugate. `sum_conj_directSum` exchanges the two sums; what remains is that a flag masks a sample
  on the side of gridding, and on the other side its value in the product.
-/
import Mathlib
import ApertureSynthesis.Proofs.Grid.Gridding
import ApertureSynthesis.Proofs.Grid.Prediction

namespace ApertureSynthesis

open ComplexConjugate

/-- A sum over the cells of a grid, taken term by term. -/
theorem sum_cells_comm {ι M : Type} [AddCommMonoid M] (s : Finset ι) (nchan npol ny nx : ℕ)
    (f : ι → ℕ → ℕ → ℕ → ℕ → M) :
    ∑ ch ∈ Finset.range nchan, ∑ p ∈ Finset.range npol, ∑ j ∈ Finset.range ny,
        ∑ i ∈ Finset.range nx, ∑ k ∈ s, f k ch p j i =
      ∑ k ∈ s, ∑ ch ∈ Finset.range nchan, ∑ p ∈ Finset.range npol, ∑ j ∈ Finset.range ny,
        ∑ i ∈ Finset.range nx, f k ch p j i := by
  classical
  induction s using Finset.induction_on with
  | empty => simp
  | insert k s hk ih =>
    rw [Finset.sum_insert hk, ← ih]
    simp only [Finset.sum_insert hk, Finset.sum_add_distrib]

namespace Grid

variable {nchan npol : ℕ} {vis : Visibility ℝ nchan npol} {g : Grid ℝ} {c : Cache ℝ}
  {map : PlaneMap} {l : Lattice ℝ}

/-- The direct sum against a grid is the masked values against what the grid predicts. -/
theorem sum_conj_directSum (h : Fit vis g c map l) (interpolation : Interpolation)
    (m : ℕ → ℕ → ℕ → ℕ → ℂ) :
    ∑ ch ∈ Finset.range g.nchan, ∑ p ∈ Finset.range g.npol, ∑ j ∈ Finset.range g.ny,
        ∑ i ∈ Finset.range g.nx,
          conj (directSum vis g c map l interpolation ch p j i) * m ch p j i =
      ∑ k ∈ Finset.range vis.rowCount, ∑ b ∈ Finset.range nchan, ∑ p ∈ Finset.range npol,
        conj ((vis.sampleAt k b p).flaggedWeight * (vis.sampleAt k b p).value.val) *
          ∑ j ∈ Finset.range g.ny, ∑ i ∈ Finset.range g.nx,
            m (g.channelAt (vis.frequency.getD b 0)) p j i *
              sampleKernel vis c map l interpolation k b j i := by
  have hterm : ∀ k b p ch (j i : ℕ), conj (if (vis.sampleAt k b p).flagged = false ∧
        g.channelAt (vis.frequency.getD b 0) = ch then
      ((vis.sampleAt k b p).weight : ℂ) * (vis.sampleAt k b p).value.val *
        conj (sampleKernel vis c map l interpolation k b j i) else 0) =
      if g.channelAt (vis.frequency.getD b 0) = ch then
        conj ((vis.sampleAt k b p).flaggedWeight * (vis.sampleAt k b p).value.val) *
          sampleKernel vis c map l interpolation k b j i else 0 := by
    intro k b p ch j i
    rw [flaggedWeight_real]
    generalize g.channelAt (vis.frequency.getD b 0) = channel
    by_cases hch : channel = ch
    · cases hf : (vis.sampleAt k b p).flagged <;> simp [hch]
    · simp [hch]
  unfold directSum
  simp only [map_sum, hterm, Finset.sum_mul]
  rw [sum_cells_comm]
  refine Finset.sum_congr rfl fun k _ => ?_
  rw [sum_cells_comm]
  refine Finset.sum_congr rfl fun b _ => ?_
  -- of all channels of the grid only that of the sample is left
  rw [Finset.sum_eq_single_of_mem _ (Finset.mem_range.2 (h.channelAt_lt (vis.frequency.getD b 0)))]
  · rw [← h.npol_eq]
    refine Finset.sum_congr rfl fun p _ => ?_
    simp only [if_true, Finset.mul_sum]
    refine Finset.sum_congr rfl fun j _ => Finset.sum_congr rfl fun i _ => ?_
    ring
  · intro ch _ hne
    refine Finset.sum_eq_zero fun p _ => Finset.sum_eq_zero fun j _ =>
      Finset.sum_eq_zero fun i _ => ?_
    rw [if_neg fun heq => hne heq.symm, zero_mul]

/-- Visibilities fit any grid that has the axes of one that they fit. -/
theorem Fit.of_alike (h : Fit vis g c map l) {m : Grid ℝ} (hm : Alike g m) : Fit vis m c map l where
  cache := h.cache
  checked := by
    have hchecked := h.checked
    unfold checkFit at hchecked ⊢
    rwa [hm.npol, hm.cellSize]
  listed := h.listed
  length_frequency := h.length_frequency
  nchan_pos := hm.nchan ▸ h.nchan_pos
  tuned := by
    rw [hm.nchan, hm.frequency]
    exact h.tuned
  lattice := by
    have hlattice := h.lattice
    unfold Grid.lattice at hlattice ⊢
    rwa [hm.cellSize, hm.ny, hm.nx]

theorem channelAt_alike {m : Grid ℝ} (hm : Alike g m) : m.channelAt = g.channelAt := by
  funext hertz
  rw [channelAt, channelAt, hm.nchan, hm.frequency]

/-- Degridding is the adjoint of gridding: the masked values against the predictions from a grid `m`
    are what gridding adds to `g`, against `m`. -/
theorem predict_adjoint_addVisibilities (h : Fit vis g c map l) (interpolation : Interpolation)
    (sums : Option (Tensor ℝ)) (hs : ∀ t ∈ sums, t.shape = [g.nchan, g.npol]) {m : Grid ℝ}
    (hm : Alike g m) :
    ∃ d vis' statistics, addVisibilities vis g c map sums interpolation = .ok d ∧
      predict vis m c map interpolation = .ok (vis', statistics) ∧
      ∑ k ∈ Finset.range vis.rowCount, ∑ b ∈ Finset.range nchan, ∑ p ∈ Finset.range npol,
          conj ((vis.sampleAt k b p).flaggedWeight * (vis.sampleAt k b p).value.val) *
            (vis'.sampleAt k b p).value.val =
        ∑ ch ∈ Finset.range g.nchan, ∑ p ∈ Finset.range g.npol, ∑ j ∈ Finset.range g.ny,
          ∑ i ∈ Finset.range g.nx,
            conj ((d.grid.get ch p j i).val - (g.get ch p j i).val) * (m.get ch p j i).val := by
  obtain ⟨d, hd, hadds⟩ := addVisibilities_adds h interpolation sums hs
  obtain ⟨vis', statistics, hpredict, -, hsample⟩ := predict_samples (h.of_alike hm) interpolation
  refine ⟨d, vis', statistics, hd, hpredict, ?_⟩
  have hpredicted : ∀ k < vis.rowCount, ∀ b < nchan, ∀ p < npol,
      (vis'.sampleAt k b p).value.val = ∑ j ∈ Finset.range g.ny, ∑ i ∈ Finset.range g.nx,
        (m.get (g.channelAt (vis.frequency.getD b 0)) p j i).val *
          sampleKernel vis c map l interpolation k b j i := by
    intro k hk b hb p hp
    rw [(hsample k hk b hb p hp).2.2, channelAt_alike hm, hm.ny, hm.nx]
  calc ∑ k ∈ Finset.range vis.rowCount, ∑ b ∈ Finset.range nchan, ∑ p ∈ Finset.range npol,
        conj ((vis.sampleAt k b p).flaggedWeight * (vis.sampleAt k b p).value.val) *
          (vis'.sampleAt k b p).value.val
      = ∑ k ∈ Finset.range vis.rowCount, ∑ b ∈ Finset.range nchan, ∑ p ∈ Finset.range npol,
        conj ((vis.sampleAt k b p).flaggedWeight * (vis.sampleAt k b p).value.val) *
          ∑ j ∈ Finset.range g.ny, ∑ i ∈ Finset.range g.nx,
            (m.get (g.channelAt (vis.frequency.getD b 0)) p j i).val *
              sampleKernel vis c map l interpolation k b j i := by
        refine Finset.sum_congr rfl fun k hk => Finset.sum_congr rfl fun b hb =>
          Finset.sum_congr rfl fun p hp => ?_
        rw [hpredicted k (Finset.mem_range.1 hk) b (Finset.mem_range.1 hb) p
          (Finset.mem_range.1 hp)]
    _ = ∑ ch ∈ Finset.range g.nchan, ∑ p ∈ Finset.range g.npol, ∑ j ∈ Finset.range g.ny,
        ∑ i ∈ Finset.range g.nx,
          conj (directSum vis g c map l interpolation ch p j i) * (m.get ch p j i).val :=
        (sum_conj_directSum h interpolation fun ch p j i => (m.get ch p j i).val).symm
    _ = _ := by
        refine Finset.sum_congr rfl fun ch hch => Finset.sum_congr rfl fun p hp =>
          Finset.sum_congr rfl fun j hj => Finset.sum_congr rfl fun i hi => ?_
        rw [hadds.cell ch p j i (Finset.mem_range.1 hch) (Finset.mem_range.1 hp)
          (Finset.mem_range.1 hj) (Finset.mem_range.1 hi), add_sub_cancel_left]

theorem predict_adjoint_quarterVisibility :
    Fit quarterVisibility smallGrid twoPhases (PlaneMap.single quarterVisibility) ⟨1, 1, 3, 3, 2⟩ ∧
    Alike smallGrid (smallGrid.addAt 0 0 1 2 ⟨7, 1⟩) ∧
    ∃ d vis' statistics,
      addVisibilities quarterVisibility smallGrid twoPhases (PlaneMap.single quarterVisibility)
        none .linear = .ok d ∧
      predict quarterVisibility (smallGrid.addAt 0 0 1 2 ⟨7, 1⟩) twoPhases
        (PlaneMap.single quarterVisibility) .linear = .ok (vis', statistics) ∧
      2 * conj (3 + 4 * Complex.I) * (vis'.sampleAt 0 0 0).value.val =
        ∑ j ∈ Finset.range 3, ∑ i ∈ Finset.range 3, conj ((d.grid.get 0 0 j i).val) *
          ((smallGrid.addAt 0 0 1 2 ⟨7, 1⟩).get 0 0 j i).val := by
  have halike : Alike smallGrid (smallGrid.addAt 0 0 1 2 ⟨7, 1⟩) := ⟨rfl, rfl, rfl, rfl, rfl, rfl⟩
  obtain ⟨d, vis', statistics, hd, hpredict, hsum⟩ := predict_adjoint_addVisibilities
    fit_quarterVisibility .linear none (fun t ht => by cases ht) halike
  refine ⟨fit_quarterVisibility, halike, d, vis', statistics, hd, hpredict, ?_⟩
  obtain ⟨hfirst, hsecond⟩ := sampleAt_quarterVisibility
  have haxes : quarterVisibility.rowCount = 2 ∧ smallGrid.nchan = 1 ∧ smallGrid.npol = 1 ∧
      smallGrid.ny = 3 ∧ smallGrid.nx = 3 := ⟨rfl, rfl, rfl, rfl, rfl⟩
  rw [haxes.1, haxes.2.1, haxes.2.2.1, haxes.2.2.2.1, haxes.2.2.2.2] at hsum
  simpa [Finset.sum_range_succ, hfirst, hsecond, flaggedWeight_real, get_smallGrid,
    val_quarterVisibility] using hsum

end Grid

end ApertureSynthesis
