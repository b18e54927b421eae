/-
  Images of grids and grids of images, pixel by pixel. Both are centred transforms; the image of a
  grid is scaled by the number of pixels, which takes away the factor of the inverse transform. Axes
  have an empty grid if an array can have their lengths (`ofAxes_eq_ok`).
-/
import Mathlib
import ApertureSynthesis.Proofs.Outcome
import ApertureSynthesis.Proofs.Fourier.Centred
import ApertureSynthesis.Proofs.Grid.Deposit
import ApertureSynthesis.Grid.Image

namespace ApertureSynthesis

open ApertureSynthesis.Fourier

/-! ## Grids of axes -/

/-- An axis has the length that was asked for, if an array can have it. -/
theorem axisLength_eq_ok {α : Type} {n : ℤ} {k : ℕ} :
    axisLength (α := α) n = .ok k ↔ (0 ≤ n ∧ n < 2 ^ 63) ∧ k = n.toNat := by
  unfold axisLength
  split
  · simp only [reduceCtorEq, false_iff]
    omega
  · rw [Except.ok.injEq]
    omega

namespace Grid

/-- There is an empty grid for axes whose cells have a size and whose lengths an array can have. -/
theorem ofAxes_eq_ok {α : Type} [Scalar α] {a : Axes α} {own : Grid α} :
    Grid.ofAxes a = .ok own ↔ (∀ n ∈ [a.npol, a.ny, a.nx], 0 ≤ n ∧ n < 2 ^ 63) ∧
      ∃ cell, a.cellSize = .ok cell ∧
        own = empty a.nchan a.npol.toNat a.ny.toNat a.nx.toNat cell (some a.frequency) := by
  unfold Grid.ofAxes
  simp only [bind_eq_ok, axisLength_eq_ok, List.forall_mem_cons, List.not_mem_nil,
    false_imp_iff, forall_const]
  constructor
  · rintro ⟨npol, ⟨hnpol, rfl⟩, ny, ⟨hny, rfl⟩, nx, ⟨hnx, rfl⟩, cell, hcell, hown⟩
    exact ⟨⟨hnpol, hny, hnx, trivial⟩, cell, hcell, (Except.ok.inj hown).symm⟩
  · rintro ⟨⟨hnpol, hny, hnx, -⟩, cell, hcell, rfl⟩
    exact ⟨_, ⟨hnpol, rfl⟩, _, ⟨hny, rfl⟩, _, ⟨hnx, rfl⟩, cell, hcell, rfl⟩

/-! ## Grids of images -/

/-- Cells with four axes make a grid of these axes. -/
theorem exists_ofCells {cells : Tensor (Cplx ℝ)} {nchan npol ny nx : ℕ}
    (hshape : cells.shape = [nchan, npol, ny, nx]) (cellSize : CellSize ℝ)
    (frequency : Option (List ℝ)) :
    ∃ g : Grid ℝ, ofCells cells cellSize frequency = .ok g ∧ g.cells = cells ∧ g.nchan = nchan ∧
      g.npol = npol ∧ g.ny = ny ∧ g.nx = nx ∧ g.cellSize = cellSize ∧ g.frequency = frequency := by
  unfold ofCells
  split
  · rename_i a b c d hcells
    obtain ⟨rfl, rfl, rfl, rfl⟩ : a = nchan ∧ b = npol ∧ c = ny ∧ d = nx := by
      simpa using hcells.symm.trans hshape
    exact ⟨_, rfl, rfl, rfl, rfl, rfl, rfl, rfl, rfl⟩
  · rename_i hcells
    exact absurd hshape (hcells nchan npol ny nx)

/-- The grid of an image of its shape is the centred transform of the pixels. -/
theorem exists_ofImage (g : Grid ℝ) (hny : 0 < g.ny) (hnx : 0 < g.nx) {pixels : Pixels ℝ}
    (hshape : pixels.shape = g.shape) :
    ∃ m, g.ofImage pixels = .ok m ∧ Alike g m ∧
      ∀ ch p k q, ch < g.nchan → p < g.npol → k < g.ny → q < g.nx →
        (m.get ch p k q).val = ∑ j ∈ Finset.range g.ny, ∑ i ∈ Finset.range g.nx,
          (pixels.toComplex.get [ch, p, j, i]).val *
            (wave .forward g.ny k j * wave .forward g.nx q i) := by
  have hcomplex : pixels.toComplex.shape = [g.nchan, g.npol, g.ny, g.nx] := by
    rw [← Grid.shape, ← hshape]
    cases pixels <;> rfl
  obtain ⟨cells, hcells, hcellshape, hget⟩ := tensor_ok .forward hcomplex hny hnx
  obtain ⟨m, hm, hmcells, hnchan, hnpol, hmny, hmnx, hcell, hfreq⟩ :=
    exists_ofCells hcellshape g.cellSize g.frequency
  refine ⟨m, ?_, ⟨hnchan, hnpol, hmny, hmnx, hcell, hfreq⟩, fun ch p k q hch hp hk hq => ?_⟩
  · unfold ofImage
    rw [if_neg (not_not.2 hshape), hcells]
    exact hm
  · rw [Grid.get, hmcells, hget ch p k q hch hp hk hq, Direction.factor, one_mul]

/-! ## Images of grids -/

/-- A grid with cells has an image of its shape, in any arithmetic. -/
theorem exists_image {α : Type} [Scalar α] (g : Grid α) (hny : 0 < g.ny) (hnx : 0 < g.nx) :
    ∃ t, g.toImage = .ok t ∧ t.shape = [g.nchan, g.npol, g.ny, g.nx] := by
  have hraster : g.cells.shape = [g.nchan, g.npol] ++ [g.ny, g.nx] := g.shape_cells
  have htensor := tensor_eq_slices .inverse hraster hny hnx
  unfold toImage
  rw [htensor]
  exact ⟨_, rfl, rfl⟩

/-- The image of a grid is the centred sum over its cells. -/
theorem exists_toImage (g : Grid ℝ) (hny : 0 < g.ny) (hnx : 0 < g.nx) :
    ∃ t, g.toImage = .ok t ∧ t.shape = [g.nchan, g.npol, g.ny, g.nx] ∧
      ∀ ch p j i, ch < g.nchan → p < g.npol → j < g.ny → i < g.nx →
        (t.get [ch, p, j, i]).val = ∑ k ∈ Finset.range g.ny, ∑ q ∈ Finset.range g.nx,
          (g.get ch p k q).val * (wave .inverse g.ny j k * wave .inverse g.nx i q) := by
  obtain ⟨t, ht, htshape, hget⟩ := tensor_ok .inverse g.shape_cells hny hnx
  refine ⟨t.map fun z => Cplx.scale (g.ny : ℝ) (Cplx.scale (g.nx : ℝ) z), ?_, htshape,
    fun ch p j i hch hp hj hi => ?_⟩
  · unfold toImage
    rw [ht]
  · have hwithin : Tensor.Within t.shape [ch, p, j, i] := by
      rw [htshape]
      exact ⟨hch, hp, hj, hi, trivial⟩
    have hne : ((g.ny * g.nx : ℕ) : ℂ) ≠ 0 := Nat.cast_ne_zero.2 (by positivity)
    have hscale : ((g.ny : ℝ) : ℂ) * (((g.nx : ℝ) : ℂ) * ((g.ny * g.nx : ℕ) : ℂ)⁻¹) = 1 := by
      rw [← mul_assoc, Complex.ofReal_natCast, Complex.ofReal_natCast, ← Nat.cast_mul,
        mul_inv_cancel₀ hne]
    rw [Tensor.get_map _ hwithin, Cplx.val_scale, Cplx.val_scale, hget ch p j i hch hp hj hi,
      Direction.factor, ← mul_assoc, ← mul_assoc, mul_assoc ((g.ny : ℝ) : ℂ)]
    rw [hscale, one_mul]
    rfl

end Grid

end ApertureSynthesis
