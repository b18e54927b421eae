/-
  The centred transforms as sums of exponentials, and the way there and back.

  `centredSum` is the double sum over a raster with the zeros of both sides at pixel `n / 2` of each
  axis. Forward and inverse transforms are these sums with opposite signs, for every raster of an
  array of any rank from two on, and each undoes the other. An image that goes to a grid and comes
  back is scaled by the number of pixels of a raster (`exists_ofImage_toImage`).
-/
import Mathlib
import ApertureSynthesis.Proofs.Fourier.Inversion
import ApertureSynthesis.Proofs.Corrector
import ApertureSynthesis.Proofs.Grid.Image

namespace ApertureSynthesis

open ApertureSynthesis.Fourier
open Tensor (Within)

/-! ## Sums of exponentials -/

namespace Fourier

/-- The sum of the pixels of a raster, each turned by `s · 2 π` times the product of its distance
    from the centre and that of component `(k, q)`, in parts of the axes. -/
noncomputable def centredSum (s : ℝ) (ny nx : ℕ) (x : ℕ → ℕ → ℂ) (k q : ℕ) : ℂ :=
  ∑ j ∈ Finset.range ny, ∑ i ∈ Finset.range nx,
    x j i * Complex.exp (s * (2 : ℕ) * Real.pi * Complex.I *
      (((k : ℂ) - (ny / 2 : ℕ)) * ((j : ℂ) - (ny / 2 : ℕ)) / ny +
        ((q : ℂ) - (nx / 2 : ℕ)) * ((i : ℂ) - (nx / 2 : ℕ)) / nx))

theorem sum_wave_eq_centredSum (d : Direction) (ny nx : ℕ) (x : ℕ → ℕ → ℂ) (k q : ℕ) :
    ∑ j ∈ Finset.range ny, ∑ i ∈ Finset.range nx, x j i * (wave d ny k j * wave d nx q i) =
      centredSum d.sign ny nx x k q := by
  unfold centredSum
  refine Finset.sum_congr rfl fun j _ => Finset.sum_congr rfl fun i _ => ?_
  rw [wave_eq_exp, wave_eq_exp, ← Complex.exp_add]
  congr 2
  generalize ny / 2 = cy
  generalize nx / 2 = cx
  push_cast
  ring

/-- A single pixel at the centre has the same value in every component. -/
theorem centredSum_of_centre (s : ℝ) {ny nx : ℕ} (hny : 0 < ny) (hnx : 0 < nx) (x : ℕ → ℕ → ℂ)
    (hx : ∀ j i, j ≠ ny / 2 ∨ i ≠ nx / 2 → x j i = 0) (k q : ℕ) :
    centredSum s ny nx x k q = x (ny / 2) (nx / 2) := by
  have hj : ny / 2 ∈ Finset.range ny := Finset.mem_range.2 (Nat.div_lt_self hny one_lt_two)
  have hi : nx / 2 ∈ Finset.range nx := Finset.mem_range.2 (Nat.div_lt_self hnx one_lt_two)
  unfold centredSum
  rw [Finset.sum_eq_single_of_mem _ hj, Finset.sum_eq_single_of_mem _ hi]
  · rw [sub_self, sub_self, mul_zero, mul_zero, zero_div, zero_div, add_zero, mul_zero,
      Complex.exp_zero, mul_one]
  · intro i _ hne
    rw [hx _ i (.inr hne), zero_mul]
  · intro j _ hne
    refine Finset.sum_eq_zero fun i _ => ?_
    rw [hx j i (.inl hne), zero_mul]

end Fourier

/-! ## Images there and back -/

theorem Cplx.scale_scale (b c : ℝ) (z : Cplx ℝ) :
    Cplx.scale b (Cplx.scale c z) = Cplx.scale (b * c) z := by
  apply Cplx.val_injective
  rw [Cplx.val_scale, Cplx.val_scale, Cplx.val_scale, Complex.ofReal_mul, mul_assoc]

/-- The image of the grid of an image is the image, scaled by the number of pixels of a raster. -/
theorem Grid.exists_ofImage_toImage (g : Grid ℝ) (hny : 0 < g.ny) (hnx : 0 < g.nx)
    {pixels : Pixels ℝ} (hshape : pixels.shape = g.shape) :
    ∃ m t, g.ofImage pixels = .ok m ∧ m.toImage = .ok t ∧
      t = pixels.toComplex.map (Cplx.scale ((g.ny : ℝ) * g.nx)) := by
  have hcomplex : pixels.toComplex.shape = [g.nchan, g.npol] ++ [g.ny, g.nx] := by
    rw [← show g.shape = [g.nchan, g.npol] ++ [g.ny, g.nx] from rfl, ← hshape]
    cases pixels <;> rfl
  obtain ⟨cells, hcells, hcellshape, -⟩ := exists_tensor .forward hcomplex hny hnx
  have hback := tensor_tensor .forward hcomplex hny hnx hcells
  obtain ⟨m, hm, hmcells, -, -, hmny, hmnx, -⟩ := exists_ofCells hcellshape g.cellSize g.frequency
  refine ⟨m, _, ?_, ?_, rfl⟩
  · unfold ofImage
    rw [if_neg (not_not.2 hshape), hcells]
    exact hm
  · unfold toImage
    rw [hmcells, show Direction.inverse = Direction.forward.opposite from rfl, hback, hmny, hmnx]
    simp only [Cplx.scale_scale]

/-! ## The main statement -/

/-- The transforms of an array of rank two or more are the centred sums of its rasters, of opposite
    signs and with the number of pixels divided out in the inverse one, and each undoes the other.
    Images of this size that go to a grid and come back are scaled by the number of pixels. -/
theorem transforms_are_centred_sums {a : Tensor (Cplx ℝ)} {lead : List ℕ} {ny nx : ℕ}
    (hshape : a.shape = lead ++ [ny, nx]) (hny : 0 < ny) (hnx : 0 < nx) :
    (∃ f g, tensor .forward a = .ok f ∧ tensor .inverse a = .ok g ∧
      f.shape = a.shape ∧ g.shape = a.shape ∧
      (∀ front k q, Within lead front → k < ny → q < nx → (f.get (front ++ [k, q])).val =
        centredSum (-1) ny nx (fun j i => (a.get (front ++ [j, i])).val) k q) ∧
      (∀ front j i, Within lead front → j < ny → i < nx → (g.get (front ++ [j, i])).val =
        1 / (ny * nx) * centredSum 1 ny nx (fun k q => (a.get (front ++ [k, q])).val) j i) ∧
      tensor .inverse f = .ok a ∧ tensor .forward g = .ok a) ∧
    ∀ (grid : Grid ℝ) (pixels : Pixels ℝ), pixels.shape = grid.shape → grid.ny = ny → grid.nx = nx →
      ∃ m t, grid.ofImage pixels = .ok m ∧ m.toImage = .ok t ∧
        t = pixels.toComplex.map (Cplx.scale ((ny : ℝ) * nx)) := by
  obtain ⟨f, hf, hfshape, hfget⟩ := exists_tensor .forward hshape hny hnx
  obtain ⟨g, hg, hgshape, hgget⟩ := exists_tensor .inverse hshape hny hnx
  refine ⟨⟨f, g, hf, hg, hfshape.trans hshape.symm, hgshape.trans hshape.symm, ?_, ?_,
    tensor_tensor .forward hshape hny hnx hf, tensor_tensor .inverse hshape hny hnx hg⟩, ?_⟩
  · intro front k q hfront hk hq
    rw [hfget front k q hfront hk hq, Direction.factor, one_mul]
    exact sum_wave_eq_centredSum .forward ny nx (fun j i => (a.get (front ++ [j, i])).val) k q
  · intro front j i hfront hj hi
    rw [hgget front j i hfront hj hi, Direction.factor, Nat.cast_mul, one_div]
    congr 1
    exact sum_wave_eq_centredSum .inverse ny nx (fun k q => (a.get (front ++ [k, q])).val) j i
  · intro grid pixels hpixels hgridny hgridnx
    subst hgridny hgridnx
    exact grid.exists_ofImage_toImage hny hnx hpixels

/-- Two rasters of three rows and two columns, with a one at the centre of the second. -/
noncomputable def centreImpulse : Tensor (Cplx ℝ) :=
  (Tensor.fill [2, 3, 2] 0).modify [1, 1, 1] fun _ => 1

theorem get_centreImpulse (front j i : ℕ) :
    centreImpulse.get [front, j, i] = if [front, j, i] = [1, 1, 1] then 1 else 0 := by
  have hcentre : Within (Tensor.fill [2, 3, 2] (0 : Cplx ℝ)).shape [1, 1, 1] := by decide
  rw [centreImpulse, Tensor.get_modify _ hcentre, Tensor.get_fill_zero]

/-- The impulse becomes one everywhere in its raster and leaves the other raster zero, and comes
    back. An image of three rows and two columns comes back from its grid six times as bright. -/
theorem transforms_of_centreImpulse :
    (∃ f, tensor .forward centreImpulse = .ok f ∧ tensor .inverse f = .ok centreImpulse ∧
      (f.get [1, 2, 0]).val = 1 ∧ (f.get [0, 2, 0]).val = 0) ∧
    ∃ m t, (Grid.empty 1 1 3 2 (.single 1) none : Grid ℝ).ofImage
      (.real (Tensor.fill [1, 1, 3, 2] 1)) = .ok m ∧
      m.toImage = .ok t ∧ (t.get [0, 0, 2, 1]).val = 6 := by
  have hshape : centreImpulse.shape = [2] ++ [3, 2] := rfl
  obtain ⟨⟨f, g, hf, -, -, -, hget, -, hback, -⟩, hgrid⟩ :=
    transforms_are_centred_sums hshape (by decide) (by decide)
  obtain ⟨m, t, hm, ht, hpixels⟩ := hgrid (Grid.empty 1 1 3 2 (.single 1) none)
    (.real (Tensor.fill [1, 1, 3, 2] 1)) rfl rfl rfl
  have hraster : ∀ front < 2, (f.get [front, 2, 0]).val =
      (centreImpulse.get [front, 1, 1]).val := by
    intro front hfront
    rw [show [front, 2, 0] = [front] ++ [2, 0] from rfl,
      hget [front] 2 0 ⟨hfront, trivial⟩ (by decide) (by decide)]
    refine centredSum_of_centre _ (by decide) (by decide)
      (fun j i => (centreImpulse.get ([front] ++ [j, i])).val) (fun j i hoff => ?_) 2 0
    have hne : [front, j, i] ≠ [1, 1, 1] := by
      intro heq
      simp only [List.cons.injEq, and_true] at heq
      omega
    show (centreImpulse.get [front, j, i]).val = 0
    rw [get_centreImpulse, if_neg hne, Cplx.val_zero]
  refine ⟨⟨f, hf, hback, ?_, ?_⟩, m, t, hm, ht, ?_⟩
  · rw [hraster 1 (by decide), get_centreImpulse, if_pos rfl, Cplx.val_one]
  · rw [hraster 0 (by decide), get_centreImpulse, if_neg (by decide), Cplx.val_zero]
  · have hindex : Within [1, 1, 3, 2] [0, 0, 2, 1] := by decide
    have hreal : Within (Tensor.fill [1, 1, 3, 2] (1 : ℝ)).shape [0, 0, 2, 1] := hindex
    have hcomplex :
        Within (Pixels.real (Tensor.fill [1, 1, 3, 2] (1 : ℝ))).toComplex.shape [0, 0, 2, 1] :=
      hindex
    rw [hpixels, Tensor.get_map _ hcomplex, Cplx.val_scale, Pixels.val_toComplex_real hreal,
      Tensor.get_fill 1 hindex]
    norm_num

end ApertureSynthesis
