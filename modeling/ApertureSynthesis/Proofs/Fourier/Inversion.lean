/-
  The centred transforms of the two directions invert each other.

  Waves of opposite directions are reciprocal, so along an axis the product of a wave of one
  component and the opposite wave of another is a power of a root of unity, which is one only if the
  components are the same. Its powers add up to zero otherwise (`sum_wave_mul_wave`). The factor of
  the inverse direction takes away the number of pixels, for any lengths of the axes
  (`raster_raster`), and raster by raster for tensors of any rank (`tensor_tensor`).
-/
import Mathlib
import ApertureSynthesis.Proofs.Fourier.Centred

namespace ApertureSynthesis

/-- Rasters of the same lengths with the same pixels. -/
theorem Raster.ext_get {β : Type} [Zero β] {a b : Raster β} (hny : a.ny = b.ny) (hnx : a.nx = b.nx)
    (h : ∀ j i, j < a.ny → i < a.nx → a.get j i = b.get j i) : a = b := by
  obtain ⟨ny, nx, xs, hxs⟩ := a
  obtain ⟨ny', nx', ys, hys⟩ := b
  dsimp only at hny hnx h
  subst hny hnx
  have hdata : xs = ys := by
    refine Array.ext (hxs.trans hys.symm) fun k hk hk' => ?_
    have hnx : 0 < nx := Nat.pos_of_ne_zero fun hzero => by
      rw [hxs, hzero, Nat.mul_zero] at hk
      exact Nat.not_lt_zero k hk
    have hj : k / nx < ny := Nat.div_lt_of_lt_mul (by rwa [Nat.mul_comm, ← hxs])
    have hi : k % nx < nx := Nat.mod_lt k hnx
    have hplace : k / nx * nx + k % nx = k := Nat.div_add_mod' k nx
    simpa [Raster.get, hj, hi, hplace] using h _ _ hj hi
  subst hdata
  rfl

namespace Fourier

/-- The other direction. -/
def Direction.opposite : Direction → Direction
  | forward => inverse
  | inverse => forward

theorem unitRoot_opposite (d : Direction) (n : ℕ) : unitRoot d.opposite n = (unitRoot d n)⁻¹ := by
  rw [unitRoot, unitRoot, ← Complex.exp_neg]
  congr 1
  cases d <;> simp only [Direction.opposite, Direction.sign] <;> push_cast <;> ring

theorem isPrimitiveRoot_unitRoot (d : Direction) {n : ℕ} (hn : 0 < n) :
    IsPrimitiveRoot (unitRoot d n) n := by
  have hinverse : unitRoot .inverse n = Complex.exp (2 * Real.pi * Complex.I / n) := by
    rw [unitRoot]
    congr 1
    simp only [Direction.sign]
    push_cast
    ring
  have hroot : IsPrimitiveRoot (unitRoot .inverse n) n :=
    hinverse ▸ Complex.isPrimitiveRoot_exp n hn.ne'
  cases d with
  | inverse => exact hroot
  | forward =>
    rw [show Direction.forward = Direction.inverse.opposite from rfl, unitRoot_opposite]
    exact hroot.inv

/-- A wave times an opposite wave is a power of a root of unity, which tells how far the components
    are apart. -/
theorem wave_mul_wave (d : Direction) {n : ℕ} (hn : 0 < n) (k l j : ℕ) :
    wave d n k j * wave d.opposite n j l =
      (unitRoot d n ^ ((k : ℤ) - l)) ^ (-((n / 2 : ℕ) : ℤ)) *
        (unitRoot d n ^ ((k : ℤ) - l)) ^ j := by
  have hne : unitRoot d n ≠ 0 := (isPrimitiveRoot_unitRoot d hn).ne_zero hn.ne'
  rw [← unitRoot_zpow, ← unitRoot_zpow, unitRoot_opposite, inv_zpow', ← zpow_natCast, ← zpow_mul,
    ← zpow_mul, ← zpow_add₀ hne, ← zpow_add₀ hne]
  congr 1
  ring

/-- Over an axis, products of waves of one component and opposite waves of another add up to zero,
    and to the number of pixels if the components are the same. -/
theorem sum_wave_mul_wave (d : Direction) {n k l : ℕ} (hk : k < n) (hl : l < n) :
    ∑ j ∈ Finset.range n, wave d n k j * wave d.opposite n j l = if k = l then (n : ℂ) else 0 := by
  have hn : 0 < n := by omega
  have hroot := isPrimitiveRoot_unitRoot d hn
  simp only [wave_mul_wave d hn, ← Finset.mul_sum]
  split
  · rename_i heq
    rw [heq, sub_self, zpow_zero, one_zpow, one_mul]
    simp
  · rename_i hne
    -- the root of unity is not one, and its powers come back to one after the axis
    have hpower : unitRoot d n ^ ((k : ℤ) - l) ≠ 1 := by
      rw [Ne, hroot.zpow_eq_one_iff_dvd]
      intro hdvd
      have hzero := Int.eq_zero_of_abs_lt_dvd hdvd (by rw [abs_lt]; omega)
      omega
    have hone : (unitRoot d n ^ ((k : ℤ) - l)) ^ n = 1 := by
      rw [← zpow_natCast, zpow_comm, zpow_natCast, hroot.pow_eq_one, one_zpow]
    have hsum : (unitRoot d n ^ ((k : ℤ) - l) - 1) *
        ∑ j ∈ Finset.range n, (unitRoot d n ^ ((k : ℤ) - l)) ^ j = 0 := by
      rw [mul_geom_sum, hone, sub_self]
    rw [(mul_eq_zero.1 hsum).resolve_left (sub_ne_zero.2 hpower), mul_zero]

/-- Along an axis, transforming there and back gives the number of pixels times what there was. -/
theorem sum_sum_wave (d : Direction) {n k : ℕ} (hk : k < n) (x : ℕ → ℂ) :
    ∑ j ∈ Finset.range n, (∑ l ∈ Finset.range n, x l * wave d n j l) * wave d.opposite n k j =
      n * x k := by
  have hterm : ∀ l ∈ Finset.range n,
      ∑ j ∈ Finset.range n, x l * wave d n j l * wave d.opposite n k j =
        if k = l then n * x l else 0 := by
    intro l hl
    have hpoint : ∀ j, x l * wave d n j l * wave d.opposite n k j =
        x l * (wave d n l j * wave d.opposite n j k) := fun j => by
      rw [wave_comm d n j l, wave_comm d.opposite n k j, mul_assoc]
    simp only [hpoint]
    rw [← Finset.mul_sum, sum_wave_mul_wave d (Finset.mem_range.1 hl) hk]
    by_cases heq : l = k
    · rw [if_pos heq, if_pos heq.symm, mul_comm]
    · rw [if_neg heq, if_neg (Ne.symm heq), mul_zero]
  simp only [Finset.sum_mul]
  rw [Finset.sum_comm, Finset.sum_congr rfl hterm, Finset.sum_ite_eq,
    if_pos (Finset.mem_range.2 hk)]

theorem factor_mul_factor (d : Direction) {n : ℕ} (hn : 0 < n) :
    d.factor n * d.opposite.factor n * n = 1 := by
  have hne : (n : ℂ) ≠ 0 := Nat.cast_ne_zero.2 hn.ne'
  cases d with
  | forward =>
    rw [Direction.opposite, Direction.factor, Direction.factor, one_mul, inv_mul_cancel₀ hne]
  | inverse =>
    rw [Direction.opposite, Direction.factor, Direction.factor, mul_one, inv_mul_cancel₀ hne]

/-- The transform of a direction, transformed back, is the raster that there was. -/
theorem raster_raster (d : Direction) (a : Raster (Cplx ℝ)) :
    raster d.opposite (raster d a) = a := by
  refine Raster.ext_get rfl rfl fun k q hk hq => Cplx.val_injective ?_
  have hk : k < a.ny := hk
  have hq : q < a.nx := hq
  have hsize : 0 < a.ny * a.nx := Nat.mul_pos (by omega) (by omega)
  -- the inner transform, with the sum over the columns inside
  have hinner : ∀ j ∈ Finset.range a.ny, ∀ i ∈ Finset.range a.nx, ((raster d a).get j i).val =
      d.factor (a.ny * a.nx) * ∑ m ∈ Finset.range a.ny,
        (∑ l ∈ Finset.range a.nx, (a.get m l).val * wave d a.nx i l) * wave d a.ny j m := by
    intro j hj i hi
    rw [val_raster d a (Finset.mem_range.1 hj) (Finset.mem_range.1 hi)]
    congr 1
    refine Finset.sum_congr rfl fun m _ => ?_
    rw [Finset.sum_mul]
    exact Finset.sum_congr rfl fun l _ => by ring
  have houter := val_raster d.opposite (raster d a) hk hq
  have hny : (raster d a).ny = a.ny := rfl
  have hnx : (raster d a).nx = a.nx := rfl
  rw [hny, hnx] at houter
  calc ((raster d.opposite (raster d a)).get k q).val
      = d.opposite.factor (a.ny * a.nx) * ∑ j ∈ Finset.range a.ny, ∑ i ∈ Finset.range a.nx,
          d.factor (a.ny * a.nx) * (∑ m ∈ Finset.range a.ny,
            (∑ l ∈ Finset.range a.nx, (a.get m l).val * wave d a.nx i l) * wave d a.ny j m) *
              (wave d.opposite a.ny k j * wave d.opposite a.nx q i) := by
        rw [houter]
        refine congrArg _ (Finset.sum_congr rfl fun j hj => Finset.sum_congr rfl fun i hi => ?_)
        rw [hinner j hj i hi]
    _ = d.opposite.factor (a.ny * a.nx) * (d.factor (a.ny * a.nx) * ∑ i ∈ Finset.range a.nx,
          (∑ j ∈ Finset.range a.ny, (∑ m ∈ Finset.range a.ny,
            (∑ l ∈ Finset.range a.nx, (a.get m l).val * wave d a.nx i l) * wave d a.ny j m) *
              wave d.opposite a.ny k j) * wave d.opposite a.nx q i) := by
        rw [Finset.sum_comm]
        congr 1
        rw [Finset.mul_sum]
        refine Finset.sum_congr rfl fun i _ => ?_
        rw [Finset.sum_mul, Finset.mul_sum]
        exact Finset.sum_congr rfl fun j _ => by ring
    _ = d.opposite.factor (a.ny * a.nx) * (d.factor (a.ny * a.nx) *
          (a.ny * ∑ i ∈ Finset.range a.nx,
            (∑ l ∈ Finset.range a.nx, (a.get k l).val * wave d a.nx i l) *
              wave d.opposite a.nx q i)) := by
        congr 2
        rw [Finset.mul_sum]
        refine Finset.sum_congr rfl fun i _ => ?_
        rw [sum_sum_wave d hk fun m => ∑ l ∈ Finset.range a.nx, (a.get m l).val * wave d a.nx i l,
          mul_assoc]
    _ = d.factor (a.ny * a.nx) * d.opposite.factor (a.ny * a.nx) * (a.ny * a.nx : ℕ) *
          (a.get k q).val := by
        rw [sum_sum_wave d hq fun l => (a.get k l).val]
        push_cast
        ring
    _ = (a.get k q).val := by rw [factor_mul_factor d hsize, one_mul]

/-- The rasters of a tensor that was made of rasters. -/
theorem slice_ofSlices {lead front : List ℕ} {ny nx : ℕ} {f : ℕ → Raster (Cplx ℝ)}
    (hf : ∀ k, (f k).ny = ny ∧ (f k).nx = nx) (hfront : Tensor.Within lead front) :
    (Tensor.ofSlices lead ny nx f).slice ny nx (Tensor.offset lead front) =
      f (Tensor.offset lead front) := by
  obtain ⟨hny, hnx⟩ := hf (Tensor.offset lead front)
  refine Raster.ext_get hny.symm hnx.symm fun j i hj hi => ?_
  have hj : j < ny := hj
  have hi : i < nx := hi
  rw [Tensor.get_slice (Tensor.shape_ofSlices ..) hfront hj hi, Tensor.get_ofSlices hf hfront hj hi]

/-- The transform of a tensor in one direction and then in the other is the tensor that there
    was. -/
theorem tensor_tensor (d : Direction) {a b : Tensor (Cplx ℝ)} {lead : List ℕ} {ny nx : ℕ}
    (hshape : a.shape = lead ++ [ny, nx]) (hny : 0 < ny) (hnx : 0 < nx) (hb : tensor d a = .ok b) :
    tensor d.opposite b = .ok a := by
  rw [tensor_eq_slices d hshape hny hnx, Except.ok.injEq] at hb
  subst hb
  rw [tensor_eq_slices d.opposite (Tensor.shape_ofSlices ..) hny hnx]
  congr 1
  refine Tensor.ext_get hshape.symm fun index hindex => ?_
  rw [Tensor.shape_ofSlices] at hindex
  obtain ⟨front, k, q, rfl, hfront, hk, hq⟩ := Tensor.exists_of_within_raster hindex
  rw [Tensor.get_ofSlices (lengths_raster d.opposite _ ny nx) hfront hk hq,
    slice_ofSlices (lengths_raster d a ny nx) hfront, raster_raster,
    Tensor.get_slice hshape hfront hk hq]

end Fourier

end ApertureSynthesis
