/-
  The centred transform of a raster that is symmetric about its centre.

  On a periodic axis of even length the pixel on the other side of the centre is `mirror n j`; the
  first pixel, half the length away, is its own mirror image. Mirroring the pixel makes a wave the
  opposite wave (`wave_mirror`). So the transform of a raster that agrees with its mirror image
  agrees with it as well (`isEven_raster`), and taking conjugates before the transform is taking
  them after it (`raster_map_conj`).
-/
import Mathlib
import ApertureSynthesis.Proofs.Fourier.Inversion

namespace ApertureSynthesis

open ComplexConjugate

theorem Raster.get_map_conj (r : Raster (Cplx ℝ)) (j i : ℕ) :
    (r.map Cplx.conj).get j i = Cplx.conj (r.get j i) := by
  by_cases hin : j < r.ny ∧ i < r.nx
  · exact r.get_map _ hin.1 hin.2
  · have hzero : Cplx.conj (0 : Cplx ℝ) = 0 := Cplx.val_injective (by simp)
    rw [r.get_eq_zero hin, hzero]
    exact Raster.get_eq_zero _ hin

namespace Fourier

/-! ## The other side of the centre -/

/-- The pixel on the other side of the centre of a periodic axis of even length. -/
def mirror (n j : ℕ) : ℕ := (n - j) % n

variable {n : ℕ}

theorem mirror_lt (hn : 0 < n) (j : ℕ) : mirror n j < n := Nat.mod_lt _ hn

theorem mirror_zero : mirror n 0 = 0 := Nat.mod_self n

theorem mirror_of_pos {j : ℕ} (hj : 0 < j) (hjn : j < n) : mirror n j = n - j :=
  Nat.mod_eq_of_lt (by omega)

theorem mirror_mirror {j : ℕ} (hj : j < n) : mirror n (mirror n j) = j := by
  rcases Nat.eq_zero_or_pos j with rfl | hpos
  · rw [mirror_zero, mirror_zero]
  · rw [mirror_of_pos hpos hj, mirror_of_pos (by omega) (by omega)]
    omega

/-- A sum over an axis, from the other side. -/
theorem sum_mirror {M : Type} [AddCommMonoid M] (n : ℕ) (f : ℕ → M) :
    ∑ j ∈ Finset.range n, f (mirror n j) = ∑ j ∈ Finset.range n, f j := by
  have hrange : ∀ j ∈ Finset.range n, mirror n j ∈ Finset.range n := by
    intro j hj
    exact Finset.mem_range.2 (mirror_lt (by have := Finset.mem_range.1 hj; omega) j)
  refine Finset.sum_nbij' (mirror n) (mirror n) hrange hrange ?_ ?_ fun _ _ => rfl
  · intro j hj
    exact mirror_mirror (Finset.mem_range.1 hj)
  · intro j hj
    exact mirror_mirror (Finset.mem_range.1 hj)

theorem mirror_modEq (heven : 2 ∣ n) {j : ℕ} (hj : j < n) :
    ((mirror n j : ℕ) : ℤ) - (n / 2 : ℕ) ≡ -((j : ℤ) - (n / 2 : ℕ)) [ZMOD n] := by
  have hhalf : ((n / 2 : ℕ) : ℤ) + (n / 2 : ℕ) = n := by omega
  rcases Nat.eq_zero_or_pos j with rfl | hpos
  · -- the first pixel stands half a length away on both sides
    rw [mirror_zero, Int.modEq_iff_dvd]
    exact ⟨1, by omega⟩
  · rw [mirror_of_pos hpos hj, Nat.cast_sub hj.le]
    exact (by linarith : (n : ℤ) - j - (n / 2 : ℕ) = -((j : ℤ) - (n / 2 : ℕ))) ▸ Int.ModEq.refl _

/-- What depends on the distance from the centre only is the same on both sides. -/
theorem apply_mirror {β : Type} {f : ℤ → β} (hf : ∀ d, f (-d) = f d) (heven : 2 ∣ n) {j : ℕ}
    (hj : j < n) :
    f ((mirror n j : ℕ) - (n / 2 : ℕ)) = f (j - (n / 2 : ℕ)) := by
  rcases Nat.eq_zero_or_pos j with rfl | hpos
  · rw [mirror_zero]
  · have hother : ((mirror n j : ℕ) : ℤ) - (n / 2 : ℕ) = -((j : ℤ) - (n / 2 : ℕ)) := by
      rw [mirror_of_pos hpos hj]
      omega
    rw [hother, hf]

/-! ## Waves -/

/-- A wave at the mirror image of a pixel is the opposite wave. -/
theorem wave_mirror (d : Direction) (heven : 2 ∣ n) (k : ℕ) {j : ℕ} (hj : j < n) :
    wave d n k (mirror n j) = wave d.opposite n k j := by
  have hn : 0 < n := by omega
  have hone : unitRoot d n ^ n = 1 := (isPrimitiveRoot_unitRoot d hn).pow_eq_one
  rw [← unitRoot_zpow, ← unitRoot_zpow, unitRoot_opposite, inv_zpow', ← mul_neg]
  exact zpow_congr hn hone ((Int.ModEq.refl _).mul (mirror_modEq heven hj))

theorem conj_wave (d : Direction) (k j : ℕ) : conj (wave d n k j) = wave d.opposite n k j := by
  cases d with
  | forward => exact conj_wave_forward n k j
  | inverse => rw [← conj_wave_forward, Complex.conj_conj]; rfl

theorem conj_factor (d : Direction) (n : ℕ) : conj (d.factor n) = d.factor n := by
  cases d with
  | forward => exact map_one _
  | inverse => rw [Direction.factor, map_inv₀, Complex.conj_natCast]

/-! ## Even rasters -/

/-- A raster has sides of even length and agrees with its mirror image. -/
structure IsEven (a : Raster (Cplx ℝ)) : Prop where
  /-- Both sides are even. -/
  sides : 2 ∣ a.ny ∧ 2 ∣ a.nx
  /-- Each pixel is that on the other side of the centre. -/
  get_mirror : ∀ j i, j < a.ny → i < a.nx → a.get (mirror a.ny j) (mirror a.nx i) = a.get j i

theorem IsEven.map_conj {a : Raster (Cplx ℝ)} (h : IsEven a) : IsEven (a.map Cplx.conj) where
  sides := h.sides
  get_mirror j i hj hi := by
    have hmirror := h.get_mirror j i hj hi
    rw [Raster.get_map_conj, Raster.get_map_conj]
    exact congrArg Cplx.conj hmirror

/-- An even raster has the same sums with opposite waves. -/
theorem IsEven.sum_opposite {a : Raster (Cplx ℝ)} (h : IsEven a) (d : Direction) (k q : ℕ) :
    ∑ j ∈ Finset.range a.ny, ∑ i ∈ Finset.range a.nx,
        (a.get j i).val * (wave d.opposite a.ny k j * wave d.opposite a.nx q i) =
      ∑ j ∈ Finset.range a.ny, ∑ i ∈ Finset.range a.nx,
        (a.get j i).val * (wave d a.ny k j * wave d a.nx q i) := by
  rw [← sum_mirror a.ny]
  refine Finset.sum_congr rfl fun j hj => ?_
  rw [← sum_mirror a.nx]
  refine Finset.sum_congr rfl fun i hi => ?_
  have hj := Finset.mem_range.1 hj
  have hi := Finset.mem_range.1 hi
  have hback : d.opposite.opposite = d := by cases d <;> rfl
  rw [h.get_mirror j i hj hi, wave_mirror _ h.sides.1 k hj, wave_mirror _ h.sides.2 q hi, hback]

/-- The transform of an even raster is even. -/
theorem isEven_raster {a : Raster (Cplx ℝ)} (h : IsEven a) (d : Direction) :
    IsEven (raster d a) where
  sides := h.sides
  get_mirror k q hk hq := by
    have hk : k < a.ny := hk
    have hq : q < a.nx := hq
    have hmirror : ∀ {n k : ℕ}, 2 ∣ n → k < n →
        ∀ j, wave d n (mirror n k) j = wave d.opposite n k j := by
      intro n k heven hk j
      rw [wave_comm, wave_mirror d heven j hk, wave_comm]
    apply Cplx.val_injective
    show ((raster d a).get (mirror a.ny k) (mirror a.nx q)).val = ((raster d a).get k q).val
    rw [val_raster d a (mirror_lt (by omega) k) (mirror_lt (by omega) q), val_raster d a hk hq]
    simp only [hmirror h.sides.1 hk, hmirror h.sides.2 hq]
    rw [h.sum_opposite]

/-- The transform of the conjugates of an even raster is that of the raster, conjugated. -/
theorem raster_map_conj {a : Raster (Cplx ℝ)} (h : IsEven a) (d : Direction) :
    raster d (a.map Cplx.conj) = (raster d a).map Cplx.conj := by
  refine Raster.ext_get rfl rfl fun k q hk hq => Cplx.val_injective ?_
  have hk : k < a.ny := hk
  have hq : q < a.nx := hq
  have hsum := h.map_conj.sum_opposite d k q
  simp only [Raster.get_map_conj, Cplx.val_conj] at hsum
  rw [Raster.get_map_conj, Cplx.val_conj, val_raster d a hk hq,
    val_raster d (a.map Cplx.conj) hk hq, map_mul, conj_factor]
  simp only [Raster.get_map_conj, Cplx.val_conj, map_sum, map_mul, conj_wave]
  exact congrArg _ hsum.symm

end Fourier

end ApertureSynthesis
