/-
  The centred transform of rasters and tensors is the centred double sum.

  Pixels are moved so that the zero comes first, transformed, and moved back. Both moves are
  rotations of the axis, for lengths of either parity, and in the exponent they take away `n / 2`
  from both coordinates modulo `n` (`val_line`). `wave` is the root of unity between two pixels; the
  waves of the two directions are conjugate, which is what makes one transform the adjoint of the
  other.
-/
import Mathlib
import ApertureSynthesis.Proofs.Fourier.Turning

namespace ApertureSynthesis.Fourier

open ComplexConjugate

/-! ## Waves -/

/-- The root of unity of order `n` with which the centred transform weights pixel `j` in
    component `k`. -/
def centredRoot {α : Type} [Scalar α] (d : Direction) (n k j : Nat) : Cplx α :=
  Cplx.cis ((d.sign : α) * (2 : Nat) * Scalar.pi *
    (((((k : Int) - (n / 2 : Nat)) * ((j : Int) - (n / 2 : Nat)) : Int) : α) / (n : α)))

/-- The root of unity between pixels `k` and `j` of a centred axis. -/
noncomputable def wave (d : Direction) (n k j : ℕ) : ℂ := (centredRoot d n k j).val

/-- The factor of a direction: inverse transforms are divided by the number of pixels. -/
noncomputable def Direction.factor (d : Direction) (n : ℕ) : ℂ :=
  match d with
  | .forward => 1
  | .inverse => (n : ℂ)⁻¹

theorem val_scaled (d : Direction) (n : ℕ) (z : Cplx ℝ) :
    (d.scaled n z).val = d.factor n * z.val := by
  cases d with
  | forward => rw [Direction.factor, one_mul]; rfl
  | inverse =>
    have hcast : (((n : ℕ) : ℝ) : ℂ) = (n : ℂ) := Complex.ofReal_natCast n
    rw [Direction.factor, ← hcast, ← div_eq_inv_mul]
    exact Cplx.val_divReal z n

theorem wave_eq_exp (d : Direction) (n k j : ℕ) :
    wave d n k j = Complex.exp (((d.sign : ℝ) * 2 * Real.pi *
      ((((k : ℤ) - (n / 2 : ℕ)) * ((j : ℤ) - (n / 2 : ℕ)) : ℤ) / n) : ℝ) * Complex.I) := by
  rw [wave, centredRoot, Cplx.val_cis]
  rfl

theorem wave_comm (d : Direction) (n k j : ℕ) : wave d n k j = wave d n j k := by
  rw [wave_eq_exp, wave_eq_exp, mul_comm ((k : ℤ) - (n / 2 : ℕ))]

theorem conj_wave_forward (n k j : ℕ) : conj (wave .forward n k j) = wave .inverse n k j := by
  rw [wave_eq_exp, wave_eq_exp, ← Complex.exp_conj, map_mul, Complex.conj_I, Complex.conj_ofReal]
  congr 1
  simp only [Direction.sign]
  push_cast
  ring

/-! ## The transform of an axis -/

/-- The root of unity of order `n` of a direction. -/
noncomputable def unitRoot (d : Direction) (n : ℕ) : ℂ :=
  Complex.exp (((d.sign : ℝ) * (2 : ℕ) * Real.pi / n : ℝ) * Complex.I)

theorem unitRoot_pow (d : Direction) (n k : ℕ) :
    unitRoot d n ^ k = Complex.exp (((d.sign : ℝ) * 2 * Real.pi * k / n : ℝ) * Complex.I) := by
  rw [unitRoot, ← Complex.exp_nat_mul]
  congr 1
  push_cast
  ring

theorem unitRoot_zpow (d : Direction) (n k j : ℕ) :
    unitRoot d n ^ (((k : ℤ) - (n / 2 : ℕ)) * ((j : ℤ) - (n / 2 : ℕ))) = wave d n k j := by
  rw [unitRoot, ← Complex.exp_int_mul, wave_eq_exp]
  congr 1
  push_cast
  ring

theorem powers_roots (d : Direction) {n : ℕ} (hn : 0 < n) :
    Powers (unitRoot d n) (roots (d.sign : ℝ) n) where
  pos := by rwa [roots, Array.size_ofFn]
  one := by
    have hne : (n : ℝ) ≠ 0 := by positivity
    rw [roots, Array.size_ofFn, unitRoot_pow, mul_div_cancel_right₀ _ hne]
    cases d with
    | forward =>
      rw [Direction.sign, Complex.exp_eq_one_iff]
      refine ⟨-1, ?_⟩
      push_cast
      ring
    | inverse =>
      rw [Direction.sign, Complex.exp_eq_one_iff]
      refine ⟨1, ?_⟩
      push_cast
      ring
  get k hk := by
    rw [roots, Array.size_ofFn] at hk
    rw [roots, getD_ofFn _ hk, Cplx.val_cis, unitRoot_pow]
    norm_cast

/-- Exponents of a root of unity count modulo its order. -/
theorem zpow_congr {ζ : ℂ} {n : ℕ} (hn : 0 < n) (hζ : ζ ^ n = 1) {a b : ℤ} (h : a ≡ b [ZMOD n]) :
    ζ ^ a = ζ ^ b := by
  have hne : ζ ≠ 0 := by
    rintro rfl
    rw [zero_pow hn.ne'] at hζ
    exact zero_ne_one hζ
  obtain ⟨c, hc⟩ := h.dvd
  have hb : b = a + n * c := by omega
  rw [hb, zpow_add₀ hne, zpow_mul, zpow_natCast, hζ, one_zpow, mul_one]

theorem fromCentre_modEq {n k : ℕ} :
    ((fromCentre n k : ℕ) : ℤ) ≡ (k : ℤ) - (n / 2 : ℕ) [ZMOD n] := by
  have hsplit : ((k + (n - n / 2) : ℕ) : ℤ) = (k : ℤ) - (n / 2 : ℕ) + n := by
    have := Nat.div_le_self n 2
    omega
  unfold fromCentre
  rw [Int.natCast_mod, hsplit, Int.ModEq, Int.emod_emod, Int.add_emod_right]

/-- A sum over an axis, rotated by half its length. -/
theorem sum_rotate {M : Type} [AddCommMonoid M] (n : ℕ) (f : ℕ → M) :
    ∑ j ∈ Finset.range n, f ((j + n / 2) % n) = ∑ j ∈ Finset.range n, f j := by
  have hhalf : n / 2 + (n - n / 2) = n := by
    have := Nat.div_le_self n 2
    omega
  have hback : n - n / 2 + n / 2 = n := by omega
  have hmod : ∀ k, ∀ j ∈ Finset.range n, (j + k) % n ∈ Finset.range n := fun k j hj =>
    Finset.mem_range.2 (Nat.mod_lt _ (by have := Finset.mem_range.1 hj; omega))
  refine Finset.sum_nbij' (fun j => (j + n / 2) % n) (fun j => (j + (n - n / 2)) % n)
    (hmod _) (hmod _) ?_ ?_ fun _ _ => rfl
  · intro j hj
    rw [Nat.mod_add_mod, Nat.add_assoc, hhalf, Nat.add_mod_right,
      Nat.mod_eq_of_lt (Finset.mem_range.1 hj)]
  · intro j hj
    rw [Nat.mod_add_mod, Nat.add_assoc, hback, Nat.add_mod_right,
      Nat.mod_eq_of_lt (Finset.mem_range.1 hj)]

/-- The transform of a centred sequence is its centred sum. -/
theorem val_line (d : Direction) {n k : ℕ} (hk : k < n) (x : ℕ → Cplx ℝ) :
    ((line (roots (d.sign : ℝ) n) n x).getD k 0).val =
      ∑ j ∈ Finset.range n, (x j).val * wave d n k j := by
  have hn : 0 < n := by omega
  have hpowers := powers_roots d hn
  have hsize : (roots (d.sign : ℝ) n).size = n * 1 := by rw [roots, Array.size_ofFn, mul_one]
  have hone : unitRoot d n ^ n = 1 := by
    have := hpowers.one
    rwa [hsize, mul_one] at this
  have hfrom : fromCentre n k < n := Nat.mod_lt _ hn
  have hwave : ∀ j, unitRoot d n ^ (1 * fromCentre n k * j) = wave d n k ((j + n / 2) % n) := by
    intro j
    have hj : (((j + n / 2) % n : ℕ) : ℤ) - (n / 2 : ℕ) ≡ j [ZMOD n] := by
      rw [Int.natCast_mod, Int.ModEq, Int.sub_emod, Int.emod_emod, ← Int.sub_emod]
      congr 1
      omega
    rw [← unitRoot_zpow, one_mul, ← zpow_natCast, Nat.cast_mul]
    exact zpow_congr hn hone (fromCentre_modEq.mul hj.symm)
  rw [line, getD_ofFn _ hk, transform_eq_sum hpowers hsize _ hfrom]
  simp only [hwave]
  exact sum_rotate n fun j => (x j).val * wave d n k j

/-! ## Rasters and tensors -/

/-- The transform of a raster is its centred double sum. -/
theorem val_raster (d : Direction) (a : Raster (Cplx ℝ)) {k q : ℕ} (hk : k < a.ny) (hq : q < a.nx) :
    ((raster d a).get k q).val = d.factor (a.ny * a.nx) *
      ∑ j ∈ Finset.range a.ny, ∑ i ∈ Finset.range a.nx,
        (a.get j i).val * (wave d a.ny k j * wave d a.nx q i) := by
  rw [raster, Raster.get_ofFn _ hk hq, val_scaled, getD_ofFn _ hq, val_line d hk]
  congr 1
  refine Finset.sum_congr rfl fun j hj => ?_
  rw [getD_ofFn _ (Finset.mem_range.1 hj), val_line d hq, Finset.sum_mul]
  refine Finset.sum_congr rfl fun i _ => ?_
  ring

/-- Each raster of a tensor is transformed by itself, whatever the number of leading axes. -/
theorem exists_tensor (d : Direction) {a : Tensor (Cplx ℝ)} {lead : List ℕ} {ny nx : ℕ}
    (hshape : a.shape = lead ++ [ny, nx]) (hny : 0 < ny) (hnx : 0 < nx) :
    ∃ b, tensor d a = .ok b ∧ b.shape = lead ++ [ny, nx] ∧
      ∀ index k q, Tensor.Within lead index → k < ny → q < nx →
        (b.get (index ++ [k, q])).val = d.factor (ny * nx) *
          ∑ j ∈ Finset.range ny, ∑ i ∈ Finset.range nx,
            (a.get (index ++ [j, i])).val * (wave d ny k j * wave d nx q i) := by
  refine ⟨_, tensor_eq_slices d hshape hny hnx, rfl, fun index k q hindex hk hq => ?_⟩
  rw [Tensor.get_ofSlices (lengths_raster d a ny nx) hindex hk hq, val_raster d _ hk hq]
  congr 1
  refine Finset.sum_congr rfl fun j hj => Finset.sum_congr rfl fun i hi => ?_
  rw [Tensor.get_slice hshape hindex (Finset.mem_range.1 hj) (Finset.mem_range.1 hi)]
  rfl

/-- The transform of a tensor of four axes takes each channel and polarisation by itself. -/
theorem tensor_ok (d : Direction) {a : Tensor (Cplx ℝ)} {nchan npol ny nx : ℕ}
    (hshape : a.shape = [nchan, npol, ny, nx]) (hny : 0 < ny) (hnx : 0 < nx) :
    ∃ b, tensor d a = .ok b ∧ b.shape = [nchan, npol, ny, nx] ∧
      ∀ ch p k q, ch < nchan → p < npol → k < ny → q < nx →
        (b.get [ch, p, k, q]).val = d.factor (ny * nx) *
          ∑ j ∈ Finset.range ny, ∑ i ∈ Finset.range nx,
            (a.get [ch, p, j, i]).val * (wave d ny k j * wave d nx q i) := by
  have hraster : a.shape = [nchan, npol] ++ [ny, nx] := hshape
  obtain ⟨b, hb, hbshape, hget⟩ := exists_tensor d hraster hny hnx
  exact ⟨b, hb, hbshape, fun ch p k q hch hp => hget [ch, p] k q (Tensor.within_pair.2 ⟨hch, hp⟩)⟩

end ApertureSynthesis.Fourier
