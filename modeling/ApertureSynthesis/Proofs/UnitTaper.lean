/-
  The taper is at most one, and one in the middle of the image.

  The taps at the central phase are not negative and sum to one, so the sum that their transform is
  at a pixel is at most one (`norm_response_le_one`), and one in the middle, where all waves are one
  (`response_centre`). Pixels on opposite sides of the middle have conjugate waves
  (`response_opposite`), and the taps are symmetric, so that the transform is real and even. Nothing
  is asked of the planes: this holds for every kind of convolution function. An image that is
  multiplied by the taper and corrected is as it was where the taper is positive, and zero elsewhere
  (`exists_apply_correct`).
-/
import Mathlib
import ApertureSynthesis.Proofs.Taper
import ApertureSynthesis.Proofs.Kernel.Construction

namespace ApertureSynthesis

open Finset ComplexConjugate

namespace Corrector

variable {c : Cache ℝ} {s : ℕ}

/-! ## The response to unit taps -/

theorem norm_unitRoot_zpow (n : ℕ) (m : ℤ) : ‖Fourier.unitRoot .forward n ^ m‖ = 1 := by
  rw [norm_zpow, Fourier.unitRoot, Complex.norm_exp_ofReal_mul_I, one_zpow]

theorem centralTap_nonneg (hc : c.EvenTaps s) (hunit : c.UnitTaps s) {y x : ℕ} (hy : y ≤ 2 * s)
    (hx : x ≤ 2 * s) : 0 ≤ c.centralTap y x := by
  have hphase : c.oversample / 2 < c.oversample := Nat.div_lt_self hc.oversample_pos (by decide)
  exact hunit.nonneg _ hphase _ hphase y hy x hx

theorem sum_centralTap (hc : c.EvenTaps s) (hunit : c.UnitTaps s) :
    ∑ y ∈ range (2 * s + 1), ∑ x ∈ range (2 * s + 1), c.centralTap y x = 1 := by
  have hphase : c.oversample / 2 < c.oversample := Nat.div_lt_self hc.oversample_pos (by decide)
  exact hunit.sum_eq_one _ hphase _ hphase

theorem norm_response_le_one (hc : c.EvenTaps s) (hunit : c.UnitTaps s) (ny nx j i : ℕ) :
    ‖response c s ny nx j i‖ ≤ 1 := by
  -- a wave has the norm one, so that each term has the norm of its tap
  have hterm : ∀ y ∈ range (2 * s + 1), ∀ x ∈ range (2 * s + 1), ∀ a b : ℤ,
      ‖(c.centralTap y x : ℂ) *
        (Fourier.unitRoot .forward ny ^ a * Fourier.unitRoot .forward nx ^ b)‖ =
        c.centralTap y x := by
    intro y hy x hx a b
    have htap := centralTap_nonneg hc hunit (Nat.le_of_lt_succ (mem_range.1 hy))
      (Nat.le_of_lt_succ (mem_range.1 hx))
    rw [norm_mul, norm_mul, norm_unitRoot_zpow, norm_unitRoot_zpow, mul_one, mul_one,
      Complex.norm_of_nonneg htap]
  rw [← sum_centralTap hc hunit]
  refine norm_sum_le_of_le _ fun y hy => norm_sum_le_of_le _ fun x hx => ?_
  rw [hterm y hy x hx]

theorem response_centre (hc : c.EvenTaps s) (hunit : c.UnitTaps s) (ny nx : ℕ) :
    response c s ny nx (ny / 2) (nx / 2) = 1 := by
  rw [response]
  simp only [sub_self, mul_zero, zpow_zero, mul_one]
  exact_mod_cast sum_centralTap hc hunit

/-- Across the middle of the image every wave turns the other way. -/
theorem response_opposite {ny nx j j' i i' : ℕ} (hj : j + j' = 2 * (ny / 2))
    (hi : i + i' = 2 * (nx / 2)) :
    response c s ny nx j' i' = conj (response c s ny nx j i) := by
  have hrow : ∀ y : ℤ, y * ((j' : ℤ) - (ny / 2 : ℕ)) = -(y * ((j : ℤ) - (ny / 2 : ℕ))) := by
    intro y
    rw [← mul_neg]
    congr 1
    omega
  have hcolumn : ∀ x : ℤ, x * ((i' : ℤ) - (nx / 2 : ℕ)) = -(x * ((i : ℤ) - (nx / 2 : ℕ))) := by
    intro x
    rw [← mul_neg]
    congr 1
    omega
  simp only [response, map_sum, map_mul, Complex.conj_ofReal, conj_unitRoot_zpow, hrow, hcolumn]

/-! ## The taper of unit taps -/

/-- In the middle of the image the taper is the sum of the central taps. -/
theorem taper_centre {ny nx : ℤ} {k : Corrector ℝ} (h : create c ny nx = .ok k) (hc : c.EvenTaps s)
    (hunit : c.UnitTaps s) : k.taper.get (ny.toNat / 2) (nx.toNat / 2) = 1 := by
  obtain ⟨taps, hny, hnx, -, -⟩ := exists_taps h hc
  have htaper :=
    taper_eq_response h hc (j := ny.toNat / 2) (i := nx.toNat / 2) (by omega) (by omega)
  rwa [response_centre hc hunit, Complex.ofReal_eq_one] at htaper

theorem inverse_centre {ny nx : ℤ} {k : Corrector ℝ} (h : create c ny nx = .ok k)
    (hc : c.EvenTaps s) (hunit : c.UnitTaps s) :
    k.inverse.get (ny.toNat / 2) (nx.toNat / 2) = 1 := by
  obtain ⟨taps, hny, hnx, -, -⟩ := exists_taps h hc
  obtain ⟨htny, htnx⟩ := ny_taper h
  rw [get_inverse k (by omega) (by omega), taper_centre h hc hunit, if_pos one_pos, inv_one]

theorem abs_taper_le_one {ny nx : ℤ} {k : Corrector ℝ} (h : create c ny nx = .ok k)
    (hc : c.EvenTaps s) (hunit : c.UnitTaps s) {j i : ℕ} (hj : j < ny.toNat) (hi : i < nx.toNat) :
    |k.taper.get j i| ≤ 1 := by
  rw [← Real.norm_eq_abs, ← Complex.norm_real, taper_eq_response h hc hj hi]
  exact norm_response_le_one hc hunit _ _ _ _

theorem taper_opposite {ny nx : ℤ} {k : Corrector ℝ} (h : create c ny nx = .ok k)
    (hc : c.EvenTaps s) {j j' i i' : ℕ} (hj : j < ny.toNat) (hj' : j' < ny.toNat)
    (hi : i < nx.toNat) (hi' : i' < nx.toNat) (hrows : j + j' = 2 * (ny.toNat / 2))
    (hcolumns : i + i' = 2 * (nx.toNat / 2)) :
    k.taper.get j' i' = k.taper.get j i := by
  rw [← Complex.ofReal_inj, taper_eq_response h hc hj' hi', taper_eq_response h hc hj hi,
    response_opposite hrows hcolumns, conj_response hc]

/-! ## Images -/

/-- An image multiplied by the taper and corrected is as it was where the taper is positive, and
    zero elsewhere. -/
theorem exists_apply_correct (k : Corrector ℝ) (im : Image ℝ) {lead : List ℕ}
    (hshape : im.shape = lead ++ [k.taper.ny, k.taper.nx]) :
    ∃ applied corrected, k.apply im = .ok applied ∧ k.correct applied = .ok corrected ∧
      corrected.shape = im.shape ∧ corrected.pixels.isComplex = im.pixels.isComplex ∧
      corrected.coordinates = im.coordinates ∧
      ∀ outer j i, Tensor.Within lead outer → j < k.taper.ny → i < k.taper.nx →
        corrected.pixels.toComplex.get (outer ++ [j, i]) =
          if 0 < k.taper.get j i then im.pixels.toComplex.get (outer ++ [j, i]) else 0 := by
  have happlied : (im.pixels.mulRaster k.taper).shape = lead ++ [k.taper.ny, k.taper.nx] :=
    (Pixels.shape_mulRaster _ _).trans hshape
  refine ⟨_, _, apply_eq_ok k im hshape, correct_eq_ok k _ happlied, ?_, ?_, rfl, ?_⟩
  · exact (Pixels.shape_mulRaster _ _).trans (Pixels.shape_mulRaster _ _)
  · cases im.pixels <;> rfl
  · intro outer j i houter hj hi
    apply Cplx.val_injective
    rw [Pixels.get_mulRaster_append (r := k.inverse) happlied houter hj hi,
      Pixels.get_mulRaster_append hshape houter hj hi, get_inverse k hj hi, mul_assoc,
      ← Complex.ofReal_mul, mul_ite, mul_zero]
    split
    · rename_i hpos
      rw [mul_inv_cancel₀ hpos.ne', Complex.ofReal_one, mul_one]
    · rw [Complex.ofReal_zero, mul_zero, Cplx.val_zero]

end Corrector

/-! ## Caches that were built -/

/-- Whatever kind of convolution function a cache was built for, over images that hold the zero-w
    kernel the transform of its central taps is real; it is at most one, one in the middle and even
    about the middle; and to apply and to correct it leaves an image as it was where it is
    positive. -/
theorem taper_of_buildCache {variant : Kernel.Variant ℝ} {cellSize : CellSize ℝ} {shape : List ℤ}
    {frequency : Setting ℝ} {cache : Cache ℝ}
    (h : variant.buildCache cellSize shape frequency = .ok cache) :
    ∃ s : ℕ, cache.zeroW.shape = [cache.oversample, cache.oversample, 2 * s + 1, 2 * s + 1] ∧
      ∀ ny nx : ℕ, 2 * s + 1 ≤ ny → 2 * s + 1 ≤ nx →
        ∃ (k : Corrector ℝ) (taps : Tensor ℝ), Corrector.create cache ny nx = .ok k ∧
          (∀ y ≤ 2 * s, ∀ x ≤ 2 * s, (taps.get [y, x] : ℂ) =
            (cache.zeroW.get [cache.oversample / 2, cache.oversample / 2, y, x]).val) ∧
          k.taper = (Fourier.raster .forward (Corrector.placed taps s ny nx)).map Cplx.re ∧
          k.taper.ny = ny ∧ k.taper.nx = nx ∧
          (∀ j < ny, ∀ i < nx,
            ((Fourier.raster .forward (Corrector.placed taps s ny nx)).get j i).im = 0) ∧
          (∀ j < ny, ∀ i < nx, |k.taper.get j i| ≤ 1) ∧
          k.taper.get (ny / 2) (nx / 2) = 1 ∧
          (∀ j j' i i', j < ny → j' < ny → i < nx → i' < nx → j + j' = 2 * (ny / 2) →
            i + i' = 2 * (nx / 2) → k.taper.get j' i' = k.taper.get j i) ∧
          ∀ (im : Image ℝ) (lead : List ℕ), im.shape = lead ++ [ny, nx] →
            ∃ applied corrected, k.apply im = .ok applied ∧ k.correct applied = .ok corrected ∧
              corrected.shape = im.shape ∧ corrected.pixels.isComplex = im.pixels.isComplex ∧
              corrected.coordinates = im.coordinates ∧
              ∀ outer j i, Tensor.Within lead outer → j < ny → i < nx →
                corrected.pixels.toComplex.get (outer ++ [j, i]) =
                  if 0 < k.taper.get j i then im.pixels.toComplex.get (outer ++ [j, i]) else 0 := by
  obtain ⟨s, heven, hunit⟩ := Kernel.exists_taps_of_buildCache h
  refine ⟨s, heven.shape, fun ny nx hny hnx => ?_⟩
  obtain ⟨k, hk⟩ := Corrector.exists_create_of_shape heven.oversample_pos heven.shape
    (show 2 * (s : ℤ) + 1 ≤ min (ny : ℤ) nx by omega)
  obtain ⟨taps, -, -, htaper, htaps⟩ := Corrector.exists_taps hk heven
  obtain ⟨htny, htnx⟩ := Corrector.ny_taper hk
  rw [Int.toNat_natCast] at htny htnx
  refine ⟨k, taps, hk, ?_, htaper, htny, htnx, ?_, ?_, ?_, ?_, ?_⟩
  · intro y hy x hx
    rw [htaps y hy x hx, heven.real y hy x hx]
  · intro j hj i hi
    have hreal := Complex.conj_eq_iff_im.1 (Corrector.conj_response heven ny nx j i)
    rwa [← Corrector.val_raster_placed hny hnx htaps hj hi] at hreal
  · exact fun j hj i hi => Corrector.abs_taper_le_one hk heven hunit hj hi
  · exact Corrector.taper_centre hk heven hunit
  · exact fun j j' i i' hj hj' hi hi' => Corrector.taper_opposite hk heven hj hj' hi hi'
  · intro im lead hshape
    obtain rfl := htny
    obtain rfl := htnx
    exact k.exists_apply_correct im hshape

/-- The anti-aliasing function with a half-width of one, for three by four cells, over five by four
    pixels. -/
theorem taper_of_buildCache_narrow :
    ∃ c cache k, Kernel.narrowRequest.check = .ok (.fitting c) ∧
      (Kernel.Variant.spheroidal (.fitting c)).buildCache (.single 1) [3, 4] .absent = .ok cache ∧
      Corrector.create cache 5 4 = .ok k ∧ k.taper.get 2 2 = 1 ∧ |k.taper.get 0 0| ≤ 1 ∧
      k.taper.get 4 3 = k.taper.get 0 1 := by
  have hcell : (CellSize.single (1 : ℝ)).values ≠ [] := List.cons_ne_nil _ _
  obtain ⟨c, cache, hc, hbuild⟩ :=
    Kernel.exists_build_narrow (fun t ht => absurd ht (Option.not_mem_none t))
      (List.cons_ne_nil (Kernel.PlaneValue.ofScalar 0) []) hcell
      (show 3 ≤ min (3 : ℤ) 4 by decide) "spheroidal"
  have hbuilt : (Kernel.Variant.spheroidal (.fitting c)).buildCache (.single 1)
      [3, 4] .absent = .ok cache :=
    hbuild
  obtain ⟨s, hshape, hcorrector⟩ := taper_of_buildCache hbuilt
  -- the kernel is no wider than the grid that it was built for
  obtain ⟨s', hunit, -, hwidth⟩ := (Kernel.complete_of_build hbuild).unit
  obtain rfl : s' = s := by
    have hsame := hunit.shape.symm.trans hshape
    simp only [List.cons.injEq] at hsame
    omega
  obtain ⟨k, taps, hk, -, -, -, -, -, hbound, hcentre, heven, -⟩ :=
    hcorrector 5 4 (by omega) (by omega)
  exact ⟨c, cache, k, hc, hbuilt, hk, hcentre, hbound 0 (by decide) 0 (by decide),
    heven 0 4 1 3 (by decide) (by decide) (by decide) (by decide) rfl rfl⟩

end ApertureSynthesis
