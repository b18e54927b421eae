/-
  Correction of images, pixel by pixel: an image whose last two axes are those of the taper is
  multiplied by one over the taper where that is positive and by zero elsewhere, or by the taper as
  it is.
-/
import Mathlib
import ApertureSynthesis.Proofs.Outcome
import ApertureSynthesis.Proofs.Exact
import ApertureSynthesis.Proofs.Tensor
import ApertureSynthesis.Corrector

namespace ApertureSynthesis

/-! ## Images times rasters -/

namespace Tensor

variable {β : Type} [Zero β]

/-- A tensor changed element by element, by a rule that knows where the element is stored. -/
theorem get_mapIdx {t : Tensor β} (f : ℕ → β → β) (hsize : (t.data.mapIdx f).size = volume t.shape)
    {index : List ℕ} (h : Within t.shape index) :
    (Tensor.mk t.shape (t.data.mapIdx f) hsize).get index =
      f (offset t.shape index) (t.get index) := by
  have hlt := offset_lt_size h
  rw [get_of_within (t := Tensor.mk t.shape (t.data.mapIdx f) hsize) h, get_of_within h]
  simp [hlt]

end Tensor

namespace Pixels

/-- The place of a pixel in its raster. -/
theorem offset_mod_raster {lead outer : List ℕ} {ny nx j i : ℕ} (h : Tensor.Within lead outer)
    (hj : j < ny) (hi : i < nx) :
    Tensor.offset (lead ++ [ny, nx]) (outer ++ [j, i]) % (ny * nx) = j * nx + i := by
  rw [Tensor.offset_append h (Tensor.within_pair.2 ⟨hj, hi⟩), Tensor.volume_pair,
    Tensor.offset_pair ny, Nat.mul_comm _ (ny * nx), Nat.mul_add_mod,
    Nat.mod_eq_of_lt (Raster.index_lt hj hi)]

theorem getD_raster (r : Raster ℝ) {j i : ℕ} (hj : j < r.ny) (hi : i < r.nx) :
    r.data.getD (j * r.nx + i) 0 = r.get j i := by
  have hlt : j * r.nx + i < r.data.size := r.size_data ▸ Raster.index_lt hj hi
  rw [Array.getD_eq_getD_getElem?, Array.getElem?_eq_getElem hlt, Option.getD_some, Raster.get,
    dif_pos ⟨hj, hi⟩]

/-- Real pixels as complex numbers. -/
theorem val_toComplex_real {t : Tensor ℝ} {index : List ℕ} (h : Tensor.Within t.shape index) :
    ((Pixels.real t).toComplex.get index).val = (t.get index : ℂ) := by
  rw [toComplex, Tensor.get_map _ h, Cplx.val_ofReal]

section MulRaster

variable {r : Raster ℝ} {pixels : Pixels ℝ} {j i : ℕ}

/-- Each pixel is multiplied by the raster's pixel at its place. -/
theorem get_mulRaster_append {lead outer : List ℕ} (hshape : pixels.shape = lead ++ [r.ny, r.nx])
    (houter : Tensor.Within lead outer) (hj : j < r.ny) (hi : i < r.nx) :
    ((pixels.mulRaster r).toComplex.get (outer ++ [j, i])).val =
      (pixels.toComplex.get (outer ++ [j, i])).val * (r.get j i : ℂ) := by
  have hfactor : r.data.getD (Tensor.offset (lead ++ [r.ny, r.nx]) (outer ++ [j, i]) %
      (r.ny * r.nx)) 0 = r.get j i := by
    rw [offset_mod_raster houter hj hi, getD_raster r hj hi]
  have hpixel : Tensor.Within (lead ++ [r.ny, r.nx]) (outer ++ [j, i]) :=
    Tensor.within_append houter (Tensor.within_pair.2 ⟨hj, hi⟩)
  cases pixels with
  | real t =>
    have ht : t.shape = lead ++ [r.ny, r.nx] := hshape
    have hwithin : Tensor.Within t.shape (outer ++ [j, i]) := ht ▸ hpixel
    simp only [mulRaster, toComplex]
    rw [Tensor.get_map _ (by exact hwithin), Tensor.get_mapIdx _ _ hwithin,
      Tensor.get_map _ hwithin, ht, hfactor, Cplx.val_ofReal, Cplx.val_ofReal, Complex.ofReal_mul]
  | complex t =>
    have ht : t.shape = lead ++ [r.ny, r.nx] := hshape
    have hwithin : Tensor.Within t.shape (outer ++ [j, i]) := ht ▸ hpixel
    simp only [mulRaster, toComplex]
    rw [Tensor.get_mapIdx _ _ hwithin, ht, hfactor, Cplx.val_mul, Cplx.val_ofReal]

/-- The pixels of an image with channels and polarisations. -/
theorem get_mulRaster {nchan npol ch p : ℕ} (hshape : pixels.shape = [nchan, npol, r.ny, r.nx])
    (hch : ch < nchan) (hp : p < npol) (hj : j < r.ny) (hi : i < r.nx) :
    ((pixels.mulRaster r).toComplex.get [ch, p, j, i]).val =
      (pixels.toComplex.get [ch, p, j, i]).val * (r.get j i : ℂ) := by
  have hlead : pixels.shape = [nchan, npol] ++ [r.ny, r.nx] := hshape
  have houter : Tensor.Within [nchan, npol] [ch, p] := ⟨hch, hp, trivial⟩
  exact get_mulRaster_append hlead houter hj hi

end MulRaster

theorem shape_mulRaster {α : Type} [Scalar α] (pixels : Pixels α) (r : Raster α) :
    (pixels.mulRaster r).shape = pixels.shape := by
  cases pixels <;> rfl

end Pixels

/-! ## Correctors -/

namespace Corrector

variable {α : Type} [Scalar α]

/-- A corrector that was created has the taper of the taps of the central phase, placed in the
    middle of an image that holds them. -/
theorem exists_of_create {c : Cache α} {ny nx : ℤ} {k : Corrector α} (h : create c ny nx = .ok k) :
    ∃ phase taps, centralPhase c = .ok phase ∧
      2 * ((phase.shape.getLast?.getD 0 / 2 : ℕ) : ℤ) + 1 ≤ min ny nx ∧
      (phase.dropLeading 2).stretch? [2 * (phase.shape.getLast?.getD 0 / 2) + 1,
        2 * (phase.shape.getLast?.getD 0 / 2) + 1] = some taps ∧
      k.taper = (Fourier.raster .forward (placed taps (phase.shape.getLast?.getD 0 / 2)
        ny.toNat nx.toNat)).map Cplx.re := by
  unfold create at h
  obtain ⟨phase, hphase, h⟩ := exists_of_bind h
  dsimp only at h
  split at h
  · cases h
  · rename_i hwidth
    split at h
    · cases h
    · rename_i taps htaps
      cases h
      exact ⟨phase, taps, hphase, by push_cast at hwidth; omega, htaps, rfl⟩

theorem ny_taper {c : Cache α} {ny nx : ℤ} {k : Corrector α} (h : create c ny nx = .ok k) :
    k.taper.ny = ny.toNat ∧ k.taper.nx = nx.toNat := by
  obtain ⟨phase, taps, -, -, -, htaper⟩ := exists_of_create h
  rw [htaper]
  exact ⟨rfl, rfl⟩

/-- A corrector has at least one pixel along each axis. -/
theorem length_pos {c : Cache α} {ny nx : ℤ} {k : Corrector α} (h : create c ny nx = .ok k) :
    0 < ny ∧ 0 < nx := by
  obtain ⟨phase, -, -, hwidth, -, -⟩ := exists_of_create h
  omega

/-- One over the taper where it is positive, else zero. -/
theorem get_inverse (k : Corrector ℝ) {j i : ℕ} (hj : j < k.taper.ny) (hi : i < k.taper.nx) :
    k.inverse.get j i = if 0 < k.taper.get j i then (k.taper.get j i)⁻¹ else 0 := by
  rw [inverse, Raster.get_map _ _ hj hi]
  simp only [Scalar.zero_literal, Scalar.one_literal, one_div]

section Shape

variable (k : Corrector α) (im : Image α) {lead : List ℕ}

omit [Scalar α] in
/-- Whatever axes an image has besides, its last two have to be those of the taper. -/
theorem checkShape_eq_ok (hshape : im.shape = lead ++ [k.taper.ny, k.taper.nx]) :
    k.checkShape im = .ok () := by
  unfold checkShape
  simp only [hshape, Tensor.lastTwo?_append, and_self, if_true]

theorem correct_eq_ok (hshape : im.shape = lead ++ [k.taper.ny, k.taper.nx]) :
    k.correct im = .ok { im with pixels := im.pixels.mulRaster k.inverse, storage := .double } := by
  unfold correct
  rw [checkShape_eq_ok k im hshape]
  rfl

theorem apply_eq_ok (hshape : im.shape = lead ++ [k.taper.ny, k.taper.nx]) :
    k.apply im = .ok { im with pixels := im.pixels.mulRaster k.taper, storage := .double } := by
  unfold apply
  rw [checkShape_eq_ok k im hshape]
  rfl

/-- An image of the shape of the taper is corrected pixel by pixel. -/
theorem exists_correct {nchan npol : ℕ}
    (hshape : im.shape = [nchan, npol, k.taper.ny, k.taper.nx]) :
    ∃ out, k.correct im = .ok out ∧ out.pixels = im.pixels.mulRaster k.inverse :=
  ⟨_,
    correct_eq_ok k im (show im.shape = [nchan, npol] ++ [k.taper.ny, k.taper.nx] from hshape), rfl⟩

end Shape

end Corrector

end ApertureSynthesis
