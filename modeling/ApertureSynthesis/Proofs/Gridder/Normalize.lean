/-
  Images divided by sums of weights. Sums with a value for each channel and polarisation make a
  table in the order of the rasters (`weightTable_eq`), and every pixel is divided by the sum of its
  own raster, or set to zero where that is not positive (`get_divideByWeights`).
-/
import Mathlib
import ApertureSynthesis.Proofs.Corrector
import ApertureSynthesis.Gridder.Pass

namespace ApertureSynthesis.Gridder

variable {α : Type} [Scalar α] {sums : Tensor α} {n m : ℕ}

/-! ## Tables of weights -/

theorem weightAt_eq (hshape : sums.shape = [n, m]) {ch p : ℕ} (hch : ch < n) (hp : p < m) :
    weightAt sums ch p = .ok (sums.get [ch, p]) := by
  have hwithin : Tensor.Within sums.shape [ch, p] := by
    rw [hshape]
    exact Tensor.within_pair.2 ⟨hch, hp⟩
  have hget : sums.get [ch, p] = sums.data.getD (ch * m + p) 0 := by
    rw [Tensor.get, if_pos hwithin, hshape, Tensor.offset_pair]
  unfold weightAt
  split
  · rename_i a b rest hs
    rw [hshape] at hs
    cases hs
    rw [if_neg (by omega), if_pos (by rfl), hget]
  · rename_i hs
    exact absurd hshape (hs n m [])

/-- Sums for each channel and polarisation, in order. -/
theorem weightTable_eq (hshape : sums.shape = [n, m]) :
    weightTable sums n m =
      .ok ((List.range n).flatMap fun ch => (List.range m).map fun p => sums.get [ch, p]) :=
  flatMapM_eq_ok _ fun _ hch => mapM_eq_ok _ fun _ hp =>
    weightAt_eq hshape (List.mem_range.1 hch) (List.mem_range.1 hp)

/-- The place of a pair in a list of lists of one length. -/
theorem getElem?_flatMap_range {β : Type} (f : ℕ → ℕ → β) {a b : ℕ} (ha : a < n) (hb : b < m) :
    ((List.range n).flatMap fun a => (List.range m).map (f a))[a * m + b]? = some (f a b) := by
  induction n with
  | zero => exact absurd ha (Nat.not_lt_zero _)
  | succ n ih =>
    have hlength : ((List.range n).flatMap fun a => (List.range m).map (f a)).length = n * m := by
      simp [List.length_flatMap]
    rw [List.range_succ, List.flatMap_append, List.flatMap_singleton]
    rcases Nat.lt_succ_iff_lt_or_eq.1 ha with hlt | rfl
    · rw [List.getElem?_append_left (by rw [hlength]; exact Raster.index_lt hlt hb)]
      exact ih hlt
    · rw [List.getElem?_append_right (by omega), hlength, Nat.add_sub_cancel_left,
        List.getElem?_map, List.getElem?_range hb, Option.map_some]

/-! ## Division -/

/-- The raster of a pixel. -/
theorem offset_div_raster {nchan npol ny nx ch p j i : ℕ} (hch : ch < nchan) (hp : p < npol)
    (hj : j < ny) (hi : i < nx) :
    Tensor.offset [nchan, npol, ny, nx] [ch, p, j, i] / (ny * nx) = ch * npol + p := by
  have hoff := Tensor.offset_append (Tensor.within_pair.2 ⟨hch, hp⟩) (Tensor.within_pair.2 ⟨hj, hi⟩)
  have hlt := Raster.index_lt hj hi
  rw [Tensor.volume_pair, Tensor.offset_pair, Tensor.offset_pair] at hoff
  rw [show [nchan, npol, ny, nx] = [nchan, npol] ++ [ny, nx] from rfl,
    show [ch, p, j, i] = [ch, p] ++ [j, i] from rfl, hoff, Nat.mul_comm _ (ny * nx),
    Nat.mul_add_div (by omega), Nat.div_eq_of_lt hlt, Nat.add_zero]

/-- Each pixel is divided by the sum of weights of its channel and polarisation. -/
theorem get_divideByWeights {pixels : Tensor α} {nchan npol ny nx ch p j i : ℕ} {weights : List α}
    (hsums : sums.shape = [nchan, npol]) (htable : weightTable sums nchan npol = .ok weights)
    (hpixels : pixels.shape = [nchan, npol, ny, nx]) (hch : ch < nchan) (hp : p < npol)
    (hj : j < ny) (hi : i < nx) :
    (divideByWeights pixels (ny * nx) weights.toArray).get [ch, p, j, i] =
      if 0 < sums.get [ch, p] then pixels.get [ch, p, j, i] / sums.get [ch, p] else 0 := by
  have hwithin : Tensor.Within pixels.shape [ch, p, j, i] := hpixels ▸ ⟨hch, hp, hj, hi, trivial⟩
  have hweight : weights.toArray.getD (ch * npol + p) 0 = sums.get [ch, p] := by
    rw [weightTable_eq hsums] at htable
    cases htable
    rw [Array.getD_eq_getD_getElem?, List.getElem?_toArray, getElem?_flatMap_range _ hch hp,
      Option.getD_some]
  rw [divideByWeights, Tensor.get_mapIdx _ _ hwithin, hpixels, offset_div_raster hch hp hj hi]
  dsimp only
  rw [hweight]

/-! ## Pixels of a finished pass -/

/-- A pixel divided by its sum of weights, if that is asked for. -/
def scaleBy (normalize : Bool) (weight x : α) : α :=
  if normalize then (if 0 < weight then x / weight else 0) else x

/-- The pixels of a pass before they are corrected: the real part of the transform of its grid,
    divided by the sums of weights if that is asked for. -/
def passPixels (g : Grid α) (sums : Tensor α) (normalize : Bool) (t : Tensor (Cplx α)) : Tensor α :=
  if normalize then divideByWeights (t.map Cplx.re) (g.ny * g.nx)
    ((List.range g.nchan).flatMap fun ch => (List.range g.npol).map fun p =>
      sums.get [ch, p]).toArray
  else t.map Cplx.re

theorem shape_passPixels (g : Grid α) (sums : Tensor α) (normalize : Bool) (t : Tensor (Cplx α)) :
    (passPixels g sums normalize t).shape = t.shape := by
  unfold passPixels
  split <;> rfl

theorem get_passPixels {g : Grid α} (hsums : sums.shape = [g.nchan, g.npol]) (normalize : Bool)
    {t : Tensor (Cplx α)} (ht : t.shape = [g.nchan, g.npol, g.ny, g.nx]) {ch p j i : ℕ}
    (hch : ch < g.nchan) (hp : p < g.npol) (hj : j < g.ny) (hi : i < g.nx) :
    (passPixels g sums normalize t).get [ch, p, j, i] =
      scaleBy normalize (sums.get [ch, p]) (t.get [ch, p, j, i]).re := by
  have hreal : (t.map Cplx.re).get [ch, p, j, i] = (t.get [ch, p, j, i]).re :=
    Tensor.get_map _ (ht ▸ ⟨hch, hp, hj, hi, trivial⟩)
  unfold passPixels scaleBy
  split
  · rw [get_divideByWeights hsums (weightTable_eq hsums) ht hch hp hj hi, hreal]
  · exact hreal

end ApertureSynthesis.Gridder
