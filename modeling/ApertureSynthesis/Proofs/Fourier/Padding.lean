/-
  Padding keeps the centre at the centre.

  What is put in front of an axis and what is put at its back make up for what is missing, whatever
  the parities (`leading_add_trailing`), and place `m / 2` goes to place `n / 2`. So a padded raster
  is known by its distances from the centre: at each it holds what the raster held there, and zero
  where the raster did not reach (`getInt_padTo`). Two rasters of one size that agree about the
  centre are the same, so that padding in two steps is padding at once (`padTo_padTo`).
-/
import Mathlib
import ApertureSynthesis.Proofs.Exact
import ApertureSynthesis.Proofs.Fourier.Inversion
import ApertureSynthesis.Fourier.Padding

namespace ApertureSynthesis

variable {β : Type} [Zero β]

namespace Raster

/-! ## Rasters at signed positions -/

/-- A signed position is one of the pixels. -/
def Covers (r : Raster β) (j i : ℤ) : Prop := (0 ≤ j ∧ j < r.ny) ∧ 0 ≤ i ∧ i < r.nx

theorem getInt_eq_zero (r : Raster β) {j i : ℤ} (h : ¬((0 ≤ j ∧ j < r.ny) ∧ 0 ≤ i ∧ i < r.nx)) :
    r.getInt j i = 0 := by
  unfold getInt
  split
  · exact r.get_eq_zero (by omega)
  · rfl

/-- Rasters of one size that agree about a position are the same. -/
theorem ext_about {a b : Raster β} (hny : a.ny = b.ny) (hnx : a.nx = b.nx) (y x : ℤ)
    (h : ∀ d e : ℤ, a.getInt (y + d) (x + e) = b.getInt (y + d) (x + e)) : a = b := by
  refine ext_get hny hnx fun j i _ _ => ?_
  have hplace := h (j - y) (i - x)
  rw [add_sub_cancel, add_sub_cancel] at hplace
  exact hplace

/-- A padded raster holds the raster behind its leading zeros, and nothing else. -/
theorem getInt_pad (a : Raster β) (above below left right : ℕ) (j i : ℤ) :
    (a.pad above below left right).getInt (above + j) (left + i) = a.getInt j i := by
  have hny : (a.pad above below left right).ny = above + a.ny + below := rfl
  have hnx : (a.pad above below left right).nx = left + a.nx + right := rfl
  by_cases hin : (0 ≤ j ∧ j < a.ny) ∧ 0 ≤ i ∧ i < a.nx
  · unfold getInt
    rw [if_pos (by omega), if_pos (by omega), pad, get_ofFn _ (by omega) (by omega),
      if_pos (by omega)]
    congr 1
    · omega
    · omega
  · rw [a.getInt_eq_zero hin]
    -- a position off the raster is one of the zeros, or off the padded raster too
    unfold getInt
    split
    · by_cases hr : (above + j).toNat < above + a.ny + below ∧
        (left + i).toNat < left + a.nx + right
      · rw [pad, get_ofFn _ hr.1 hr.2]
        split
        · exact a.get_eq_zero (by omega)
        · rfl
      · exact get_eq_zero _ hr
    · rfl

end Raster

namespace Fourier

/-! ## Padding to a square -/

/-- The zeros on both sides of an axis make up for what is missing, whatever the parities. -/
theorem leading_add_trailing {m n : ℕ} (h : m ≤ n) : leading m n + m + trailing m n = n := by
  unfold leading trailing
  omega

variable {a r : Raster β} {n : ℕ}

theorem padTo_eq_some (hny : a.ny ≤ n) (hnx : a.nx ≤ n) : ∃ r, padTo? a n = some r :=
  ⟨_, if_pos ⟨hny, hnx⟩⟩

theorem eq_pad_of_padTo (h : padTo? a n = some r) : (a.ny ≤ n ∧ a.nx ≤ n) ∧
    r = a.pad (leading a.ny n) (trailing a.ny n) (leading a.nx n) (trailing a.nx n) := by
  unfold padTo? at h
  split at h
  · rename_i hle
    exact ⟨hle, (Option.some.inj h).symm⟩
  · cases h

theorem ny_padTo (h : padTo? a n = some r) : r.ny = n ∧ r.nx = n := by
  obtain ⟨⟨hny, hnx⟩, rfl⟩ := eq_pad_of_padTo h
  exact ⟨leading_add_trailing hny, leading_add_trailing hnx⟩

/-- Padding keeps the centre at the centre. -/
theorem getInt_padTo (h : padTo? a n = some r) (dy dx : ℤ) :
    r.getInt ((n / 2 : ℕ) + dy) ((n / 2 : ℕ) + dx) =
      a.getInt ((a.ny / 2 : ℕ) + dy) ((a.nx / 2 : ℕ) + dx) := by
  obtain ⟨⟨hny, hnx⟩, rfl⟩ := eq_pad_of_padTo h
  have hcentre : ∀ (m : ℕ) (d : ℤ), m ≤ n →
      ((n / 2 : ℕ) : ℤ) + d = (leading m n : ℕ) + ((m / 2 : ℕ) + d) := by
    intro m d hm
    unfold leading
    omega
  rw [hcentre a.ny dy hny, hcentre a.nx dx hnx, Raster.getInt_pad]

/-- A raster of the size asked for stays as it is. -/
theorem padTo_self (hny : a.ny = n) (hnx : a.nx = n) : padTo? a n = some a := by
  obtain ⟨r, hr⟩ := padTo_eq_some hny.le hnx.le
  obtain ⟨hrny, hrnx⟩ := ny_padTo hr
  have hsame : r = a := by
    refine Raster.ext_about (hrny.trans hny.symm) (hrnx.trans hnx.symm) (n / 2 : ℕ) (n / 2 : ℕ) ?_
    intro d e
    rw [getInt_padTo hr, hny, hnx]
  rw [hr, hsame]

/-- Padding in two steps is padding at once. -/
theorem padTo_padTo {m : ℕ} (h : padTo? a n = some r) (hm : n ≤ m) : padTo? r m = padTo? a m := by
  obtain ⟨⟨hny, hnx⟩, -⟩ := eq_pad_of_padTo h
  obtain ⟨hrny, hrnx⟩ := ny_padTo h
  obtain ⟨s, hs⟩ := padTo_eq_some (a := r) (n := m) (by omega) (by omega)
  obtain ⟨t, ht⟩ := padTo_eq_some (a := a) (n := m) (by omega) (by omega)
  obtain ⟨hsny, hsnx⟩ := ny_padTo hs
  obtain ⟨htny, htnx⟩ := ny_padTo ht
  have hsame : s = t := by
    refine Raster.ext_about (hsny.trans htny.symm) (hsnx.trans htnx.symm) (m / 2 : ℕ) (m / 2 : ℕ) ?_
    intro d e
    rw [getInt_padTo hs, hrny, hrnx, getInt_padTo h, getInt_padTo ht]
  rw [hs, ht, hsame]

/-! ## Padding to a size as it is given -/

/-- A whole size is compared with the raster first: of the size that it has the raster is handed
    back, and to less it is not cut. -/
theorem padAs_whole (a : Raster β) (size : ℤ) : padAs (α := ℝ) a (.whole size) =
    if size = a.ny ∧ size = a.nx then .ok a
    else if a.ny ≤ size ∧ a.nx ≤ size then
      match padTo? a size.toNat with
      | some r => .ok r
      | none => .error .broken
    else .error .broken := by
  have hsame : ∀ m : ℕ, ((size : ℝ) == (m : ℝ)) = decide (size = m) := by
    intro m
    rw [Bool.eq_iff_iff, beq_iff_eq, decide_eq_true_iff]
    norm_cast
  have hfits : ∀ m : ℕ, decide ((m : ℝ) ≤ size) = decide ((m : ℤ) ≤ size) := by
    intro m
    rw [decide_eq_decide]
    norm_cast
  have hnumber : (Setting.whole size : Setting ℝ).number = .ok (size : ℝ) := rfl
  have hcount : (Setting.whole size : Setting ℝ).count = .ok size := rfl
  -- the size is compared as a number and counted as a whole one
  unfold padAs
  rw [hnumber, hcount]
  dsimp only [bind, Except.bind]
  rw [hsame, hsame, hfits, hfits, ← Bool.decide_and, ← Bool.decide_and, ← decide_not]
  simp only [decide_eq_true_iff]
  by_cases hself : size = a.ny ∧ size = a.nx
  · rw [if_pos hself, if_pos hself]
    rfl
  · rw [if_neg hself, if_neg hself]
    by_cases hle : (a.ny : ℤ) ≤ size ∧ (a.nx : ℤ) ≤ size
    · rw [if_neg (not_not.2 hle), if_pos hle]
      rfl
    · rw [if_pos hle, if_neg hle]
      rfl

theorem padAs_eq_error {size : ℤ} (h : size < max (a.ny : ℤ) a.nx) :
    padAs (α := ℝ) a (.whole size) = .error .broken := by
  rw [padAs_whole, if_neg (by omega), if_neg (by omega)]

theorem padAs_eq_ok {size : ℤ} (h : max (a.ny : ℤ) a.nx ≤ size)
    (hr : padTo? a size.toNat = some r) :
    padAs (α := ℝ) a (.whole size) = .ok r := by
  rw [padAs_whole]
  split
  · rename_i hsize
    have hself : padTo? a size.toNat = some a := padTo_self (by omega) (by omega)
    rw [hself] at hr
    exact congrArg Except.ok (Option.some.inj hr)
  · rw [if_pos (by omega), hr]

/-- Padding to a whole size refuses one below a length of the raster. To any other it gives a square
    of that size which holds the raster about its centre and zero elsewhere, and of which padding to
    a larger size makes what padding the raster itself does. -/
theorem padAs_keeps_centre (a : Raster β) (size : ℤ) :
    (size < max (a.ny : ℤ) a.nx → padAs (α := ℝ) a (.whole size) = .error .broken) ∧
    (max (a.ny : ℤ) a.nx ≤ size → ∃ r, padAs (α := ℝ) a (.whole size) = .ok r ∧
      r.ny = size ∧ r.nx = size ∧
      (∀ dy dx : ℤ, a.Covers (a.ny / 2 + dy) (a.nx / 2 + dx) →
        r.Covers (size / 2 + dy) (size / 2 + dx) ∧
        r.getInt (size / 2 + dy) (size / 2 + dx) = a.getInt (a.ny / 2 + dy) (a.nx / 2 + dx)) ∧
      (∀ dy dx : ℤ, ¬a.Covers (a.ny / 2 + dy) (a.nx / 2 + dx) →
        r.getInt (size / 2 + dy) (size / 2 + dx) = 0) ∧
      ∀ larger : ℤ, size ≤ larger →
        padAs (α := ℝ) r (.whole larger) = padAs (α := ℝ) a (.whole larger)) := by
  refine ⟨padAs_eq_error, ?_⟩
  intro hsize
  obtain ⟨r, hr⟩ := padTo_eq_some (a := a) (n := size.toNat) (by omega) (by omega)
  obtain ⟨hny, hnx⟩ := ny_padTo hr
  have hcentre : ∀ dy dx : ℤ,
      r.getInt (size / 2 + dy) (size / 2 + dx) = a.getInt (a.ny / 2 + dy) (a.nx / 2 + dx) := by
    intro dy dx
    have hhalf : ((size.toNat / 2 : ℕ) : ℤ) = size / 2 := by omega
    have hplace := getInt_padTo hr dy dx
    rw [hhalf, Int.natCast_div, Int.natCast_div] at hplace
    exact hplace
  refine ⟨r, padAs_eq_ok hsize hr, by omega, by omega, ?_, ?_, ?_⟩
  · intro dy dx hin
    refine ⟨?_, hcentre dy dx⟩
    unfold Raster.Covers at hin ⊢
    omega
  · intro dy dx hout
    rw [hcentre, a.getInt_eq_zero hout]
  · intro larger hlarger
    obtain ⟨s, hs⟩ := padTo_eq_some (a := a) (n := larger.toNat) (by omega) (by omega)
    have htwice : padTo? r larger.toNat = some s := by rw [padTo_padTo hr (by omega), hs]
    rw [padAs_eq_ok (by omega) hs, padAs_eq_ok (by omega) htwice]

/-- Two rows of three pixels, numbered from one on. -/
def twoByThree : Raster ℕ := Raster.ofFn 2 3 fun j i => 3 * j + i + 1

theorem padAs_keeps_centre_twoByThree :
    padAs (α := ℝ) twoByThree (.whole 2) = .error .broken ∧
    ∃ r, padAs (α := ℝ) twoByThree (.whole 4) = .ok r ∧ r.ny = 4 ∧ r.nx = 4 ∧
      r.getInt 1 1 = 1 ∧ r.getInt 2 3 = 6 ∧ r.getInt 3 0 = 0 ∧
      padAs (α := ℝ) r (.whole 7) = padAs (α := ℝ) twoByThree (.whole 7) := by
  have hlengths : max (twoByThree.ny : ℤ) twoByThree.nx = 3 := by decide
  obtain ⟨hrefused, -⟩ := padAs_keeps_centre twoByThree 2
  obtain ⟨-, hpadded⟩ := padAs_keeps_centre twoByThree 4
  obtain ⟨r, hr, hny, hnx, hkept, hzero, hlarger⟩ := hpadded (by rw [hlengths]; decide)
  -- the centre goes from pixel (1, 1) to pixel (2, 2)
  have hfirst := (hkept (-1) (-1) (by unfold Raster.Covers; decide)).2
  have hlast := (hkept 0 1 (by unfold Raster.Covers; decide)).2
  have hcorner := hzero 1 (-2) (by unfold Raster.Covers; decide)
  norm_num at hfirst hlast hcorner
  exact ⟨hrefused (by rw [hlengths]; decide), r, hr, by omega, by omega, hfirst.trans (by decide),
    hlast.trans (by decide), hcorner, hlarger 7 (by decide)⟩

end Fourier

end ApertureSynthesis
