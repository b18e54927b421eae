/-
  The sign of the gridding function.

  Each piece of the rational approximation is read at `x = ν² - end²`, which is not positive: the
  coefficients of the numerator alternate, so that all of its terms are of one sign, and the
  denominator stays above zero. So the spheroidal function is positive up to the edge
  (`spheroidal_pos`), the gridding function is positive before the edge and zero at it, and a sample
  of the anti-aliasing kernel is never negative (`profile_nonneg`) and positive less than three
  cells from the centre (`profile_pos`).
-/
import Mathlib
import ApertureSynthesis.Proofs.Kernel.ZeroW

namespace ApertureSynthesis

namespace Scalar

theorem pow_real (x : ℝ) (n : ℕ) : pow x n = x ^ n := by
  induction n with
  | zero => exact (pow_zero x).symm
  | succ n ih => rw [pow, ih, pow_succ]

theorem sum_real (xs : List ℝ) : Scalar.sum xs = xs.sum := by
  rw [Scalar.sum, ← List.sum_eq_foldl]

end Scalar

namespace Kernel

/-! ## The two pieces -/

/-- A polynomial whose coefficients alternate has terms of one sign up to zero. -/
theorem evalPowers_alternate (a b c d e x : ℝ) : evalPowers [a, -b, c, -d, e] x =
    a + (b * -x + c * (-x) ^ 2 + d * (-x) ^ 3 + e * (-x) ^ 4) := by
  simp only [evalPowers, Scalar.sum_real, Scalar.pow_real, List.zipIdx_cons, List.zipIdx_nil,
    List.map_cons, List.map_nil, List.sum_cons, List.sum_nil]
  ring

theorem evalPowers_bottom (b c x : ℝ) : evalPowers [1.0, b, c] x = 1 + b * x + c * x ^ 2 := by
  simp only [evalPowers, Scalar.sum_real, Scalar.pow_real, List.zipIdx_cons, List.zipIdx_nil,
    List.map_cons, List.map_nil, List.sum_cons, List.sum_nil]
  norm_num
  ring

/-- A polynomial whose coefficients alternate is positive up to zero. -/
theorem evalPowers_pos_of_alternate {a b c d e x : ℝ} (ha : 0 < a) (hb : 0 ≤ b) (hc : 0 ≤ c)
    (hd : 0 ≤ d) (he : 0 ≤ e) (hx : x ≤ 0) : 0 < evalPowers [a, -b, c, -d, e] x := by
  have hy : 0 ≤ -x := neg_nonneg.2 hx
  rw [evalPowers_alternate]
  positivity

/-- A denominator stays above zero: its linear term takes off less than one. -/
theorem evalPowers_pos_of_le_one {b c x : ℝ} (hb : 0 ≤ b) (hb' : b ≤ 1) (hc : 0 ≤ c) (hx : -1 < x) :
    0 < evalPowers [1.0, b, c] x := by
  have hlinear : -1 < b * x := by
    rcases le_or_gt 0 x with hpos | hneg
    · exact neg_one_lt_zero.trans_le (mul_nonneg hb hpos)
    · calc -1 < x := hx
        _ = 1 * x := (one_mul x).symm
        _ ≤ b * x := mul_le_mul_of_nonpos_right hb' hneg.le
  have hsquare : 0 ≤ c * x ^ 2 := mul_nonneg hc (sq_nonneg x)
  rw [evalPowers_bottom]
  linarith

theorem innerPiece_pos {x : ℝ} (hx : x ≤ 0) (hlow : -1 < x) :
    0 < evalPowers (innerPiece (α := ℝ)).top x ∧ 0 < evalPowers (innerPiece (α := ℝ)).bottom x :=
  ⟨evalPowers_pos_of_alternate (by norm_num) (by norm_num) (by norm_num) (by norm_num)
    (by norm_num) hx, evalPowers_pos_of_le_one (by norm_num) (by norm_num) (by norm_num) hlow⟩

theorem outerPiece_pos {x : ℝ} (hx : x ≤ 0) (hlow : -1 < x) :
    0 < evalPowers (outerPiece (α := ℝ)).top x ∧ 0 < evalPowers (outerPiece (α := ℝ)).bottom x :=
  ⟨evalPowers_pos_of_alternate (by norm_num) (by norm_num) (by norm_num) (by norm_num)
    (by norm_num) hx, evalPowers_pos_of_le_one (by norm_num) (by norm_num) (by norm_num) hlow⟩

/-! ## The spheroidal function up to the edge -/

/-- The value of a piece. -/
noncomputable def Piece.value (p : Piece ℝ) (x : ℝ) : ℝ :=
  evalPowers p.top x / evalPowers p.bottom x

theorem spheroidal_inner {nu : ℝ} (h0 : 0 ≤ nu) (hinner : nu < 0.75) :
    spheroidal nu = innerPiece.value (nu * nu - 0.75 * 0.75) := by
  have hedge : ¬(1.0 : ℝ) < nu := by
    norm_num at hinner ⊢
    linarith
  have hbottom : 0 < evalPowers (innerPiece (α := ℝ)).bottom (nu * nu - 0.75 * 0.75) :=
    (innerPiece_pos (by nlinarith) (by norm_num; nlinarith)).2
  unfold spheroidal
  rw [Scalar.abs_real, abs_of_nonneg h0]
  dsimp only
  rw [if_neg hedge, if_neg (not_le.2 hinner), if_neg (not_le.2 hinner), Scalar.zero_literal,
    if_pos h0, if_pos hbottom]
  rfl

theorem spheroidal_outer {nu : ℝ} (houter : 0.75 ≤ nu) (h1 : nu ≤ 1) :
    spheroidal nu = outerPiece.value (nu * nu - 1) := by
  have h0 : 0 ≤ nu := by
    norm_num at houter
    linarith
  have hedge : ¬(1.0 : ℝ) < nu := by
    rw [Scalar.one_literal]
    exact not_lt.2 h1
  have hbottom : 0 < evalPowers (outerPiece (α := ℝ)).bottom (nu * nu - 1) := by
    norm_num at houter
    exact (outerPiece_pos (by nlinarith) (by nlinarith)).2
  unfold spheroidal
  rw [Scalar.abs_real, abs_of_nonneg h0]
  dsimp only
  rw [if_neg hedge, if_pos houter, if_pos houter, Scalar.one_literal, mul_one, Scalar.zero_literal,
    if_pos hbottom]
  rfl

theorem spheroidal_pos {nu : ℝ} (h0 : 0 ≤ nu) (h1 : nu ≤ 1) : 0 < spheroidal nu := by
  by_cases houter : (0.75 : ℝ) ≤ nu
  · have hfar := houter
    norm_num at hfar
    obtain ⟨htop, hbottom⟩ := outerPiece_pos (x := nu * nu - 1) (by nlinarith) (by nlinarith)
    rw [spheroidal_outer houter h1]
    exact div_pos htop hbottom
  · have hinner : nu < 0.75 := not_le.1 houter
    obtain ⟨htop, hbottom⟩ := innerPiece_pos (x := nu * nu - 0.75 * 0.75) (by nlinarith)
      (by norm_num; nlinarith)
    rw [spheroidal_inner h0 hinner]
    exact div_pos htop hbottom

theorem griddingFunction_nonneg {nu : ℝ} (h0 : 0 ≤ nu) (h1 : nu ≤ 1) : 0 ≤ griddingFunction nu :=
  mul_nonneg (by nlinarith) (spheroidal_pos h0 h1).le

theorem griddingFunction_pos {nu : ℝ} (h0 : 0 ≤ nu) (h1 : nu < 1) : 0 < griddingFunction nu :=
  mul_pos (by nlinarith) (spheroidal_pos h0 h1.le)

/-! ## Samples of the anti-aliasing kernel -/

variable {oversample : ℕ} {d : ℤ}

theorem profile_nonneg (oversample : ℕ) (d : ℤ) : 0 ≤ profile oversample d := by
  unfold profile
  split
  · rename_i hd
    refine griddingFunction_nonneg (by positivity) (div_le_one_of_le₀ ?_ (by positivity))
    exact_mod_cast hd
  · exact le_rfl

theorem profile_pos (hd : |d| < 3 * oversample) : 0 < profile oversample d := by
  have hpos : (0 : ℤ) < 3 * oversample := (abs_nonneg d).trans_lt hd
  rw [profile, if_pos hd.le]
  refine griddingFunction_pos (by positivity) ((div_lt_one ?_).2 ?_)
  · exact_mod_cast hpos
  · exact_mod_cast hd

end Kernel

end ApertureSynthesis
