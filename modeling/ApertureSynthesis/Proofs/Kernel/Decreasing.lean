/-
  The decrease of the spheroidal function from the centre to the edge.

  In each piece of the rational approximation the numerator falls and the denominator rises with
  `x = ν² - end²`, so their quotient falls (`innerPiece_strictAntiOn`, `outerPiece_strictAntiOn`).
  The two pieces do not meet at `3/4`: the outer one starts there about `3.4e-8` below the end of
  the inner one (`seam`). The step is downwards, so the function decreases across it as it does on
  both sides, and the gridding function decreases with it (`spheroidal_decreases`). Neither depends
  on the sign of `ν`, and both are zero beyond the edge.
-/
import Mathlib
import ApertureSynthesis.Proofs.Kernel.Spheroidal

namespace ApertureSynthesis.Kernel

/-! ## Decrease of a piece -/

/-- The terms of a polynomial whose coefficients alternate fall up to zero. -/
theorem evalPowers_lt_of_alternate {a b c d e x y : ℝ} (hb : 0 < b) (hc : 0 ≤ c) (hd : 0 ≤ d)
    (he : 0 ≤ e) (hxy : x < y) (hy : y ≤ 0) :
    evalPowers [a, -b, c, -d, e] y < evalPowers [a, -b, c, -d, e] x := by
  have hneg : 0 ≤ -y := neg_nonneg.2 hy
  have hle : -y ≤ -x := neg_le_neg hxy.le
  have hlinear : b * -y < b * -x := mul_lt_mul_of_pos_left (neg_lt_neg hxy) hb
  have hpower : ∀ n : ℕ, ∀ k : ℝ, 0 ≤ k → k * (-y) ^ n ≤ k * (-x) ^ n := by
    intro n k hk
    exact mul_le_mul_of_nonneg_left (pow_le_pow_left₀ hneg hle n) hk
  rw [evalPowers_alternate, evalPowers_alternate]
  linarith [hpower 2 c hc, hpower 3 d hd, hpower 4 e he]

/-- A denominator rises where its linear term outweighs its square. -/
theorem evalPowers_bottom_le {b c x y : ℝ} (hxy : x ≤ y) (hrise : 0 ≤ b + c * (x + y)) :
    evalPowers [1.0, b, c] x ≤ evalPowers [1.0, b, c] y := by
  have hstep : 0 ≤ (y - x) * (b + c * (x + y)) := mul_nonneg (sub_nonneg.2 hxy) hrise
  rw [evalPowers_bottom, evalPowers_bottom]
  linarith

/-- A piece falls where its numerator falls and its denominator rises. -/
theorem Piece.value_lt {p : Piece ℝ} {x y : ℝ} (htop : evalPowers p.top y < evalPowers p.top x)
    (hbottom : evalPowers p.bottom x ≤ evalPowers p.bottom y) (hx : 0 ≤ evalPowers p.top x)
    (hpos : 0 < evalPowers p.bottom x) : p.value y < p.value x :=
  div_lt_div₀ htop hbottom hx hpos

theorem innerPiece_strictAntiOn :
    StrictAntiOn (innerPiece (α := ℝ)).value (Set.Icc (-(9 / 16)) 0) := by
  intro x hx y hy hxy
  obtain ⟨htop, hbottom⟩ := innerPiece_pos hx.2 (by linarith [hx.1])
  refine Piece.value_lt ?_ ?_ htop.le hbottom
  · exact evalPowers_lt_of_alternate (by norm_num) (by norm_num) (by norm_num)
      (by norm_num) hxy hy.2
  · refine evalPowers_bottom_le hxy.le ?_
    norm_num
    linarith [hx.1, hy.1]

theorem outerPiece_strictAntiOn :
    StrictAntiOn (outerPiece (α := ℝ)).value (Set.Icc (-(7 / 16)) 0) := by
  intro x hx y hy hxy
  obtain ⟨htop, hbottom⟩ := outerPiece_pos hx.2 (by linarith [hx.1])
  refine Piece.value_lt ?_ ?_ htop.le hbottom
  · exact evalPowers_lt_of_alternate (by norm_num) (by norm_num) (by norm_num)
      (by norm_num) hxy hy.2
  · refine evalPowers_bottom_le hxy.le ?_
    norm_num
    linarith [hx.1, hy.1]

/-- At `3/4` the outer piece starts below the end of the inner one. -/
theorem seam : (outerPiece (α := ℝ)).value (-(7 / 16)) < (innerPiece (α := ℝ)).value 0 := by
  have houter : (outerPiece (α := ℝ)).value (-(7 / 16)) < 8.20334e-2 := by
    unfold Piece.value
    rw [div_lt_iff₀ (outerPiece_pos (by norm_num) (by norm_num)).2]
    simp only [outerPiece]
    rw [evalPowers_alternate, evalPowers_bottom]
    norm_num
  have hinner : (8.20334e-2 : ℝ) < (innerPiece (α := ℝ)).value 0 := by
    unfold Piece.value
    rw [lt_div_iff₀ (innerPiece_pos le_rfl (by norm_num)).2]
    simp only [innerPiece]
    rw [evalPowers_alternate, evalPowers_bottom]
    norm_num
  exact houter.trans hinner

/-! ## Decrease from the centre to the edge -/

variable {nu nu' : ℝ}

theorem spheroidal_lt_of_inner (h0 : 0 ≤ nu) (hlt : nu < nu') (hinner : nu' < 0.75) :
    spheroidal nu' < spheroidal nu := by
  have hsquare : nu * nu < nu' * nu' := mul_self_lt_mul_self h0 hlt
  have hend : nu' * nu' ≤ 0.75 * 0.75 := mul_self_le_mul_self (h0.trans hlt.le) hinner.le
  rw [spheroidal_inner h0 (hlt.trans hinner), spheroidal_inner (h0.trans hlt.le) hinner]
  norm_num at hend ⊢
  exact innerPiece_strictAntiOn ⟨by nlinarith, by linarith⟩
    ⟨by nlinarith, by linarith⟩ (by linarith)

theorem spheroidal_lt_of_outer (houter : 0.75 ≤ nu) (hlt : nu < nu') (h1 : nu' ≤ 1) :
    spheroidal nu' < spheroidal nu := by
  have hstart : (0.75 : ℝ) * 0.75 ≤ nu * nu := mul_self_le_mul_self (by norm_num) houter
  have h0 : 0 ≤ nu := le_trans (by norm_num) houter
  have hsquare : nu * nu < nu' * nu' := mul_self_lt_mul_self h0 hlt
  have hend : nu' * nu' ≤ 1 := mul_le_one₀ h1 (h0.trans hlt.le) h1
  rw [spheroidal_outer houter (hlt.le.trans h1), spheroidal_outer (houter.trans hlt.le) h1]
  norm_num at hstart
  exact outerPiece_strictAntiOn ⟨by linarith, by linarith⟩ ⟨by linarith, by linarith⟩ (by linarith)

/-- On the two sides of `3/4` the ends of the pieces stand between the values. -/
theorem spheroidal_lt_of_seam (h0 : 0 ≤ nu) (hinner : nu < 0.75) (houter : 0.75 ≤ nu')
    (h1 : nu' ≤ 1) :
    spheroidal nu' < spheroidal nu := by
  have hbefore : nu * nu < 0.75 * 0.75 := mul_self_lt_mul_self h0 hinner
  have hbehind : (0.75 : ℝ) * 0.75 ≤ nu' * nu' := mul_self_le_mul_self (by norm_num) houter
  have hend : nu' * nu' ≤ 1 := mul_le_one₀ h1 (le_trans (by norm_num) houter) h1
  have hsquare : 0 ≤ nu * nu := mul_self_nonneg nu
  rw [spheroidal_inner h0 hinner, spheroidal_outer houter h1]
  norm_num at hbefore hbehind ⊢
  calc outerPiece.value (nu' * nu' - 1)
      ≤ outerPiece.value (-(7 / 16)) := outerPiece_strictAntiOn.antitoneOn ⟨le_rfl, by norm_num⟩
        ⟨by linarith, by linarith⟩ (by linarith)
    _ < innerPiece.value 0 := seam
    _ < innerPiece.value (nu * nu - 9 / 16) := innerPiece_strictAntiOn
        ⟨by linarith, by linarith⟩ ⟨by norm_num, le_rfl⟩ (by linarith)

theorem spheroidal_strictAntiOn : StrictAntiOn (spheroidal (α := ℝ)) (Set.Icc 0 1) := by
  intro nu hnu nu' hnu' hlt
  by_cases hinner : nu' < 0.75
  · exact spheroidal_lt_of_inner hnu.1 hlt hinner
  · have houter : 0.75 ≤ nu' := not_lt.1 hinner
    by_cases hbefore : nu < 0.75
    · exact spheroidal_lt_of_seam hnu.1 hbefore houter hnu'.2
    · exact spheroidal_lt_of_outer (not_lt.1 hbefore) hlt hnu'.2

theorem griddingFunction_strictAntiOn : StrictAntiOn (griddingFunction (α := ℝ)) (Set.Icc 0 1) := by
  intro nu hnu nu' hnu' hlt
  have hsquare : nu * nu < nu' * nu' := mul_self_lt_mul_self hnu.1 hlt
  have hend : nu' * nu' ≤ 1 := mul_le_one₀ hnu'.2 hnu'.1 hnu'.2
  calc (1 - nu' * nu') * spheroidal nu'
      ≤ (1 - nu' * nu') * spheroidal nu := mul_le_mul_of_nonneg_left
        (spheroidal_strictAntiOn hnu hnu' hlt).le (sub_nonneg.2 hend)
    _ < (1 - nu * nu) * spheroidal nu := mul_lt_mul_of_pos_right (sub_lt_sub_left hsquare 1)
        (spheroidal_pos hnu.1 hnu.2)

/-! ## Both sides of the centre, and beyond the edge -/

theorem spheroidal_even : Function.Even (spheroidal (α := ℝ)) := by
  intro nu
  unfold spheroidal
  rw [Scalar.abs_real, Scalar.abs_real, abs_neg]

theorem griddingFunction_even : Function.Even (griddingFunction (α := ℝ)) := by
  intro nu
  rw [griddingFunction, griddingFunction, spheroidal_even, neg_mul_neg]

theorem spheroidal_eq_zero (hnu : 1 < |nu|) : spheroidal nu = 0 := by
  unfold spheroidal
  rw [Scalar.abs_real, Scalar.one_literal]
  exact if_pos hnu

/-- From the centre to the edge, both functions are positive (the gridding function not at the edge,
    where it is zero) and decrease, across the seam too. The spheroidal function is the quotient of
    its piece, whose denominator is positive. Both are even, and zero beyond the edge. -/
theorem spheroidal_decreases :
    StrictAntiOn (spheroidal (α := ℝ)) (Set.Icc 0 1) ∧
    StrictAntiOn (griddingFunction (α := ℝ)) (Set.Icc 0 1) ∧
    (∀ nu : ℝ, 0 ≤ nu → nu ≤ 1 → 0 < spheroidal nu ∧ 0 ≤ griddingFunction nu) ∧
    (∀ nu : ℝ, 0 ≤ nu → nu < 0.75 →
      spheroidal nu = innerPiece.value (nu * nu - innerPiece.last * innerPiece.last) ∧
      0 < evalPowers innerPiece.bottom (nu * nu - innerPiece.last * innerPiece.last)) ∧
    (∀ nu : ℝ, 0.75 ≤ nu → nu ≤ 1 →
      spheroidal nu = outerPiece.value (nu * nu - outerPiece.last * outerPiece.last) ∧
      0 < evalPowers outerPiece.bottom (nu * nu - outerPiece.last * outerPiece.last)) ∧
    Function.Even (spheroidal (α := ℝ)) ∧ Function.Even (griddingFunction (α := ℝ)) ∧
    griddingFunction (1 : ℝ) = 0 ∧
    ∀ nu : ℝ, 1 < |nu| → spheroidal nu = 0 ∧ griddingFunction nu = 0 := by
  refine ⟨spheroidal_strictAntiOn, griddingFunction_strictAntiOn, ?positive, ?inner, ?outer,
    spheroidal_even, griddingFunction_even, ?edge, ?beyond⟩
  case positive =>
    intro nu h0 h1
    exact ⟨spheroidal_pos h0 h1, griddingFunction_nonneg h0 h1⟩
  case inner =>
    intro nu h0 hinner
    have hsquare : nu * nu < 0.75 * 0.75 := mul_self_lt_mul_self h0 hinner
    refine ⟨spheroidal_inner h0 hinner, (innerPiece_pos (sub_neg.2 hsquare).le ?_).2⟩
    norm_num [innerPiece]
    nlinarith
  case outer =>
    intro nu houter h1
    have hend : (outerPiece (α := ℝ)).last * outerPiece.last = 1 := by norm_num [outerPiece]
    have hstart : (0.75 : ℝ) * 0.75 ≤ nu * nu := mul_self_le_mul_self (by norm_num) houter
    have hsquare : nu * nu ≤ 1 := mul_le_one₀ h1 (le_trans (by norm_num) houter) h1
    rw [hend]
    norm_num at hstart
    exact ⟨spheroidal_outer houter h1, (outerPiece_pos (by linarith) (by linarith)).2⟩
  case edge => rw [griddingFunction, mul_one, sub_self, zero_mul]
  case beyond =>
    intro nu hnu
    exact ⟨spheroidal_eq_zero hnu, by rw [griddingFunction, spheroidal_eq_zero hnu, mul_zero]⟩

/-- On both sides of the seam, and beyond the edge. -/
theorem spheroidal_decreases_seam :
    spheroidal (0.75 : ℝ) < spheroidal 0.7499999 ∧
    griddingFunction (0.75 : ℝ) < griddingFunction 0.7499999 ∧
    0 < spheroidal (0.75 : ℝ) ∧ 0 ≤ griddingFunction (0.75 : ℝ) ∧
    0 < evalPowers innerPiece.bottom
      ((0.7499999 : ℝ) * 0.7499999 - innerPiece.last * innerPiece.last) ∧
    0 < evalPowers outerPiece.bottom ((0.75 : ℝ) * 0.75 - outerPiece.last * outerPiece.last) ∧
    spheroidal (-1.5 : ℝ) = 0 := by
  obtain ⟨hspheroidal, hgridding, hpositive, hinner, houter, -, -, -, hbeyond⟩ :=
    spheroidal_decreases
  have hbefore : (0.7499999 : ℝ) ∈ Set.Icc 0 1 := ⟨by norm_num, by norm_num⟩
  have hat : (0.75 : ℝ) ∈ Set.Icc 0 1 := ⟨by norm_num, by norm_num⟩
  have hlt : (0.7499999 : ℝ) < 0.75 := by norm_num
  obtain ⟨hpos, hnonneg⟩ := hpositive 0.75 hat.1 hat.2
  exact ⟨hspheroidal hbefore hat hlt, hgridding hbefore hat hlt, hpos, hnonneg,
    (hinner 0.7499999 hbefore.1 hlt).2, (houter 0.75 le_rfl hat.2).2,
    (hbeyond (-1.5) (by norm_num [abs_of_neg])).1⟩

end ApertureSynthesis.Kernel
