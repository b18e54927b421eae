/-
  Rounding to the nearest integer, a half going to the even neighbour.

  No integer is nearer to a number than the rounded one (`abs_sub_roundInt_le_abs_sub`). The rounded
  number is determined by its distance, at most a half, and by being even where that is a half
  (`roundInt_unique`). So rounding commutes with a reflection at an integer (`roundInt_reflect`).
-/
import Mathlib
import ApertureSynthesis.Proofs.Exact

namespace ApertureSynthesis.Scalar

/-- Rounding goes to the nearer neighbour, or to the even one of two. -/
theorem roundInt_real (x : ℝ) :
    roundInt x = if Int.fract x < 1 / 2 then ⌊x⌋
      else if 1 / 2 < Int.fract x then ⌊x⌋ + 1
      else if ⌊x⌋ % 2 = 0 then ⌊x⌋ else ⌊x⌋ + 1 := by
  have hhalf : (0.5 : ℝ) = 1 / 2 := by norm_num
  have hrest : x - (⌊x⌋ : ℝ) = Int.fract x := rfl
  have hbelow : ⌊(⌊x⌋ : ℝ)⌋ = ⌊x⌋ := Int.floor_intCast _
  have habove : ⌊(⌊x⌋ : ℝ) + 1⌋ = ⌊x⌋ + 1 := by rw [Int.floor_add_one, Int.floor_intCast]
  unfold roundInt round
  simp only [floor_real, toInt_real, hrest, hhalf, hbelow]
  by_cases hlow : Int.fract x < 1 / 2
  · rw [if_pos hlow, if_pos hlow, hbelow]
  rw [if_neg hlow, if_neg hlow]
  by_cases hhigh : 1 / 2 < Int.fract x
  · rw [if_pos hhigh, if_pos hhigh, habove]
  have heq : (Int.fract x == (1 / 2 : ℝ)) = true :=
    beq_iff_eq.2 (le_antisymm (not_lt.1 hhigh) (not_lt.1 hlow))
  rw [if_neg hhigh, if_neg hhigh, if_pos heq]
  split
  · exact hbelow
  · exact habove

/-- A number is at most a half away from what it is rounded to, which is even if it is just a
    half. -/
theorem abs_sub_roundInt (x : ℝ) :
    |x - roundInt x| ≤ 1 / 2 ∧ (|x - roundInt x| = 1 / 2 → Even (roundInt x)) := by
  have hnonneg := Int.fract_nonneg x
  have hlt := Int.fract_lt_one x
  have hx : x = ⌊x⌋ + Int.fract x := (Int.floor_add_fract x).symm
  have hdown : |x - (⌊x⌋ : ℝ)| = Int.fract x := abs_of_nonneg hnonneg
  have hup : |x - ((⌊x⌋ + 1 : ℤ) : ℝ)| = 1 - Int.fract x := by
    have hsub : x - ((⌊x⌋ + 1 : ℤ) : ℝ) = -(1 - Int.fract x) := by
      push_cast
      linarith
    rw [hsub, abs_neg, abs_of_pos (by linarith)]
  rw [roundInt_real]
  split_ifs with hlow hhigh heven
  · rw [hdown]
    exact ⟨hlow.le, fun h => absurd h hlow.ne⟩
  · rw [hup]
    exact ⟨by linarith, fun h => absurd h (by linarith)⟩
  · rw [hdown]
    exact ⟨not_lt.1 hhigh, fun _ => Int.even_iff.2 heven⟩
  · rw [hup]
    exact ⟨by linarith [not_lt.1 hlow], fun _ => Int.even_iff.2 (by omega)⟩

/-- The distance determines the rounded number, together with its being even if the distance is a
    half. -/
theorem roundInt_unique {x : ℝ} {n : ℤ} (hle : |x - n| ≤ 1 / 2) (heven : |x - n| = 1 / 2 → Even n) :
    roundInt x = n := by
  obtain ⟨hle', heven'⟩ := abs_sub_roundInt x
  by_contra hne
  -- two neighbours, each a half away, would be even both
  have hapart : (1 : ℝ) ≤ |((roundInt x : ℤ) : ℝ) - n| := by
    have hone : 1 ≤ |roundInt x - n| := Int.one_le_abs (sub_ne_zero.2 hne)
    exact_mod_cast hone
  have htriangle : |((roundInt x : ℤ) : ℝ) - n| ≤ |x - roundInt x| + |x - n| := by
    rw [abs_sub_comm x]
    exact abs_sub_le _ x _
  have h := heven (by linarith)
  have h' := heven' (by linarith)
  have hnear : |((roundInt x : ℤ) : ℝ) - n| = 1 := by linarith
  have hnear' : |roundInt x - n| = 1 := by exact_mod_cast hnear
  obtain ⟨a, ha⟩ := h
  obtain ⟨b, hb⟩ := h'
  rcases abs_cases (roundInt x - n) with ⟨habs, -⟩ | ⟨habs, -⟩ <;> omega

/-- No integer is nearer. -/
theorem abs_sub_roundInt_le_abs_sub (x : ℝ) (k : ℤ) : |x - roundInt x| ≤ |x - k| := by
  by_cases hnear : |x - (k : ℝ)| < 1 / 2
  · rw [roundInt_unique hnear.le fun h => absurd h hnear.ne]
  · exact (abs_sub_roundInt x).1.trans (not_lt.1 hnear)

/-- Rounding commutes with a reflection at an integer. -/
theorem roundInt_reflect (x : ℝ) (k : ℤ) : roundInt ((2 * k : ℤ) - x) = 2 * k - roundInt x := by
  obtain ⟨hle, heven⟩ := abs_sub_roundInt x
  have hsame : |((2 * k : ℤ) : ℝ) - x - ((2 * k - roundInt x : ℤ) : ℝ)| = |x - roundInt x| := by
    have hsub : ((2 * k : ℤ) : ℝ) - x - ((2 * k - roundInt x : ℤ) : ℝ) = -(x - roundInt x) := by
      push_cast
      ring
    rw [hsub, abs_neg]
  refine roundInt_unique (hsame.trans_le hle) fun h => ?_
  exact (even_two_mul k).sub (heven (hsame.symm.trans h))

end ApertureSynthesis.Scalar
