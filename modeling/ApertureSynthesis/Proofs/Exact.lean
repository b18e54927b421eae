/-
  Exact arithmetic: the scalar operations at the real numbers, and the complex number that a pair of
  real parts stands for.

  `Scalar ℝ` lets every definition of the library be read over the reals: rounding, comparison and
  the square root are then the mathematical ones, and no value is missing. `Cplx.val` is the view of
  a pair as a complex number; it is injective and takes each operation on pairs to the operation on
  complex numbers, so sums and products of pairs are computed in `ℂ`.
-/
import Mathlib
import ApertureSynthesis.Cplx

namespace ApertureSynthesis

/-- Bessel's integral for the function of the first kind of order one. -/
noncomputable def besselIntegral (x : ℝ) : ℝ :=
  (∫ t in (0 : ℝ)..Real.pi, Real.cos (t - x * Real.sin t)) / Real.pi

/-- Real numbers. An integral value denotes itself as an integer. -/
noncomputable instance instScalarReal : Scalar ℝ where
  toAdd := Real.instAdd
  toSub := Real.instSub
  toMul := Real.instMul
  toNeg := Real.instNeg
  toDiv := Real.instDivInvMonoid.toDiv
  toZero := Real.instZero
  toOne := Real.instOne
  toNatCast := Real.instNatCast
  toIntCast := Real.instIntCast
  toOfScientific := NNRatCast.toOfScientific
  toLT := Real.instLT
  toLE := Real.instLE
  toBEq := instBEqOfDecidableEq
  decLt := Real.decidableLT
  decLe := Real.decidableLE
  floor x := (⌊x⌋ : ℝ)
  toInt x := ⌊x⌋
  wholePart x := if x < 0 then ⌈x⌉ else ⌊x⌋
  sqrt := Real.sqrt
  hypot x y := Real.sqrt (x ^ 2 + y ^ 2)
  sin := Real.sin
  cos := Real.cos
  exp := Real.exp
  log := Real.log
  j1 := besselIntegral
  pi := Real.pi

namespace Scalar

/-! ## Operations on real numbers -/

@[simp] theorem zero_literal : (0.0 : ℝ) = 0 := by norm_num

@[simp] theorem one_literal : (1.0 : ℝ) = 1 := by norm_num

@[simp] theorem two_literal : (2.0 : ℝ) = 2 := by norm_num

theorem floor_real (x : ℝ) : Scalar.floor x = (⌊x⌋ : ℝ) := rfl

theorem toInt_real (x : ℝ) : toInt x = ⌊x⌋ := rfl

theorem floorInt_real (x : ℝ) : floorInt x = ⌊x⌋ := by
  unfold floorInt
  rw [floor_real, toInt_real, Int.floor_intCast]

theorem ceilInt_real (x : ℝ) : ceilInt x = ⌈x⌉ := by
  unfold ceilInt
  rw [floor_real, toInt_real, Int.floor_intCast, Int.floor_neg, neg_neg]

theorem sq_real (x : ℝ) : sq x = x ^ 2 := (pow_two x).symm

theorem abs_real (x : ℝ) : Scalar.abs x = |x| := by
  unfold Scalar.abs
  by_cases hneg : x < 0
  · rw [if_pos hneg, abs_of_neg hneg]
  · rw [if_neg hneg, abs_of_nonneg (not_lt.1 hneg)]
    by_cases hzero : x = 0
    · simp [hzero]
    · simp [hzero]

@[simp] theorem isFinite_real (x : ℝ) : isFinite x = true := by
  simp [isFinite]

theorem isNaN_real (x : ℝ) : isNaN x = false := by
  simp [isNaN]

theorem maximum_real (x y : ℝ) : maximum x y = max x y := by
  unfold maximum
  rw [isNaN_real, isNaN_real, if_neg Bool.false_ne_true, if_neg Bool.false_ne_true]
  split
  · rename_i hlt
    rw [max_eq_right hlt.le]
  · rename_i hle
    rw [max_eq_left (not_lt.1 hle)]

/-- Rounding moves no whole number. -/
theorem round_intCast (n : ℤ) : round (n : ℝ) = (n : ℝ) := by
  have hfloor : Scalar.floor (n : ℝ) = (n : ℝ) := by rw [floor_real, Int.floor_intCast]
  have hrest : (n : ℝ) - Scalar.floor (n : ℝ) < 0.5 := by rw [hfloor]; norm_num
  unfold round
  rw [if_pos hrest, hfloor]

theorem roundInt_intCast (n : ℤ) : roundInt (n : ℝ) = n := by
  unfold roundInt
  rw [round_intCast, toInt_real, Int.floor_intCast]

/-- Rounding goes down, or up if something is left over. -/
theorem roundInt_cases (x : ℝ) : roundInt x = ⌊x⌋ ∨ roundInt x = ⌊x⌋ + 1 ∧ 0 < Int.fract x := by
  have hbelow : ⌊(⌊x⌋ : ℝ)⌋ = ⌊x⌋ := Int.floor_intCast _
  have habove : ⌊(⌊x⌋ : ℝ) + 1⌋ = ⌊x⌋ + 1 := by rw [Int.floor_add_one, Int.floor_intCast]
  have hrest : x - (⌊x⌋ : ℝ) = Int.fract x := rfl
  unfold roundInt round
  simp only [floor_real, toInt_real, hrest]
  by_cases hlow : Int.fract x < 0.5
  · left
    rw [if_pos hlow, hbelow]
  · have hpos : 0 < Int.fract x := by
      norm_num at hlow
      linarith
    rw [if_neg hlow]
    by_cases hhigh : (0.5 : ℝ) < Int.fract x
    · right
      rw [if_pos hhigh, habove]
      exact ⟨rfl, hpos⟩
    · -- a half goes to the even neighbour
      have hhalf : (Int.fract x == (0.5 : ℝ)) = true :=
        beq_iff_eq.2 (le_antisymm (not_lt.1 hhigh) (not_lt.1 hlow))
      rw [if_neg hhigh, if_pos hhalf]
      split
      · exact .inl hbelow
      · exact .inr ⟨habove, hpos⟩

end Scalar

namespace Cplx

/-! ## Pairs as complex numbers -/

/-- The complex number that a pair of parts stands for. -/
def val (z : Cplx ℝ) : ℂ := ⟨z.re, z.im⟩

/-- The pair of parts of a complex number. -/
def ofVal (z : ℂ) : Cplx ℝ := ⟨z.re, z.im⟩

@[simp] theorem val_ofVal (z : ℂ) : (ofVal z).val = z := rfl

@[simp] theorem ofVal_val (z : Cplx ℝ) : ofVal z.val = z := rfl

theorem val_injective : Function.Injective val := fun x y h => by
  rw [← ofVal_val x, h, ofVal_val]

@[simp] theorem val_re (z : Cplx ℝ) : z.val.re = z.re := rfl

@[simp] theorem val_im (z : Cplx ℝ) : z.val.im = z.im := rfl

@[simp] theorem val_zero : (0 : Cplx ℝ).val = 0 := rfl

@[simp] theorem val_one : (1 : Cplx ℝ).val = 1 := rfl

@[simp] theorem val_ofReal (x : ℝ) : (ofReal x).val = (x : ℂ) := rfl

@[simp] theorem val_add (x y : Cplx ℝ) : (x + y).val = x.val + y.val := rfl

instance : Std.Associative (α := Cplx ℝ) (· + ·) :=
  ⟨fun x y z => val_injective (by rw [val_add, val_add, val_add, val_add, add_assoc])⟩

instance : Std.Commutative (α := Cplx ℝ) (· + ·) :=
  ⟨fun x y => val_injective (by rw [val_add, val_add, add_comm])⟩

@[simp] theorem val_sub (x y : Cplx ℝ) : (x - y).val = x.val - y.val := by
  apply Complex.ext <;> simp

@[simp] theorem val_neg (x : Cplx ℝ) : (-x).val = -x.val := by
  apply Complex.ext <;> simp

@[simp] theorem val_mul (x y : Cplx ℝ) : (x * y).val = x.val * y.val := by
  apply Complex.ext <;> simp

@[simp] theorem val_conj (x : Cplx ℝ) : (conj x).val = (starRingEnd ℂ) x.val := by
  apply Complex.ext <;> simp

@[simp] theorem val_scale (c : ℝ) (x : Cplx ℝ) : (scale c x).val = (c : ℂ) * x.val := by
  rw [scale, val_mul, val_ofReal]

@[simp] theorem val_divReal (x : Cplx ℝ) (c : ℝ) : (x.divReal c).val = x.val / (c : ℂ) := by
  apply Complex.ext
  · rw [Complex.div_ofReal_re]; rfl
  · rw [Complex.div_ofReal_im]; rfl

theorem abs_val (x : Cplx ℝ) : x.abs = ‖x.val‖ := by
  rw [Complex.norm_def, Complex.normSq_apply, ← pow_two, ← pow_two]
  rfl

theorem val_cis (t : ℝ) : (cis t).val = Complex.exp (t * Complex.I) := by
  rw [Complex.exp_mul_I, ← Complex.ofReal_cos, ← Complex.ofReal_sin]
  apply Complex.ext
  · simp [cis]; rfl
  · simp [cis]; rfl

theorem val_foldl_add (xs : List (Cplx ℝ)) (z : Cplx ℝ) :
    (xs.foldl (· + ·) z).val = z.val + (xs.map val).sum := by
  induction xs generalizing z with
  | nil => simp
  | cons x xs ih => rw [List.foldl_cons, ih, val_add, List.map_cons, List.sum_cons, add_assoc]

/-- Sums of pairs are sums of complex numbers. -/
@[simp] theorem val_sum (xs : List (Cplx ℝ)) : (Cplx.sum xs).val = (xs.map val).sum := by
  rw [Cplx.sum, val_foldl_add, val_zero, zero_add]

end Cplx

end ApertureSynthesis
