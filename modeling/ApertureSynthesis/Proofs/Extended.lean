/-
  Real numbers and one value that is not a number.

  `Extended` has exact arithmetic on numbers, and what is not a number spoils every result that it
  enters: also a product with zero (`nan_mul`). A quotient by zero, the root of a negative number
  and the logarithm of one that is not positive are no numbers. Comparisons with what is not a
  number are false. `Scalar Extended` lets the definitions of the library be read where values may
  be missing.
-/
import Mathlib
import ApertureSynthesis.CellSize
import ApertureSynthesis.Proofs.Exact

namespace ApertureSynthesis

/-- A real number, or what is not a number. -/
inductive Extended where
  /-- A number. -/
  | number (x : ℝ)
  /-- Not a number. -/
  | nan

namespace Extended

/-- An operation on numbers, which what is not a number spoils. -/
noncomputable def lift (f : ℝ → ℝ) : Extended → Extended
  | number x => number (f x)
  | nan => nan

/-- An operation on two numbers, which either of them spoils if it is not a number. -/
noncomputable def lift₂ (f : ℝ → ℝ → ℝ) : Extended → Extended → Extended
  | number x, number y => number (f x y)
  | _, _ => nan

/-- A comparison of two numbers, false where one of them is not a number. -/
def compare (r : ℝ → ℝ → Prop) : Extended → Extended → Prop
  | number x, number y => r x y
  | _, _ => False

/-- Where an operation is defined it gives a number. -/
noncomputable def partly (defined : ℝ → Prop) [DecidablePred defined] (f : ℝ → ℝ) :
    Extended → Extended
  | number x => if defined x then number (f x) else nan
  | nan => nan

/-- The quotient of two numbers, if the divisor is not zero. -/
noncomputable def quotient : Extended → Extended → Extended
  | number x, number y => if y = 0 then nan else number (x / y)
  | _, _ => nan

open Classical in
/-- Numbers, exact, and what is not a number. As an integer the latter is the least of 64 digits,
    and as a whole part zero. -/
noncomputable instance : Scalar Extended where
  add := lift₂ (· + ·)
  sub := lift₂ (· - ·)
  mul := lift₂ (· * ·)
  neg := lift (- ·)
  div := quotient
  zero := number 0
  one := number 1
  natCast n := number n
  intCast n := number n
  ofScientific m s e := number (OfScientific.ofScientific m s e)
  lt := compare (· < ·)
  le := compare (· ≤ ·)
  beq
    | number x, number y => x == y
    | _, _ => false
  decLt := Classical.decRel _
  decLe := Classical.decRel _
  floor := lift fun x => (⌊x⌋ : ℝ)
  toInt
    | number x => ⌊x⌋
    | nan => -9223372036854775808
  wholePart
    | number x => if x < 0 then ⌈x⌉ else ⌊x⌋
    | nan => 0
  sqrt := partly (0 ≤ ·) Real.sqrt
  hypot := lift₂ fun x y => Real.sqrt (x ^ 2 + y ^ 2)
  sin := lift Real.sin
  cos := lift Real.cos
  exp := lift Real.exp
  log := partly (0 < ·) Real.log
  j1 := lift besselIntegral
  pi := number Real.pi

/-- A value is a number. -/
def IsNumber (x : Extended) : Prop := ∃ r, x = number r

theorem zero_def : (0 : Extended) = number 0 := rfl

theorem one_def : (1 : Extended) = number 1 := rfl

theorem natCast_def (n : ℕ) : (n : Extended) = number n := rfl

@[simp] theorem add_number (x y : ℝ) : number x + number y = number (x + y) := rfl

@[simp] theorem sub_number (x y : ℝ) : number x - number y = number (x - y) := rfl

@[simp] theorem mul_number (x y : ℝ) : number x * number y = number (x * y) := rfl

@[simp] theorem neg_number (x : ℝ) : -number x = number (-x) := rfl

@[simp] theorem floor_number (x : ℝ) : Scalar.floor (number x) = number ⌊x⌋ := rfl

@[simp] theorem lt_number (x y : ℝ) : number x < number y ↔ x < y := Iff.rfl

@[simp] theorem beq_number (x y : ℝ) : (number x == number y) = (x == y) := rfl

theorem div_number (x : ℝ) {y : ℝ} (hy : y ≠ 0) : number x / number y = number (x / y) := if_neg hy

/-- What is not a number spoils a product, also one with zero. -/
@[simp] theorem nan_mul (x : Extended) : nan * x = nan := rfl

@[simp] theorem nan_sub (x : Extended) : nan - x = nan := rfl

/-- What is not a number is close to nothing. -/
theorem close_nan (x : Extended) : CellSize.close nan x = false := by
  have hpositive : ¬ nan < 0 := fun h => h
  have hdistance : Scalar.abs (nan - x) = nan := by
    rw [nan_sub, Scalar.abs, if_neg hpositive]
    rfl
  have hfar : ¬ Scalar.abs (nan - x) ≤ 1e-8 + 1e-7 * Scalar.abs x := by
    rw [hdistance]
    exact fun h => h
  rw [CellSize.close, decide_eq_false hfar, Bool.false_and, Bool.false_or]
  cases x <;> rfl

/-- Zero times a number is zero. -/
theorem mul_zero_of_isNumber {x : Extended} (h : x.IsNumber) : x * 0 = 0 := by
  obtain ⟨r, rfl⟩ := h
  rw [zero_def, mul_number, mul_zero]

end Extended

end ApertureSynthesis
