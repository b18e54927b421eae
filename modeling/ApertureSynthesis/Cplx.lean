/-
  Complex numbers over a scalar type, as pairs of a real and an imaginary part. A real factor is
  always taken as a complex number with imaginary part zero, so a part that is not a number
  spoils both parts of a product.
-/
import ApertureSynthesis.Scalar

namespace ApertureSynthesis

/-- A complex number. -/
structure Cplx (α : Type) where
  /-- Real part. -/
  re : α
  /-- Imaginary part. -/
  im : α

namespace Cplx

variable {α : Type} [Scalar α]

@[ext]
theorem ext {α : Type} {x y : Cplx α} (hre : x.re = y.re) (him : x.im = y.im) : x = y := by
  cases x; cases y; simp_all

instance : Zero (Cplx α) := ⟨⟨0, 0⟩⟩

instance : One (Cplx α) := ⟨⟨1, 0⟩⟩

instance : Inhabited (Cplx α) := ⟨0⟩

/-- The complex number of a real one. -/
@[inline] def ofReal (x : α) : Cplx α := ⟨x, 0⟩

@[inline] instance : Add (Cplx α) := ⟨fun x y => ⟨x.re + y.re, x.im + y.im⟩⟩

@[inline] instance : Sub (Cplx α) := ⟨fun x y => ⟨x.re - y.re, x.im - y.im⟩⟩

@[inline] instance : Neg (Cplx α) := ⟨fun x => ⟨-x.re, -x.im⟩⟩

@[inline] instance : Mul (Cplx α) :=
  ⟨fun x y => ⟨x.re * y.re - x.im * y.im, x.re * y.im + x.im * y.re⟩⟩

/-- Complex conjugate. -/
@[inline] def conj (x : Cplx α) : Cplx α := ⟨x.re, -x.im⟩

/-- Product with a real factor, as the product of two complex numbers. -/
@[inline] def scale (c : α) (x : Cplx α) : Cplx α := ofReal c * x

/-- Quotient by a real divisor, part by part. -/
@[inline] def divReal (x : Cplx α) (c : α) : Cplx α := ⟨x.re / c, x.im / c⟩

/-- Absolute value. -/
@[inline] def abs (x : Cplx α) : α := Scalar.hypot x.re x.im

/-- `e ^ (i t)`. -/
@[inline] def cis (t : α) : Cplx α := ⟨Scalar.cos t, Scalar.sin t⟩

/-- Both parts are equal numbers. -/
def beq (x y : Cplx α) : Bool := x.re == y.re && x.im == y.im

instance : BEq (Cplx α) := ⟨beq⟩

@[simp] theorem zero_re : (0 : Cplx α).re = 0 := rfl
@[simp] theorem zero_im : (0 : Cplx α).im = 0 := rfl
@[simp] theorem one_re : (1 : Cplx α).re = 1 := rfl
@[simp] theorem one_im : (1 : Cplx α).im = 0 := rfl
@[simp] theorem ofReal_re (x : α) : (ofReal x).re = x := rfl
@[simp] theorem ofReal_im (x : α) : (ofReal x).im = 0 := rfl
@[simp] theorem add_re (x y : Cplx α) : (x + y).re = x.re + y.re := rfl
@[simp] theorem add_im (x y : Cplx α) : (x + y).im = x.im + y.im := rfl
@[simp] theorem sub_re (x y : Cplx α) : (x - y).re = x.re - y.re := rfl
@[simp] theorem sub_im (x y : Cplx α) : (x - y).im = x.im - y.im := rfl
@[simp] theorem neg_re (x : Cplx α) : (-x).re = -x.re := rfl
@[simp] theorem neg_im (x : Cplx α) : (-x).im = -x.im := rfl
@[simp] theorem mul_re (x y : Cplx α) : (x * y).re = x.re * y.re - x.im * y.im := rfl
@[simp] theorem mul_im (x y : Cplx α) : (x * y).im = x.re * y.im + x.im * y.re := rfl
@[simp] theorem conj_re (x : Cplx α) : (conj x).re = x.re := rfl
@[simp] theorem conj_im (x : Cplx α) : (conj x).im = -x.im := rfl
@[simp] theorem divReal_re (x : Cplx α) (c : α) : (x.divReal c).re = x.re / c := rfl
@[simp] theorem divReal_im (x : Cplx α) (c : α) : (x.divReal c).im = x.im / c := rfl

/-- The sum of a list, from the left. -/
def sum (xs : List (Cplx α)) : Cplx α := xs.foldl (· + ·) 0

end Cplx

end ApertureSynthesis
