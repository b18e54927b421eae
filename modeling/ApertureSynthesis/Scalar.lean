/-
  Scalars: the numbers that visibilities, kernels and images are made of. `Scalar α` lists the
  operations the library needs; every numerical definition is written once over it. Programs run
  it on `Float`; statements in exact arithmetic read the same definitions at a field of reals.
-/
import ApertureSynthesis.Bessel

namespace ApertureSynthesis

/-- The arithmetic of a real number type. Comparisons may be partial: a value that is not a
    number compares false with everything, itself included. -/
class Scalar (α : Type) extends Add α, Sub α, Mul α, Neg α, Div α, Zero α, One α, NatCast α,
    IntCast α, OfScientific α, LT α, LE α, BEq α where
  /-- `<` can be tested. -/
  decLt : DecidableLT α
  /-- `≤` can be tested. -/
  decLe : DecidableLE α
  /-- The largest integer value not above `x`. -/
  floor : α → α
  /-- The integer that an integral value denotes. -/
  toInt : α → Int
  /-- The integer next to a finite value on the side of zero, however large it is. -/
  wholePart : α → Int
  /-- Square root. -/
  sqrt : α → α
  /-- Square root of the sum of two squares. -/
  hypot : α → α → α
  /-- Sine of an angle in radians. -/
  sin : α → α
  /-- Cosine of an angle in radians. -/
  cos : α → α
  /-- Exponential. -/
  exp : α → α
  /-- Natural logarithm. -/
  log : α → α
  /-- The Bessel function of the first kind of order one. -/
  j1 : α → α
  /-- Half the circumference of the unit circle. -/
  pi : α

namespace Scalar

variable {α : Type} [Scalar α]

instance : DecidableLT α := decLt

instance : DecidableLE α := decLe

/-- A value that differs from itself is not a number. -/
@[inline] def isNaN (x : α) : Bool := !(x == x)

/-- A finite number leaves zero when taken from itself; an infinity does not. -/
@[inline] def isFinite (x : α) : Bool := x - x == 0

/-- Absolute value; what is not a number stays so. -/
@[inline] def abs (x : α) : α := if x < 0 then -x else if x == 0 then 0 else x

/-- `x²`. -/
@[inline] def sq (x : α) : α := x * x

/-- The square of a finite number is too large to be kept. -/
def outgrows (x : α) : Bool := isFinite x && !isFinite (sq x)

/-- `x ^ n` as a product of `n` factors. -/
def pow (x : α) : Nat → α
  | 0 => 1
  | n + 1 => pow x n * x

/-- Sign of a number as `-1`, `0` or `1`; what is not a number stays so. -/
@[inline] def sign (x : α) : α := if x < 0 then -1 else if 0 < x then 1 else if x == 0 then 0 else x

/-- The largest integer not above `x`. -/
@[inline] def floorInt (x : α) : Int := toInt (floor x)

/-- The smallest integer not below `x`. -/
@[inline] def ceilInt (x : α) : Int := -toInt (floor (-x))

/-- The integer next to `x` on the side of zero. -/
@[inline] def truncInt (x : α) : Int := if x < 0 then ceilInt x else floorInt x

/-- The nearest integral value, a half going to the even neighbour. -/
def round (x : α) : α :=
  let below := floor x
  let rest := x - below
  if rest < 0.5 then below
  else if 0.5 < rest then below + 1
  else if rest == 0.5 then (if toInt below % 2 = 0 then below else below + 1)
  else x

/-- The nearest integer, a half going to the even neighbour. -/
@[inline] def roundInt (x : α) : Int := toInt (round x)

/-- The larger of two numbers; what is not a number prevails. -/
@[inline] def maximum (x y : α) : α :=
  if isNaN x then x else if isNaN y then y else if x < y then y else x

/-- The smaller of two numbers; what is not a number prevails. -/
@[inline] def minimum (x y : α) : α :=
  if isNaN x then x else if isNaN y then y else if y < x then y else x

/-- Speed of light in metres per second. -/
@[inline] def lightSpeed : α := 299792458.0

/-- The sum of a list, from the left. -/
def sum (xs : List α) : α := xs.foldl (· + ·) 0

end Scalar

/-- Sides above this have squares that are kept without loss. -/
def leastSide : Float := 1e-140

/-- Sides below this have squares that can be kept. -/
def greatestSide : Float := 1e140

/-- The length of the hypotenuse of a right triangle, also where the squares of the sides would be
    too large or too small to be kept. An infinite side makes it infinite. -/
def hypotenuse (x y : Float) : Float :=
  let a := x.abs
  let b := y.abs
  if a == 1.0 / 0.0 || b == 1.0 / 0.0 then 1.0 / 0.0
  else if a == 0 || b == 0 then a + b
  else
    let big := if a < b then b else a
    let small := if a < b then a else b
    if leastSide < big && big < greatestSide then Float.sqrt (a * a + b * b)
    else big * Float.sqrt (1 + (small / big) * (small / big))

/-- The integer next to a finite number on the side of zero. A number of more than 62 binary digits
    is a whole number already: 53 digits and a power of two. -/
def integerPart (x : Float) : Int :=
  let (digits, place) := x.frExp
  if place ≤ 62 then x.toInt64.toInt
  else (digits.scaleB 53).toInt64.toInt * (Nat.pow 2 (place - 53).toNat : Nat)

/-- Double precision numbers. An integral value outside the signed 64-bit range, or one that is
    not a number, denotes the least 64-bit integer. -/
instance : Scalar Float where
  natCast := Float.ofNat
  intCast := Float.ofInt
  decLt := fun x y => Float.decLt x y
  decLe := fun x y => Float.decLe x y
  floor := Float.floor
  toInt x :=
    if -9223372036854775808.0 ≤ x ∧ x < 9223372036854775808.0 then x.toInt64.toInt
    else -9223372036854775808
  wholePart := integerPart
  sqrt := Float.sqrt
  hypot := hypotenuse
  sin := Float.sin
  cos := Float.cos
  exp := Float.exp
  log := Float.log
  j1 := besselOne
  pi := doublePi

end ApertureSynthesis
