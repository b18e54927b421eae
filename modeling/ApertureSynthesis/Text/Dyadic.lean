/-
  The exact value of a double: `± mantissa · 2 ^ exponent`. Decimal texts are computed from it in
  whole numbers, so that every digit is right.
-/

namespace ApertureSynthesis.Text

/-- A number `± mantissa · 2 ^ exponent`. -/
structure Dyadic where
  /-- The sign is minus. -/
  negative : Bool
  /-- Whole mantissa. -/
  mantissa : Nat
  /-- Power of two. -/
  exponent : Int
deriving DecidableEq, Repr

namespace Dyadic

/-- The exact value of a finite double. -/
def ofFloat? (x : Float) : Option Dyadic :=
  let bits := x.toBits.toNat
  let negative := decide (Nat.pow 2 63 ≤ bits)
  let field : Nat := bits / Nat.pow 2 52 % Nat.pow 2 11
  let fraction := bits % Nat.pow 2 52
  if field = 2047 then none
  else if field = 0 then some ⟨negative, fraction, -1074⟩
  else some ⟨negative, fraction + Nat.pow 2 52, (field : Int) - 1075⟩

/-- Numerator of the magnitude as a quotient of whole numbers. -/
def numerator (d : Dyadic) : Nat := d.mantissa * Nat.pow 2 d.exponent.toNat

/-- Denominator of the magnitude as a quotient of whole numbers. -/
def denominator (d : Dyadic) : Nat := Nat.pow 2 (-d.exponent).toNat

end Dyadic

/-- The whole number nearest to `num / den`, a half going to the even neighbour. -/
def roundDiv (num den : Nat) : Nat :=
  let q := num / den
  let r := num % den
  if 2 * r < den then q else if den < 2 * r then q + 1 else q + q % 2

/-- The multiple of `10 ^ place` nearest to `num / den`, in units of `10 ^ place`. -/
def roundAt (num den : Nat) (place : Int) : Nat :=
  roundDiv (num * Nat.pow 10 (-place).toNat) (den * Nat.pow 10 place.toNat)

/-- Number of decimal digits of a whole number; zero has one. -/
def digitCount (n : Nat) : Nat := (Nat.toDigits 10 n).length

/-- The power of ten below `num / den`: `10 ^ k ≤ num / den < 10 ^ (k + 1)`. -/
def leadingPlace (num den : Nat) : Int :=
  let k : Int := digitCount num - digitCount den
  if den * Nat.pow 10 k.toNat ≤ num * Nat.pow 10 (-k).toNat then k else k - 1

/-- A decimal number `± digits · 10 ^ place`. -/
structure Decimal where
  /-- The sign is minus. -/
  negative : Bool
  /-- Whole number of units. -/
  digits : Nat
  /-- Power of ten of the unit. -/
  place : Int
deriving DecidableEq, Repr

namespace Decimal

/-- The multiple of `10 ^ place` nearest to a dyadic number. -/
def ofDyadic (d : Dyadic) (place : Int) : Decimal :=
  ⟨d.negative, roundAt d.numerator d.denominator place, place⟩

/-- The same number without trailing zero digits. -/
def trim (d : Decimal) : Decimal := go d (digitCount d.digits)
where
  /-- Takes off at most `fuel` zeros. -/
  go (d : Decimal) : Nat → Decimal
    | 0 => d
    | fuel + 1 =>
      if d.digits ≠ 0 ∧ d.digits % 10 = 0 then go ⟨d.negative, d.digits / 10, d.place + 1⟩ fuel
      else d

/-- The power of ten of the first digit. -/
def leading (d : Decimal) : Int := d.place + digitCount d.digits - 1

end Decimal

end ApertureSynthesis.Text
