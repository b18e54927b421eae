/-
  The fewest decimal digits that read back as a double. Of the decimals with that many digits
  that round to the double, the nearest one is taken.
-/
import ApertureSynthesis.Text.Dyadic

namespace ApertureSynthesis.Text

/-- Whether `digits · 10 ^ place` lies between the midpoints to the neighbouring doubles of a
    positive double; a midpoint belongs to it exactly when its mantissa is even. -/
def readsBack (d : Dyadic) (digits : Nat) (place : Int) : Bool :=
  let atPowerOfTwo := d.mantissa = Nat.pow 2 52 ∧ -1074 < d.exponent
  -- all three numbers in units of a quarter of the last binary place
  let low := 4 * d.mantissa - (if atPowerOfTwo then 1 else 2)
  let high := 4 * d.mantissa + 2
  let quarter := d.exponent - 2
  let value := 4 * (digits * Nat.pow 10 place.toNat * Nat.pow 2 (-quarter).toNat)
  let unit := 4 * (Nat.pow 10 (-place).toNat * Nat.pow 2 quarter.toNat)
  if d.mantissa % 2 = 0 then decide (low * unit ≤ value ∧ value ≤ high * unit)
  else decide (low * unit < value ∧ value < high * unit)

/-- The fewest digits that read back as a positive dyadic number, found with at most `fuel` more
    than `count` digits. -/
def shortestFrom (d : Dyadic) (count : Nat) : Nat → Decimal
  | 0 => Decimal.ofDyadic d (leadingPlace d.numerator d.denominator - 16)
  | fuel + 1 =>
    let place := leadingPlace d.numerator d.denominator + 1 - count
    let nearest := roundAt d.numerator d.denominator place
    let below := d.numerator * Nat.pow 10 (-place).toNat / (d.denominator * Nat.pow 10 place.toNat)
    if readsBack d nearest place then ⟨d.negative, nearest, place⟩
    else if readsBack d below place then ⟨d.negative, below, place⟩
    else if readsBack d (below + 1) place then ⟨d.negative, below + 1, place⟩
    else shortestFrom d (count + 1) fuel

/-- The fewest digits that read back as a dyadic number. -/
def shortest (d : Dyadic) : Decimal :=
  if d.mantissa = 0 then ⟨d.negative, 0, 0⟩ else (shortestFrom d 1 17).trim

end ApertureSynthesis.Text
