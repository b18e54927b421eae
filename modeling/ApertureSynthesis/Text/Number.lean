/-
  Texts of single numbers. `number` is the shortest text that reads back, positional from `1e-4`
  up to `1e16`; `general` keeps six significant digits; `fixed` a given number of places.
-/
import ApertureSynthesis.Text.Shortest

namespace ApertureSynthesis.Text

/-- A text padded with zeros on the left. -/
def padZeros (width : Nat) (s : String) : String :=
  String.ofList (List.replicate (width - s.length) '0') ++ s

/-- A text padded with blanks on the left. -/
def padLeft (width : Nat) (s : String) : String :=
  String.ofList (List.replicate (width - s.length) ' ') ++ s

/-- A text padded with blanks on the right. -/
def padRight (width : Nat) (s : String) : String :=
  s ++ String.ofList (List.replicate (width - s.length) ' ')

/-- Minus sign or nothing. -/
def signText (negative : Bool) : String := if negative then "-" else ""

/-- Whole and fractional digits of a decimal, written out. -/
def positionalParts (d : Decimal) : String × String :=
  if 0 ≤ d.place then (toString (d.digits * Nat.pow 10 d.place.toNat), "")
  else
    let unit := Nat.pow 10 (-d.place).toNat
    (toString (d.digits / unit), padZeros (-d.place).toNat (toString (d.digits % unit)))

/-- First digit and the others, and the power of ten of the first. -/
def scientificParts (d : Decimal) : String × String × Int :=
  let s := toString d.digits
  (toString (s.take 1), toString (s.drop 1), d.leading)

/-- Exponent with a sign and at least two digits. -/
def exponentText (e : Int) : String :=
  (if e < 0 then "e-" else "e+") ++ padZeros 2 (toString e.natAbs)

/-- Text of a double that is not finite. -/
def nonFinite (x : Float) : String :=
  if x == x then (if x < 0 then "-inf" else "inf") else "nan"

/-- The shortest text that reads back: positional for magnitudes from `1e-4` up to `1e16` and for
    zero, always with a decimal point; otherwise with an exponent. -/
def number (x : Float) : String :=
  match Dyadic.ofFloat? x with
  | none => nonFinite x
  | some d =>
    let s := shortest d
    if s.digits = 0 then signText s.negative ++ "0.0"
    else if -4 ≤ s.leading ∧ s.leading < 16 then
      let (whole, fraction) := positionalParts s
      signText s.negative ++ whole ++ "." ++ (if fraction.isEmpty then "0" else fraction)
    else
      let (first, rest, e) := scientificParts s
      signText s.negative ++ first ++ (if rest.isEmpty then "" else "." ++ rest) ++ exponentText e

/-- Six significant digits without trailing zeros; with an exponent below `1e-4` and from `1e6`. -/
def general (x : Float) : String :=
  match Dyadic.ofFloat? x with
  | none => nonFinite x
  | some d =>
    if d.mantissa = 0 then signText d.negative ++ "0"
    else
      let s := (Decimal.ofDyadic d (leadingPlace d.numerator d.denominator - 5)).trim
      if -4 ≤ s.leading ∧ s.leading < 6 then
        let (whole, fraction) := positionalParts s
        signText s.negative ++ whole ++ (if fraction.isEmpty then "" else "." ++ fraction)
      else
        let (first, rest, e) := scientificParts s
        signText s.negative ++ first ++ (if rest.isEmpty then "" else "." ++ rest) ++
          exponentText e

/-- A number with `places` digits after the point. -/
def fixed (places : Nat) (x : Float) : String :=
  match Dyadic.ofFloat? x with
  | none => nonFinite x
  | some d =>
    let (whole, fraction) := positionalParts (Decimal.ofDyadic d (-places))
    signText d.negative ++ whole ++ (if places = 0 then "" else "." ++ fraction)

/-- `x` rounded to the multiple of `10 ^ e` for which `scale` has `digits` digits. -/
def rounded (x scale : Float) (digits : Nat) : Decimal :=
  let place := (Float.floor (Float.log10 (scale * 1.000001))).toInt64.toInt + 1 - digits
  match Dyadic.ofFloat? x with
  | none => ⟨false, 0, 0⟩
  | some d => if scale == 0 then ⟨false, 0, 0⟩ else Decimal.ofDyadic d place

end ApertureSynthesis.Text
