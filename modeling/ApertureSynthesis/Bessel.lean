/-
  The Bessel function of the first kind of order one in double precision: an integral below 64, an
  asymptotic expansion from there on.
-/

namespace ApertureSynthesis

/-- `π` in double precision. -/
def doublePi : Float := 3.141592653589793

/-- Cosine and squared sine of the angles `π k / 64`, `0 < k < 64`. -/
def besselNodes : List (Float × Float) :=
  (List.range 63).map fun k =>
    let t := doublePi * Float.ofNat (k + 1) / 64
    (Float.cos t, Float.sin t * Float.sin t)

/-- `J₁(x)` for `|x| < 64`: the integral `x/π ∫ cos (x cos t) sin² t dt` over `[0, π]` by the
    trapezoidal rule, which is exact to double precision for so smooth a periodic function. -/
def besselByQuadrature (x : Float) : Float :=
  x * (besselNodes.foldl (fun acc (c, s) => acc + Float.cos (x * c) * s) 0 / 64)

/-- `J₁(x)` for large `x` by Hankel's asymptotic expansion. -/
def besselByExpansion (x : Float) : Float :=
  let y := 1 / (8 * x)
  let z := y * y
  let p := 1 + z * (7.5 + z * (z * 177364.6875 - 590.625))
  let q := y * (3 + z * (z * 9095.625 - 52.5))
  let phase := x - 0.75 * doublePi
  Float.sqrt (2 / (doublePi * x)) * (p * Float.cos phase - q * Float.sin phase)

/-- `J₁(x)`, an odd function. -/
def besselOne (x : Float) : Float :=
  if x.abs < 64 then besselByQuadrature x
  else if x < 0 then -besselByExpansion (-x)
  else besselByExpansion x

end ApertureSynthesis
