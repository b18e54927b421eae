/-
  The prolate spheroidal function with `m = 6` and `α = 1`, in its rational approximation in two
  pieces that meet at `3/4`. It is the anti-aliasing taper over the field of view; times
  `1 - ν²` it is the gridding function, with a support of three grid cells either side.
-/
import ApertureSynthesis.Argument
import ApertureSynthesis.Raster

namespace ApertureSynthesis.Kernel

variable {α : Type} [Scalar α]

/-- Coefficients of one piece of the approximation, in powers of `ν² - end²`. -/
structure Piece (α : Type) where
  /-- Numerator, constant term first. -/
  top : List α
  /-- Denominator, constant term first. -/
  bottom : List α
  /-- The far end of the piece. -/
  last : α

/-- The piece below `3/4`. -/
def innerPiece : Piece α where
  top := [8.203343e-2, -3.644705e-1, 6.278660e-1, -5.335581e-1, 2.312756e-1]
  bottom := [1.0, 8.212018e-1, 2.078043e-1]
  last := 0.75

/-- The piece from `3/4` on. -/
def outerPiece : Piece α where
  top := [4.028559e-3, -3.697768e-2, 1.021332e-1, -1.201436e-1, 6.412774e-2]
  bottom := [1.0, 9.599102e-1, 2.918724e-1]
  last := 1.0

/-- `∑ cₖ xᵏ`, from the constant term on. -/
def evalPowers (coefficients : List α) (x : α) : α :=
  Scalar.sum (coefficients.zipIdx.map fun (c, k) => c * Scalar.pow x k)

/-- The spheroidal function at distance `ν` from the centre, where the edge is at one; zero beyond
    the edge. -/
def spheroidal (nu : α) : α :=
  let nu := Scalar.abs nu
  let piece : Piece α := if 0.75 ≤ nu then outerPiece else innerPiece
  let last : α := if 0.75 ≤ nu then 1.0 else if 0.0 ≤ nu then 0.75 else 0.0
  let x := nu * nu - last * last
  let bottom := evalPowers piece.bottom x
  if 1.0 < nu then 0
  else if 0.0 < bottom then evalPowers piece.top x / bottom
  else 0

/-- The gridding function `(1 - ν²)` times the spheroidal function. -/
def griddingFunction (nu : α) : α := (1 - nu * nu) * spheroidal nu

/-- Support of the gridding function in grid cells either side of the centre. -/
def antiAliasingSupport : Nat := 3

/-- One axis of the anti-aliasing kernel: sample `k` of `6 · oversample + 1`, where sample
    `3 · oversample` is the centre. -/
def antiAliasingSample (oversample : Int) (k : Nat) : α :=
  griddingFunction (Scalar.abs (((k : Int) - 3 * oversample : Int) : α) /
    (3.0 * (oversample : α)))

/-- The gridding function in two dimensions, sampled `oversample` times per grid cell, with the
    zero of the uv plane at the centre. It is zero on its border. -/
def antiAliasing (oversample : Int) : Raster α :=
  let side := (6 * oversample + 1).toNat
  let samples := Array.ofFn fun k : Fin side => antiAliasingSample oversample k.val
  Raster.ofFn side side fun j i => samples.getD j 0 * samples.getD i 0

/-- The gridding function for an oversampling as it is given. With a point it starts three cells
    before the centre, which need not be a sample. -/
def givenAntiAliasing (oversample : Setting α) : Except (Fault α) (Raster α) :=
  match oversample.whole? with
  | some n => .ok (antiAliasing n)
  | none => do
    let x ← oversample.number
    if !Scalar.isFinite x then throw .mismatch
    let side := (Scalar.ceilInt (3.0 * x + 1.0 + 3.0 * x)).toNat
    let samples := Array.ofFn fun k : Fin side =>
      griddingFunction (Scalar.abs ((k.val : α) - 3.0 * x) / (3.0 * x))
    return Raster.ofFn side side fun j i => samples.getD j 0 * samples.getD i 0

end ApertureSynthesis.Kernel
