/-
  The cell size of the uv plane in wavelengths per pixel: one value for both axes, or a list with
  the u axis first.
-/
import ApertureSynthesis.Scalar
import ApertureSynthesis.Text.Array

namespace ApertureSynthesis

/-- A uv cell size as it was given. -/
inductive CellSize (α : Type) where
  /-- One value for both axes. -/
  | single (x : α)
  /-- A value for each axis. -/
  | perAxis (xs : List α)
deriving Inhabited

namespace CellSize

variable {α : Type} [Scalar α]

/-- The values given. -/
def values : CellSize α → List α
  | single x => [x]
  | perAxis xs => xs

/-- Cell size in u and v; a single value serves for both. -/
def axes? (c : CellSize α) : Option (α × α) :=
  match c.values with
  | [x] => some (x, x)
  | x :: y :: _ => some (x, y)
  | [] => none

/-- `x` is within a relative `1e-7` and an absolute `1e-8` of `y`. -/
def close (x y : α) : Bool :=
  decide (Scalar.abs (x - y) ≤ 1e-8 + 1e-7 * Scalar.abs y) && Scalar.isFinite y || x == y

/-- All values agree, a single value standing for any number of them. There is no answer for lists
    of different lengths. -/
def agree? (c d : CellSize α) : Option Bool :=
  match c.values, d.values with
  | [x], ys => some (ys.all (close x))
  | xs, [y] => some (xs.all (close · y))
  | xs, ys => if xs.length = ys.length then some ((xs.zip ys).all fun (x, y) => close x y) else none

/-- A cell size as text. -/
def text : CellSize Float → String
  | single x => Text.number x
  | perAxis xs => Text.numbers xs

end CellSize

end ApertureSynthesis
