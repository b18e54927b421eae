/-
  Simulated coverage of the uv plane: u and v uniform in a square, w uniform in an interval, from a
  seed. The visibilities are zero and of weight one.
-/
import ApertureSynthesis.Random.Twister
import ApertureSynthesis.Visibility.Create

namespace ApertureSynthesis.Visibility

/-- Consecutive pairs of a list. -/
def pairs {β : Type} : List β → List (β × β)
  | x :: y :: rest => (x, y) :: pairs rest
  | _ => []

/-- Random uvw coordinates in metres: u and v within `uvmax` of zero, then w within `wmax` of zero,
    or zero. -/
def randomCoordinates (nrows : Nat) (uvmax wmax : Float) (seed : UInt32) : Tensor Float :=
  let (uv, t) := Random.Twister.uniform (-uvmax) uvmax (2 * nrows) (Random.Twister.ofSeed seed)
  let ws := if 0 < wmax then (Random.Twister.uniform (-wmax) wmax nrows t).1 else []
  let rows := (pairs uv).toArray
  let ws := ws.toArray
  Tensor.ofFn [nrows, 3] fun
    | [k, 0] => (rows.getD k (0, 0)).1
    | [k, 1] => (rows.getD k (0, 0)).2
    | [k, _] => ws.getD k 0
    | _ => 0

/-- Refuses intervals around zero that are not finite. -/
def checkInterval (x : Float) : Except (Fault Float) Unit :=
  if Scalar.isFinite (x + x) then .ok () else .error .overflow

/-- Visibilities with random coordinates. A seed is a word of 32 bits. -/
def simulate (nrows : Int) (frequency : List Float) (npol : Setting Float)
    (uvmax wmax : Float) (seed : Int) :
    Except (Fault Float) (VisibilitySet Float) := do
  if seed < 0 ∨ 4294967296 ≤ seed then throw .mismatch
  let nrows ← axisLength nrows
  checkInterval uvmax
  if 0 < wmax then checkInterval wmax
  create (randomCoordinates nrows uvmax wmax (UInt32.ofNat seed.toNat)) frequency npol none none
    none none

end ApertureSynthesis.Visibility
