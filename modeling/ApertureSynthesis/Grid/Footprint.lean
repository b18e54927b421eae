/-
  The footprint of a sample: the kernel taps around the lattice points that it uses, clipped at the
  border of the grid. If the points fall in neighbouring cells the footprint is one cell wider than
  the kernel. The taps that remain are kept in runs of adjacent cells.
-/
import ApertureSynthesis.Grid.Lattice

namespace ApertureSynthesis.Grid

variable {α : Type} [Scalar α]

/-- A rectangle of taps on the unbounded grid. -/
structure Footprint (α : Type) where
  /-- First cell along v. -/
  v : Int
  /-- First cell along u. -/
  u : Int
  /-- Number of cells along v. -/
  height : Nat
  /-- Number of cells along u. -/
  width : Nat
  /-- The tap in a row and column of the footprint. -/
  tap : Nat → Nat → Cplx α

/-- The tap of a plane for a pair of phases, among `full` taps along each axis, zero beside them. An
    axis with a single tap, or one that is missing, has the same tap everywhere. -/
def planeTap (plane : Tensor (Cplx α)) (full pv pu y x : Int) : Cplx α :=
  if 0 ≤ y ∧ y < full ∧ 0 ≤ x ∧ x < full then
    let phases (taps : List Nat) : List Nat := pv.toNat :: pu.toNat :: taps
    let along (n : Nat) (k : Int) : Nat := if n = 1 then 0 else k.toNat
    match plane.shape with
    | [_, _, height, width] => plane.get (phases [along height y, along width x])
    | [_, _, width] => plane.get (phases [along width x])
    | _ => plane.get (phases [])
  else 0

/-- The kernel between lattice points: the taps of each pair of points, shifted by their cells and
    weighted by their shares. -/
def mixedTap (plane : Tensor (Cplx α)) (full : Int) (vs us : List (AxisPoint α)) (v0 u0 : Int)
    (y x : Nat) : Cplx α :=
  Cplx.sum <| vs.flatMap fun a => us.map fun b =>
    Cplx.scale (a.weight * b.weight)
      (planeTap plane full a.phase b.phase ((y : Int) - (a.cell - v0)) ((x : Int) - (b.cell - u0)))

/-- The cell of the last of some points. -/
def lastCell (first : AxisPoint α) (rest : List (AxisPoint α)) : Int :=
  (rest.getLast?.getD first).cell

/-- Lattice points whose phases are among `n`. -/
def phasesWithin (n : Nat) (points : AxisPoint α × List (AxisPoint α)) : Bool :=
  (points.1 :: points.2).all fun a => decide (0 ≤ a.phase ∧ a.phase < n)

/-- The taps of each phase can be stretched to `full` along each axis. -/
def stretches (full : Int) (taps : List Nat) : Bool :=
  decide (taps.length ≤ 2) && taps.all fun n => decide ((n : Int) = full ∨ n = 1)

/-- The footprint of a sample on a plane of a support. A single lattice point uses the taps of the
    plane as they are. Phases beyond the table are refused, and so are tables of another width where
    taps are to be combined. -/
def footprint (plane : Tensor (Cplx α)) (support : Int)
    (vs us : AxisPoint α × List (AxisPoint α)) : Except (Fault α) (Footprint α) :=
  match plane.shape with
  | nv :: nu :: taps =>
    let v := vs.1.cell - support
    let u := us.1.cell - support
    let full := 2 * support + 1
    if !(phasesWithin nv vs && phasesWithin nu us) then .error .index
    else if !(vs.2.isEmpty && us.2.isEmpty) then
      let height := lastCell vs.1 vs.2 - vs.1.cell + full
      let width := lastCell us.1 us.2 - us.1.cell + full
      if 0 ≤ height ∧ 0 ≤ width ∧ stretches full taps then
        .ok ⟨v, u, height.toNat, width.toNat,
          mixedTap plane full (vs.1 :: vs.2) (us.1 :: us.2) vs.1.cell us.1.cell⟩
      else .error .mismatch
    else match taps with
      | [height, width] =>
        .ok ⟨v, u, height, width, fun y x => plane.get [vs.1.phase.toNat, us.1.phase.toNat, y, x]⟩
      | _ :: _ :: _ :: _ => .error .mismatch
      | _ => .error .index
  | _ => .error .index

/-- The cells of an axis of `n` that a run of `width` cells from `start` covers. -/
def covered (start : Int) (width n : Nat) : List Nat :=
  let low := (max start 0).toNat
  let high := (min (start + width) n).toNat
  List.range' low (high - low)

/-- A cell of the grid with the tap that a sample has there. -/
structure Tap (α : Type) where
  /-- Row of the grid. -/
  j : Nat
  /-- Column of the grid. -/
  i : Nat
  /-- Kernel value. -/
  value : Cplx α

/-- The taps of a footprint in row `j` of a grid of `nx` columns. -/
def Footprint.tapsInRow (f : Footprint α) (nx j : Nat) : List (Tap α) :=
  (covered f.u f.width nx).map fun i =>
    ⟨j, i, f.tap ((j : Int) - f.v).toNat ((i : Int) - f.u).toNat⟩

/-- The taps of a footprint that fall on a grid of `ny` by `nx` cells, in runs of adjacent cells: a
    row is a run, and rows that are covered from end to end make one run together. -/
def Footprint.runs (f : Footprint α) (ny nx : Nat) : List (List (Tap α)) :=
  let rows := (covered f.v f.height ny).map (f.tapsInRow nx)
  if f.u = 0 ∧ f.width = nx then [rows.flatten] else rows

/-- Where a sample goes. -/
inductive Placement (α : Type) where
  /-- No tap falls on the grid. -/
  | outside
  /-- The taps on a channel of the grid, in runs. -/
  | inside (channel : Nat) (runs : List (List (Tap α)))

/-- Sum of the kernel over taps. -/
def tapTotal (taps : List (Tap α)) : Cplx α := Cplx.sum (taps.map Tap.value)

end ApertureSynthesis.Grid
