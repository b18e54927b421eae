/-
  The oversampled lattice of a grid. The position of a sample is `(u / du + nx / 2) · oversample`
  along u and likewise along v. Each lattice point is a grid cell and a sub-pixel phase: point `q`
  is phase `q - oversample · cell + oversample / 2`, which lies in `[0, oversample)`. With nearest
  interpolation a sample uses the nearest lattice point; with linear interpolation the two either
  side, weighted by their distance. A point of weight zero is left out.
-/
import ApertureSynthesis.Grid.Basic
import ApertureSynthesis.Kernel.Cache

namespace ApertureSynthesis

/-- How the oversampled kernel is read between lattice points. -/
inductive Interpolation where
  /-- At the nearest lattice point. -/
  | nearest
  /-- Linearly between the lattice points either side. -/
  | linear
deriving DecidableEq, Repr

namespace Interpolation

/-- The name of an interpolation. -/
def name : Interpolation → String
  | nearest => "nearest"
  | linear => "linear"

/-- The interpolation that a setting names. -/
def ofSetting? {α : Type} : Setting α → Option Interpolation
  | .text "nearest" => some nearest
  | .text "linear" => some linear
  | _ => none

end Interpolation

namespace Grid

variable {α : Type} [Scalar α]

/-- The oversampled lattice of a grid. -/
structure Lattice (α : Type) where
  /-- Cell size along u, in wavelengths. -/
  du : α
  /-- Cell size along v, in wavelengths. -/
  dv : α
  /-- Number of cells along u. -/
  nx : Nat
  /-- Number of cells along v. -/
  ny : Nat
  /-- Lattice points per cell. -/
  oversample : Nat

/-- The lattice of a grid for a cache. A cell size without values determines none. -/
def lattice (g : Grid α) (c : Cache α) : Except (Fault α) (Lattice α) :=
  match g.cellSize.axes? with
  | some (du, dv) => .ok ⟨du, dv, g.nx, g.ny, c.oversample⟩
  | none => .error .index

namespace Lattice

/-- Position along u of a coordinate in wavelengths. -/
def positionU (l : Lattice α) (u : α) : α := (u / l.du + (l.nx / 2 : Nat)) * (l.oversample : α)

/-- Position along v of a coordinate in wavelengths. -/
def positionV (l : Lattice α) (v : α) : α := (v / l.dv + (l.ny / 2 : Nat)) * (l.oversample : α)

end Lattice

/-- Grid cell of a lattice point. -/
def cellOf (oversample : Nat) (q : Int) : Int := (q + (oversample / 2 : Nat)) / (oversample : Int)

/-- Sub-pixel phase of a lattice point. -/
def phaseOf (oversample : Nat) (q : Int) : Int :=
  q - cellOf oversample q * (oversample : Int) + (oversample / 2 : Nat)

/-- The lower lattice point for a position, and the weight of the one above it. With nearest
    interpolation, or one point per cell, the nearest point carries all. -/
def lowerPoint (interpolation : Interpolation) (oversample : Nat) (position : α) : Int × α :=
  if interpolation = .nearest ∨ oversample = 1 then (Scalar.roundInt position, 0)
  else (Scalar.floorInt position, position - Scalar.floor position)

/-- A lattice point that a sample uses along one axis. -/
structure AxisPoint (α : Type) where
  /-- Grid cell. -/
  cell : Int
  /-- Sub-pixel phase. -/
  phase : Int
  /-- Share of the sample. -/
  weight : α

/-- A lattice point with its share. -/
def AxisPoint.ofLattice (oversample : Nat) (q : Int) (weight : α) : AxisPoint α :=
  ⟨cellOf oversample q, phaseOf oversample q, weight⟩

/-- The lattice points that a sample uses along one axis: the lower one alone if the upper one has
    no weight, else both. The first is given apart from the rest. -/
def axisPoints (interpolation : Interpolation) (oversample : Nat) (position : α) :
    AxisPoint α × List (AxisPoint α) :=
  let (lower, weight) := lowerPoint interpolation oversample position
  if weight == 0 then (.ofLattice oversample lower 1, [])
  else (.ofLattice oversample lower (1 - weight), [.ofLattice oversample (lower + 1) weight])

/-- The nearest cell and phase for a position. -/
def nearestCell (oversample : Nat) (position : α) : Int × Int :=
  let q := Scalar.roundInt position
  (cellOf oversample q, phaseOf oversample q)

end Grid

end ApertureSynthesis
