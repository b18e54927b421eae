/-
  The power pattern of a circular aperture with a central blockage. The voltage pattern of an
  aperture of diameter `d` is `2 J₁(x) / x` at `x = π r d / λ`, where `J₁` is the Bessel function
  of order one.
-/
import ApertureSynthesis.Argument
import ApertureSynthesis.Broadcast

namespace ApertureSynthesis.Kernel

variable {α : Type} [Scalar α]

/-- `2 J₁(x) / x`, one at zero and below. -/
def airy (x : α) : α := if 0.0 < x then 2.0 * Scalar.j1 x / x else 1

/-- A circular aperture with a central blockage, diameters in metres. -/
structure Aperture (α : Type) where
  /-- Diameter of the aperture. -/
  diameter : α
  /-- Diameter of the blockage; none unless positive. -/
  blockage : α

/-- Why an aperture has no pattern: with a blockage, the squares of both diameters have to be
    numbers that can be kept. -/
def Aperture.obstacle (a : Aperture α) : Option (Fault α) :=
  if 0.0 < a.blockage && (Scalar.outgrows a.diameter || Scalar.outgrows a.blockage) then
    some .overflow
  else none

/-- Power pattern of an aperture at direction cosines `l`, `m`, one at the pointing centre: the
    square of the difference of the voltage patterns of aperture and blockage. -/
def Aperture.power (a : Aperture α) (frequency l m : α) : α :=
  let r := Scalar.sqrt (l * l + m * m)
  let scale := Scalar.pi * r * frequency / Scalar.lightSpeed
  let voltage :=
    if 0.0 < a.blockage then
      (Scalar.sq a.diameter * airy (scale * a.diameter) -
        Scalar.sq a.blockage * airy (scale * a.blockage)) /
        (Scalar.sq a.diameter - Scalar.sq a.blockage)
    else airy (scale * a.diameter)
  Scalar.sq voltage

/-- A factor of a single number or of an array. -/
def factorOf (shape : List Nat) (s : Setting α) : Except (Fault α) α :=
  if shape.isEmpty then s.number else s.factor

/-- The power pattern at arrays of direction cosines, for a frequency and an aperture as they are
    given. -/
def powerPattern (l m : Tensor α) (frequency diameter blockage : Setting α) :
    Except (Fault α) (Tensor α) := do
  let some shape := Tensor.commonShape? l.shape m.shape | throw .mismatch
  let f ← factorOf shape frequency
  let b ← blockage.number
  let d ← if 0.0 < b then diameter.number else factorOf shape diameter
  let aperture : Aperture α := ⟨d, b⟩
  if let some fault := aperture.obstacle then throw fault
  match Tensor.combine? (aperture.power f) l m with
  | some t => return t
  | none => throw .mismatch

end ApertureSynthesis.Kernel
