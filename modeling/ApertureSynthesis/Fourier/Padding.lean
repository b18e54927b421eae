/-
  Padding of a raster with zeros to a larger square, keeping its centre at the centre. Each axis is
  padded by itself, at its front and at its back.
-/
import ApertureSynthesis.Argument
import ApertureSynthesis.Raster

namespace ApertureSynthesis

/-- A raster with rows of zeros above and below, and columns of zeros to the left and to the
    right. -/
def Raster.pad {β : Type} [Zero β] (a : Raster β) (above below left right : Nat) : Raster β :=
  ofFn (above + a.ny + below) (left + a.nx + right) fun j i =>
    if above ≤ j ∧ left ≤ i then a.get (j - above) (i - left) else 0

namespace Fourier

/-- Zeros in front of an axis of length `m` that is padded to length `n`, which take place `m / 2`
    to place `n / 2`. -/
def leading (m n : Nat) : Nat := n / 2 - m / 2

/-- Zeros at the back of an axis of length `m` that is padded to length `n`. -/
def trailing (m n : Nat) : Nat := (n + 1) / 2 - (m + 1) / 2

/-- A raster in the middle of an `n × n` square of zeros, pixel `(ny / 2, nx / 2)` at the centre
    `(n / 2, n / 2)`. There is none if the raster is larger than the square. -/
def padTo? {β : Type} [Zero β] (a : Raster β) (n : Nat) : Option (Raster β) :=
  if a.ny ≤ n ∧ a.nx ≤ n then
    some (a.pad (leading a.ny n) (trailing a.ny n) (leading a.nx n) (trailing a.nx n))
  else none

/-- A raster padded to a size as it is given. Any number will do for the size that the raster has,
    but for a larger one it has to be whole. -/
def padAs {α β : Type} [Scalar α] [Zero β] (a : Raster β) (size : Setting α) :
    Except (Fault α) (Raster β) := do
  let x ← size.number
  if x == (a.ny : α) && x == (a.nx : α) then return a
  if !(decide ((a.ny : α) ≤ x) && decide ((a.nx : α) ≤ x)) then throw .broken
  match padTo? a (← size.count).toNat with
  | some r => return r
  | none => throw .broken

end Fourier

end ApertureSynthesis
