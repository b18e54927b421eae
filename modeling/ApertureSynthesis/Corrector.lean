/-
  Correction of images for the gridding function. Gridding multiplies an image by a taper, the
  transform of the central phase of the zero-w kernel placed at the centre of the image. The
  corrector divides by the taper, or multiplies by it.
-/
import ApertureSynthesis.Broadcast
import ApertureSynthesis.Fourier.Centred
import ApertureSynthesis.Image.Basic
import ApertureSynthesis.Kernel.Cache

namespace ApertureSynthesis

/-- The taper of a cache over an image. -/
structure Corrector (α : Type) where
  /-- The taper at each pixel. -/
  taper : Raster α

namespace Corrector

variable {α : Type} [Scalar α]

/-- The real taps of the central phase of the zero-w kernel. -/
def centralPhase (c : Cache α) : Except (Fault α) (Tensor α) :=
  let p := c.oversample / 2
  match c.zeroW.shape with
  | nv :: nu :: n :: rest =>
    if nv ≤ p ∨ nu ≤ p then .error .index
    else .ok (Tensor.ofFn (n :: rest) fun index => (c.zeroW.get (p :: p :: index)).re)
  | _ => .error .index

/-- Taps of a half-width in the middle of an image. -/
def placed (taps : Tensor α) (support ny nx : Nat) : Raster (Cplx α) :=
  let top := ny / 2 - support
  let left := nx / 2 - support
  let width := 2 * support + 1
  Raster.ofFn ny nx fun j i =>
    if top ≤ j ∧ j < top + width ∧ left ≤ i ∧ i < left + width then
      Cplx.ofReal (taps.get [j - top, i - left])
    else 0

/-- The corrector of a cache for images of `ny` by `nx` pixels. A kernel that is wider than the
    image is refused. -/
def create (c : Cache α) (ny nx : Int) : Except (Fault α) (Corrector α) := do
  let phase ← centralPhase c
  let support := phase.shape.getLast?.getD 0 / 2
  let width := 2 * support + 1
  if min ny nx < width then throw (.kernelOverImage width ny nx)
  match (phase.dropLeading 2).stretch? [width, width] with
  | none => throw .mismatch
  | some taps =>
    return ⟨(Fourier.raster .forward (placed taps support ny.toNat nx.toNat)).map Cplx.re⟩

/-- One over the taper; zero where the taper is not positive. -/
def inverse (k : Corrector α) : Raster α := k.taper.map fun t => if 0.0 < t then 1.0 / t else 0

/-- Refuses images of another size than the taper. -/
def checkShape (k : Corrector α) (im : Image α) : Except (Fault α) Unit :=
  match Tensor.lastTwo? im.shape with
  | some (_, ny, nx) =>
    if ny = k.taper.ny ∧ nx = k.taper.nx then .ok ()
    else .error (.correctorShape im.shape k.taper.ny k.taper.nx)
  | none => .error (.correctorShape im.shape k.taper.ny k.taper.nx)

/-- An image divided by the taper, zero where the taper is not positive. -/
def correct (k : Corrector α) (im : Image α) : Except (Fault α) (Image α) := do
  checkShape k im
  return { im with pixels := im.pixels.mulRaster k.inverse, storage := .double }

/-- An image multiplied by the taper. -/
def apply (k : Corrector α) (im : Image α) : Except (Fault α) (Image α) := do
  checkShape k im
  return { im with pixels := im.pixels.mulRaster k.taper, storage := .double }

end Corrector

end ApertureSynthesis
