/-
  The Fresnel chirp: the paraxial phase of a baseline component `w` across the image.
-/
import ApertureSynthesis.Cplx

namespace ApertureSynthesis.Kernel

variable {α : Type} [Scalar α]

/-- `e ^ (π i w (l² + m²))` at direction cosines `l`, `m` for `w` in wavelengths. -/
@[inline] def fresnelChirp (l m w : α) : Cplx α := Cplx.cis (Scalar.pi * w * (l * l + m * m))

end ApertureSynthesis.Kernel
