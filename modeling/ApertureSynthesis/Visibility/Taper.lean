/-
  Tapering of weights by a Gaussian in the uv plane, to emphasise a resolution in the image.
-/
import ApertureSynthesis.Visibility.PointSource

namespace ApertureSynthesis.Visibility

variable {α : Type} [Scalar α] {nchan npol : Nat}

/-- The taper of a row at a frequency, for a beam of a given full width at half maximum in
    radians. -/
def gaussian (beam : α) (r : Row α nchan npol) (frequency : α) : α :=
  let scale := Scalar.sq Scalar.pi * Scalar.sq beam / (4.0 * Scalar.log 2.0)
  let u := wavelengths r.u frequency
  let v := wavelengths r.v frequency
  Scalar.exp (-scale * (u * u + v * v))

/-- Visibilities with each weight multiplied by the taper. -/
def taperGaussian (vis : Visibility α nchan npol) (beam : α) :
    Except (Fault α) (Visibility α nchan npol) := do
  if Scalar.outgrows beam then throw .overflow
  let _ ← vis.spectrum
  checkFrequencies vis
  return vis.mapRows fun r => r.mapSamples fun c _ s =>
    { s with weight := s.weight * gaussian beam r (vis.channelFrequency c) }

/-- Tapering with a beam that has still to be checked. -/
def taper (vis : Visibility α nchan npol) (beam : Setting α) :
    Except (Fault α) (Visibility α nchan npol) :=
  match beam with
  | .absent => .error .noBeam
  | given => match given.number? with
    | none => .error .unsuitable
    | some b => taperGaussian vis b

end ApertureSynthesis.Visibility
