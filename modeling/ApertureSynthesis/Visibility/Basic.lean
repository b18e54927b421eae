/-
  Visibilities: for each baseline and time a row with its uvw coordinates in metres and, for each
  channel and polarisation, a value, a weight and a flag. Coordinates are scaled to wavelengths by
  the frequency of a channel.
-/
import ApertureSynthesis.Tensor
import ApertureSynthesis.Fault

namespace ApertureSynthesis

/-- One measured value. -/
structure Sample (α : Type) where
  /-- Complex visibility. -/
  value : Cplx α
  /-- Weight. -/
  weight : α
  /-- Set if the value is not to be used. -/
  flagged : Bool

/-- A baseline at one time. -/
structure Row (α : Type) (nchan npol : Nat) where
  /-- Coordinate to the east, in metres. -/
  u : α
  /-- Coordinate to the north, in metres. -/
  v : α
  /-- Coordinate towards the source, in metres. -/
  w : α
  /-- Samples by channel and polarisation. -/
  samples : Vector (Vector (Sample α) npol) nchan

/-- A direction on the sky, in degrees. -/
structure SkyDirection (α : Type) where
  /-- Right ascension, in `[0, 360)`. -/
  ra : α
  /-- Declination. -/
  dec : α

/-- A set of rows with common channels and polarisations. -/
structure Visibility (α : Type) (nchan npol : Nat) where
  /-- The rows. -/
  rows : List (Row α nchan npol)
  /-- Frequency of each channel in hertz. -/
  frequency : List α
  /-- The frequency is a bare number and not a list, so that it belongs to no channel. -/
  bare : Bool
  /-- The direction towards which the phases are zero. -/
  phaseCentre : Option (SkyDirection α)

namespace Sample

variable {α : Type} [Scalar α]

/-- The factor by which a flag masks a value: zero if set, else one. -/
def mask (s : Sample α) : α := if s.flagged then 0 else 1

/-- The weight, masked by the flag. -/
def flaggedWeight (s : Sample α) : α := s.weight * s.mask

/-- The value, masked by the flag. -/
def flaggedValue (s : Sample α) : Cplx α := s.value * Cplx.ofReal s.mask

/-- The value times the masked weight. -/
def weightedValue (s : Sample α) : Cplx α := s.value * Cplx.ofReal s.flaggedWeight

end Sample

namespace Row

variable {α : Type} {nchan npol : Nat}

/-- Change every sample. -/
def mapSamples (f : Nat → Nat → Sample α → Sample α) (r : Row α nchan npol) : Row α nchan npol :=
  { r with samples := r.samples.mapIdx fun c ps => ps.mapIdx fun p s => f c p s }

/-- Every polarisation of a channel is flagged. -/
def channelFlagged (ps : Vector (Sample α) npol) : Bool := ps.toList.all Sample.flagged

/-- Every sample of the row is flagged. -/
def flagged (r : Row α nchan npol) : Bool := r.samples.toList.all channelFlagged

end Row

namespace Visibility

variable {α : Type} {nchan npol : Nat}

/-- Number of rows. -/
def rowCount (vis : Visibility α nchan npol) : Nat := vis.rows.length

/-- Change every row. -/
def mapRows (f : Row α nchan npol → Row α nchan npol) (vis : Visibility α nchan npol) :
    Visibility α nchan npol :=
  { vis with rows := vis.rows.map f }

/-- Bytes of storage: eight for each coordinate and weight, sixteen for each value, one for each
    flag. -/
def bytes (vis : Visibility α nchan npol) : Nat := vis.rowCount * (24 + nchan * npol * 25)

variable [Scalar α]

/-- A coordinate in wavelengths at a frequency. -/
@[inline] def wavelengths (metres frequency : α) : α := metres * (frequency / Scalar.lightSpeed)

/-- The frequencies, where they are asked for by channel. -/
def spectrum (vis : Visibility α nchan npol) : Except (Fault α) (List α) :=
  if vis.bare then .error .index else .ok vis.frequency

/-- The uvw coordinates of each row in wavelengths, channel by channel. -/
def inWavelengths (vis : Visibility α nchan npol) : Except (Fault α) (List (List (List α))) := do
  let frequency ← vis.spectrum
  return vis.rows.map fun r => frequency.map fun f => [r.u, r.v, r.w].map (wavelengths · f)

/-- The values set to zero. -/
def zeroed (vis : Visibility α nchan npol) : Visibility α nchan npol :=
  vis.mapRows (·.mapSamples fun _ _ s => { s with value := 0 })

/-- The values set to one. -/
def unit (vis : Visibility α nchan npol) : Visibility α nchan npol :=
  vis.mapRows (·.mapSamples fun _ _ s => { s with value := 1 })

end Visibility

end ApertureSynthesis
