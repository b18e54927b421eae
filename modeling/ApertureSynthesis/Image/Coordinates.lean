/-
  World coordinates of an image: four linear axes, right ascension, declination, polarisation and
  frequency. Angles are kept in degrees. Pixels count from one, and pixel `(n / 2) + 1` of the first
  two axes is at the phase centre.
-/
import ApertureSynthesis.Visibility.Basic

namespace ApertureSynthesis

/-- One linear axis: `value + (pixel - reference) · step`, pixels counted from one. -/
structure LinearAxis (α : Type) where
  /-- What the axis measures. -/
  kind : String
  /-- The reference pixel. -/
  reference : α
  /-- The value there. -/
  value : α
  /-- The increment per pixel. -/
  step : α

/-- The axes of an image. -/
structure WorldCoordinates (α : Type) where
  /-- Right ascension in degrees. -/
  longitude : LinearAxis α
  /-- Declination in degrees. -/
  latitude : LinearAxis α
  /-- Polarisation. -/
  polarisation : LinearAxis α
  /-- Frequency in hertz. -/
  spectral : LinearAxis α

namespace WorldCoordinates

variable {α : Type} [Scalar α]

/-- Degrees of an angle in radians. -/
def toDegrees (x : α) : α := x * (180.0 / Scalar.pi)

/-- Radians of an angle in degrees. -/
def toRadians (x : α) : α := x * (Scalar.pi / 180.0)

/-- The four axes in order. -/
def axes (c : WorldCoordinates α) : List (LinearAxis α) :=
  [c.longitude, c.latitude, c.polarisation, c.spectral]

/-- Size of a pixel in x and y, in radians. -/
def pixelSize (c : WorldCoordinates α) : α × α :=
  (Scalar.abs (toRadians c.longitude.step), Scalar.abs (toRadians c.latitude.step))

/-- The frequency of channel `i`, counted from zero. -/
def channelFrequency (c : WorldCoordinates α) (i : Nat) : α :=
  c.spectral.value + (i : α) * c.spectral.step

/-- The increment in frequency: the spacing of the first two channels, or else the width of the
    first one. -/
def frequencyStep? (frequency widths : List α) : Option α :=
  match frequency with
  | f :: g :: _ => some (g - f)
  | _ => widths.head?

/-- The direction that images without one are centred on. -/
def defaultCentre : SkyDirection α := ⟨15.0, -35.0⟩

/-- Coordinates of a square image of `n` pixels on each side, centred on a direction. Without a
    frequency, or without a width for a single one, there is no spectral axis. -/
def create (n : Nat) (pixel : α) (frequency widths : List α)
    (centre : Option (SkyDirection α)) : Except (Fault α) (WorldCoordinates α) :=
  match frequency.head?, frequencyStep? frequency widths with
  | some first, some step =>
    let direction := centre.getD defaultCentre
    let middle : α := ((n / 2 + 1 : Nat) : α)
    .ok {
      longitude := ⟨"RA---SIN", middle, direction.ra, toDegrees pixel⟩
      latitude := ⟨"DEC--SIN", middle, direction.dec, toDegrees pixel⟩
      polarisation := ⟨"STOKES", 1, 1, 1⟩
      spectral := ⟨"FREQ", 1, first, step⟩ }
  | _, _ => .error .index

/-- Refuses increments of zero, which do not determine pixels. -/
def checkSteps (c : WorldCoordinates α) : Except (Fault α) Unit :=
  if c.axes.any fun a => a.step == 0 then .error .singular else .ok ()

end WorldCoordinates

end ApertureSynthesis
