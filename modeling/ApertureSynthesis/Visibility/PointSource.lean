/-
  The exact visibility of point sources, by the measurement equation for a wide field: a source at
  direction cosines `(l, m)` has the phase `-2π (u l + v m + w (√(1 - l² - m²) - 1))`.
-/
import ApertureSynthesis.Broadcast
import ApertureSynthesis.Visibility.Basic

namespace ApertureSynthesis.Visibility

variable {α : Type} [Scalar α] {nchan npol : Nat}

/-- The phase factor of a source at `(l, m)` for a row at a frequency. -/
def phasorAt (l m : α) (r : Row α nchan npol) (frequency : α) : Cplx α :=
  let n := Scalar.sqrt (1.0 - l * l - m * m) - 1.0
  let turns := wavelengths r.u frequency * l + wavelengths r.v frequency * m +
    wavelengths r.w frequency * n
  Cplx.cis (-(2.0 * Scalar.pi) * turns)

/-- Refuses directions that are not above the horizon. -/
def checkHorizon (l m : α) : Except (Fault α) Unit :=
  if Scalar.outgrows l || Scalar.outgrows m then .error .overflow
  else if l * l + m * m < 1.0 then .ok ()
  else .error (.horizon l m)

/-- The phase factor of a source for each row and frequency. -/
def phasor (vis : Visibility α nchan npol) (l m : α) : Except (Fault α) (Tensor (Cplx α)) := do
  checkHorizon l m
  let frequency ← vis.spectrum
  return Tensor.ofFn [vis.rowCount, frequency.length] fun
    | [k, c] => match vis.rows[k]?, frequency[c]? with
      | some r, some f => phasorAt l m r f
      | _, _ => 0
    | _ => 0

/-- The frequency for a channel: its own, or the only one. -/
def channelFrequency (vis : Visibility α nchan npol) (c : Nat) : α :=
  vis.frequency.getD (if vis.frequency.length = 1 then 0 else c) 0

/-- Refuses a number of frequencies that is neither one nor that of the channels. -/
def checkFrequencies (vis : Visibility α nchan npol) : Except (Fault α) Unit :=
  if vis.frequency.length = nchan ∨ vis.frequency.length = 1 then .ok () else .error .mismatch

/-- Visibilities with a point source added. The flux is one value, or is given by channel and
    polarisation. -/
def addPointSource (vis : Visibility α nchan npol) (l m : α) (flux : Tensor (Cplx α)) :
    Except (Fault α) (Visibility α nchan npol) := do
  checkHorizon l m
  let _ ← vis.spectrum
  let flux ← match flux.stretch? [nchan, npol] with
    | some t => pure t
    | none => throw .mismatch
  checkFrequencies vis
  return vis.mapRows fun r => r.mapSamples fun c p s =>
    { s with value := s.value + flux.get [c, p] * phasorAt l m r (vis.channelFrequency c) }

end ApertureSynthesis.Visibility
