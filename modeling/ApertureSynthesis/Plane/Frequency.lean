/-
  Planes by frequency: each channel goes to the plane with the nearest frequency. Channels beyond
  the range of the planes are counted as clamped, once for each row.
-/
import ApertureSynthesis.Argument
import ApertureSynthesis.Nearest
import ApertureSynthesis.Plane.Map

namespace ApertureSynthesis.Plane

variable {α : Type} [Scalar α] {nchan npol : Nat}

/-- The least of a list of numbers. -/
def lowest? : List α → Option α
  | [] => none
  | x :: xs => some (xs.foldl Scalar.minimum x)

/-- The greatest of a list of numbers. -/
def highest? : List α → Option α
  | [] => none
  | x :: xs => some (xs.foldl Scalar.maximum x)

/-- The plane of each channel. -/
def channelPlanes (planes : List α) (frequency : List α) : List Int :=
  frequency.map fun f => ((nearest? planes f).getD 0 : Nat)

/-- A frequency below the least or above the greatest plane by more than a fraction. -/
def outOfRange (planes : List α) (tolerance f : α) : Bool :=
  match lowest? planes, highest? planes with
  | some low, some high =>
    decide (f < low * (1.0 - tolerance)) || decide (high * (1.0 + tolerance) < f)
  | _, _ => false

/-- The plane map of a set of visibilities for planes of given frequencies. -/
def nearestMap (vis : Visibility α nchan npol) (planes : List α) (tolerance : α) :
    Except (Fault α) PlaneMap :=
  if vis.bare then .error .index
  else if planes.isEmpty then .error .mismatch
  else
    let row := channelPlanes planes vis.frequency
    let table : Tensor Int :=
      { shape := [vis.rowCount, vis.frequency.length]
        data := (vis.rows.flatMap fun _ => row).toArray
        size_data := by
          simp [row, channelPlanes, volume, Visibility.rowCount, List.length_flatMap,
            List.map_const'] }
    let outside := vis.frequency.countP (outOfRange planes tolerance)
    PlaneMap.of? table planes.length (outside * vis.rowCount : Nat)

/-- The plane map for plane frequencies and a tolerance as they are given; a bare frequency makes no
    planes. -/
def givenNearestMap (vis : Visibility α nchan npol) (planes tolerance : Setting α) :
    Except (Fault α) PlaneMap := do
  match planes with
  | .several _ => nearestMap vis ((← planes.operands).map Prod.fst) (← tolerance.number)
  | _ => throw .index

end ApertureSynthesis.Plane
