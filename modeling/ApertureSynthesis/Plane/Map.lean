/-
  Plane maps: for each row and channel the number of a convolution function plane. A map is made
  once for a pass. Its planes are numbers below the plane count; this is part of the type.
-/
import ApertureSynthesis.Visibility.Basic

namespace ApertureSynthesis

/-- A table of plane numbers by row and channel. -/
structure PlaneMap where
  /-- Plane numbers. -/
  planes : Tensor Int
  /-- Number of planes of the cache that the map is for. -/
  count : Int
  /-- Entries that were moved to the first or last plane. -/
  clamped : Int
  /-- There is a plane. -/
  count_pos : 0 < count
  /-- No plane number is negative or reaches the plane count. -/
  within : ∀ p ∈ planes.data, 0 ≤ p ∧ p < count

namespace PlaneMap

variable {α : Type} {nchan npol : Nat}

/-- The map with given planes. -/
def of? (planes : Tensor Int) (count clamped : Int) : Except (Fault α) PlaneMap :=
  if hlow : ∀ p ∈ planes.data, 0 ≤ p then
    if hhigh : 0 < count ∧ ∀ p ∈ planes.data, p < count then
      .ok ⟨planes, count, clamped, hhigh.1, fun p hp => ⟨hlow p hp, hhigh.2 p hp⟩⟩
    else .error .planeOverflow
  else .error .planeUnderflow

/-- The map with given planes, for a number of planes as it is given. A plane has to be below that
    number, which may have a point. -/
def ofSetting? [Scalar α] (planes : Tensor Int) (count : Setting α) (clamped : Int) :
    Except (Fault α) PlaneMap :=
  match count.whole?, count.number? with
  | some n, _ => of? planes n clamped
  | none, some x =>
    if Scalar.isFinite x then of? planes (Scalar.ceilInt x) clamped
    else if 0 < x ∧ ∀ p ∈ planes.data, 0 ≤ p then .error .overflow
    else of? planes 0 clamped
  | none, none => if ∀ p ∈ planes.data, 0 ≤ p then .error .unsuitable else .error .planeUnderflow

/-- Every sample on plane zero. -/
def single (vis : Visibility α nchan npol) : PlaneMap where
  planes := Tensor.fill [vis.rowCount, nchan] 0
  count := 1
  clamped := 0
  count_pos := by decide
  within := by
    intro p hp
    have : p = 0 := by simpa [Tensor.fill] using (Array.mem_replicate.1 hp).2
    omega

/-- The plane of a row and channel. -/
def plane (m : PlaneMap) (row chan : Nat) : Int := @Tensor.get Int ⟨0⟩ m.planes [row, chan]

/-- A description in four lines, with a number of planes. -/
def text (m : PlaneMap) (count : Int) : String :=
  "Plane index map:\n" ++
  s!"\tShape: {Text.shape m.planes.shape}\n" ++
  s!"\tNumber of planes: {count}\n" ++
  s!"\tNumber clamped: {m.clamped}\n"

end PlaneMap

end ApertureSynthesis
