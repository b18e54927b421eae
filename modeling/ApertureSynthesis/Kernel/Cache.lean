/-
  The cache of a convolution function: a table of taps for each plane, read by phase in v, phase
  in u, tap in v and tap in u. A cache is built once and never changes.
-/
import ApertureSynthesis.Tensor
import ApertureSynthesis.Fault

namespace ApertureSynthesis

/-- Convolution function planes with what is needed to use them. -/
structure Cache (α : Type) where
  /-- Tap table of each plane. -/
  planes : List (Tensor (Cplx α))
  /-- Half-width of each plane in grid cells. -/
  supports : List Int
  /-- What each plane stands for: a w in wavelengths, or a frequency. -/
  planeValues : List α
  /-- Phases per grid cell. -/
  oversample : Nat
  /-- Fraction of the peak at which supports were found. -/
  cutoff : α
  /-- Tap table of the anti-aliasing taper alone. -/
  zeroW : Tensor (Cplx α)
  /-- The cell size that the planes were built for. -/
  cellSize : CellSize α
  /-- Kind of the convolution function. -/
  name : String

namespace Cache

variable {α : Type}

/-- Number of planes. -/
def planeCount (c : Cache α) : Nat := c.planes.length

/-- The largest support; there is none without planes. -/
def maxSupport? (c : Cache α) : Option Int := c.supports.max?

/-- Bytes of storage of the planes, sixteen for each tap. -/
def bytes (c : Cache α) : Nat := c.planes.foldl (fun n p => n + 16 * p.data.size) 0

/-- Every plane has a support and a table of `oversample` phases and `2 · support + 1` taps in each
    direction. -/
def WellFormed (c : Cache α) : Prop :=
  0 < c.oversample ∧ c.supports.length = c.planes.length ∧
    ∀ p (h : p < c.planes.length), ∃ s : Nat, c.supports[p]? = some (s : Int) ∧
      c.planes[p].shape = [c.oversample, c.oversample, 2 * s + 1, 2 * s + 1]

/-- A description in five lines. -/
def text (c : Cache Float) : String :=
  "Convolution function cache:\n" ++
  s!"\tVariant: {c.name}\n" ++
  s!"\tNumber of planes: {c.planeCount}\n" ++
  s!"\tOversampling: {c.oversample}\n" ++
  s!"\tSupports: {Text.integers c.supports}\n" ++
  s!"\tPlane values: {Text.numbers c.planeValues}\n"

end Cache

end ApertureSynthesis
