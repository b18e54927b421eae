/-
  The parameters that all sampled kernels share, checked once: a value of `Config` satisfies the
  conditions that its proof fields state. Half-widths may be given as numbers with a point; they are
  checked like whole ones, but a kernel needs whole half-widths, so they are refused when one is
  built. Only a largest half-width below that of the gridding function does not set the size of the
  working grid, and its fraction does not matter.
-/
import ApertureSynthesis.Argument
import ApertureSynthesis.Kernel.Spheroidal

namespace ApertureSynthesis.Kernel

variable {α : Type} [Scalar α]

/-- Parameters of a sampled kernel. -/
structure Config (α : Type) [Scalar α] where
  /-- Samples per grid cell. -/
  oversample : Nat
  /-- Fraction of the peak below which a kernel is cut off. -/
  cutoff : α
  /-- Half-width in grid cells, in place of a search by the cutoff. -/
  support : Option Nat
  /-- Largest half-width allowed. -/
  maxSupport : Nat
  /-- There is at least one sample per cell. -/
  oversample_pos : 0 < oversample
  /-- The cutoff is positive. -/
  cutoff_pos : 0.0 < cutoff
  /-- The cutoff is at most one. -/
  cutoff_le_one : cutoff ≤ 1.0
  /-- At least one cell is allowed. -/
  maxSupport_pos : 0 < maxSupport
  /-- A given half-width is allowed. -/
  support_le : ∀ s, support = some s → s ≤ maxSupport

/-- A half-width that passes the checks but is no whole number. -/
inductive Misfit (α : Type) where
  /-- The half-width. -/
  | support (s : α)
  /-- The largest half-width. -/
  | maximum (m : α)

/-- Why no kernel can be built for a grid of `ny` by `nx` cells. A width beyond the grid is found
    before it is found that the half-width cannot number taps. -/
def Misfit.fault (ny nx : Int) : Misfit α → Fault α
  | support s =>
    let width := 2.0 * s + 1.0
    if Scalar.isNaN s then .mismatch
    else if ((min ny nx : Int) : α) < width then .kernelWidth (Scalar.wholePart width) 0 ny nx
    else .index
  | maximum m => if Scalar.isNaN m then .broken else .unsuitable

/-- Checked parameters. -/
inductive Parameters (α : Type) [Scalar α] where
  /-- Those of a kernel that can be built. -/
  | fitting (config : Config α)
  /-- Those of a kernel that cannot. -/
  | misfit (m : Misfit α)

/-- The parameters of a kernel for a grid of `ny` by `nx` cells. -/
def Parameters.forGrid (p : Parameters α) (ny nx : Int) : Except (Fault α) (Config α) :=
  match p with
  | fitting config => .ok config
  | misfit m => .error (m.fault ny nx)

/-- Parameters of a kernel as they are given. -/
structure Request (α : Type) where
  /-- Samples per grid cell. -/
  oversample : Setting α := .whole 8
  /-- Fraction of the peak. -/
  cutoff : Setting α
  /-- Half-width, if fixed. -/
  support : Setting α := .absent
  /-- Largest half-width. -/
  maxSupport : Setting α := .whole 64

/-- A cutoff of a thousandth, found by search, at most 64 cells. -/
instance : Inhabited (Request α) := ⟨{ cutoff := .real 1e-3 }⟩

namespace Request

/-- The oversampling: a whole number from one on. -/
def checkOversample (r : Request α) : Except (Fault α) { n : Nat // 0 < n } :=
  match r.oversample.whole? with
  | none => .error (.oversampling r.oversample)
  | some n =>
    if h : n < 1 then .error (.oversampling r.oversample) else .ok ⟨n.toNat, by omega⟩

/-- The cutoff: a number in `(0, 1]`. -/
def checkCutoff (r : Request α) : Except (Fault α) { c : α // 0.0 < c ∧ c ≤ 1.0 } :=
  match r.cutoff.number? with
  | none => .error .unsuitable
  | some c => if h : 0.0 < c ∧ c ≤ 1.0 then .ok ⟨c, h⟩ else .error (.cutoff r.cutoff)

/-- The half-widths if all are whole: the support, if it is fixed, and the largest. -/
def wholeWidths? (r : Request α) : Option (Option Int × Int) :=
  match r.maxSupport.whole?, r.support with
  | none, _ => none
  | some m, .absent => some (none, m)
  | some m, given => given.whole?.map fun s => (some s, m)

/-- A configuration with whole half-widths. -/
def configure (r : Request α) (os : { n : Nat // 0 < n }) (c : { c : α // 0.0 < c ∧ c ≤ 1.0 })
    (support : Option Int) (m : Int) : Except (Fault α) (Config α) :=
  if hm : m < 1 then .error (.maximumSupport r.maxSupport)
  else match support with
    | none => .ok
      { oversample := os.1, cutoff := c.1, support := none, maxSupport := m.toNat
        oversample_pos := os.2, cutoff_pos := c.2.1, cutoff_le_one := c.2.2
        maxSupport_pos := by omega
        support_le := by simp }
    | some s =>
      if s < 0 then .error (.negativeSupport r.support)
      else if hs : m < s then .error (.supportAboveMaximum s m)
      else .ok
        { oversample := os.1, cutoff := c.1, support := some s.toNat, maxSupport := m.toNat
          oversample_pos := os.2, cutoff_pos := c.2.1, cutoff_le_one := c.2.2
          maxSupport_pos := by omega
          support_le := by intro t ht; cases ht; omega }

/-- The largest half-width as a number, and the support if it is fixed, in the order in which they
    are checked. -/
def checkNumbers (r : Request α) : Except (Fault α) α := do
  let m ← r.maxSupport.number
  if m < 1 then throw (.maximumSupport r.maxSupport)
  match r.support with
  | .absent => return m
  | given =>
    let s ← given.number
    if s < 0 then throw (.negativeSupport given)
    if m < s then
      if Scalar.isFinite m && Scalar.isFinite s then
        throw (.supportAboveMaximum (Scalar.wholePart s) (Scalar.wholePart m))
      else throw .overflow
    return m

/-- Parameters of which some half-width has a point. -/
def checkFractions (r : Request α) (os : { n : Nat // 0 < n })
    (c : { c : α // 0.0 < c ∧ c ≤ 1.0 }) : Except (Fault α) (Parameters α) := do
  let m ← r.checkNumbers
  let cells := r.maxSupport.whole?.or
    (if m < ((antiAliasingSupport : Nat) : α) then some (Scalar.floorInt m) else none)
  match cells, r.support with
  | none, _ => return .misfit (.maximum m)
  | some n, .absent => return .fitting (← r.configure os c none n)
  | some n, given => match given.whole? with
    | some s => return .fitting (← r.configure os c (some s) n)
    | none => return .misfit (.support (← given.number))

/-- Checks a request in the order oversampling, cutoff, largest support, support. -/
def check (r : Request α) : Except (Fault α) (Parameters α) := do
  let os ← r.checkOversample
  let c ← r.checkCutoff
  match r.wholeWidths? with
  | some (support, m) => return .fitting (← r.configure os c support m)
  | none => r.checkFractions os c

end Request

end ApertureSynthesis.Kernel
