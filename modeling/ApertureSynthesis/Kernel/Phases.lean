/-
  Oversampled kernels and their tap tables. A kernel is sampled `oversample` times per grid cell
  with the zero of the uv plane at its centre. `findSupport` finds the half-width in cells beyond
  which it stays small; `tapTable` rearranges the samples by phase and tap, so that the taps for
  one sub-pixel phase can be read together.
-/
import ApertureSynthesis.Tensor
import ApertureSynthesis.Argument

namespace ApertureSynthesis.Kernel

variable {α : Type} [Scalar α]

/-- The distance between two pixels of an axis. -/
def distance (a b : Nat) : Nat := if a ≤ b then b - a else a - b

/-- The greatest amplitude. There is none in an empty kernel. -/
@[specialize] def peak? (kernel : Raster (Cplx α)) : Option α :=
  if h : 0 < kernel.data.size then
    some (kernel.data.foldl (fun m z => Scalar.maximum m z.abs) kernel.data[0].abs)
  else none

/-- The greatest distance from the centre, along the central row and column, of a sample whose
    amplitude is above the threshold. -/
@[specialize] def extent (kernel : Raster (Cplx α)) (threshold : α) : Nat :=
  let cy := kernel.ny / 2
  let cx := kernel.nx / 2
  let row := (List.range kernel.nx).map fun i =>
    if threshold < (kernel.get cy i).abs then distance i cx else 0
  let column := (List.range kernel.ny).map fun j =>
    if threshold < (kernel.get j cx).abs then distance j cy else 0
  (row ++ column).foldl max 0

/-- The smallest half-width in grid cells beyond which the amplitude along the central row and
    column stays at or below `cutoff` times the peak. -/
@[specialize] def findSupport? (kernel : Raster (Cplx α)) (oversample : Nat) (cutoff : α) :
    Option Nat :=
  (peak? kernel).map fun peak =>
    let e := extent kernel (cutoff * peak)
    (e + oversample - 1) / oversample

/-- The support for an oversampling as it is given: the extent divided by it, rounded up. There is
    none for an oversampling of zero. -/
def findSupport (kernel : Raster (Cplx α)) (oversample : Setting α) (cutoff : α) :
    Except (Fault α) Int :=
  match peak? kernel with
  | none => .error .mismatch
  | some peak =>
    let e := extent kernel (cutoff * peak)
    match oversample.whole?, oversample.number? with
    | _, none => .error .unsuitable
    | some os, some x =>
      if os ≠ 0 then .ok (-(Int.fdiv (-(e : Int)) os)) else quotient e x
    | none, some x => quotient e x
where
  /-- A whole number divided by a number, rounded up. -/
  quotient (e : Nat) (x : α) : Except (Fault α) Int :=
    let q := (e : α) / x
    if x == 0 then .error (if e = 0 then .division else .overflow)
    else if Scalar.isNaN q then .error .mismatch
    else if Scalar.isFinite q then .ok (Scalar.ceilInt q)
    else .error .overflow

/-- Where tap `t` of phase `d` stands along an axis of `n` samples: phase `d` is a sub-pixel offset
    of `d - oversample / 2` samples, and tap `t` belongs to the grid cell `t - support` cells from
    the nearest one. -/
def samplePosition (n oversample : Nat) (support : Int) (d t : Nat) : Int :=
  ((n / 2 : Nat) : Int) + ((d : Int) - (oversample / 2 : Nat)) - (oversample : Int) *
    ((t : Int) - support)

/-- Whether an axis of `n` samples holds every phase of every tap. -/
def holdsSupport (n oversample support : Nat) : Bool :=
  decide (0 ≤ samplePosition n oversample support 0 (2 * support) ∧
    samplePosition n oversample support (oversample - 1) 0 < n)

/-- The samples of a kernel by phase in v, phase in u, tap in v and tap in u. -/
def tapTable {β : Type} [Zero β] (kernel : Raster β) (oversample support : Nat) :
    Except (Fault α) (Tensor β) :=
  if oversample = 0 then .error .mismatch
  else if holdsSupport kernel.ny oversample support && holdsSupport kernel.nx oversample support
  then
    let width := 2 * support + 1
    .ok (Tensor.ofFn [oversample, oversample, width, width] fun
      | [dv, du, v, u] => kernel.getInt (samplePosition kernel.ny oversample support dv v)
          (samplePosition kernel.nx oversample support du u)
      | _ => 0)
  else .error (.kernelSamples kernel.ny kernel.nx support)

/-- The lowest and highest sample of an axis of `n` that the phases of an oversampling and the taps
    of a half-width ask for, where one of them has a point. Without phases or taps there are
    none. -/
def sampleRange? (n : Nat) (oversample support : α) : Option (α × α) :=
  let last := -support + ((Scalar.ceilInt (support + 1.0 + support) - 1 : Int) : α)
  if Scalar.isFinite oversample && Scalar.isFinite support && decide (0 < oversample) &&
      decide (-support ≤ last) then
    let middle := ((n / 2 : Nat) : α) - Scalar.floor (oversample / 2.0)
    some (middle - oversample * last,
      middle + ((Scalar.ceilInt oversample - 1 : Int) : α) + oversample * support)
  else none

/-- The samples of a kernel by phase and tap, for an oversampling and a half-width as they are
    given. Where one of them has a point the kernel is checked like for whole ones, but samples
    between the samples cannot be taken. -/
def givenTapTable {β : Type} [Zero β] (kernel : Raster β) (oversample support : Setting α) :
    Except (Fault α) (Tensor β) :=
  match oversample.whole?, support.whole? with
  | some os, some s => if s < 0 then .error .mismatch else tapTable kernel os.toNat s.toNat
  | _, _ => do
    let os ← oversample.number
    let s ← support.number
    match sampleRange? kernel.ny os s, sampleRange? kernel.nx os s with
    | some (top, bottom), some (left, right) =>
      if top < 0 ∨ (kernel.ny : α) ≤ bottom ∨ left < 0 ∨ (kernel.nx : α) ≤ right then
        throw (.kernelSamples kernel.ny kernel.nx (Scalar.wholePart s))
      else throw .index
    | _, _ => throw .mismatch

end ApertureSynthesis.Kernel
