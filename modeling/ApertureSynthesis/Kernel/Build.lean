/-
  Construction of the convolution function planes. The plane of zero w is the anti-aliasing kernel;
  its transform is the taper. The other planes are made in the image as the taper times a term that
  depends on the plane, and transformed back. The working grid is `2 · (s + 1)` cells across, with
  the larger of `maxSupport` and the support of the anti-aliasing kernel for `s`, so that it holds
  this kernel and any other up to `maxSupport`; its image spans `oversample` fields of view. Every
  plane is divided by the tap sums of the zero-w kernel, so that for each sub-pixel phase the zero-w
  kernel sums to one.
-/
import ApertureSynthesis.Fourier.Centred
import ApertureSynthesis.Fourier.Coordinates
import ApertureSynthesis.Fourier.Padding
import ApertureSynthesis.Kernel.Cache
import ApertureSynthesis.Kernel.Config
import ApertureSynthesis.Kernel.Phases
import ApertureSynthesis.Kernel.Spheroidal

namespace ApertureSynthesis.Kernel

variable {α : Type} [Scalar α]

/-- What distinguishes one plane from another, in the image. -/
structure PlaneTerm (α : Type) where
  /-- Factor of the taper for a plane value, at direction cosines `l`, `m`. -/
  factor : (value l m : α) → Cplx α
  /-- Why there is no such factor, for any plane. -/
  obstacle : Option (Fault α) := none

/-- The value of a plane, with the way it was written. -/
structure PlaneValue (α : Type) where
  /-- The value. -/
  value : α
  /-- The setting it came from. -/
  given : Setting α

/-- A value written as a number with a point. -/
def PlaneValue.ofScalar (x : α) : PlaneValue α := ⟨x, .real x⟩

/-- Samples along each axis of the working grid. -/
def workingSize (c : Config α) : Nat :=
  2 * (max c.maxSupport antiAliasingSupport + 1) * c.oversample

/-- The kernel of zero w on the working grid. -/
@[specialize] def zeroWKernel (c : Config α) : Raster (Cplx α) :=
  let n := workingSize c
  (Fourier.padTo? ((antiAliasing (c.oversample : Int)).map Cplx.ofReal) n).getD (Raster.fill n n 0)

/-- The support that the request fixes, or else the one found by the cutoff. -/
@[specialize] def supportOf (c : Config α) (kernel : Raster (Cplx α)) : Except (Fault α) Nat :=
  match c.support with
  | some s => .ok s
  | none => match findSupport? kernel c.oversample c.cutoff with
    | some s => .ok s
    | none => .error .mismatch

/-- Refuses a support beyond the largest allowed, and a kernel that is larger than the grid. -/
def checkSupport (c : Config α) (support plane : Nat) (value : Setting α) (ny nx : Int) :
    Except (Fault α) Unit :=
  if c.maxSupport < support then .error (.planeSupport support plane value c.maxSupport)
  else if min ny nx < 2 * (support : Int) + 1 then
    .error (.kernelWidth (2 * support + 1 : Nat) plane ny nx)
  else .ok ()

/-- Sum of the real parts of the taps of one phase. -/
@[specialize] def tapSum (t : Tensor (Cplx α)) (width dv du : Nat) : α :=
  Scalar.sum ((List.range width).flatMap fun v =>
    (List.range width).map fun u => (t.get [dv, du, v, u]).re)

/-- The tap sums of all phases. -/
@[specialize] def tapSums (t : Tensor (Cplx α)) (oversample width : Nat) : Raster α :=
  Raster.ofFn oversample oversample (tapSum t width)

/-- A tap table divided, phase by phase, by tap sums. -/
@[specialize] def normalise (t : Tensor (Cplx α)) (norm : Raster α) : Tensor (Cplx α) :=
  Tensor.ofFn t.shape fun
    | [dv, du, v, u] => (t.get [dv, du, v, u]).divReal (norm.get dv du)
    | _ => 0

/-- The kernel of one plane: the taper times the term of the plane, transformed to the grid. -/
@[specialize] def planeKernel (c : Config α) (fieldOfView : α × α) (term : PlaneTerm α)
    (taper : Raster (Cplx α)) (value : α) : Raster (Cplx α) :=
  let n := workingSize c
  Fourier.raster .forward <| Raster.ofFn n n fun j i =>
    let l := Fourier.coordinate n i * (c.oversample : α) * fieldOfView.1
    let m := Fourier.coordinate n j * (c.oversample : α) * fieldOfView.2
    taper.get j i * term.factor value l m

/-- The planes and supports of a list of kernels, each with its number and value. -/
@[specialize] def tabulate (c : Config α) (ny nx : Int) (norm : Raster α)
    (kernel : α → Raster (Cplx α)) :
    Nat → List (PlaneValue α) → Except (Fault α) (List (Tensor (Cplx α) × Nat))
  | _, [] => .ok []
  | plane, v :: rest => do
    let k := kernel v.value
    let support ← supportOf c k
    checkSupport c support plane v.given ny nx
    let t ← tapTable k c.oversample support
    let others ← tabulate c ny nx norm kernel (plane + 1) rest
    .ok ((normalise t norm, support) :: others)

/-- Builds the planes for a grid of `ny` by `nx` cells of a size. Without a term every plane is the
    zero-w kernel. -/
@[specialize] def build (c : Config α) (term : Option (PlaneTerm α)) (values : List (PlaneValue α))
    (cellSize : CellSize α) (ny nx : Int) (name : String) : Except (Fault α) (Cache α) := do
  let zeroW := zeroWKernel c
  let support ← supportOf c zeroW
  checkSupport c support 0 (.real 0) ny nx
  let table ← tapTable zeroW c.oversample support
  let norm := tapSums table c.oversample (2 * support + 1)
  if !(norm.data.all fun x => decide (0.0 < x)) then throw (.kernelSum support)
  let planes ← match term with
    | none => tabulate c ny nx norm (fun _ => zeroW) 0 values
    | some term => match cellSize.axes? with
      | none => throw .index
      | some (du, dv) =>
        if let some fault := if values.isEmpty then none else term.obstacle then throw fault
        let taper := Fourier.raster .inverse zeroW
        tabulate c ny nx norm (planeKernel c (1.0 / du, 1.0 / dv) term taper) 0 values
  if planes.isEmpty then throw .mismatch
  return {
    planes := planes.map Prod.fst
    supports := planes.map fun p => (p.2 : Int)
    planeValues := values.map PlaneValue.value
    oversample := c.oversample
    cutoff := c.cutoff
    zeroW := normalise table norm
    cellSize := match cellSize.values with
      | [x] => .perAxis [x, x]
      | xs => .perAxis xs
    name := name }

end ApertureSynthesis.Kernel
