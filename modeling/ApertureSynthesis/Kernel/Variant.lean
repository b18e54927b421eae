/-
  The kinds of convolution function. Each builds a cache for a grid and maps samples to the planes
  of its cache:
  * `box`: a single tap, so that all of a sample goes to the nearest cell;
  * `spheroidal`: the anti-aliasing function, one plane;
  * `wprojection`: the anti-aliasing function times the w-term chirp, one plane for each w;
  * `illumination`: the anti-aliasing function times an antenna pattern, one plane for each
    frequency;
  * `general`: none of these; it can do neither.
-/
import ApertureSynthesis.Kernel.Airy
import ApertureSynthesis.Kernel.Build
import ApertureSynthesis.Kernel.Chirp
import ApertureSynthesis.Plane.Frequency
import ApertureSynthesis.Plane.Spacing

namespace ApertureSynthesis.Kernel

variable {α : Type} [Scalar α]

/-- A convolution function with checked parameters. -/
inductive Variant (α : Type) [Scalar α] where
  /-- No particular kind. -/
  | general
  /-- A single tap. -/
  | box
  /-- The anti-aliasing function. -/
  | spheroidal (parameters : Parameters α)
  /-- The anti-aliasing function and the w term. -/
  | wprojection (mapper : Plane.Mapper α) (parameters : Parameters α)
  /-- The anti-aliasing function and an antenna pattern, at given frequencies or, if nothing is
      given, at those of the image channels. -/
  | illumination (aperture : Aperture α) (parameters : Parameters α) (planes : Setting α)

/-- The frequencies of the planes of an antenna pattern. -/
def planeValues (s : Setting α) : Except (Fault α) (List (PlaneValue α)) :=
  s.operands.map fun xs => xs.map fun (x, given) => ⟨x, given⟩

namespace Variant

/-- The name under which a kind is known. -/
def name : Variant α → String
  | general => ""
  | box => "box"
  | spheroidal _ => "spheroidal"
  | wprojection _ _ => "wprojection"
  | illumination _ _ _ => "illumination"

/-- The w term as a term of the planes. -/
@[specialize] def chirpTerm : PlaneTerm α := ⟨fun w l m => fresnelChirp l m w, none⟩

/-- An antenna pattern as a term of the planes. -/
@[specialize] def beamTerm (a : Aperture α) : PlaneTerm α :=
  ⟨fun f l m => Cplx.ofReal (a.power f l m), a.obstacle⟩

/-- The single tap of the box function. -/
def unitTap : Tensor (Cplx α) := Tensor.fill [1, 1, 1, 1] 1

/-- The cache of the box function. -/
def boxCache (cellSize : CellSize α) : Cache α where
  planes := [unitTap]
  supports := [0]
  planeValues := [0]
  oversample := 1
  cutoff := 1
  zeroW := unitTap
  cellSize := cellSize
  name := "box"

/-- The cache for a grid with axes of given lengths, the last two along v and u, and cells of a
    size; the frequencies of its channels serve a kind that depends on frequency and was given
    none. -/
@[specialize] def buildCache (variant : Variant α) (cellSize : CellSize α) (shape : List Int)
    (frequency : Setting α) : Except (Fault α) (Cache α) :=
  match variant, shape.reverse with
  | general, _ => .error .noConvolution
  | box, _ => .ok (boxCache cellSize)
  | spheroidal p, nx :: ny :: _ => do
    build (← p.forGrid ny nx) none [.ofScalar 0] cellSize ny nx "spheroidal"
  | wprojection m p, nx :: ny :: _ => do
    build (← p.forGrid ny nx) (some chirpTerm) (m.planeValues.map .ofScalar) cellSize ny nx
      "wprojection"
  | illumination a p planes, shape => do
    let values ← match planes, frequency with
      | .absent, .absent => throw .noFrequencies
      | .absent, given => planeValues given
      | given, _ => planeValues given
    match shape with
    | nx :: ny :: _ =>
      build (← p.forGrid ny nx) (some (beamTerm a)) values cellSize ny nx "illumination"
    | _ => throw .index
  | _, _ => .error .index

/-- The plane of each row and channel in a cache. -/
def planeMap {nchan npol : Nat} (variant : Variant α) (vis : Visibility α nchan npol)
    (cache : Option (Cache α)) : Except (Fault α) PlaneMap :=
  match variant with
  | general => .error .noPlanes
  | box => .ok (PlaneMap.single vis)
  | spheroidal _ => .ok (PlaneMap.single vis)
  | wprojection m _ => m.map vis
  | illumination _ _ _ =>
    match cache with
    | none => .error .missing
    | some c => Plane.nearestMap vis c.planeValues 1e-8

end Variant

/-- Named values for the parameters of a kind. -/
abbrev Arguments (α : Type) := List (String × Setting α)

namespace Arguments

/-- The value of a parameter, or a default. -/
def get (args : Arguments α) (key : String) (default : Setting α) : Setting α :=
  (List.lookup key args).getD default

/-- Every name is one of the given. -/
def only (args : Arguments α) (known : List String) : Bool :=
  args.all fun (key, _) => known.contains key

/-- The parameters that sampled kernels share. -/
def request (args : Arguments α) : Request α where
  oversample := args.get "oversample" (.whole 8)
  cutoff := args.get "cutoff" (.real 1e-3)
  support := args.get "support" .absent
  maxSupport := args.get "maxsupport" (.whole 64)

end Arguments

namespace Variant

/-- Names of the parameters that sampled kernels share. -/
def sharedNames : List String := ["oversample", "cutoff", "support", "maxsupport"]

/-- The anti-aliasing function with given parameters. -/
def spheroidal? (args : Arguments α) : Except (Fault α) (Variant α) :=
  args.request.check.map spheroidal

/-- W projection with given parameters. The number of planes is checked first, then the greatest w,
    the shared parameters and the spacing. -/
def wprojection? (wmax planes spacing : Setting α) (request : Request α) :
    Except (Fault α) (Variant α) := do
  let count ← match planes.whole? with
    | some n => if n ≤ 0 then throw (.planeCount planes) else pure n
    | none => throw (.planeCount planes)
  let greatest ← match wmax with
    | .absent => throw (.maximumW wmax)
    | given => match given.number? with
      | none => throw .unsuitable
      | some x => if x ≤ 0.0 then throw (.maximumW wmax) else pure x
  let parameters ← request.check
  let spacing ← Plane.Spacing.check spacing
  return wprojection ⟨greatest, count, spacing⟩ parameters

/-- Antenna illumination with given parameters. The diameter is checked first, then the blockage and
    the shared parameters. -/
def illumination? (diameter blockage frequency : Setting α) (request : Request α) :
    Except (Fault α) (Variant α) := do
  let d ← match diameter with
    | .absent => throw (.diameter diameter)
    | given => match given.number? with
      | none => throw .unsuitable
      | some x => if x ≤ 0.0 then throw (.diameter diameter) else pure x
  let b ← match blockage.number? with
    | none => throw .unsuitable
    | some x => if x < 0.0 || d ≤ x then throw (.blockage blockage) else pure x
  return illumination ⟨d, b⟩ (← request.check) frequency

/-- W projection with named parameters and the default spacing. -/
def wprojectionOf (args : Arguments α) : Except (Fault α) (Variant α) :=
  wprojection? (args.get "wmax" .absent) (args.get "nwplanes" (.whole 1))
    (args.get "wspacing" (.text "quadratic")) args.request

/-- Antenna illumination with named parameters, by default an unblocked dish of 25 m. -/
def illuminationOf (args : Arguments α) : Except (Fault α) (Variant α) :=
  illumination? (args.get "diameter" (.real 25.0)) (args.get "blockage" (.real 0.0))
    (args.get "frequency" .absent) args.request

/-- A kind with named parameters; a parameter that the kind does not have, or one that it lacks, is
    refused. -/
def ofArguments (kind : String) (args : Arguments α) : Except (Fault α) (Variant α) :=
  match kind with
  | "box" => if args.isEmpty then .ok box else .error .unsuitable
  | "spheroidal" => if args.only sharedNames then spheroidal? args else .error .unsuitable
  | "wprojection" =>
    if args.only (["wmax", "nwplanes", "wspacing"] ++ sharedNames) &&
        (List.lookup "wmax" args).isSome && (List.lookup "nwplanes" args).isSome then
      wprojectionOf args
    else .error .unsuitable
  | "illumination" =>
    if args.only (["diameter", "blockage", "frequency"] ++ sharedNames) then illuminationOf args
    else .error .unsuitable
  | _ => if args.isEmpty then .ok general else .error .unsuitable

end Variant

end ApertureSynthesis.Kernel
