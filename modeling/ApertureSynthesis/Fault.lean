/-
  What can go wrong: each constructor is a cause. Unsuitable configurations and shapes that do not
  fit are refused with a message; samples that cannot be gridded are no faults, they are counted.
-/
import ApertureSynthesis.Setting
import ApertureSynthesis.CellSize

namespace ApertureSynthesis

/-- Why an operation was refused. -/
inductive Fault (α : Type) where
  -- unsuitable configurations
  /-- The oversampling is no whole number from one on. -/
  | oversampling (given : Setting α)
  /-- The cutoff is not in `(0, 1]`. -/
  | cutoff (given : Setting α)
  /-- The largest support allowed is below one. -/
  | maximumSupport (given : Setting α)
  /-- A support is negative. -/
  | negativeSupport (given : Setting α)
  /-- A support exceeds the largest allowed. -/
  | supportAboveMaximum (support maximum : Int)
  /-- The support found for a plane exceeds the largest allowed. -/
  | planeSupport (support : Int) (plane : Nat) (value : Setting α) (maximum : Int)
  /-- The kernel of a plane does not fit on the grid. -/
  | kernelWidth (width : Int) (plane : Nat) (ny nx : Int)
  /-- A sampled kernel does not hold a support. -/
  | kernelSamples (ny nx : Nat) (support : Int)
  /-- The taps of some phase of the anti-aliasing kernel have no positive sum. -/
  | kernelSum (support : Nat)
  /-- The number of w planes is no positive whole number. -/
  | planeCount (given : Setting α)
  /-- The greatest w is not positive. -/
  | maximumW (given : Setting α)
  /-- The spacing of the w planes is unknown. -/
  | spacing (given : Setting α)
  /-- The diameter of an antenna is not positive. -/
  | diameter (given : Setting α)
  /-- The blockage of an antenna is negative or not below the diameter. -/
  | blockage (given : Setting α)
  /-- An antenna pattern was asked for without frequencies. -/
  | noFrequencies
  /-- The interpolation of the kernel is unknown. -/
  | interpolation (given : Setting α)
  /-- The interpolation of a gridder is unknown. -/
  | gridderInterpolation (given : Setting α)
  /-- The kind of gridder is unknown. -/
  | gridderKind (given : Setting α)
  /-- A gridder was used before it had axes. -/
  | noAxes
  /-- A gridder without an open pass was asked for an image. -/
  | noPass (stage : String)
  /-- The weighting is unknown. -/
  | weighting (given : Setting α)
  /-- A taper was asked for without a beam. -/
  | noBeam
  -- shapes that do not fit
  /-- Visibilities and grid have different numbers of polarisations. -/
  | polarisations (samples grid : Nat)
  /-- A plane map does not have an entry for each row and channel. -/
  | planeMapShape (given : List Nat) (rows channels : Nat)
  /-- A plane map is for another number of planes than the cache has. -/
  | planeMapCount (given : Int) (cache : Nat)
  /-- Grid and cache have different uv cell sizes. -/
  | cellSizes (grid cache : CellSize α)
  /-- Axes need four lengths. -/
  | axesRank (given : Setting α)
  /-- Axes of an image need four lengths. -/
  | imageRank (given : List Nat)
  /-- There is not one frequency for each image channel. -/
  | channelCount (frequencies : Nat) (channels : Int)
  /-- The uvw coordinates are no list of triples. -/
  | uvwShape (given : List Nat)
  /-- A column of visibilities has another shape than rows, channels and polarisations. -/
  | columnShape (column : String) (expected : List (Setting α)) (given : List Nat)
  /-- An image has another shape than the grid. -/
  | imageShape (given grid : List Nat)
  /-- A grid has another shape than the gridder. -/
  | gridShape (given : List Nat) (gridder : List Int)
  /-- A model has another shape than the gridder. -/
  | modelShape (given : List Nat) (gridder : List Int)
  /-- A kernel is wider than the image to be corrected. -/
  | kernelOverImage (width : Nat) (ny nx : Int)
  /-- An image has another size than the corrector. -/
  | correctorShape (given : List Nat) (ny nx : Nat)
  -- what only particular kinds of kernel can do
  /-- The general kernel does not compute a convolution function. -/
  | noConvolution
  /-- The general kernel does not map samples to planes. -/
  | noPlanes
  -- promises that were not kept, with a text
  /-- A plane index is negative. -/
  | planeUnderflow
  /-- A plane index is not below the number of planes. -/
  | planeOverflow
  /-- A direction is not above the horizon. -/
  | horizon (l m : α)
  /-- Partitions do not have as many rows as the whole. -/
  | gathered (rows expected : Nat)
  /-- The uvw coordinates do not belong to the rows. -/
  | uvwRows (given : List Nat)
  /-- A compute client was announced that is none. -/
  | client (given : Setting α)
  -- promises that were not kept, without a text
  /-- Something promised by the caller does not hold. -/
  | broken
  -- faults of the arrays and values themselves
  /-- Arrays whose shapes do not combine, or a value out of its range. -/
  | mismatch
  /-- An index beyond the end. -/
  | index
  /-- A value of an unsuitable kind. -/
  | unsuitable
  /-- A result that cannot be kept as the kind of number that is there. -/
  | narrowing
  /-- Something that has no such part. -/
  | missing
  /-- A name that stands for nothing. -/
  | unknown
  /-- World coordinates that do not determine pixels. -/
  | singular
  /-- A number too large to be whole. -/
  | overflow
  /-- A division by zero. -/
  | division
  /-- A reduction that does not end. -/
  | endless
deriving Inhabited

namespace Fault

open Text (shape number tuple)

/-- Sorts of faults. -/
inductive Category where
  /-- An unsuitable configuration. -/
  | configuration
  /-- Shapes that do not fit. -/
  | shape
  /-- Something that a kind of kernel cannot do. -/
  | unsupported
  /-- A promise that was not kept. -/
  | promise
  /-- A value out of its range, or shapes that do not combine. -/
  | value
  /-- An index beyond the end. -/
  | index
  /-- A value of an unsuitable kind. -/
  | type
  /-- A result that does not fit a kind of number. -/
  | narrowing
  /-- A part that is not there. -/
  | part
  /-- A name that stands for nothing. -/
  | name
  /-- World coordinates that do not determine pixels. -/
  | singular
  /-- A number too large. -/
  | overflow
  /-- A division by zero. -/
  | division
  /-- A reduction that does not end. -/
  | recursion
deriving DecidableEq, Repr

/-- The sort of a fault. -/
def category {α : Type} : Fault α → Category
  | oversampling _ | cutoff _ | maximumSupport _ | negativeSupport _ | supportAboveMaximum ..
  | planeSupport .. | kernelWidth .. | kernelSamples .. | kernelSum _ | planeCount _
  | maximumW _ | spacing _ | diameter _ | blockage _ | noFrequencies | interpolation _
  | gridderInterpolation _ | gridderKind _ | noAxes | noPass _ | weighting _ | noBeam =>
    .configuration
  | polarisations .. | planeMapShape .. | planeMapCount .. | cellSizes .. | axesRank _
  | imageRank _ | channelCount .. | uvwShape _ | columnShape .. | imageShape ..
  | gridShape .. | modelShape .. | kernelOverImage .. | correctorShape .. => .shape
  | noConvolution | noPlanes => .unsupported
  | planeUnderflow | planeOverflow | horizon .. | gathered .. | uvwRows _ | client _ | broken =>
    .promise
  | mismatch => .value
  | index => .index
  | unsuitable => .type
  | narrowing => .narrowing
  | missing => .part
  | unknown => .name
  | singular => .singular
  | overflow => .overflow
  | division => .division
  | endless => .recursion

/-- A list of words in quotes. -/
def words (xs : List String) : List String := xs.map fun x => "'" ++ x ++ "'"

/-- The message of a fault, for those that have one. -/
def message? : Fault Float → Option String
  | oversampling v => s!"Oversampling must be an integer >= 1: {v.quoted}"
  | cutoff v => s!"Cutoff must be in (0, 1]: {v.quoted}"
  | maximumSupport v => s!"Maximum support must be >= 1: {v.quoted}"
  | negativeSupport v => s!"Support must be >= 0: {v.quoted}"
  | supportAboveMaximum s m => s!"Support {s} exceeds the maximum support {m}"
  | planeSupport s p v m =>
    s!"Support {s} of plane {p} ({v.quoted}) exceeds the maximum support {m}"
  | kernelWidth w p ny nx =>
    s!"Kernel width {w} of plane {p} is larger than the grid ({ny}, {nx})"
  | kernelSamples ny nx s => s!"Kernel of {shape [ny, nx]} samples is too small for support {s}"
  | kernelSum s => s!"Zero-w kernel of support {s} has a non-positive sum"
  | planeCount v => s!"Number of w planes must be a positive integer: {v.quoted}"
  | maximumW v => s!"Maximum w must be positive: {v.quoted}"
  | spacing v =>
    "Unknown w spacing policy " ++ v.quoted ++ ": must be one of " ++
      Text.list (words ["quadratic", "linear"])
  | diameter v => s!"Antenna diameter must be positive: {v.quoted}"
  | blockage v => s!"Blockage {v.quoted} must be in [0, diameter)"
  | noFrequencies => "Antenna illumination requires the frequencies of the planes"
  | interpolation v =>
    "Unknown interpolation " ++ v.quoted ++ ", must be one of " ++
      tuple (words ["nearest", "linear"])
  | gridderInterpolation v => s!"Unknown interpolation {v.quoted}"
  | gridderKind v => s!"Unknown gridder {v.quoted}"
  | noAxes => "Gridder needs the axes of the grid before it can be initialized"
  | noPass stage => s!"Gridder cannot finalize in state {stage}"
  | weighting v => s!"Unknown weighting {v.quoted}"
  | noBeam => "Beam size not specified for Gaussian taper"
  | polarisations v g => s!"Visibility has {v} polarisations but the grid has {g}"
  | planeMapShape s r c =>
    s!"Plane index map {shape s} does not match visibility [{r}, {c}]"
  | planeMapCount n c => s!"Plane index map is for {n} planes but the cache has {c}"
  | cellSizes g c => s!"Grid uv cellsize {g.text} differs from the cache {c.text}"
  | axesRank s => s!"Axes require a shape [nchan, npol, ny, nx]: {s.quoted}"
  | imageRank s => s!"Axes require a shape [nchan, npol, ny, nx]: {shape s}"
  | channelCount n c => s!"Number of frequencies {n} differs from number of image channels {c}"
  | uvwShape s => s!"uvw must be [nrows, 3]: {shape s}"
  | columnShape c e s => s!"{c} must be {tuple (e.map Setting.quoted)}: {shape s}"
  | imageShape s g => s!"Image shape {shape s} differs from grid shape {shape g}"
  | gridShape s g => s!"Grid shape {shape s} does not match the gridder {shape g}"
  | modelShape s g => s!"Model shape {shape s} does not match the gridder {shape g}"
  | kernelOverImage w ny nx =>
    s!"Kernel width {w} is larger than the image {shape [ny, nx]}"
  | correctorShape s ny nx =>
    s!"Image shape {shape s} does not match the corrector {shape [ny, nx]}"
  | noConvolution => "ConvolutionFunction does not compute a convolution function"
  | noPlanes => "ConvolutionFunction does not map planes"
  | planeUnderflow => "Plane index underflows"
  | planeOverflow => "Plane index overflows"
  | horizon l m =>
    "Direction (" ++ Text.general l ++ ", " ++ Text.general m ++ ") is beyond the horizon"
  | gathered n e => s!"Gathered {n} rows, expected {e}"
  | uvwRows s => s!"uvw must be [nrows, 3]: {shape s}"
  | client (.text s) => s
  | _ => none

end Fault

/-- The length of an axis. A negative one is refused, and one that is not a number of 64 bits. -/
def axisLength {α : Type} (n : Int) : Except (Fault α) Nat :=
  if n < 0 ∨ 0x8000000000000000 ≤ n then .error .mismatch else .ok n.toNat

end ApertureSynthesis
