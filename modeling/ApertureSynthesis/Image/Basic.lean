/-
  Images: arrays of real or complex pixels with four axes, channel, polarisation, y and x, and world
  coordinates if they are known. Pixel `(j, i)` is at direction cosines `(i - nx / 2) · cell` and
  `(j - ny / 2) · cell`.
-/
import ApertureSynthesis.Image.Coordinates
import ApertureSynthesis.Storage
import ApertureSynthesis.Tensor

namespace ApertureSynthesis

/-- A kind of stored number. -/
structure PixelKind where
  /-- It has an imaginary part. -/
  complex : Bool
  /-- How its parts are stored. -/
  storage : Storage
deriving DecidableEq, Repr

namespace PixelKind

/-- Bytes of a number. -/
def bytes (k : PixelKind) : Nat := (if k.complex then 2 else 1) * k.storage.bytes

/-- Name of a kind, with the number of bits. -/
def name (k : PixelKind) : String :=
  let bits := toString (8 * k.bytes)
  if k.complex then "complex" ++ bits
  else match k.storage with
    | .flag => "bool"
    | .whole true _ => "int" ++ bits
    | .whole false _ => "uint" ++ bits
    | _ => "float" ++ bits

/-- Real numbers in 64 bits. -/
def double : PixelKind := ⟨false, .double⟩

/-- The kinds there are, each with its full name and its short ones. -/
def known : List (PixelKind × List String) :=
  [(⟨false, .flag⟩, ["bool", "?", "bool_", "b1"]),
    (⟨false, .whole true .one⟩, ["int8", "i1", "b", "byte"]),
    (⟨false, .whole true .two⟩, ["int16", "i2", "h", "short"]),
    (⟨false, .whole true .four⟩, ["int32", "i4", "i", "intc"]),
    (⟨false, .whole true .eight⟩,
      ["int64", "i8", "l", "q", "p", "n", "int", "int_", "intp", "long", "longlong"]),
    (⟨false, .whole false .one⟩, ["uint8", "u1", "B", "ubyte"]),
    (⟨false, .whole false .two⟩, ["uint16", "u2", "H", "ushort"]),
    (⟨false, .whole false .four⟩, ["uint32", "u4", "I", "uintc"]),
    (⟨false, .whole false .eight⟩,
      ["uint64", "u8", "L", "Q", "P", "N", "uint", "uintp", "ulong", "ulonglong"]),
    (⟨false, .half⟩, ["float16", "f2", "e", "half"]),
    (⟨false, .single⟩, ["float32", "f4", "f", "single"]),
    (⟨false, .double⟩, ["float64", "f8", "d", "float", "double"]),
    (⟨true, .single⟩, ["complex64", "c8", "F", "csingle"]),
    (⟨true, .double⟩, ["complex128", "c16", "D", "complex", "cdouble"])]

/-- The kind of a name, full or short, perhaps after a mark for the order of bytes. -/
def ofName? (name : String) : Option PixelKind :=
  let plain := if name.startsWith '<' || name.startsWith '=' || name.startsWith '|' then
    toString (name.drop 1) else name
  (known.find? fun x => x.2.contains plain).map Prod.fst

/-- The kind that a setting names; without a name, real numbers in 64 bits. -/
def ofSetting {α : Type} : Setting α → Except (Fault α) PixelKind
  | .absent => .ok double
  | .text name => match ofName? name with
    | some k => .ok k
    | none => .error .unsuitable
  | _ => .error .unsuitable

end PixelKind

/-- Pixels of an image. -/
inductive Pixels (α : Type) where
  /-- Real pixels. -/
  | real (data : Tensor α)
  /-- Complex pixels. -/
  | complex (data : Tensor (Cplx α))

namespace Pixels

variable {α : Type}

/-- Length of each axis. -/
def shape : Pixels α → List Nat
  | real t => t.shape
  | complex t => t.shape

/-- Number of pixels. -/
def count : Pixels α → Nat
  | real t => t.data.size
  | complex t => t.data.size

/-- The pixels have imaginary parts. -/
def isComplex : Pixels α → Bool
  | real _ => false
  | complex _ => true

variable [Scalar α]

/-- The pixels as complex numbers. -/
def toComplex : Pixels α → Tensor (Cplx α)
  | real t => t.map Cplx.ofReal
  | complex t => t

/-- Multiply each raster that the last two axes make by a real raster. -/
def mulRaster (p : Pixels α) (r : Raster α) : Pixels α :=
  let n := r.ny * r.nx
  let factor (k : Nat) : α := r.data.getD (k % n) 0
  match p with
  | real t => real ⟨t.shape, t.data.mapIdx fun k x => x * factor k, by simp [t.size_data]⟩
  | complex t =>
    complex ⟨t.shape, t.data.mapIdx fun k z => z * Cplx.ofReal (factor k), by simp [t.size_data]⟩

/-- Add a real number to one pixel, counted from the first. -/
def addAt (p : Pixels α) (k : Nat) (x : α) : Pixels α :=
  match p with
  | real t => real (t.modifyAt k (· + x))
  | complex t => complex (t.modifyAt k (· + Cplx.ofReal x))

end Pixels

/-- An array of pixels with its world coordinates. -/
structure Image (α : Type) where
  /-- The pixels. -/
  pixels : Pixels α
  /-- Where they are on the sky and in frequency. -/
  coordinates : Option (WorldCoordinates α) := none
  /-- How the parts of the pixels are stored. -/
  storage : Storage := .double

namespace Image

variable {α : Type} [Scalar α]

/-- Length of each axis. -/
def shape (im : Image α) : List Nat := im.pixels.shape

/-- The kind of number of the pixels. -/
def kind (im : Image α) : PixelKind := ⟨im.pixels.isComplex, im.storage⟩

/-- Bytes of storage. -/
def bytes (im : Image α) : Nat := im.kind.bytes * im.pixels.count

/-- An empty square image as it is asked for. -/
structure Request (α : Type) where
  /-- Pixels on each side. -/
  size : Setting α
  /-- Size of a pixel in radians. -/
  pixel : Setting α
  /-- Number of polarisations. -/
  npol : Setting α := .whole 1
  /-- Frequencies of the channels. -/
  frequency : Setting α
  /-- Widths of the channels, which matter only for a single frequency. -/
  widths : Setting α := .absent
  /-- Number of channels, if there is not one for each frequency. -/
  nchan : Setting α := .absent
  /-- The direction of the centre. -/
  centre : Option (SkyDirection α) := none
  /-- Name of the kind of pixels. -/
  kind : Setting α := .absent

/-- The angle that a pixel covers: one number. -/
def Request.angle (r : Request α) : Except (Fault α) α :=
  match r.pixel with
  | .several _ => .error .mismatch
  | .text _ => .error .narrowing
  | given => given.number

/-- The empty square image of a request. Without widths a single channel is 1 MHz wide. -/
def create (r : Request α) : Except (Fault α) (Image α) := do
  let frequency ← r.frequency.numbers
  let widths ← match r.widths with
    | .absent => pure [1e6]
    | given => given.numbers
  if frequency.length < 2 ∧ widths.isEmpty then throw .index
  let angle ← r.angle
  let _ ← r.size.number
  let middle : Nat := ((r.size.whole?).getD 0).toNat
  let coordinates ← WorldCoordinates.create middle angle frequency widths r.centre
  let size ← r.size.count
  let nchan ← match r.nchan with
    | .absent => pure (frequency.length : Int)
    | given => given.count
  let npol ← r.npol.count
  let kind ← PixelKind.ofSetting r.kind
  let shape ← [nchan, npol, size, size].mapM axisLength
  coordinates.checkSteps
  let pixels : Pixels α :=
    if kind.complex then .complex (Tensor.fill shape 0) else .real (Tensor.fill shape 0)
  return ⟨pixels, some coordinates, kind.storage⟩

/-- The world coordinates; refused for an image without them. -/
def located (im : Image α) : Except (Fault α) (WorldCoordinates α) :=
  match im.coordinates with
  | some c => .ok c
  | none => .error .missing

/-- The frequency of each channel. -/
def frequency (im : Image α) : Except (Fault α) (List α) := do
  let c ← im.located
  match im.shape with
  | nchan :: _ => return (List.range nchan).map c.channelFrequency
  | [] => throw .index

/-- A description in four lines, of an image without world coordinates. -/
def text (im : Image Float) : String :=
  "Image:\n" ++
  s!"\tShape: {Text.shape im.shape}\n" ++
  s!"\tData type: {im.kind.name}\n" ++
  "\tWCS: None\n"

end Image

end ApertureSynthesis
