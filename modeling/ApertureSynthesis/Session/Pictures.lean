/-
  A session with images, kept under names. A shallow copy shares pixels and world coordinates with
  its source; any other copy has its own.
-/
import ApertureSynthesis.Axes
import ApertureSynthesis.Image.PointSource
import ApertureSynthesis.Session.Tables

namespace ApertureSynthesis.Session

/-- Where the parts of a named image are kept. -/
structure Picture where
  /-- Number of its array of pixels. -/
  pixels : Nat
  /-- How their parts are stored. -/
  storage : Storage
  /-- Number of its world coordinates. -/
  coordinates : Option Nat
deriving DecidableEq

/-- The images of a session, and the names for them. A name may stand for nothing. -/
structure Pictures where
  /-- Arrays of pixels. -/
  pixels : Array (Pixels Float)
  /-- World coordinates. -/
  coordinates : Array (WorldCoordinates Float)
  /-- The names, latest first. -/
  names : List (String × Option Picture)

/-- What two images have in common. -/
structure Sharing where
  /-- They have the same array of pixels. -/
  pixels : Bool
  /-- They have the same world coordinates, or both have none. -/
  coordinates : Bool

namespace Pictures

/-- The place of a named image. -/
def place (s : Pictures) (key : String) : Except (Fault Float) Picture :=
  match (List.lookup key s.names).join with
  | some p => .ok p
  | none => .error .missing

/-- The image at a place. -/
def read (s : Pictures) (p : Picture) : Image Float :=
  ⟨s.pixels.getD p.pixels (.real (Tensor.fill [0] 0)), p.coordinates.bind (s.coordinates[·]?),
    p.storage⟩

/-- A named image. -/
def get (s : Pictures) (key : String) : Except (Fault Float) (Image Float) :=
  (s.place key).map s.read

/-- Gives a name. -/
def name (s : Pictures) (key : String) (p : Option Picture) : Pictures :=
  { s with names := (key, p) :: s.names }

/-- Keeps an image with pixels and coordinates of its own. -/
def add (s : Pictures) (im : Image Float) : Picture × Pictures :=
  let place : Picture := ⟨s.pixels.size, im.storage, im.coordinates.map fun _ => s.coordinates.size⟩
  (place, { s with
    pixels := s.pixels.push im.pixels
    coordinates := match im.coordinates with
      | some c => s.coordinates.push c
      | none => s.coordinates })

/-- Keeps an image under a name. -/
def keep (s : Pictures) (key : String) (im : Image Float) : Pictures :=
  let (place, s) := s.add im
  s.name key (some place)

/-- A session with one named image. -/
def start (key : String) (im : Image Float) : Pictures := keep ⟨#[], #[], []⟩ key im

/-- Names a copy of an image, and says what it shares with its source. The copy of nothing is
    nothing. -/
def copy (s : Pictures) (source key : String) (shallow : Bool) : Option Sharing × Pictures :=
  match s.place source with
  | .error _ => (none, s.name key none)
  | .ok p =>
    let (q, s) := if shallow then (p, s) else s.add (s.read p)
    (some ⟨p.pixels == q.pixels, p.coordinates == q.coordinates⟩, s.name key (some q))

/-- Pixels as they are stored. -/
def stored (storage : Storage) : Pixels Float → Pixels Float
  | .real t => .real (t.map storage.store)
  | .complex t => .complex (t.map fun z => ⟨storage.store z.re, storage.store z.im⟩)

/-- Replaces the pixels at a place. -/
def write (s : Pictures) (p : Picture) (pixels : Pixels Float) : Pictures :=
  { s with pixels := s.pixels.setIfInBounds p.pixels (stored p.storage pixels) }

/-- Adds a point source to a named image, and says where it is. -/
def insert (s : Pictures) (key : String) (l m flux : Setting Float) :
    Except (Fault Float) ((Float × Float) × Pictures) := do
  let p ← s.place key
  let image := s.read p
  let _ ← image.located
  let spot ← image.spot (← offset l) (← offset m)
  p.storage.checkAddition flux
  let added ← fluxes p.storage flux
  return (spot.direction, s.write p (spot.brighten image.pixels (← spot.fluxes added)))
where
  /-- The numbers that are added. A number on its own is stored first as the pixels are. -/
  fluxes (storage : Storage) (x : Setting Float) : Except (Fault Float) (Tensor Float) :=
    match x with
    | .several _ => return Tensor.ofRows (x.shape?.getD []) (← x.numbers)
    | x => return .scalar (storage.store (← x.number))
  /-- A direction cosine. -/
  offset (x : Setting Float) : Except (Fault Float) Float :=
    match x with
    | .text _ => .error .narrowing
    | x => x.number

/-- Elements whose index begins with given entries, replaced by a value. -/
def assign {β : Type} (t : Tensor β) (index : List Nat) (x : β) : Tensor β :=
  ⟨t.shape, t.data.mapIdx fun k y =>
    if index.isPrefixOf (Tensor.unravel t.shape k) then x else y, by simp [t.size_data]⟩

/-- Sets pixels of a named image. -/
def set (s : Pictures) (key : String) (index : List Int) (value : Setting Float) :
    Except (Fault Float) Pictures := do
  let p ← s.place key
  let pixels := (s.read p).pixels
  if pixels.shape.length < index.length then throw .index
  let index ← (pixels.shape.zip index).mapM fun (n, k) =>
    match Image.position? n k with
    | some k => pure k
    | none => throw .index
  let z ← p.storage.acceptAs pixels.isComplex value
  return s.write p <| match pixels with
    | .real t => .real (assign t index z.re)
    | .complex t => .complex (assign t index z)

/-- Names an image of given pixels, with the world coordinates of a source if asked for. -/
def ofPixels (s : Pictures) (source key : String) (pixels : Pixels Float) (storage : Storage)
    (located : Bool) : Except (Fault Float) (Image Float × Pictures) := do
  let coordinates ← if located then (s.get source).map Image.coordinates else pure none
  let im : Image Float := { pixels, coordinates, storage }
  return (im, s.keep key im)

end Pictures

end ApertureSynthesis.Session
