/-
  Tensors: arrays of any number of axes, stored with the last axis running fastest. `get` is the
  view of a tensor at a list of indices. The last two axes of a tensor of rank two or more make a
  stack of rasters: `slice` reads one of them and `ofSlices` puts a stack together.
-/
import ApertureSynthesis.Raster

namespace ApertureSynthesis

/-- Number of elements of an array of a shape. -/
def volume (shape : List Nat) : Nat := shape.foldr (· * ·) 1

/-- An array with one index for each entry of its shape. -/
structure Tensor (β : Type) where
  /-- Length of each axis. -/
  shape : List Nat
  /-- The elements, last axis fastest. -/
  data : Array β
  /-- There is one value for each index. -/
  size_data : data.size = volume shape

namespace Tensor

variable {β γ : Type}

/-- Storage position of an index, by Horner's rule from position `start`. -/
def offsetFrom (start : Nat) : List Nat → List Nat → Nat
  | n :: shape, i :: index => offsetFrom (start * n + i) shape index
  | _, _ => start

/-- Storage position of an index. -/
def offset (shape index : List Nat) : Nat := offsetFrom 0 shape index

/-- An index has one entry for each axis, each below the length of the axis. -/
def Within : List Nat → List Nat → Prop
  | [], [] => True
  | n :: shape, i :: index => i < n ∧ Within shape index
  | _, _ => False

instance decidableWithin : (shape index : List Nat) → Decidable (Within shape index)
  | [], [] => isTrue trivial
  | n :: shape, i :: index =>
    have := decidableWithin shape index
    inferInstanceAs (Decidable (i < n ∧ Within shape index))
  | [], _ :: _ => isFalse id
  | _ :: _, [] => isFalse id

/-- The element at an index, zero outside the array. -/
def get [Zero β] (t : Tensor β) (index : List Nat) : β :=
  if Within t.shape index then t.data.getD (offset t.shape index) 0 else 0

/-- The index of a storage position, last entry first taken off. -/
def unravel : (shape : List Nat) → Nat → List Nat
  | [], _ => []
  | _ :: shape, k => k / volume shape :: unravel shape (k % volume shape)

/-- The tensor whose element at `index` is `f index`. -/
def ofFn (shape : List Nat) (f : List Nat → β) : Tensor β where
  shape := shape
  data := Array.ofFn fun k : Fin (volume shape) => f (unravel shape k.val)
  size_data := Array.size_ofFn

/-- The tensor of one value. -/
def fill (shape : List Nat) (x : β) : Tensor β where
  shape := shape
  data := Array.replicate (volume shape) x
  size_data := Array.size_replicate

/-- The tensor of rank one of a list of values. -/
def ofList (xs : List β) : Tensor β where
  shape := [xs.length]
  data := xs.toArray
  size_data := by simp [volume]

/-- The tensor of a shape whose elements are listed row after row; what is not listed is zero. -/
def ofRows [Zero β] (shape : List Nat) (xs : List β) : Tensor β :=
  let data := xs.toArray
  { shape := shape
    data := Array.ofFn fun k : Fin (volume shape) => data.getD k.val 0
    size_data := Array.size_ofFn }

/-- The tensor of rank zero. -/
def scalar (x : β) : Tensor β where
  shape := []
  data := #[x]
  size_data := rfl

/-- A raster is a tensor of rank two. -/
def ofRaster (r : Raster β) : Tensor β where
  shape := [r.ny, r.nx]
  data := r.data
  size_data := by simp [volume, r.size_data]

/-- Apply `f` to each element. -/
@[inline] def map (f : β → γ) (t : Tensor β) : Tensor γ where
  shape := t.shape
  data := t.data.map f
  size_data := by rw [Array.size_map, t.size_data]

/-- Replace the element at storage position `k` by its image under `f`. -/
@[inline] def modifyAt (t : Tensor β) (k : Nat) (f : β → β) : Tensor β where
  shape := t.shape
  data := t.data.modify k f
  size_data := by rw [Array.size_modify, t.size_data]

/-- Replace the element at an index by its image under `f`; nothing changes outside the array. -/
@[inline] def modify (t : Tensor β) (index : List Nat) (f : β → β) : Tensor β :=
  if Within t.shape index then t.modifyAt (offset t.shape index) f else t

/-- Combine the elements of two tensors of one shape. -/
def zipWith (f : β → β → β) (s t : Tensor β) : Tensor β where
  shape := s.shape
  data := Array.ofFn fun k : Fin s.data.size => f s.data[k] (t.data.getD k.val s.data[k])
  size_data := by rw [Array.size_ofFn, s.size_data]

/-- The raster that a tensor of rank two is. -/
def toRaster? (t : Tensor β) : Option (Raster β) :=
  match h : t.shape with
  | [ny, nx] => some ⟨ny, nx, t.data, by rw [t.size_data, h]; simp [volume]⟩
  | _ => none

/-- The index at which an element stands before each axis is turned by a number of places, from its
    last place on to the first. -/
def turnedFrom : (shape : List Nat) → (turns : List Int) → (index : List Nat) → List Nat
  | n :: shape, m :: turns, i :: index =>
    (((i : Int) - m) % n).toNat :: turnedFrom shape turns index
  | _, _, _ => []

/-- Turn each axis of a tensor, as a cycle, by a number of places. -/
def turn [Zero β] (t : Tensor β) (turns : List Int) : Tensor β :=
  ofFn t.shape fun index => t.get (turnedFrom t.shape turns index)

/-- The leading axes and the last two, of a shape of rank two or more. -/
def lastTwo? : List Nat → Option (List Nat × Nat × Nat)
  | [] => none
  | [_] => none
  | [ny, nx] => some ([], ny, nx)
  | n :: shape => (lastTwo? shape).map fun (lead, ny, nx) => (n :: lead, ny, nx)

/-- The raster number `k` of the stack that the last two axes of a tensor make. -/
@[specialize] def slice [Zero β] (t : Tensor β) (ny nx k : Nat) : Raster β :=
  Raster.ofFn ny nx fun j i => t.data.getD (k * (ny * nx) + (j * nx + i)) 0

/-- The tensor whose raster number `k` is `f k`. -/
@[specialize] def ofSlices [Zero β] (lead : List Nat) (ny nx : Nat) (f : Nat → Raster β) :
    Tensor β :=
  let slices := Array.ofFn fun k : Fin (volume lead) => f k.val
  { shape := lead ++ [ny, nx]
    data := Array.ofFn fun k : Fin (volume (lead ++ [ny, nx])) =>
      match slices[k.val / (ny * nx)]? with
      | some r => r.data.getD (k.val % (ny * nx)) 0
      | none => 0
    size_data := Array.size_ofFn }

@[simp] theorem shape_ofFn (shape : List Nat) (f : List Nat → β) :
    (ofFn shape f).shape = shape := rfl

@[simp] theorem shape_fill (shape : List Nat) (x : β) : (fill shape x).shape = shape := rfl

@[simp] theorem shape_map (f : β → γ) (t : Tensor β) : (t.map f).shape = t.shape := rfl

@[simp] theorem shape_modifyAt (t : Tensor β) (k : Nat) (f : β → β) :
    (t.modifyAt k f).shape = t.shape := rfl

@[simp] theorem shape_modify (t : Tensor β) (index : List Nat) (f : β → β) :
    (t.modify index f).shape = t.shape := by
  unfold modify; split <;> rfl

@[simp] theorem shape_zipWith (f : β → β → β) (s t : Tensor β) :
    (zipWith f s t).shape = s.shape := rfl

@[simp] theorem shape_turn [Zero β] (t : Tensor β) (turns : List Int) :
    (t.turn turns).shape = t.shape := rfl

@[simp] theorem shape_ofSlices [Zero β] (lead : List Nat) (ny nx : Nat) (f : Nat → Raster β) :
    (ofSlices lead ny nx f).shape = lead ++ [ny, nx] := rfl

@[simp] theorem shape_ofList (xs : List β) : (ofList xs).shape = [xs.length] := rfl

end Tensor

end ApertureSynthesis
