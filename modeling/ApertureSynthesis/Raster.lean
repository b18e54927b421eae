/-
  Rasters: rectangular arrays of `ny` rows and `nx` columns, stored row after row. `get` is the
  view of a raster; outside the array it reads zero. `ofFn` builds a raster from its pixels and
  `get_ofFn` reads them back.
-/
import ApertureSynthesis.Cplx

namespace ApertureSynthesis

/-- A rectangular array of pixels. -/
structure Raster (β : Type) where
  /-- Number of rows. -/
  ny : Nat
  /-- Number of columns. -/
  nx : Nat
  /-- The pixels, row after row. -/
  data : Array β
  /-- There is one value for each pixel. -/
  size_data : data.size = ny * nx

namespace Raster

variable {β γ : Type}

/-- Row and column of a pixel give an index below the number of pixels. -/
theorem index_lt {ny nx j i : Nat} (hj : j < ny) (hi : i < nx) : j * nx + i < ny * nx :=
  calc j * nx + i < j * nx + nx := by omega
    _ = (j + 1) * nx := by rw [Nat.add_mul, Nat.one_mul]
    _ ≤ ny * nx := Nat.mul_le_mul_right nx hj

/-- The pixel in row `j` and column `i`, zero outside the array. -/
@[inline] def get [Zero β] (r : Raster β) (j i : Nat) : β :=
  if h : j < r.ny ∧ i < r.nx then
    have bound : j * r.nx + i < r.data.size := r.size_data ▸ index_lt h.1 h.2
    r.data[j * r.nx + i]
  else 0

/-- The pixel at a signed position, zero outside the array. -/
@[inline] def getInt [Zero β] (r : Raster β) (j i : Int) : β :=
  if 0 ≤ j ∧ 0 ≤ i then r.get j.toNat i.toNat else 0

/-- The raster whose pixel in row `j` and column `i` is `f j i`. -/
@[specialize] def ofFn (ny nx : Nat) (f : Nat → Nat → β) : Raster β where
  ny := ny
  nx := nx
  data := Array.ofFn fun k : Fin (ny * nx) => f (k.val / nx) (k.val % nx)
  size_data := Array.size_ofFn

/-- The raster of one value. -/
def fill (ny nx : Nat) (x : β) : Raster β := ofFn ny nx fun _ _ => x

/-- Apply `f` to each pixel. -/
@[inline] def map (f : β → γ) (r : Raster β) : Raster γ where
  ny := r.ny
  nx := r.nx
  data := r.data.map f
  size_data := by rw [Array.size_map, r.size_data]

@[simp] theorem ny_ofFn (ny nx : Nat) (f : Nat → Nat → β) : (ofFn ny nx f).ny = ny := rfl

@[simp] theorem nx_ofFn (ny nx : Nat) (f : Nat → Nat → β) : (ofFn ny nx f).nx = nx := rfl

@[simp] theorem ny_map (f : β → γ) (r : Raster β) : (r.map f).ny = r.ny := rfl

@[simp] theorem nx_map (f : β → γ) (r : Raster β) : (r.map f).nx = r.nx := rfl

theorem get_ofFn [Zero β] {ny nx j i : Nat} (f : Nat → Nat → β) (hj : j < ny) (hi : i < nx) :
    (ofFn ny nx f).get j i = f j i := by
  have hdiv : (j * nx + i) / nx = j := by
    rw [Nat.mul_comm, Nat.mul_add_div (by omega), Nat.div_eq_of_lt hi, Nat.add_zero]
  have hmod : (j * nx + i) % nx = i := by
    rw [Nat.mul_comm, Nat.mul_add_mod, Nat.mod_eq_of_lt hi]
  simp [get, ofFn, hj, hi, hdiv, hmod]

theorem get_eq_zero [Zero β] (r : Raster β) {j i : Nat} (h : ¬(j < r.ny ∧ i < r.nx)) :
    r.get j i = 0 := by
  simp only [get, h, dite_false]

theorem get_map [Zero β] [Zero γ] (f : β → γ) (r : Raster β) {j i : Nat} (hj : j < r.ny)
    (hi : i < r.nx) : (r.map f).get j i = f (r.get j i) := by
  simp [get, map, hj, hi]

end Raster

end ApertureSynthesis
