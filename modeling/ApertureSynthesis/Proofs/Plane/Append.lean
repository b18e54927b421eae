/-
  Plane maps of visibilities whose rows are put together from two parts.

  Every kind of convolution function finds the plane of a row without looking at the others. So the
  plane map of appended rows exists if those of both parts do, and then it is the one followed by
  the other, with the clamped samples of both (`planeMap_append`). A single row can be put in
  anywhere, and is clamped where it is beyond the range of the planes, whatever its flags
  (`planeMap_insert`).
-/
import Mathlib
import ApertureSynthesis.Proofs.Kernel.Variant
import ApertureSynthesis.Proofs.Tensor

namespace ApertureSynthesis

variable {α : Type} {nchan npol : ℕ}

/-- The same channels with other rows. -/
def Visibility.withRows (vis : Visibility α nchan npol) (rows : List (Row α nchan npol)) :
    Visibility α nchan npol := { vis with rows := rows }

namespace PlaneMap

/-- `m` is the plane map `m₁` of `n₁` rows, followed by the plane map `m₂` of `n₂` rows. -/
structure Appends (n₁ n₂ : ℕ) (m₁ m₂ m : PlaneMap) : Prop where
  /-- The maps are for one number of planes. -/
  count : m₁.count = m.count ∧ m₂.count = m.count
  /-- What is clamped in either part is clamped. -/
  clamped : m.clamped = m₁.clamped + m₂.clamped
  /-- There is an entry for each row and the same channels. -/
  shape : ∃ width, m₁.planes.shape = [n₁, width] ∧ m₂.planes.shape = [n₂, width] ∧
    m.planes.shape = [n₁ + n₂, width]
  /-- The rows are those of both parts. -/
  data : m.planes.data = m₁.planes.data ++ m₂.planes.data

section Planes

variable {n₁ n₂ : ℕ} {m₁ m₂ m : PlaneMap}

theorem plane_eq {m : PlaneMap} {n width : ℕ} (h : m.planes.shape = [n, width]) (k b : ℕ) :
    m.plane k b = if k < n ∧ b < width then m.planes.data.getD (k * width + b) 0 else 0 := by
  unfold plane Tensor.get
  simp only [h, Tensor.within_pair, Tensor.offset_pair]

/-- The first rows have the planes that they have in the first part, -/
theorem Appends.plane_left (h : Appends n₁ n₂ m₁ m₂ m) {k : ℕ} (hk : k < n₁) (b : ℕ) :
    m.plane k b = m₁.plane k b := by
  obtain ⟨width, h₁, h₂, hm⟩ := h.shape
  rw [plane_eq h₁, plane_eq hm, h.data]
  by_cases hb : b < width
  · have hin : k * width + b < m₁.planes.data.size := by
      rw [m₁.planes.size_data, h₁, Tensor.volume_pair]
      exact Raster.index_lt hk hb
    rw [if_pos ⟨by omega, hb⟩, if_pos ⟨hk, hb⟩, Array.getD_eq_getD_getElem?,
      Array.getD_eq_getD_getElem?, Array.getElem?_append_left hin]
  · rw [if_neg fun hin => hb hin.2, if_neg fun hin => hb hin.2]

/-- and the others those that they have in the second part. -/
theorem Appends.plane_right (h : Appends n₁ n₂ m₁ m₂ m) (k b : ℕ) :
    m.plane (n₁ + k) b = m₂.plane k b := by
  obtain ⟨width, h₁, h₂, hm⟩ := h.shape
  have hsize : m₁.planes.data.size = n₁ * width := by
    rw [m₁.planes.size_data, h₁, Tensor.volume_pair]
  rw [plane_eq h₂, plane_eq hm, h.data]
  by_cases hin : k < n₂ ∧ b < width
  · have hplace : (n₁ + k) * width + b = m₁.planes.data.size + (k * width + b) := by
      rw [hsize]
      ring
    rw [if_pos ⟨by omega, hin.2⟩, if_pos hin, hplace, Array.getD_eq_getD_getElem?,
      Array.getD_eq_getD_getElem?, Array.getElem?_append_right (by omega), Nat.add_sub_cancel_left]
  · rw [if_neg hin, if_neg fun hin' => hin ⟨by omega, hin'.2⟩]

end Planes

/-- `m` is the plane map `m'` of `n₁` and `n₂` rows with a row between them, of which a number of
    entries are clamped. -/
structure Inserts (n₁ n₂ : ℕ) (clamped : ℤ) (m' m : PlaneMap) : Prop where
  /-- The maps are for one number of planes. -/
  count : m.count = m'.count
  /-- What is clamped of the row is clamped besides. -/
  clamped : m.clamped = m'.clamped + clamped
  /-- There are entries for one row more. -/
  shape : ∃ width, m'.planes.shape = [n₁ + n₂, width] ∧ m.planes.shape = [n₁ + (1 + n₂), width]
  /-- The rows before it have the planes that they had, -/
  before : ∀ k < n₁, ∀ b, m.plane k b = m'.plane k b
  /-- and so have the rows after it. -/
  after : ∀ k b, m.plane (n₁ + (1 + k)) b = m'.plane (n₁ + k) b

/-- A row in front of the second part is a row between both parts. -/
theorem Appends.inserts {n₁ n₂ : ℕ} {m₁ row m₂ rest m' m : PlaneMap}
    (hrest : Appends 1 n₂ row m₂ rest) (hm : Appends n₁ (1 + n₂) m₁ rest m)
    (hm' : Appends n₁ n₂ m₁ m₂ m') :
    Inserts n₁ n₂ row.clamped m' m where
  count := by rw [← hm.count.1, ← hm'.count.1]
  clamped := by
    rw [hm.clamped, hrest.clamped, hm'.clamped]
    omega
  shape := by
    obtain ⟨width, h₁, -, hshape⟩ := hm.shape
    obtain ⟨width', h₁', -, hshape'⟩ := hm'.shape
    rw [h₁] at h₁'
    obtain rfl : width = width' := by simpa using h₁'
    exact ⟨width, hshape', hshape⟩
  before k hk b := by rw [hm.plane_left hk, hm'.plane_left hk]
  after k b := by rw [hm.plane_right, hrest.plane_right, hm'.plane_right]

theorem of?_eq_ok {planes : Tensor ℤ} {count clamped : ℤ} {m : PlaneMap} :
    (of? planes count clamped : Except (Fault α) PlaneMap) = .ok m ↔
      m.planes = planes ∧ m.count = count ∧ m.clamped = clamped := by
  constructor
  · intro h
    unfold of? at h
    split at h
    · split at h
      · cases h
        exact ⟨rfl, rfl, rfl⟩
      · cases h
    · cases h
  · rintro ⟨rfl, rfl, rfl⟩
    unfold of?
    rw [dif_pos fun p hp => (m.within p hp).1,
      dif_pos ⟨m.count_pos, fun p hp => (m.within p hp).2⟩]

end PlaneMap

/-- One of three plane maps, that of `n₁` and `n₂` rows together, exists if those of both parts do,
    and appends them. -/
structure Plane.Appending (n₁ n₂ : ℕ) (x₁ x₂ x : Except (Fault α) PlaneMap) : Prop where
  /-- There is a map for each part of the rows. -/
  split : ∀ {m}, x = .ok m → ∃ m₁ m₂, x₁ = .ok m₁ ∧ x₂ = .ok m₂ ∧ PlaneMap.Appends n₁ n₂ m₁ m₂ m
  /-- There is a map for both parts together. -/
  join : ∀ {m₁ m₂}, x₁ = .ok m₁ → x₂ = .ok m₂ → ∃ m, x = .ok m ∧ PlaneMap.Appends n₁ n₂ m₁ m₂ m

/-- How many channels of a row are beyond the range of the planes of a convolution function: by
    their w, or by their frequency. -/
def Kernel.Variant.clampedIn [Scalar α] (variant : Kernel.Variant α) (cache : Option (Cache α))
    (frequency : List α) (r : Row α nchan npol) : ℕ :=
  match variant, cache with
  | .wprojection m _, _ =>
    Plane.countBeyond m.wmax m.count 1e-8 (frequency.map (Visibility.wavelengths r.w))
  | .illumination _ _ _, some c => frequency.countP (Plane.outOfRange c.planeValues 1e-8)
  | _, _ => 0

namespace Plane

open PlaneMap

theorem Appending.error {n₁ n₂ : ℕ} {fault : Fault α} {x₁ x₂ x : Except (Fault α) PlaneMap}
    (h₁ : x₁ = .error fault) (h : x = .error fault) : Appending n₁ n₂ x₁ x₂ x where
  split hm := by
    rw [h] at hm
    cases hm
  join hm₁ _ := by
    rw [h₁] at hm₁
    cases hm₁

/-- The tables of both parts, checked and put together. -/
theorem appending_of? {n₁ n₂ : ℕ} (width : ℕ) {t₁ t₂ t : Tensor ℤ} {count c₁ c₂ c : ℤ}
    (h₁ : t₁.shape = [n₁, width]) (h₂ : t₂.shape = [n₂, width]) (h : t.shape = [n₁ + n₂, width])
    (hdata : t.data = t₁.data ++ t₂.data) (hclamped : c = c₁ + c₂) :
    Appending (α := α) n₁ n₂ (of? t₁ count c₁) (of? t₂ count c₂) (of? t count c) where
  split := by
    intro m hm
    obtain ⟨rfl, rfl, hc⟩ := of?_eq_ok.1 hm
    have hwithin : ∀ p, p ∈ t₁.data ∨ p ∈ t₂.data → 0 ≤ p ∧ p < m.count := by
      intro p hp
      refine m.within p ?_
      rw [hdata]
      exact Array.mem_append.2 hp
    exact ⟨⟨t₁, m.count, c₁, m.count_pos, fun p hp => hwithin p (.inl hp)⟩,
      ⟨t₂, m.count, c₂, m.count_pos, fun p hp => hwithin p (.inr hp)⟩, of?_eq_ok.2 ⟨rfl, rfl, rfl⟩,
      of?_eq_ok.2 ⟨rfl, rfl, rfl⟩, ⟨rfl, rfl⟩, hc.trans hclamped, ⟨width, h₁, h₂, h⟩, hdata⟩
  join := by
    intro m₁ m₂ hm₁ hm₂
    obtain ⟨rfl, rfl, hc₁⟩ := of?_eq_ok.1 hm₁
    obtain ⟨rfl, hcount, hc₂⟩ := of?_eq_ok.1 hm₂
    have hwithin : ∀ p ∈ t.data, 0 ≤ p ∧ p < m₁.count := by
      intro p hp
      rw [hdata] at hp
      rcases Array.mem_append.1 hp with hp | hp
      · exact m₁.within p hp
      · exact hcount ▸ m₂.within p hp
    exact ⟨⟨t, m₁.count, c, m₁.count_pos, hwithin⟩, of?_eq_ok.2 ⟨rfl, rfl, rfl⟩, ⟨rfl, hcount⟩,
      by rw [hc₁, hc₂]; exact hclamped, ⟨width, h₁, h₂, h⟩, hdata⟩

section Rows

variable (vis : Visibility α nchan npol) (rows₁ rows₂ : List (Row α nchan npol))

theorem appending_single :
    Appending (α := α) rows₁.length rows₂.length (.ok (PlaneMap.single (vis.withRows rows₁)))
      (.ok (PlaneMap.single (vis.withRows rows₂)))
      (.ok (PlaneMap.single (vis.withRows (rows₁ ++ rows₂)))) := by
  have happends : PlaneMap.Appends rows₁.length rows₂.length (PlaneMap.single (vis.withRows rows₁))
      (PlaneMap.single (vis.withRows rows₂)) (PlaneMap.single (vis.withRows (rows₁ ++ rows₂))) := by
    refine ⟨⟨rfl, rfl⟩, rfl, ⟨nchan, rfl, rfl, ?_⟩, ?_⟩
    · simp [PlaneMap.single, Visibility.rowCount, Visibility.withRows]
    · simp [PlaneMap.single, Tensor.fill, Visibility.rowCount, Visibility.withRows, volume, add_mul]
  constructor
  · intro m hm
    cases hm
    exact ⟨_, _, rfl, rfl, happends⟩
  · intro m₁ m₂ hm₁ hm₂
    cases hm₁
    cases hm₂
    exact ⟨_, rfl, happends⟩

variable [Scalar α]

theorem countBeyond_append (wmax : α) (n : ℤ) (tolerance : α) (ws ws' : List α) :
    countBeyond wmax n tolerance (ws ++ ws') =
      countBeyond wmax n tolerance ws + countBeyond wmax n tolerance ws' := by
  unfold countBeyond
  split
  · rfl
  · exact List.countP_append

theorem appending_map (mapper : Mapper α) :
    Appending rows₁.length rows₂.length (mapper.map (vis.withRows rows₁))
      (mapper.map (vis.withRows rows₂)) (mapper.map (vis.withRows (rows₁ ++ rows₂))) := by
  have hwavelengths : Mapper.wavelengths (vis.withRows (rows₁ ++ rows₂)) =
      Mapper.wavelengths (vis.withRows rows₁) ++ Mapper.wavelengths (vis.withRows rows₂) :=
    List.flatMap_append
  cases hbare : vis.bare with
  | true =>
    have hbroken : ∀ rows, mapper.map (vis.withRows rows) = .error .index := by
      intro rows
      have hspectrum : (vis.withRows rows).spectrum = .error .index := if_pos hbare
      rw [Mapper.map, hspectrum]
      rfl
    exact .error (hbroken rows₁) (hbroken _)
  | false =>
    have hspectrum : ∀ rows, (vis.withRows rows).spectrum = .ok vis.frequency :=
      fun rows => if_neg (by rw [Visibility.withRows, hbare]; exact Bool.false_ne_true)
    unfold Mapper.map
    rw [hspectrum, hspectrum, hspectrum]
    refine appending_of? vis.frequency.length rfl rfl ?_ ?_ ?_
    · simp [Visibility.rowCount, Visibility.withRows]
    · simp [hwavelengths]
    · rw [hwavelengths, countBeyond_append, Nat.cast_add]

theorem appending_nearestMap (planes : List α) (tolerance : α) :
    Appending rows₁.length rows₂.length (nearestMap (vis.withRows rows₁) planes tolerance)
      (nearestMap (vis.withRows rows₂) planes tolerance)
      (nearestMap (vis.withRows (rows₁ ++ rows₂)) planes tolerance) := by
  unfold nearestMap
  by_cases hbare : vis.bare = true
  · exact .error (if_pos hbare) (if_pos hbare)
  · by_cases hempty : planes.isEmpty = true
    · have hbroken : ∀ (rows : List (Row α nchan npol)) (x : Except (Fault α) PlaneMap),
          (if (vis.withRows rows).bare = true then .error .index
            else if planes.isEmpty = true then .error .mismatch else x) = .error .mismatch :=
        fun rows x => (if_neg hbare).trans (if_pos hempty)
      exact .error (hbroken rows₁ _) (hbroken _ _)
    · have hlisted : ∀ (rows : List (Row α nchan npol)) (x : Except (Fault α) PlaneMap),
          (if (vis.withRows rows).bare = true then .error .index
            else if planes.isEmpty = true then .error .mismatch else x) = x :=
        fun rows x => (if_neg hbare).trans (if_neg hempty)
      rw [hlisted, hlisted, hlisted]
      refine appending_of? vis.frequency.length rfl rfl ?_ ?_ ?_
      · simp [Visibility.rowCount, Visibility.withRows]
      · simp [Visibility.withRows]
      · simp [Visibility.rowCount, Visibility.withRows, mul_add]

/-- The plane map of appended rows, for every kind of convolution function. -/
theorem planeMap_append (variant : Kernel.Variant α) (cache : Option (Cache α)) :
    Appending rows₁.length rows₂.length (variant.planeMap (vis.withRows rows₁) cache)
      (variant.planeMap (vis.withRows rows₂) cache)
      (variant.planeMap (vis.withRows (rows₁ ++ rows₂)) cache) := by
  cases variant with
  | general => exact .error rfl rfl
  | box => exact appending_single vis rows₁ rows₂
  | spheroidal parameters => exact appending_single vis rows₁ rows₂
  | wprojection mapper parameters => exact appending_map vis rows₁ rows₂ mapper
  | illumination aperture parameters planes =>
    cases cache with
    | none => exact .error rfl rfl
    | some cache => exact appending_nearestMap vis rows₁ rows₂ cache.planeValues _

/-- A plane map of w projection asks for frequencies by channel and for a plane. -/
theorem map_withRows_eq_ok {mapper : Mapper α} {rows : List (Row α nchan npol)} {m : PlaneMap}
    (h : mapper.map (vis.withRows rows) = .ok m) : vis.bare = false ∧ m.count = mapper.count ∧
      m.clamped = countBeyond mapper.wmax mapper.count 1e-8
        (Mapper.wavelengths (vis.withRows rows)) := by
  obtain ⟨frequency, hspectrum, h⟩ := exists_of_bind h
  obtain ⟨-, hcount, hclamped⟩ := of?_eq_ok.1 h
  refine ⟨?_, hcount, hclamped⟩
  cases hbare : vis.bare with
  | false => rfl
  | true =>
    rw [show (vis.withRows rows).spectrum = .error .index from if_pos hbare] at hspectrum
    cases hspectrum

/-- A plane map by frequency asks for them by channel and for a plane. -/
theorem nearestMap_withRows_eq_ok {planes : List α} {tolerance : α} {rows : List (Row α nchan npol)}
    {m : PlaneMap} (h : nearestMap (vis.withRows rows) planes tolerance = .ok m) :
    vis.bare = false ∧ planes ≠ [] ∧
      m.clamped = (vis.frequency.countP (outOfRange planes tolerance) * rows.length : ℕ) := by
  unfold nearestMap at h
  split at h
  · cases h
  · rename_i hbare
    split at h
    · cases h
    · rename_i hempty
      exact ⟨Bool.not_eq_true _ ▸ hbare, fun hnil => hempty (List.isEmpty_iff.2 hnil),
        (of?_eq_ok.1 h).2.2⟩

variable {variant : Kernel.Variant α} {cache : Option (Cache α)} {m : PlaneMap}

/-- Where there is a plane map for some rows, there is one for any. -/
theorem exists_planeMap_withRows {rows : List (Row α nchan npol)}
    (h : variant.planeMap (vis.withRows rows) cache = .ok m) (rows' : List (Row α nchan npol)) :
    ∃ m', variant.planeMap (vis.withRows rows') cache = .ok m' := by
  cases variant with
  | general => cases h
  | box => exact ⟨_, rfl⟩
  | spheroidal parameters => exact ⟨_, rfl⟩
  | wprojection mapper parameters =>
    obtain ⟨hbare, hcount, -⟩ := map_withRows_eq_ok vis h
    have hlisted : (vis.withRows rows').bare = false := hbare
    obtain ⟨m', hm', -⟩ := Kernel.exists_mapByW mapper (hcount ▸ m.count_pos) hlisted
    exact ⟨m', hm'⟩
  | illumination aperture parameters planes =>
    cases cache with
    | none => cases h
    | some cache =>
      obtain ⟨hbare, hne, -⟩ := nearestMap_withRows_eq_ok vis h
      have hlisted : (vis.withRows rows').bare = false := hbare
      obtain ⟨m', hm', -⟩ := Kernel.exists_nearestMap hne 1e-8 hlisted
      exact ⟨m', hm'⟩

/-- Of a single row the channels beyond the range of the planes are clamped. -/
theorem clamped_of_row {r : Row α nchan npol}
    (h : variant.planeMap (vis.withRows [r]) cache = .ok m) :
    m.clamped = variant.clampedIn cache vis.frequency r := by
  cases variant with
  | general => cases h
  | box =>
    cases h
    rfl
  | spheroidal parameters =>
    cases h
    rfl
  | wprojection mapper parameters =>
    obtain ⟨-, -, hclamped⟩ := map_withRows_eq_ok vis h
    have hrow : Mapper.wavelengths (vis.withRows [r]) =
        vis.frequency.map (Visibility.wavelengths r.w) :=
      List.append_nil _
    rw [hclamped, hrow]
    rfl
  | illumination aperture parameters planes =>
    cases cache with
    | none => cases h
    | some cache =>
      obtain ⟨-, -, hclamped⟩ := nearestMap_withRows_eq_ok vis h
      rw [hclamped, List.length_singleton, Nat.mul_one]
      rfl

/-- A further row goes to planes of its own, and its channels beyond the range of the planes are
    clamped, whatever their flags. -/
theorem planeMap_insert (variant : Kernel.Variant α) (cache : Option (Cache α))
    (r : Row α nchan npol) :
    (∀ {m}, variant.planeMap (vis.withRows (rows₁ ++ r :: rows₂)) cache = .ok m →
      ∃ m', variant.planeMap (vis.withRows (rows₁ ++ rows₂)) cache = .ok m' ∧
        PlaneMap.Inserts rows₁.length rows₂.length (variant.clampedIn cache vis.frequency r) m' m) ∧
    ∀ {m'}, variant.planeMap (vis.withRows (rows₁ ++ rows₂)) cache = .ok m' →
      ∃ m, variant.planeMap (vis.withRows (rows₁ ++ r :: rows₂)) cache = .ok m ∧
        PlaneMap.Inserts rows₁.length rows₂.length
          (variant.clampedIn cache vis.frequency r) m' m := by
  have hparts := planeMap_append vis rows₁ rows₂ variant cache
  have hrest := planeMap_append vis [r] rows₂ variant cache
  have hall := planeMap_append vis rows₁ (r :: rows₂) variant cache
  rw [List.length_cons, Nat.add_comm] at hall
  constructor
  · intro m hm
    obtain ⟨m₁, rest, hm₁, hmrest, happends⟩ := hall.split hm
    obtain ⟨row, m₂, hrow, hm₂, hafter⟩ := hrest.split hmrest
    obtain ⟨m', hm', hwithout⟩ := hparts.join hm₁ hm₂
    exact ⟨m', hm', clamped_of_row vis hrow ▸ hafter.inserts happends hwithout⟩
  · intro m' hm'
    obtain ⟨m₁, m₂, hm₁, hm₂, hwithout⟩ := hparts.split hm'
    obtain ⟨row, hrow⟩ := exists_planeMap_withRows vis hm' [r]
    obtain ⟨rest, hmrest, hafter⟩ := hrest.join hrow hm₂
    obtain ⟨m, hm, happends⟩ := hall.join hm₁ hmrest
    exact ⟨m, hm, clamped_of_row vis hrow ▸ hafter.inserts happends hwithout⟩

end Rows

end Plane

end ApertureSynthesis
