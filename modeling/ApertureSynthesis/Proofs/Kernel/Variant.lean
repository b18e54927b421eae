/-
  Each kind of convolution function builds well-formed caches, for the cells that they were asked
  for, and maps samples to planes of these caches.
-/
import Mathlib
import ApertureSynthesis.Proofs.Kernel.Cache
import ApertureSynthesis.Proofs.Grid.Placement

namespace ApertureSynthesis.Kernel

variable {α : Type} [Scalar α] {variant : Variant α} {cache : Cache α} {cellSize : CellSize α}
  {du dv : α} {shape : List ℤ} {frequency : Setting α}

/-! ## Caches -/

theorem wellFormed_boxCache (cellSize : CellSize α) :
    (Variant.boxCache cellSize).WellFormed := by
  refine ⟨Nat.one_pos, rfl, fun p hp => ⟨0, ?_⟩⟩
  obtain rfl : p = 0 := by simpa [Variant.boxCache] using hp
  exact ⟨rfl, rfl⟩

/-- A cache that was built is that of the box function, or has gone through a construction for the
    last two axes, whose values are those of the kind. -/
theorem buildCache_cases (h : variant.buildCache cellSize shape frequency = .ok cache) :
    (variant = .box ∧ cache = Variant.boxCache cellSize) ∨
    ∃ c term values ny nx support table kernel planes,
      Built c term values cellSize ny nx cache support table kernel planes ∧
      ((∃ p, variant = .spheroidal p ∧ term = none ∧ values = [.ofScalar 0]) ∨
        (∃ m p, variant = .wprojection m p ∧ values = m.planeValues.map .ofScalar) ∨
        ∃ a p planes, variant = .illumination a p planes) := by
  unfold Variant.buildCache at h
  generalize shape.reverse = lengths at h
  cases variant with
  | general => cases h
  | box =>
    cases h
    exact .inl ⟨rfl, rfl⟩
  | spheroidal p =>
    right
    rcases lengths with _ | ⟨nx, _ | ⟨ny, rest⟩⟩
    · cases h
    · cases h
    · obtain ⟨c, -, h⟩ := exists_of_bind h
      obtain ⟨support, table, kernel, planes, hbuilt⟩ := exists_of_build h
      exact ⟨c, none, _, ny, nx, support, table, kernel, planes, hbuilt, .inl ⟨p, rfl, rfl, rfl⟩⟩
  | wprojection m p =>
    right
    rcases lengths with _ | ⟨nx, _ | ⟨ny, rest⟩⟩
    · cases h
    · cases h
    · obtain ⟨c, -, h⟩ := exists_of_bind h
      obtain ⟨support, table, kernel, planes, hbuilt⟩ := exists_of_build h
      exact ⟨c, _, _, ny, nx, support, table, kernel, planes, hbuilt, .inr (.inl ⟨m, p, rfl, rfl⟩)⟩
  | illumination a p given =>
    right
    have hbind : ∃ values c ny nx, build c (some (Variant.beamTerm a)) values cellSize ny nx
        "illumination" = .ok cache := by
      dsimp only at h
      split at h
      · cases h
      · obtain ⟨values, -, h⟩ := exists_of_bind h
        rcases lengths with _ | ⟨nx, _ | ⟨ny, rest⟩⟩
        · cases h
        · cases h
        · obtain ⟨c, -, h⟩ := exists_of_bind h
          exact ⟨values, c, ny, nx, h⟩
      · obtain ⟨values, -, h⟩ := exists_of_bind h
        rcases lengths with _ | ⟨nx, _ | ⟨ny, rest⟩⟩
        · cases h
        · cases h
        · obtain ⟨c, -, h⟩ := exists_of_bind h
          exact ⟨values, c, ny, nx, h⟩
    obtain ⟨values, c, ny, nx, h⟩ := hbind
    obtain ⟨support, table, kernel, planes, hbuilt⟩ := exists_of_build h
    exact ⟨c, _, values, ny, nx, support, table, kernel, planes, hbuilt,
      .inr (.inr ⟨a, p, given, rfl⟩)⟩

/-- Caches are well formed and stand for the cell size that they were built for. -/
theorem wellFormed_of_buildCache
    (h : variant.buildCache (.perAxis [du, dv]) shape frequency = .ok cache) :
    cache.WellFormed ∧ cache.cellSize = .perAxis [du, dv] := by
  rcases buildCache_cases h with ⟨-, rfl⟩ |
    ⟨c, term, values, ny, nx, support, table, kernel, planes, hbuilt, -⟩
  · exact ⟨wellFormed_boxCache _, rfl⟩
  · exact ⟨hbuilt.wellFormed, hbuilt.cache_cellSize du dv rfl⟩

/-! ## Plane maps -/

section PlaneMap

variable {nchan npol : ℕ} {vis : Visibility α nchan npol}

omit [Scalar α] in
/-- Planes that are all below the count make a map. -/
theorem exists_of_within {planes : Tensor ℤ} {count : ℤ} (clamped : ℤ) (hcount : 0 < count)
    (h : ∀ p ∈ planes.data, 0 ≤ p ∧ p < count) :
    ∃ map, PlaneMap.of? (α := α) planes count clamped = .ok map ∧ map.planes.shape = planes.shape ∧
      map.count = count := by
  refine ⟨⟨planes, count, clamped, hcount, h⟩, ?_, rfl, rfl⟩
  unfold PlaneMap.of?
  rw [dif_pos fun p hp => (h p hp).1, dif_pos ⟨hcount, fun p hp => (h p hp).2⟩]

theorem index_within (spacing : Plane.Spacing) (wmax w : α) {n : ℤ} (hn : 0 < n) :
    0 ≤ Plane.index spacing wmax n w ∧ Plane.index spacing wmax n w < n := by
  unfold Plane.index
  split
  · omega
  · dsimp only
    omega

/-- With as many values as planes there is at least one plane. -/
theorem length_values (spacing : Plane.Spacing) (wmax : α) {n : ℤ}
    (hne : Plane.values spacing wmax n ≠ []) :
    0 < n ∧ ((Plane.values spacing wmax n).length : ℤ) = n := by
  unfold Plane.values at hne ⊢
  split
  · rename_i hone
    rw [hone]
    exact ⟨Int.one_pos, rfl⟩
  · rename_i hone
    rw [if_neg hone] at hne
    have hpos : 0 < n.toNat := by
      rcases Nat.eq_zero_or_pos n.toNat with hzero | hpos
      · rw [hzero] at hne
        exact absurd rfl hne
      · exact hpos
    rw [List.length_map, List.length_range]
    omega

/-- Every w has a plane of the range. -/
theorem exists_mapByW (m : Plane.Mapper α) (hpos : 0 < m.count) (hlisted : vis.bare = false) :
    ∃ map, m.map vis = .ok map ∧ map.planes.shape = [vis.rowCount, vis.frequency.length] ∧
      map.count = m.count := by
  unfold Plane.Mapper.map
  rw [Visibility.spectrum, hlisted]
  refine exists_of_within _ hpos fun p hp => ?_
  obtain ⟨w, -, rfl⟩ := List.mem_map.1 (List.mem_toArray.1 hp)
  exact index_within _ _ _ hpos

/-- Every channel has a nearest plane. -/
theorem exists_nearestMap {planes : List α} (hne : planes ≠ []) (tolerance : α)
    (hlisted : vis.bare = false) :
    ∃ map, Plane.nearestMap vis planes tolerance = .ok map ∧
      map.planes.shape = [vis.rowCount, vis.frequency.length] ∧ map.count = planes.length := by
  have hpos : 0 < (planes.length : ℤ) := Int.natCast_pos.2 (List.length_pos_iff.2 hne)
  unfold Plane.nearestMap
  rw [hlisted, if_neg Bool.false_ne_true, if_neg (by rwa [List.isEmpty_iff])]
  refine exists_of_within _ hpos fun p hp => ?_
  obtain ⟨r, -, hp⟩ := List.mem_flatMap.1 (List.mem_toArray.1 hp)
  obtain ⟨f, -, rfl⟩ := List.mem_map.1 hp
  have hlt := nearest?_lt hne f
  exact ⟨Int.natCast_nonneg _, by omega⟩

/-- Visibilities with a frequency for each channel have a plane map for a cache that was built. -/
theorem exists_planeMap
    (h : variant.buildCache cellSize shape frequency = .ok cache)
    (hlisted : vis.bare = false) (hlength : vis.frequency.length = nchan) :
    ∃ map, variant.planeMap vis (some cache) = .ok map ∧
      map.planes.shape = [vis.rowCount, nchan] ∧ map.count = cache.planeCount := by
  rcases buildCache_cases h with ⟨rfl, rfl⟩ |
    ⟨c, term, values, ny, nx, support, table, kernel, planes, hbuilt, hkind⟩
  · exact ⟨PlaneMap.single vis, rfl, rfl, rfl⟩
  · have hcount := hbuilt.length_planes
    have hvalues := hbuilt.values_ne
    rcases hkind with ⟨p, rfl, -, rfl⟩ | ⟨m, p, rfl, rfl⟩ | ⟨a, p, given, rfl⟩
    · exact ⟨PlaneMap.single vis, rfl, rfl, by rw [hcount]; rfl⟩
    · obtain ⟨hpos, hlen⟩ := length_values m.spacing m.wmax (n := m.count)
        fun hnil => hvalues (by rw [Plane.Mapper.planeValues, hnil]; rfl)
      obtain ⟨map, hmap, hshape, hmapcount⟩ := exists_mapByW m hpos hlisted
      refine ⟨map, hmap, by rw [hshape, hlength], ?_⟩
      rw [hmapcount, hcount, List.length_map]
      exact hlen.symm
    · have hplanesne : cache.planeValues ≠ [] := by
        rw [hbuilt.cache_values]
        exact fun hnil => hvalues (List.map_eq_nil_iff.1 hnil)
      obtain ⟨map, hmap, hshape, hmapcount⟩ := exists_nearestMap hplanesne 1e-8 hlisted
      refine ⟨map, hmap, by rw [hshape, hlength], ?_⟩
      rw [hmapcount, hcount, hbuilt.cache_values, List.length_map]

end PlaneMap

end ApertureSynthesis.Kernel
