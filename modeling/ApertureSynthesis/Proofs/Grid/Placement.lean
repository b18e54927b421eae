/-
  Placement of samples: visibilities that fit a grid and a cache have a footprint for each row and
  channel, and it reads as the kernel of the sample.

  `Fit` collects what is checked before samples are placed, and what holds of visibilities, grids
  and caches as they are made. `sampleKernel` is the kernel of a row and channel on the unbounded
  grid. `exists_footprint` is what later proofs need to know of the placement: it never fails, and
  what it places is the part of the kernel on the grid.
-/
import Mathlib
import ApertureSynthesis.Proofs.Grid.Footprint
import ApertureSynthesis.Proofs.Outcome
import ApertureSynthesis.Grid.Placement

namespace ApertureSynthesis

/-! ## The nearest of several numbers -/

section Nearest

variable {α : Type} [Scalar α]

theorem leastFrom_lt (best : α) {found next : ℕ} (xs : List α) (h : found < next) :
    leastFrom best found next xs < next + xs.length := by
  induction xs generalizing best found next with
  | nil => simpa [leastFrom] using h
  | cons x xs ih =>
    have hnext : next + (x :: xs).length = next + 1 + xs.length := by
      rw [List.length_cons]
      omega
    rw [hnext, leastFrom]
    split
    · exact ih _ (by omega)
    · exact ih _ (by omega)

theorem nearest?_lt {xs : List α} (hne : xs ≠ []) (x : α) : (nearest? xs x).getD 0 < xs.length := by
  obtain ⟨y, ys, rfl⟩ := List.exists_cons_of_ne_nil hne
  have hlt := leastFrom_lt (Scalar.abs (x - y)) (ys.map fun y => Scalar.abs (x - y)) Nat.zero_lt_one
  rw [List.length_map] at hlt
  rw [nearest?, List.map_cons, least?, Option.getD_some, List.length_cons]
  omega

end Nearest

/-- Every plane of a well-formed cache has a table of phases and taps. -/
theorem Cache.WellFormed.exists_plane {α : Type} {c : Cache α} (h : c.WellFormed) {p : ℤ}
    (hp : 0 ≤ p ∧ p < c.planeCount) :
    ∃ plane, ∃ s : ℕ, c.planes[p.toNat]? = some plane ∧ c.supports[p.toNat]? = some (s : ℤ) ∧
      plane.shape = [c.oversample, c.oversample, 2 * s + 1, 2 * s + 1] := by
  have hlt : p.toNat < c.planes.length := by
    unfold Cache.planeCount at hp
    omega
  obtain ⟨s, hs, hshape⟩ := h.2.2 _ hlt
  exact ⟨_, s, List.getElem?_eq_getElem hlt, hs, hshape⟩

/-- The entries of a plane map are planes. -/
theorem PlaneMap.plane_within {map : PlaneMap} {rows nchan k b : ℕ}
    (h : map.planes.shape = [rows, nchan]) (hk : k < rows) (hb : b < nchan) :
    0 ≤ map.plane k b ∧ map.plane k b < map.count := by
  have hwithin : Tensor.Within map.planes.shape [k, b] := by
    rw [h]
    exact ⟨hk, hb, trivial⟩
  exact map.within _ (Tensor.get_mem hwithin)

namespace Grid

variable {nchan npol : ℕ}

/-! ## Placing a sample -/

section Place

variable {α : Type} [Scalar α]

/-- The placement that a footprint makes on a channel of a grid. -/
def Footprint.placement (F : Footprint α) (ny nx channel : ℕ) : Placement α :=
  if (F.runs ny nx).flatten.isEmpty then .outside else .inside channel (F.runs ny nx)

/-- The points along v that a row uses at a frequency. -/
def Frame.pointsV (f : Frame α) (r : Row α nchan npol) (hertz : α) :
    AxisPoint α × List (AxisPoint α) :=
  axisPoints f.interpolation f.lattice.oversample
    (f.lattice.positionV (Visibility.wavelengths r.v hertz))

/-- The points along u that a row uses at a frequency. -/
def Frame.pointsU (f : Frame α) (r : Row α nchan npol) (hertz : α) :
    AxisPoint α × List (AxisPoint α) :=
  axisPoints f.interpolation f.lattice.oversample
    (f.lattice.positionU (Visibility.wavelengths r.u hertz))

/-- Where frequency, grid channel and plane of a row and channel are found, the taps around its
    points are placed on the grid channel. -/
theorem Frame.place_eq {f : Frame α} {k b channel s : ℕ} (r : Row α nchan npol) {hertz : α}
    {plane : Tensor (Cplx α)} (hhertz : f.frequency[b]? = some hertz)
    (hchannel : f.channels[b]? = some channel) (hlt : channel < f.gridChannels)
    (hplane : f.cache.planes[(f.map.plane k b).toNat]? = some plane)
    (hs : f.cache.supports[(f.map.plane k b).toNat]? = some (s : ℤ))
    (hos : 0 < f.lattice.oversample)
    (hshape : plane.shape = [f.lattice.oversample, f.lattice.oversample, 2 * s + 1, 2 * s + 1]) :
    f.place k r b = .ok ((tapsAround plane s (f.pointsV r hertz) (f.pointsU r hertz)).placement
      f.lattice.ny f.lattice.nx channel) := by
  have hfootprint : footprint plane s (f.pointsV r hertz) (f.pointsU r hertz) =
      .ok (tapsAround plane s (f.pointsV r hertz) (f.pointsU r hertz)) :=
    footprint_axisPoints_eq f.interpolation hos hshape _ _
  unfold Frame.pointsV Frame.pointsU at hfootprint ⊢
  unfold Frame.place Footprint.placement
  simp only [hhertz, hchannel, hplane, hs, hfootprint, hlt, if_true, Except.bind, bind]
  split <;> rfl

/-- Of visibilities the checks see polarisations, channels and the number of rows. -/
theorem checkFit_congr {vis vis' : Visibility α nchan npol} (h : vis'.rowCount = vis.rowCount)
    (g : Grid α) (c : Cache α) (map : PlaneMap) : checkFit vis' g c map = checkFit vis g c map := by
  unfold checkFit
  rw [h]

/-- What passes the checks has the polarisations of the grid, and a plane map for its rows and
    channels and for the planes of the cache. -/
theorem matches_of_checkFit {vis : Visibility α nchan npol} {g : Grid α} {c : Cache α}
    {map : PlaneMap} (h : checkFit vis g c map = .ok ()) :
    npol = g.npol ∧ map.planes.shape = [vis.rowCount, nchan] ∧ map.count = c.planeCount := by
  unfold checkFit at h
  split at h
  · cases h
  rename_i hnpol
  split at h
  · cases h
  rename_i hshape
  split at h
  · cases h
  rename_i hcount
  exact ⟨not_not.1 hnpol, not_not.1 hshape, not_not.1 hcount⟩

/-- What a frame is made of. -/
theorem exists_of_frame {vis : Visibility α nchan npol} {g : Grid α} {c : Cache α} {map : PlaneMap}
    {interpolation : Interpolation} {f : Frame α} (h : frame vis g c map interpolation = .ok f) :
    ∃ lattice channels, g.lattice c = .ok lattice ∧ g.channelsOf vis = .ok channels ∧
      f = ⟨c, map, interpolation, lattice, g.nchan, vis.frequency, channels⟩ := by
  unfold frame at h
  obtain ⟨lattice, hlattice, h⟩ := exists_of_bind h
  obtain ⟨frequency, hfrequency, h⟩ := exists_of_bind h
  obtain ⟨channels, hchannels, h⟩ := exists_of_bind h
  have hspectrum : frequency = vis.frequency := by
    unfold Visibility.spectrum at hfrequency
    split at hfrequency
    · cases hfrequency
    · exact (Except.ok.inj hfrequency).symm
  cases h
  exact ⟨lattice, channels, hlattice, hchannels, by rw [hspectrum]⟩

omit [Scalar α] in
/-- The lattice has the axes of the grid and is as fine as the tables of taps. -/
theorem axes_of_lattice {g : Grid α} {c : Cache α} {l : Lattice α} (h : g.lattice c = .ok l) :
    l.nx = g.nx ∧ l.ny = g.ny ∧ l.oversample = c.oversample := by
  unfold Grid.lattice at h
  split at h
  · cases h
    exact ⟨rfl, rfl, rfl⟩
  · cases h

end Place

/-! ## Visibilities that fit a grid -/

/-- The grid channel of a frequency: the only one, or the one with the nearest frequency. -/
noncomputable def channelAt (g : Grid ℝ) (hertz : ℝ) : ℕ :=
  if g.nchan = 1 then 0 else (g.frequency.bind (nearest? · hertz)).getD 0

/-- Visibilities, a grid, a cache and a plane map that pass the checks, where the visibilities have
    a frequency for each channel, and so has a grid of several channels. -/
structure Fit (vis : Visibility ℝ nchan npol) (g : Grid ℝ) (c : Cache ℝ) (map : PlaneMap)
    (l : Lattice ℝ) : Prop where
  /-- The tables of the cache have their shapes. -/
  cache : c.WellFormed
  /-- Polarisations, plane map and cell sizes match. -/
  checked : checkFit vis g c map = .ok ()
  /-- The frequencies of the visibilities are a list. -/
  listed : vis.bare = false
  /-- There is one for each channel. -/
  length_frequency : vis.frequency.length = nchan
  /-- The grid has a channel. -/
  nchan_pos : 0 < g.nchan
  /-- With several channels, each has a frequency. -/
  tuned : g.nchan = 1 ∨ ∃ fs, g.frequency = some fs ∧ fs.length = g.nchan
  /-- The cell size of the grid makes a lattice with the phases of the cache. -/
  lattice : g.lattice c = .ok l

/-- The kernel of a row and channel, in row `j` and column `i` of the unbounded grid. -/
noncomputable def sampleKernel (vis : Visibility ℝ nchan npol) (c : Cache ℝ) (map : PlaneMap)
    (l : Lattice ℝ) (interpolation : Interpolation) (k b : ℕ) (j i : ℤ) : ℂ :=
  let p := (map.plane k b).toNat
  match vis.rows[k]?, vis.frequency[b]?, c.planes[p]?, c.supports[p]? with
  | some r, some hertz, some plane, some s =>
    kernelAt plane s.toNat interpolation c.oversample
      (l.positionV (Visibility.wavelengths r.v hertz))
      (l.positionU (Visibility.wavelengths r.u hertz)) j i
  | _, _, _, _ => 0

theorem sampleKernel_eq {vis : Visibility ℝ nchan npol} {c : Cache ℝ} {map : PlaneMap}
    (l : Lattice ℝ) (interpolation : Interpolation) {k b s : ℕ} {r : Row ℝ nchan npol} {hertz : ℝ}
    {plane : Tensor (Cplx ℝ)} (hr : vis.rows[k]? = some r) (hhertz : vis.frequency[b]? = some hertz)
    (hplane : c.planes[(map.plane k b).toNat]? = some plane)
    (hs : c.supports[(map.plane k b).toNat]? = some (s : ℤ)) (j i : ℤ) :
    sampleKernel vis c map l interpolation k b j i =
      kernelAt plane s interpolation c.oversample
        (l.positionV (Visibility.wavelengths r.v hertz))
        (l.positionU (Visibility.wavelengths r.u hertz)) j i := by
  simp only [sampleKernel, hr, hhertz, hplane, hs, Int.toNat_natCast]

/-- The footprint of a row and channel on the plane that it is mapped to. -/
noncomputable def sampleFootprint (vis : Visibility ℝ nchan npol) (c : Cache ℝ) (map : PlaneMap)
    (l : Lattice ℝ) (interpolation : Interpolation) (k b : ℕ) : Except (Fault ℝ) (Footprint ℝ) :=
  let p := (map.plane k b).toNat
  match vis.rows[k]?, vis.frequency[b]?, c.planes[p]?, c.supports[p]? with
  | some r, some hertz, some plane, some s =>
    footprint plane s
      (axisPoints interpolation c.oversample (l.positionV (Visibility.wavelengths r.v hertz)))
      (axisPoints interpolation c.oversample (l.positionU (Visibility.wavelengths r.u hertz)))
  | _, _, _, _ => .error .index

theorem plane_single (vis : Visibility ℝ nchan npol) (k b : ℕ) :
    (PlaneMap.single vis).plane k b = 0 :=
  Tensor.get_fill_zero _ _

namespace Fit

variable {vis : Visibility ℝ nchan npol} {g : Grid ℝ} {c : Cache ℝ} {map : PlaneMap} {l : Lattice ℝ}

/-- With as many rows and the same frequencies others fit as well. -/
theorem congr {vis' : Visibility ℝ nchan npol} (h : Fit vis g c map l)
    (hcount : vis'.rowCount = vis.rowCount) (hbare : vis'.bare = vis.bare)
    (hfrequency : vis'.frequency = vis.frequency) : Fit vis' g c map l where
  cache := h.cache
  checked := (checkFit_congr hcount g c map).trans h.checked
  listed := hbare.trans h.listed
  length_frequency := hfrequency ▸ h.length_frequency
  nchan_pos := h.nchan_pos
  tuned := h.tuned
  lattice := h.lattice

theorem npol_eq (h : Fit vis g c map l) : npol = g.npol := (matches_of_checkFit h.checked).1

theorem shape_planes (h : Fit vis g c map l) : map.planes.shape = [vis.rowCount, nchan] :=
  (matches_of_checkFit h.checked).2.1

theorem count_eq (h : Fit vis g c map l) : map.count = c.planeCount :=
  (matches_of_checkFit h.checked).2.2

theorem lattice_axes (h : Fit vis g c map l) :
    l.nx = g.nx ∧ l.ny = g.ny ∧ l.oversample = c.oversample :=
  axes_of_lattice h.lattice

/-- The plane of a row and channel is one of the cache, and its table has the right shape. -/
theorem exists_plane (h : Fit vis g c map l) {k b : ℕ} (hk : k < vis.rowCount) (hb : b < nchan) :
    ∃ plane, ∃ s : ℕ, c.planes[(map.plane k b).toNat]? = some plane ∧
      c.supports[(map.plane k b).toNat]? = some (s : ℤ) ∧
      plane.shape = [c.oversample, c.oversample, 2 * s + 1, 2 * s + 1] := by
  refine h.cache.exists_plane ?_
  rw [← h.count_eq]
  exact PlaneMap.plane_within h.shape_planes hk hb

theorem channelsOf_eq (h : Fit vis g c map l) :
    g.channelsOf vis = .ok (vis.frequency.map g.channelAt) := by
  unfold Grid.channelsOf
  by_cases hone : g.nchan = 1
  · have hzero : g.channelAt = fun _ => 0 := by
      funext hertz
      exact if_pos hone
    rw [if_pos hone, hzero, List.map_const', h.length_frequency]
  · obtain ⟨fs, hfs, hlen⟩ := h.tuned.resolve_left hone
    have hpos := h.nchan_pos
    obtain ⟨f, rest, rfl⟩ := List.exists_cons_of_length_pos (show 0 < fs.length by omega)
    have hnearest : g.channelAt = fun hertz => (nearest? (f :: rest) hertz).getD 0 := by
      funext hertz
      rw [channelAt, if_neg hone, hfs]
      rfl
    rw [if_neg hone, Visibility.spectrum, h.listed, hfs, hnearest]
    rfl

theorem channelAt_lt (h : Fit vis g c map l) (hertz : ℝ) : g.channelAt hertz < g.nchan := by
  unfold channelAt
  split
  · exact h.nchan_pos
  · rename_i hone
    obtain ⟨fs, hfs, hlen⟩ := h.tuned.resolve_left hone
    have hne : fs ≠ [] := by
      rintro rfl
      exact h.nchan_pos.ne hlen
    rw [hfs, ← hlen]
    exact nearest?_lt hne hertz

/-- The frame of visibilities that fit. -/
theorem frame_eq (h : Fit vis g c map l) (interpolation : Interpolation) :
    frame vis g c map interpolation =
      .ok ⟨c, map, interpolation, l, g.nchan, vis.frequency, vis.frequency.map g.channelAt⟩ := by
  unfold frame
  rw [h.lattice, h.channelsOf_eq, Visibility.spectrum, h.listed]
  rfl

/-- Every row and channel has a footprint, it reads as the kernel, and the placement is its part on
    the grid. -/
theorem exists_footprint (h : Fit vis g c map l) (interpolation : Interpolation) {k b : ℕ}
    (hk : k < vis.rows.length) (hb : b < nchan) {f : Frame ℝ}
    (hf : frame vis g c map interpolation = .ok f) :
    ∃ F : Footprint ℝ,
      f.place k vis.rows[k] b = .ok (F.placement g.ny g.nx (g.channelAt (vis.frequency.getD b 0))) ∧
      sampleFootprint vis c map l interpolation k b = .ok F ∧
      ∀ j i : ℤ, (F.read j i).val = sampleKernel vis c map l interpolation k b j i := by
  obtain ⟨plane, s, hplane, hs, hshape⟩ := h.exists_plane hk hb
  obtain ⟨hnx, hny, hos⟩ := h.lattice_axes
  have hfreq : vis.frequency[b]? = some (vis.frequency.getD b 0) := by
    have hlt : b < vis.frequency.length := by rw [h.length_frequency]; exact hb
    rw [List.getD_eq_getElem _ _ hlt, List.getElem?_eq_getElem hlt]
  generalize vis.frequency.getD b 0 = hertz at hfreq ⊢
  have hpos := h.cache.1
  have hread := read_tapsAround interpolation hpos hshape
    (l.positionV (Visibility.wavelengths vis.rows[k].v hertz))
    (l.positionU (Visibility.wavelengths vis.rows[k].u hertz))
  have hfootprint : sampleFootprint vis c map l interpolation k b = footprint plane s
      (axisPoints interpolation c.oversample
        (l.positionV (Visibility.wavelengths vis.rows[k].v hertz)))
      (axisPoints interpolation c.oversample
        (l.positionU (Visibility.wavelengths vis.rows[k].u hertz))) := by
    simp only [sampleFootprint, List.getElem?_eq_getElem hk, hfreq, hplane, hs]
  rw [footprint_axisPoints_eq interpolation hpos hshape] at hfootprint
  rw [h.frame_eq] at hf
  cases hf
  rw [← hos] at hpos hshape hread hfootprint
  refine ⟨tapsAround plane s
    (axisPoints interpolation l.oversample
      (l.positionV (Visibility.wavelengths vis.rows[k].v hertz)))
    (axisPoints interpolation l.oversample
      (l.positionU (Visibility.wavelengths vis.rows[k].u hertz))),
    ?_, hfootprint, fun j i => ?_⟩
  · rw [← hny, ← hnx]
    exact Frame.place_eq vis.rows[k] hfreq (by rw [List.getElem?_map, hfreq, Option.map_some])
      (h.channelAt_lt hertz) hplane hs hpos hshape
  · rw [sampleKernel_eq l interpolation (List.getElem?_eq_getElem hk) hfreq hplane hs, ← hos]
    exact hread j i

instance : Nonempty (Footprint ℝ) := ⟨⟨0, 0, 0, 0, fun _ _ => 0⟩⟩

/-- The footprints of all rows and channels, chosen together. -/
theorem exists_footprints (h : Fit vis g c map l) (interpolation : Interpolation) :
    ∃ (f : Frame ℝ) (F : ℕ → ℕ → Footprint ℝ), frame vis g c map interpolation = .ok f ∧
      ∀ k (hk : k < vis.rows.length), ∀ b < nchan,
        f.place k vis.rows[k] b =
          .ok ((F k b).placement g.ny g.nx (g.channelAt (vis.frequency.getD b 0))) ∧
        sampleFootprint vis c map l interpolation k b = .ok (F k b) ∧
        ∀ j i : ℤ, ((F k b).read j i).val = sampleKernel vis c map l interpolation k b j i := by
  have hframe := h.frame_eq interpolation
  generalize (⟨c, map, interpolation, l, g.nchan, vis.frequency,
    vis.frequency.map g.channelAt⟩ : Frame ℝ) = f at hframe
  have hplaced : ∀ k b, ∃ F : Footprint ℝ, ∀ hk : k < vis.rows.length, b < nchan →
      f.place k vis.rows[k] b = .ok (F.placement g.ny g.nx (g.channelAt (vis.frequency.getD b 0))) ∧
      sampleFootprint vis c map l interpolation k b = .ok F ∧
      ∀ j i : ℤ, (F.read j i).val = sampleKernel vis c map l interpolation k b j i := by
    intro k b
    by_cases hkb : k < vis.rows.length ∧ b < nchan
    · obtain ⟨F, hF⟩ := h.exists_footprint interpolation hkb.1 hkb.2 hframe
      exact ⟨F, fun _ _ => hF⟩
    · exact ⟨Classical.arbitrary _, fun hk hb => absurd ⟨hk, hb⟩ hkb⟩
  choose F hF using hplaced
  exact ⟨f, F, hframe, fun k hk b hb => hF k b hk hb⟩

end Fit

end Grid

end ApertureSynthesis
