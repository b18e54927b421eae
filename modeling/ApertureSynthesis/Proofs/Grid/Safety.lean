/-
  Gridding does not fail halfway: whatever passes the checks is placed, gridded and predicted, and
  no index leaves the array that it is for.

  All this is in any arithmetic, so also where positions overflow or are no numbers. `Ready`
  collects what is checked before samples are placed, and what holds of visibilities, grids and
  caches as they are made. `Frame.Placed` lists what the placement of a row and channel looks up,
  and says of each that it is there: the plane and its table, the phases of the lattice points, the
  taps on the grid and the grid channel. `Ready.placesAll` has it for every row and channel;
  gridding (`Ready.exists_deposit`) and prediction (`Ready.exists_predict`) follow by going through
  the samples.
-/
import Mathlib
import ApertureSynthesis.Proofs.Outcome
import ApertureSynthesis.Proofs.Grid.Deposit
import ApertureSynthesis.Grid.Prediction

namespace ApertureSynthesis.Grid

variable {α : Type} [Scalar α] {nchan npol : ℕ}

/-! ## Cutting a footprint at the border -/

/-- Along an axis of `n` cells, taps that start at cell `start` are cut at the border of the grid:
    `length` cells from `low` on take as many taps from `first` on, and all of these are there. -/
structure Cut (start : ℤ) (width n low first length : ℕ) : Prop where
  /-- The cells that are covered -/
  covered_eq : covered start width n = List.range' low length
  /-- are cells of the axis. -/
  on_grid : low + length ≤ n
  /-- The taps are among those of the footprint, -/
  on_taps : first + length ≤ width
  /-- and the first of them is that of the first cell. -/
  aligned : length ≠ 0 → (low : ℤ) = start + first

theorem exists_cut (start : ℤ) (width n : ℕ) :
    ∃ low first length, Cut start width n low first length := by
  by_cases hempty : (min (start + width) n).toNat ≤ (max start 0).toNat
  · refine ⟨0, 0, 0, ?_, by omega, by omega, fun h => absurd rfl h⟩
    rw [covered, Nat.sub_eq_zero_of_le hempty]
    rfl
  · exact ⟨_, ((max start 0).toNat - start).toNat, _, rfl, by omega, by omega, fun _ => by omega⟩

/-- A cell that is covered is on the axis, and its tap is in the footprint. -/
theorem exists_tap_of_covered {start : ℤ} {width n j : ℕ} (hj : j ∈ covered start width n) :
    j < n ∧ ((j : ℤ) - start).toNat < width ∧ (j : ℤ) = start + ((j : ℤ) - start).toNat := by
  rw [mem_covered] at hj
  omega

/-- Each tap of a footprint on a grid is at one of the grid's cells and is one of the footprint's
    taps. -/
theorem exists_of_mem_runs {F : Footprint α} {ny nx : ℕ} {t : Tap α}
    (ht : t ∈ (F.runs ny nx).flatten) :
    t.j < ny ∧ t.i < nx ∧ ∃ y < F.height, ∃ x < F.width,
      (t.j : ℤ) = F.v + y ∧ (t.i : ℤ) = F.u + x ∧ t.value = F.tap y x := by
  rw [flatten_runs] at ht
  obtain ⟨j, hj, ht⟩ := List.mem_flatMap.1 ht
  obtain ⟨i, hi, rfl⟩ := List.mem_map.1 ht
  obtain ⟨hjn, hy, hjv⟩ := exists_tap_of_covered hj
  obtain ⟨hin, hx, hiu⟩ := exists_tap_of_covered hi
  exact ⟨hjn, hin, _, hy, _, hx, hjv, hiu, rfl⟩

/-! ## Placements -/

/-- A row and channel is placed on grid channel `channel` by the footprint `F`, with the table
    `plane` of half-width `s`. Whatever is looked up for it is there. -/
structure Frame.Placed (f : Frame α) (k : ℕ) (r : Row α nchan npol) (b : ℕ) (hertz : α)
    (channel : ℕ) (plane : Tensor (Cplx α)) (s : ℕ) (F : Footprint α) : Prop where
  /-- The channel has a frequency -/
  has_frequency : f.frequency[b]? = some hertz
  /-- and goes to a grid channel, -/
  has_channel : f.channels[b]? = some channel
  /-- one of those that there are. -/
  channel_lt : channel < f.gridChannels
  /-- The row and channel has one of the planes of the cache, -/
  plane_within : 0 ≤ f.map.plane k b ∧ f.map.plane k b < f.cache.planeCount
  /-- with a table -/
  has_plane : f.cache.planes[(f.map.plane k b).toNat]? = some plane
  /-- and a support, -/
  has_support : f.cache.supports[(f.map.plane k b).toNat]? = some (s : ℤ)
  /-- which are of one width. -/
  shape : plane.shape = [f.lattice.oversample, f.lattice.oversample, 2 * s + 1, 2 * s + 1]
  /-- The phases of the lattice points along v are phases of the table, -/
  phases_v : ∀ a ∈ allPoints (f.pointsV r hertz), 0 ≤ a.phase ∧ a.phase < f.lattice.oversample
  /-- and so are those along u. -/
  phases_u : ∀ a ∈ allPoints (f.pointsU r hertz), 0 ≤ a.phase ∧ a.phase < f.lattice.oversample
  /-- The taps around the points make the footprint; -/
  has_footprint : footprint plane s (f.pointsV r hertz) (f.pointsU r hertz) = .ok F
  /-- it holds the taps of each point along v -/
  rows_of_point : ∀ a ∈ allPoints (f.pointsV r hertz), F.v ≤ a.cell - s ∧
    a.cell + s < F.v + F.height
  /-- and along u. -/
  columns_of_point : ∀ a ∈ allPoints (f.pointsU r hertz), F.u ≤ a.cell - s ∧
    a.cell + s < F.u + F.width
  /-- At the border of the grid its rows are cut to rows of the grid, -/
  rows : ∃ low first length, Cut F.v F.height f.lattice.ny low first length
  /-- and its columns to columns, -/
  columns : ∃ low first length, Cut F.u F.width f.lattice.nx low first length
  /-- so that each tap that remains is one of the footprint's and has a cell. -/
  taps : ∀ t ∈ (F.runs f.lattice.ny f.lattice.nx).flatten, t.j < f.lattice.ny ∧ t.i < f.lattice.nx ∧
    ∃ y < F.height, ∃ x < F.width, (t.j : ℤ) = F.v + y ∧ (t.i : ℤ) = F.u + x ∧ t.value = F.tap y x
  /-- This is the placement. -/
  place : f.place k r b = .ok (F.placement f.lattice.ny f.lattice.nx channel)

/-- Where frequency, grid channel and plane are found, nothing else is missing for the placement. -/
theorem Frame.placed_of_found {f : Frame α} {k b channel s : ℕ} (r : Row α nchan npol) {hertz : α}
    {plane : Tensor (Cplx α)} (hhertz : f.frequency[b]? = some hertz)
    (hchannel : f.channels[b]? = some channel) (hlt : channel < f.gridChannels)
    (hwithin : 0 ≤ f.map.plane k b ∧ f.map.plane k b < f.cache.planeCount)
    (hplane : f.cache.planes[(f.map.plane k b).toNat]? = some plane)
    (hs : f.cache.supports[(f.map.plane k b).toNat]? = some (s : ℤ))
    (hos : 0 < f.lattice.oversample)
    (hshape : plane.shape = [f.lattice.oversample, f.lattice.oversample, 2 * s + 1, 2 * s + 1]) :
    f.Placed k r b hertz channel plane s
      (tapsAround plane s (f.pointsV r hertz) (f.pointsU r hertz)) := by
  have hphases : ∀ x : α, ∀ a ∈ allPoints (axisPoints f.interpolation f.lattice.oversample x),
      0 ≤ a.phase ∧ a.phase < f.lattice.oversample := fun x a ha =>
    of_decide_eq_true (List.all_eq_true.1 (phasesWithin_axisPoints f.interpolation hos x) a ha)
  obtain ⟨⟨hv, hheight⟩, hu, hwidth⟩ := rectangle_tapsAround f.interpolation hos plane s
    (f.lattice.positionV (Visibility.wavelengths r.v hertz))
    (f.lattice.positionU (Visibility.wavelengths r.u hertz)) rfl
  refine ⟨hhertz, hchannel, hlt, hwithin, hplane, hs, hshape, hphases _, hphases _,
    footprint_axisPoints_eq f.interpolation hos hshape _ _, fun a ha => ?_, fun a ha => ?_,
    exists_cut _ _ _, exists_cut _ _ _, fun t ht => exists_of_mem_runs ht,
    Frame.place_eq r hhertz hchannel hlt hplane hs hos hshape⟩
  · have hcell := cell_mem_axisPoints f.interpolation hos _ ha
    unfold Frame.pointsV Frame.pointsU
    omega
  · have hcell := cell_mem_axisPoints f.interpolation hos _ ha
    unfold Frame.pointsV Frame.pointsU
    omega

/-- Sums of weights with an entry for each of `nchan` channels, and for each of `npol` polarisations
    along the last axis; a single polarisation can be added to any number of entries. -/
def Serves {α : Type} (sums : Tensor α) (nchan npol : ℕ) : Prop :=
  ∃ n first rest, sums.shape = n :: first :: rest ∧ nchan ≤ n ∧
    (npol = rest.getLast?.getD first ∨ npol = 1)

theorem Serves.of_shape {α : Type} {sums : Tensor α} {n m : ℕ} (h : sums.shape = [n, m]) :
    Serves sums n m :=
  ⟨n, m, [], h, le_rfl, .inl rfl⟩

/-- Weights are added to the sums of a channel that they serve. -/
theorem exists_addWeights {sums : Tensor α} {n : ℕ} {values : List α}
    (hsums : Serves sums n values.length) {channel : ℕ} (hchannel : channel < n) :
    ∃ sums', addWeights sums channel values = .ok sums' ∧ sums'.shape = sums.shape := by
  obtain ⟨n', first, rest, hshape, hn, hlast⟩ := hsums
  have hfold : ∀ (ks : List ℕ) (place : ℕ → ℕ) (f : ℕ → α → α) (t : Tensor α),
      (ks.foldl (fun t k => t.modifyAt (place k) (f k)) t).shape = t.shape := by
    intro ks place f
    induction ks with
    | nil => exact fun _ => rfl
    | cons k ks ih => exact fun t => (ih _).trans (Tensor.shape_modifyAt t _ _)
  unfold addWeights
  rw [hshape]
  dsimp only
  rw [if_neg (by omega), if_neg (by omega)]
  exact ⟨_, rfl, (hfold _ _ _ _).trans hshape⟩

/-- Whatever its placement, a sample is added to a grid and to sums that serve its channel and its
    polarisations. -/
theorem exists_addSample (how : Contribution α) {d : Deposit α} {n : ℕ} {samples : List (Sample α)}
    (hsums : Serves d.sumWeights n samples.length) (F : Footprint α) {channel : ℕ}
    (hchannel : channel < n) (ny nx : ℕ) :
    ∃ d', addSample how (F.placement ny nx channel) samples d = .ok d' ∧
      Alike d.grid d'.grid ∧ d'.sumWeights.shape = d.sumWeights.shape := by
  unfold Footprint.placement
  split
  · exact ⟨_, rfl, Alike.refl _, rfl⟩
  · have hvalues : Serves d.sumWeights n
        (samples.map (how.weight (tapTotal (F.runs ny nx).flatten))).length := by
      rwa [List.length_map]
    obtain ⟨sums', hadded, hshape⟩ := exists_addWeights hvalues hchannel
    simp only [addSample, hadded]
    exact ⟨_, rfl, alike_addTaps _ _ _ _ _, hshape⟩

/-! ## Visibilities that pass the checks -/

/-- Visibilities, a grid, a cache and a plane map that pass the checks, where the visibilities have
    a frequency for each channel, and so has a grid of several channels. -/
structure Ready (vis : Visibility α nchan npol) (g : Grid α) (c : Cache α) (map : PlaneMap) :
    Prop where
  /-- The tables of the cache have their shapes. -/
  cache : c.WellFormed
  /-- Polarisations, plane map and cell sizes match. -/
  checked : checkFit vis g c map = .ok ()
  /-- The frequencies of the visibilities are a list. -/
  listed : vis.bare = false
  /-- There is one for each channel. -/
  length_frequency : vis.frequency.length = nchan
  /-- The grid has a channel. -/
  nchan_pos : 0 < g.nchan
  /-- Each of several channels has a frequency. -/
  tuned : g.nchan = 1 ∨ ∃ fs, g.frequency = some fs ∧ fs.length = g.nchan
  /-- The cells have a size along u and v. -/
  sized : ∃ du dv, g.cellSize.axes? = some (du, dv)

/-- Every row and channel of visibilities is placed on a grid. -/
def PlacesAll (vis : Visibility α nchan npol) (g : Grid α) (c : Cache α) (map : PlaneMap)
    (interpolation : Interpolation) : Prop :=
  ∃ f : Frame α, frame vis g c map interpolation = .ok f ∧ f.cache = c ∧ f.map = map ∧
    f.gridChannels = g.nchan ∧ f.lattice.ny = g.ny ∧ f.lattice.nx = g.nx ∧
    f.lattice.oversample = c.oversample ∧ ∀ k (hk : k < vis.rows.length), ∀ b < nchan,
      ∃ hertz channel plane s F, f.Placed k vis.rows[k] b hertz channel plane s F

namespace Ready

variable {vis : Visibility α nchan npol} {g : Grid α} {c : Cache α} {map : PlaneMap}

theorem npol_eq (h : Ready vis g c map) : npol = g.npol := (matches_of_checkFit h.checked).1

theorem shape_planes (h : Ready vis g c map) : map.planes.shape = [vis.rowCount, nchan] :=
  (matches_of_checkFit h.checked).2.1

theorem count_eq (h : Ready vis g c map) : map.count = c.planeCount :=
  (matches_of_checkFit h.checked).2.2

/-- Every channel of the visibilities has a channel of the grid. -/
theorem exists_channelsOf (h : Ready vis g c map) : ∃ channels, g.channelsOf vis = .ok channels ∧
    channels.length = nchan ∧ ∀ channel ∈ channels, channel < g.nchan := by
  have hpos := h.nchan_pos
  unfold channelsOf
  by_cases hone : g.nchan = 1
  · rw [if_pos hone]
    refine ⟨_, rfl, List.length_replicate, fun channel hmem => ?_⟩
    rw [List.eq_of_mem_replicate hmem]
    exact hpos
  · obtain ⟨fs, hfs, hlen⟩ := h.tuned.resolve_left hone
    obtain ⟨f, rest, rfl⟩ := List.exists_cons_of_length_pos (show 0 < fs.length by omega)
    rw [if_neg hone, Visibility.spectrum, h.listed, hfs]
    refine ⟨_, rfl, by rw [List.length_map, h.length_frequency], fun channel hmem => ?_⟩
    obtain ⟨hertz, -, rfl⟩ := List.mem_map.1 hmem
    rw [← hlen]
    exact nearest?_lt (List.cons_ne_nil f rest) hertz

/-- Every row and channel is placed. -/
theorem placesAll (h : Ready vis g c map) (interpolation : Interpolation) :
    PlacesAll vis g c map interpolation := by
  obtain ⟨du, dv, hsize⟩ := h.sized
  obtain ⟨channels, hchannels, hlen, hlt⟩ := h.exists_channelsOf
  have hlattice : g.lattice c = .ok ⟨du, dv, g.nx, g.ny, c.oversample⟩ := by
    unfold lattice
    rw [hsize]
  refine ⟨⟨c, map, interpolation, ⟨du, dv, g.nx, g.ny, c.oversample⟩, g.nchan, vis.frequency,
    channels⟩, ?_, rfl, rfl, rfl, rfl, rfl, rfl, fun k hk b hb => ?_⟩
  · unfold frame
    rw [hlattice, hchannels, Visibility.spectrum, h.listed]
    rfl
  · have hwithin := PlaneMap.plane_within h.shape_planes hk hb
    rw [h.count_eq] at hwithin
    obtain ⟨plane, s, hplane, hs, hshape⟩ := h.cache.exists_plane hwithin
    have hfrequency : b < vis.frequency.length := by rwa [h.length_frequency]
    have hchannel : b < channels.length := by rwa [hlen]
    exact ⟨_, _, plane, s, _,
      Frame.placed_of_found vis.rows[k] (List.getElem?_eq_getElem hfrequency)
      (List.getElem?_eq_getElem hchannel) (hlt _ (List.getElem_mem hchannel)) hwithin
      hplane hs h.cache.1 hshape⟩

/-! ## Gridding and prediction -/

/-- Visibilities that pass the checks are gridded to the end, into a grid of the same axes and sums
    of the same shape. -/
theorem exists_deposit (h : Ready vis g c map) (how : Contribution α)
    (interpolation : Interpolation) {sums : Option (Tensor α)}
    (hsums : ∀ t ∈ sums, t.shape = [g.nchan, g.npol]) :
    ∃ d, deposit how vis g c map sums interpolation = .ok d ∧ Alike g d.grid ∧
      d.sumWeights.shape = [g.nchan, g.npol] := by
  obtain ⟨f, hframe, -, -, hchannels, -, -, -, hplaced⟩ := h.placesAll interpolation
  have hstart : (sums.getD (Tensor.fill [g.nchan, g.npol] 0)).shape = [g.nchan, g.npol] := by
    cases sums with
    | none => rfl
    | some t => exact hsums t rfl
  unfold deposit
  simp only [h.checked, hframe]
  -- each sample keeps the axes of the grid and the shape of the sums
  refine exists_foldlM
    (P := fun d : Deposit α => Alike g d.grid ∧ d.sumWeights.shape = [g.nchan, g.npol]) ?_
    ⟨Alike.refl g, hstart⟩
  rintro ⟨k, r, b, ps⟩ hsample d ⟨halike, hshape⟩
  obtain ⟨hk, rfl, hb⟩ := mem_samplesOf hsample
  simp only [step]
  split
  · exact ⟨d, rfl, halike, hshape⟩
  · obtain ⟨hertz, channel, plane, s, F, hF⟩ := hplaced k hk b hb
    have hserves : Serves d.sumWeights g.nchan ps.toList.length := by
      rw [Vector.length_toList, h.npol_eq]
      exact .of_shape hshape
    obtain ⟨d', hd', halike', hshape'⟩ := exists_addSample how hserves F
      (hchannels ▸ hF.channel_lt) f.lattice.ny f.lattice.nx
    rw [hF.place]
    exact ⟨d', hd', halike.trans halike', hshape'.trans hshape⟩

/-- Visibilities that pass the checks are predicted. -/
theorem exists_predict (h : Ready vis g c map) (interpolation : Interpolation) :
    ∃ predicted, predict vis g c map interpolation = .ok predicted := by
  obtain ⟨f, hframe, -, -, -, -, -, -, hplaced⟩ := h.placesAll interpolation
  have hrow : ∀ x ∈ vis.rows.zipIdx, ∃ y, predictRow f g x = .ok y := by
    rintro ⟨r, k⟩ hx
    obtain ⟨-, hk, hr⟩ := List.mem_zipIdx hx
    have hk' : k < vis.rows.length := by omega
    obtain rfl : r = vis.rows[k] := hr
    have hplace : ∀ b ∈ List.range nchan, ∃ placement, f.place k vis.rows[k] b = .ok placement := by
      intro b hb
      obtain ⟨hertz, channel, plane, s, F, hF⟩ := hplaced k hk' b (List.mem_range.1 hb)
      exact ⟨_, hF.place⟩
    obtain ⟨placements, hplacements⟩ := exists_mapM hplace
    unfold predictRow
    simp only [hplacements]
    exact ⟨_, rfl⟩
  obtain ⟨rows, hrows⟩ := exists_mapM hrow
  unfold predict
  simp only [h.checked, hframe, hrows, bind, Except.bind]
  exact ⟨_, rfl⟩

end Ready

end ApertureSynthesis.Grid
