/-
  Every accepted configuration grids every visibility.

  `GridsAll` says what a gridder does without a fault: it maps visibilities to the planes of its
  cache, places every row and channel of them on a grid of a pass, grids them and their weights,
  predicts them, and turns the grid of an open pass into an image. `grids_every_visibility` has it
  for any gridder after an initialization that succeeded, whatever was done with it since and in any
  arithmetic, as long as the axes have a channel and their cells have sizes that are numbers.
  Without a channel there is nowhere to put a sample, and sizes that are no numbers agree with
  nothing, not even with themselves (`not_gridded_without_channels_or_sizes`).

  What an operation of a pass gives is first reduced to what is computed from the grid, whether that
  succeeds or not (`Equipped.fst_accumulate` and its like); that nothing fails there is said in the
  theory of grids.
-/
import Mathlib
import ApertureSynthesis.Proofs.Extended
import ApertureSynthesis.Proofs.Grid.Image
import ApertureSynthesis.Proofs.Grid.Safety
import ApertureSynthesis.Proofs.Gridder.Passes
import ApertureSynthesis.Visibility.Create

namespace ApertureSynthesis

variable {α : Type} [Scalar α]

/-! ## What is made for axes -/

/-- Cells have a size along u and one along v. -/
theorem Axes.exists_of_cellSize {a : Axes α} {cell : CellSize α} (h : a.cellSize = .ok cell) :
    ∃ du dv, cell = .perAxis [du, dv] := by
  unfold cellSize cellSize? fieldOfView? at h
  split at h
  · rename_i c hc
    cases h
    obtain ⟨⟨x, y⟩, -, rfl⟩ := Option.map_eq_some_iff.1 hc
    exact ⟨_, _, rfl⟩
  · cases h

/-- An empty grid of axes has their lengths, cells and frequencies. -/
structure Grid.OfAxes (a : Axes α) (own : Grid α) : Prop where
  /-- The channels are those of the axes, -/
  nchan : own.nchan = a.nchan
  /-- the polarisations, -/
  npol : (own.npol : ℤ) = a.npol
  /-- the rows -/
  ny : (own.ny : ℤ) = a.ny
  /-- and the columns. -/
  nx : (own.nx : ℤ) = a.nx
  /-- The cells have their size, -/
  cellSize : a.cellSize = .ok own.cellSize
  /-- and the channels their frequencies. -/
  frequency : own.frequency = some a.frequency

theorem Grid.ofAxes_spec {a : Axes α} {own : Grid α} (h : Grid.ofAxes a = .ok own) :
    Grid.OfAxes a own := by
  obtain ⟨hlengths, cell, hcell, rfl⟩ := Grid.ofAxes_eq_ok.1 h
  exact ⟨rfl, Int.toNat_of_nonneg (hlengths _ (by simp)).1,
    Int.toNat_of_nonneg (hlengths _ (by simp)).1,
    Int.toNat_of_nonneg (hlengths _ (by simp)).1, hcell, rfl⟩

/-- Visibilities that were made from columns have a frequency for each channel. -/
theorem Visibility.listed_of_create {uvw : Tensor α} {frequency : List α} {npol : Setting α}
    {values : Option (Tensor (Cplx α))} {weights : Option (Tensor α)} {flags : Option (Tensor Bool)}
    {phaseCentre : Option (SkyDirection α)} {made : VisibilitySet α}
    (h : create uvw frequency npol values weights flags phaseCentre = .ok made) :
    made.data.bare = false ∧ made.data.frequency.length = made.nchan := by
  unfold create at h
  split at h
  · dsimp only at h
    -- with values there are as many polarisations as these have, else as many as were asked for
    split at h
    · obtain ⟨own, -, h⟩ := exists_of_bind h
      obtain ⟨-, -, h⟩ := exists_of_bind h
      obtain ⟨-, -, h⟩ := exists_of_bind h
      obtain ⟨-, -, h⟩ := exists_of_bind h
      cases h
      exact ⟨rfl, rfl⟩
    · obtain ⟨count, -, h⟩ := exists_of_bind h
      obtain ⟨own, -, h⟩ := exists_of_bind h
      obtain ⟨-, -, h⟩ := exists_of_bind h
      obtain ⟨-, -, h⟩ := exists_of_bind h
      obtain ⟨-, -, h⟩ := exists_of_bind h
      cases h
      exact ⟨rfl, rfl⟩
  · cases h

namespace Gridder

variable {nchan npol : ℕ} {vis : Visibility α nchan npol} {s : Gridder α} {a : Axes α}
  {cache : Cache α} {corrector : Corrector α} {own g : Grid α} {map : PlaneMap}

/-! ## Operations of a pass as computations -/

/-- A gridder past the first stage that has cache and corrector of its axes, and an empty grid for
    them. -/
structure Equipped (s : Gridder α) (a : Axes α) (cache : Cache α) (corrector : Corrector α)
    (own : Grid α) : Prop where
  /-- The gridder is past the first stage. -/
  configured : s.stage ≠ .unconfigured
  /-- It has the axes, -/
  axes_eq : s.axes = some a
  /-- the cache -/
  cache_eq : s.cache = some cache
  /-- and the corrector, -/
  corrector_eq : s.corrector = some corrector
  /-- which was made for the axes. -/
  corrected : Corrector.create cache a.ny a.nx = .ok corrector
  /-- The grid is that of the axes. -/
  ofAxes_eq : Grid.ofAxes a = .ok own

theorem outcome_part {β : Type} {part : Gridder α → Option β} {x : β} (h : part s = some x) :
    outcome (do need (part (← get)) : Action α β) s = (.ok x, s) := by
  rw [outcome_bind_ok (outcome_get s) rfl, h]
  rfl

namespace Equipped

/-- So is what the gridder becomes in the course of passes. -/
theorem replay (h : Equipped s a cache corrector own) (log : List Event) :
    Equipped (replay log s) a cache corrector own :=
  ⟨configured_replay h.configured, axes_replay.trans h.axes_eq, cache_replay.trans h.cache_eq,
    corrector_replay.trans h.corrector_eq, h.corrected, h.ofAxes_eq⟩

theorem createGrid (h : Equipped s a cache corrector own) :
    outcome createGrid s = (.ok own, s) := by
  rw [Gridder.createGrid, outcome_bind_ok (ensurePrepared_of_configured h.configured) rfl, theAxes,
    outcome_bind_ok (outcome_part h.axes_eq) rfl, outcome_lift h.ofAxes_eq]

theorem beginPass (h : Equipped s a cache corrector own) : outcome beginPass s =
    (.ok (own, Tensor.fill [own.nchan, own.npol] 0), Event.started.apply s) := by
  have hstarted := h.replay [.started]
  rw [Gridder.beginPass, outcome_bind_ok (ensurePrepared_of_configured h.configured) rfl,
    outcome_bind_ok (outcome_modify _ s) rfl]
  exact outcome_bind_ok hstarted.createGrid rfl

theorem ensurePass (h : Equipped s a cache corrector own) :
    outcome ensurePass s = (.ok (), Gridder.replay (opening s) s) :=
  outcome_ensurePass_of_grid h.configured (congrArg Prod.fst h.createGrid)

/-- A grid like the empty one passes. -/
theorem checkGrid (h : Equipped s a cache corrector own) (hg : Grid.Alike own g) :
    outcome (checkGrid g) s = (.ok (), s) := by
  have hown := Grid.ofAxes_spec h.ofAxes_eq
  have hshape : g.shape.map Int.ofNat = a.shape := by
    simp [Grid.shape, Axes.shape, hg.nchan, hg.npol, hg.ny, hg.nx, hown.nchan, hown.npol,
      hown.ny, hown.nx]
  refine outcome_bind_ok (outcome_part h.axes_eq) ?_
  rw [if_neg (not_not.2 hshape)]
  rfl

/-- Gridding into a grid is what is deposited there, or the fault that broke it off. -/
theorem fst_gridInto (h : Equipped s a cache corrector own) (how : Grid.Contribution α)
    (hg : Grid.Alike own g) (sums : Option (Tensor α))
    (hmap : s.variant.planeMap vis (some cache) = .ok map) :
    (outcome (do complete (← gridInto how vis sums g)) s).1 =
      (Grid.deposit how vis g cache map sums s.interpolation).mapError Grid.Interrupted.fault := by
  have hcheck := h.checkGrid hg
  have hcache := outcome_part h.cache_eq
  rw [gridInto]
  simp only [bind_assoc]
  rw [outcome_bind_ok hcheck rfl, theCache, outcome_bind_ok hcache rfl,
    outcome_bind_ok (outcome_get s) rfl, outcome_bind_ok (outcome_lift hmap s) rfl,
    outcome_bind_ok (outcome_get s) rfl]
  cases Grid.deposit how vis g cache map sums s.interpolation <;> rfl

/-- So is gridding in a pass, into a grid that is given or a fresh one. -/
theorem fst_accumulate (h : Equipped s a cache corrector own) (how : Grid.Contribution α)
    {grid : Option (Grid α)} (hgrid : ∀ g ∈ grid, Grid.Alike own g) (sums : Option (Tensor α))
    (hmap : s.variant.planeMap vis (some cache) = .ok map) :
    (outcome (do complete (← accumulate how vis grid sums)) s).1 =
      (Grid.deposit how vis (grid.getD own) cache map sums s.interpolation).mapError
        Grid.Interrupted.fault := by
  have hopen := h.replay (opening s)
  obtain ⟨hgiven, hlike⟩ : outcome (ownGrid grid) (Gridder.replay (opening s) s) =
      (.ok (grid.getD own), Gridder.replay (opening s) s) ∧ Grid.Alike own (grid.getD own) := by
    cases grid with
    | none => exact ⟨hopen.createGrid, Grid.Alike.refl own⟩
    | some g => exact ⟨rfl, hgrid g rfl⟩
  have hvariant : (Gridder.replay (opening s) s).variant = s.variant := variant_replay
  have hinterpolation : (Gridder.replay (opening s) s).interpolation = s.interpolation :=
    interpolation_replay
  rw [← hvariant] at hmap
  rw [← hinterpolation, ← hopen.fst_gridInto how hlike sums hmap, accumulate_eq]
  simp only [bind_assoc]
  rw [outcome_bind_ok (ensurePrepared_of_configured h.configured) rfl,
    outcome_bind_ok h.ensurePass rfl, outcome_bind_ok hgiven rfl]

/-- Prediction from a grid of a pass. -/
theorem fst_forward (h : Equipped s a cache corrector own) (hg : Grid.Alike own g)
    (hmap : s.variant.planeMap vis (some cache) = .ok map) : (outcome (forward vis g) s).1 =
      (Grid.predict vis g cache map s.interpolation).map Prod.fst := by
  have hopen := h.replay (opening s)
  have hcheck := hopen.checkGrid hg
  have hcache := outcome_part hopen.cache_eq
  have hvariant : (Gridder.replay (opening s) s).variant = s.variant := variant_replay
  have hinterpolation : (Gridder.replay (opening s) s).interpolation = s.interpolation :=
    interpolation_replay
  rw [← hvariant] at hmap
  rw [← hinterpolation,
    show forward vis g = (do ensurePrepared; Gridder.ensurePass; predictFrom vis g) from rfl,
    outcome_bind_ok (ensurePrepared_of_configured h.configured) rfl,
    outcome_bind_ok h.ensurePass rfl, predictFrom, outcome_bind_ok hcheck rfl, theCache,
    outcome_bind_ok hcache rfl, outcome_bind_ok (outcome_get _) rfl,
    outcome_bind_ok (outcome_lift hmap _) rfl, outcome_bind_ok (outcome_get _) rfl]
  cases Grid.predict vis g cache map (Gridder.replay (opening s) s).interpolation <;> rfl

/-- The grid and the sums of a pass make an image. -/
theorem exists_finalize (h : Equipped s a cache corrector own) (hactive : s.stage = .active)
    (hg : Grid.Alike own g) {sums : Tensor α} (hsums : sums.shape = [own.nchan, own.npol])
    (normalize : Bool) :
    ∃ image, (outcome (finalize g sums normalize) s).1 = .ok image := by
  obtain ⟨hny, hnx⟩ := Corrector.ny_taper h.corrected
  have hown := Grid.ofAxes_spec h.ofAxes_eq
  have hrows : g.ny = a.ny.toNat := by rw [hg.ny, ← hown.ny, Int.toNat_natCast]
  have hcolumns : g.nx = a.nx.toNat := by rw [hg.nx, ← hown.nx, Int.toNat_natCast]
  have hpos := Corrector.length_pos h.corrected
  have hny_pos : 0 < g.ny := by omega
  have hnx_pos : 0 < g.nx := by omega
  obtain ⟨t, ht, hshape⟩ := g.exists_image hny_pos hnx_pos
  have hpass : (passPixels g sums normalize t).shape =
      [g.nchan, g.npol, corrector.taper.ny, corrector.taper.nx] := by
    rw [shape_passPixels, hshape, hny, hnx, hrows, hcolumns]
  obtain ⟨image, himage, -⟩ := corrector.exists_correct
    ⟨.real (passPixels g sums normalize t), a.coordinates, .double⟩ hpass
  have hend : (outcome (endPass (passPixels g sums normalize t)) s).1 = .ok image := by
    rw [endPass, theAxes, outcome_bind_ok (outcome_part h.axes_eq) rfl, theCorrector,
      outcome_bind_ok (outcome_part h.corrector_eq) rfl,
      outcome_bind_ok (outcome_lift himage s) rfl]
    rfl
  refine ⟨image, ?_⟩
  rw [Gridder.finalize, outcome_bind_ok (outcome_get s) rfl, if_neg (not_not.2 hactive),
    outcome_bind_ok (h.checkGrid hg) rfl, outcome_bind_ok (outcome_lift ht s) rfl]
  cases normalize with
  | false => exact hend
  | true =>
    rw [← hg.nchan, ← hg.npol] at hsums
    have htable := outcome_lift (weightTable_eq hsums) s
    exact (congrArg Prod.fst (outcome_bind_ok htable rfl)).trans hend

end Equipped

/-! ## Gridders for the box function -/

/-- A gridder for the box function is initialized for any axes with pixels. -/
theorem exists_prepare_box {axes : Axes α} {cell : CellSize α} (hcell : axes.cellSize = .ok cell)
    (hpixels : 1 ≤ min axes.ny axes.nx) : ∃ corrector,
      Corrector.create (Kernel.Variant.boxCache cell) axes.ny axes.nx = .ok corrector ∧
      outcome (prepare none) (new .box (some axes) .linear) =
        (.ok (), ⟨.box, .linear, some axes, some (Kernel.Variant.boxCache cell), some corrector,
          .initialized, .zero⟩) := by
  obtain ⟨corrector, hcorrector⟩ := Setup.exists_create_boxCache cell hpixels
  exact ⟨corrector, hcorrector, prepare_ok (new .box (some axes) .linear) hcell rfl hcorrector⟩

/-- A row at the origin of the uv plane, of one channel. -/
def originRow : Visibility α 1 1 where
  rows := Visibility.rowsOf 1 (Tensor.fill [1, 3] 0) none none none
  frequency := [1]
  bare := false
  phaseCentre := some WorldCoordinates.defaultCentre

theorem create_originRow :
    Visibility.create (α := α) (Tensor.fill [1, 3] 0) [1] (.whole 1) none none none
    none = .ok ⟨1, 1, originRow⟩ := rfl

/-! ## Gridders that grid all visibilities -/

/-- What a gridder `s`, whose empty grid is `own`, does with visibilities without a fault. -/
structure GridsAll (s : Gridder α) (own : Grid α) (vis : Visibility α nchan npol) : Prop where
  /-- It has a cache and maps every row and channel to one of its planes, and it places every row
      and channel on any grid like its own. -/
  placed : ∃ cache map, s.cache = some cache ∧ s.variant.planeMap vis (some cache) = .ok map ∧
    map.planes.shape = [vis.rowCount, nchan] ∧ map.count = cache.planeCount ∧
    (∀ p ∈ map.planes.data, 0 ≤ p ∧ p < cache.planeCount) ∧
    ∀ g, Grid.Alike own g → Grid.PlacesAll vis g cache map s.interpolation
  /-- It makes the empty grid, -/
  createGrid : (outcome createGrid s).1 = .ok own
  /-- and it begins a pass with it. -/
  beginPass : (outcome beginPass s).1 = .ok (own, Tensor.fill [own.nchan, own.npol] 0)
  /-- It grids visibilities, into a grid and sums of a pass or fresh ones, and gives a grid and sums
      of a pass. -/
  reverse : ∀ grid sums, (∀ g ∈ grid, Grid.Alike own g) →
    (∀ t ∈ sums, t.shape = [own.nchan, own.npol]) →
    ∃ d, (outcome (do complete (← reverse vis grid sums)) s).1 = .ok d ∧ Grid.Alike own d.grid ∧
      d.sumWeights.shape = [own.nchan, own.npol]
  /-- It does so with their weights. -/
  reverseWeights : ∀ grid sums, (∀ g ∈ grid, Grid.Alike own g) →
    (∀ t ∈ sums, t.shape = [own.nchan, own.npol]) →
    ∃ d, (outcome (do complete (← reverseWeights vis grid sums)) s).1 = .ok d ∧
      Grid.Alike own d.grid ∧ d.sumWeights.shape = [own.nchan, own.npol]
  /-- It predicts visibilities from a grid of a pass. -/
  forward : ∀ g, Grid.Alike own g → ∃ predicted, (outcome (forward vis g) s).1 = .ok predicted
  /-- In a pass, it makes the image of grid and sums, divided by the sums or not. -/
  finalize : s.stage = .active → ∀ g, Grid.Alike own g → ∀ sums : Tensor α,
    sums.shape = [own.nchan, own.npol] → ∀ normalize,
    ∃ image, (outcome (finalize g sums normalize) s).1 = .ok image

namespace Equipped

/-- Where every grid of a pass passes the checks, nothing fails. -/
theorem gridsAll (h : Equipped s a cache corrector own)
    (hmap : s.variant.planeMap vis (some cache) = .ok map)
    (hready : ∀ g, Grid.Alike own g → Grid.Ready vis g cache map) : GridsAll s own vis := by
  have haccumulate : ∀ (how : Grid.Contribution α) grid sums, (∀ g ∈ grid, Grid.Alike own g) →
      (∀ t ∈ sums, t.shape = [own.nchan, own.npol]) →
      ∃ d, (outcome (do complete (← accumulate how vis grid sums)) s).1 = .ok d ∧
        Grid.Alike own d.grid ∧ d.sumWeights.shape = [own.nchan, own.npol] := by
    intro how grid sums hgrid hsums
    have hlike : Grid.Alike own (grid.getD own) := by
      cases grid with
      | none => exact Grid.Alike.refl own
      | some g => exact hgrid g rfl
    have hshapes : ∀ t ∈ sums, t.shape = [(grid.getD own).nchan, (grid.getD own).npol] := by
      rwa [hlike.nchan, hlike.npol]
    obtain ⟨d, hd, hdlike, hshape⟩ := (hready _ hlike).exists_deposit how s.interpolation hshapes
    rw [hlike.nchan, hlike.npol] at hshape
    rw [h.fst_accumulate how hgrid sums hmap, hd]
    exact ⟨d, rfl, hlike.trans hdlike, hshape⟩
  have hown := hready own (Grid.Alike.refl own)
  refine ⟨⟨cache, map, h.cache_eq, hmap, hown.shape_planes, hown.count_eq, fun p hp => ?_,
    fun g hg => (hready g hg).placesAll s.interpolation⟩, congrArg Prod.fst h.createGrid,
    congrArg Prod.fst h.beginPass, haccumulate .visibilities, haccumulate .weights, fun g hg => ?_,
    fun hactive g hg sums hsums normalize => h.exists_finalize hactive hg hsums normalize⟩
  · rw [← hown.count_eq]
    exact map.within p hp
  · obtain ⟨predicted, hpredicted⟩ := (hready g hg).exists_predict s.interpolation
    rw [h.fst_forward hg hmap, hpredicted]
    exact ⟨predicted.1, rfl⟩

end Equipped

/-- A gridder that was built for axes with a channel and with cells of some size has a plane map for
    visibilities of their polarisations, and grids of a pass pass the checks. -/
theorem exists_equipped (hs : s.stage ≠ .unconfigured) (hbuilt : s.BuiltForAxes)
    (haxes : s.axes = some a) (hnchan : 0 < a.nchan)
    (hsize : ∀ cell, a.cellSize = .ok cell → ∀ x ∈ cell.values, Scalar.isNaN x = false)
    (hown : Grid.ofAxes a = .ok own) (hlisted : vis.bare = false)
    (hlength : vis.frequency.length = nchan) (hnpol : (npol : ℤ) = a.npol) :
    ∃ cache corrector map, Equipped s a cache corrector own ∧
      s.variant.planeMap vis (some cache) = .ok map ∧
      ∀ g, Grid.Alike own g → Grid.Ready vis g cache map := by
  obtain ⟨a', cell, cache, corrector, haxes', hcache, hcorrector, hcell, hmade, hcorrected⟩ :=
    hbuilt
  obtain rfl : a = a' := Option.some.inj (haxes.symm.trans haxes')
  obtain ⟨du, dv, rfl⟩ := Axes.exists_of_cellSize hcell
  obtain ⟨hwell, hcachecell⟩ := Kernel.wellFormed_of_buildCache hmade
  obtain ⟨map, hmap, hshape, hcount⟩ := Kernel.exists_planeMap hmade hlisted hlength
  have hspec := Grid.ofAxes_spec hown
  have howncell : own.cellSize = .perAxis [du, dv] :=
    Except.ok.inj (hspec.cellSize.symm.trans hcell)
  have hclose : ∀ x ∈ [du, dv], CellSize.close x x = true := by
    intro x hx
    have hnumber := hsize _ hcell x hx
    rw [Scalar.isNaN, Bool.not_eq_false'] at hnumber
    rw [CellSize.close, hnumber, Bool.or_true]
  refine ⟨cache, corrector, map, ⟨hs, haxes, hcache, hcorrector, hcorrected, hown⟩,
    hmap, fun g hg => ?_⟩
  have hcells : g.cellSize = .perAxis [du, dv] := hg.cellSize.trans howncell
  refine ⟨hwell, ?_, hlisted, hlength, ?_,
    .inr ⟨a.frequency, hg.frequency.trans hspec.frequency, ?_⟩, du, dv, by rw [hcells]; rfl⟩
  · have hpol : npol = g.npol := by
      have := hspec.npol
      rw [hg.npol]
      omega
    have hagree : g.cellSize.agree? cache.cellSize = some true := by
      rw [hcells, hcachecell]
      simp [CellSize.agree?, CellSize.values, hclose]
    unfold Grid.checkFit
    rw [if_neg (not_not.2 hpol), if_neg (not_not.2 hshape), if_neg (not_not.2 hcount), hagree]
  · rw [hg.nchan, hspec.nchan]
    exact hnchan
  · rw [a.length_frequency, hg.nchan, hspec.nchan]

/-- Built for its axes, a gridder has an empty grid for them, if an array can have their lengths. -/
theorem BuiltForAxes.exists_grid (hbuilt : s.BuiltForAxes) (haxes : s.axes = some a)
    (hnpol : 0 ≤ a.npol) (hbound : ∀ n ∈ [a.npol, a.ny, a.nx], n < 2 ^ 63) :
    ∃ own, Grid.ofAxes a = .ok own := by
  obtain ⟨a', cell, cache, corrector, haxes', -, -, hcell, -, hcorrected⟩ := hbuilt
  obtain rfl : a = a' := Option.some.inj (haxes.symm.trans haxes')
  obtain ⟨hny, hnx⟩ := Corrector.length_pos hcorrected
  have hlengths : ∀ n ∈ [a.npol, a.ny, a.nx], 0 ≤ n := by
    simpa [hnpol] using ⟨hny.le, hnx.le⟩
  exact ⟨_, Grid.ofAxes_eq_ok.2 ⟨fun n hn => ⟨hlengths n hn, hbound n hn⟩, cell, hcell, rfl⟩⟩

/-- A gridder that was initialized grids all visibilities that were made with the polarisations of
    its axes, after any run of calls other than further initializations: if the axes have a channel
    and the sizes of their cells are numbers. -/
theorem grids_every_visibility {g₀ s₀ : Gridder α} {given : Option (Axes α)}
    (hprepare : outcome (prepare given) g₀ = (.ok (), s₀)) (calls : List (Call α))
    (hcalls : ∀ call ∈ calls, ¬ call.Prepares) {axes : Axes α} (haxes : s₀.axes = some axes)
    (hbound : ∀ n ∈ [axes.npol, axes.ny, axes.nx], n < 2 ^ 63) (hnchan : 0 < axes.nchan)
    (hsize : ∀ cell, axes.cellSize = .ok cell → ∀ x ∈ cell.values, Scalar.isNaN x = false)
    {uvw : Tensor α} {frequency : List α} {count : Setting α} {values : Option (Tensor (Cplx α))}
    {weights : Option (Tensor α)} {flags : Option (Tensor Bool)}
    {phaseCentre : Option (SkyDirection α)} {made : VisibilitySet α}
    (hmade : Visibility.create uvw frequency count values weights flags phaseCentre = .ok made)
    (hnpol : (made.npol : ℤ) = axes.npol) :
    ∃ own, Grid.ofAxes axes = .ok own ∧ GridsAll (afterCalls calls s₀) own made.data := by
  have hbuilt := builtForAxes_prepare hprepare
  have hconfigured : s₀.stage ≠ .unconfigured := by
    obtain ⟨a, cell, cache, corrector, -, -, -, rfl⟩ := exists_of_prepare hprepare
    exact Stage.noConfusion
  obtain ⟨own, hown⟩ := hbuilt.exists_grid haxes (by omega) hbound
  refine ⟨own, hown, ?_⟩
  obtain ⟨hlisted, hlength⟩ := Visibility.listed_of_create hmade
  rw [afterCalls_eq_run, run_eq_replay (not_prepares_operationsOf hcalls s₀) hconfigured]
  have hsame : Same s₀ (replay (history (operationsOf calls s₀) s₀) s₀) :=
    ⟨variant_replay, axes_replay, cache_replay, corrector_replay, configured_replay hconfigured⟩
  obtain ⟨cache, corrector, map, hequipped, hmap, hready⟩ := exists_equipped hsame.configured
    (hbuilt.of_same hsame) (hsame.axes.trans haxes) hnchan hsize hown hlisted hlength hnpol
  exact hequipped.gridsAll hmap hready

theorem grids_every_visibility_boxGridder : ∃ own, Grid.ofAxes Setup.smallAxes = .ok own ∧
    GridsAll
      (afterCalls
        [.operation .beginPass, .weight Grid.quarterVisibility (.text "uniform")] boxGridder)
      own (originRow (α := ℝ)) := by
  obtain ⟨corrector, -, hprepare⟩ := exists_prepare_box Setup.cellSize_smallAxes (by decide)
  have haxes : boxGridder.axes = some Setup.smallAxes :=
    congrArg (fun outcome => outcome.2.axes) (prepare_boxGridder.symm.trans hprepare)
  exact grids_every_visibility prepare_boxGridder _ (by simp [Call.Prepares]) haxes
    (by decide) Nat.one_pos (fun _ _ _ _ => by simp [Scalar.isNaN]) create_originRow rfl

/-! ## Axes that are left out -/

/-- Axes for which a gridder for the box function can be had and initialized, and yet it does not
    grid visibilities of their polarisations into its own grid. -/
def LeavesOut (axes : Axes α) (fault : Fault α) : Prop :=
  ∃ g s own made, Gridder.create (some axes) [("gridder", .text "box")] = .ok g ∧
    outcome (prepare none) g = (.ok (), s) ∧ (outcome createGrid s).1 = .ok own ∧
    Visibility.create (Tensor.fill [1, 3] 0) [1] (.whole 1) none none none none = .ok made ∧
    (made.npol : ℤ) = axes.npol ∧
    (outcome (do complete (← reverse made.data (some own) none)) s).1 = .error fault

theorem leavesOut_of_deposit {axes : Axes α} {cell : CellSize α} (hcell : axes.cellSize = .ok cell)
    (hpixels : 1 ≤ min axes.ny axes.nx) (hnpol : axes.npol = 1) {own : Grid α}
    (hown : Grid.ofAxes axes = .ok own) {fault : Fault α}
    (hbroken : (Grid.deposit .visibilities originRow own (Kernel.Variant.boxCache cell)
      (PlaneMap.single (originRow (α := α))) none .linear).mapError Grid.Interrupted.fault =
        .error fault) : LeavesOut axes fault := by
  obtain ⟨corrector, hcorrector, hprepare⟩ := exists_prepare_box hcell hpixels
  have hequipped : Equipped ⟨.box, .linear, some axes, some (Kernel.Variant.boxCache cell),
      some corrector, .initialized, .zero⟩ axes (Kernel.Variant.boxCache cell) corrector own :=
    ⟨Stage.noConfusion, rfl, rfl, rfl, hcorrector, hown⟩
  have hgiven : ∀ g ∈ some own, Grid.Alike own g := by
    rintro g ⟨⟩
    exact Grid.Alike.refl own
  exact ⟨_, _, own, _, rfl, hprepare, congrArg Prod.fst hequipped.createGrid, create_originRow,
    hnpol.symm, (hequipped.fst_accumulate .visibilities hgiven none rfl).trans hbroken⟩

/-- Axes without channels. -/
noncomputable def noChannels : Axes ℝ := ⟨0, 1, 3, 4, [1, 1], [], none, rfl⟩

/-- Without a channel there is nowhere to put a sample. -/
theorem leavesOut_noChannels : LeavesOut noChannels .mismatch := by
  have hcell : noChannels.cellSize = .ok (.perAxis [1 / 4, 1 / 3]) := by
    simp [noChannels, Axes.cellSize, Axes.cellSize?, Axes.fieldOfView?]
  have hown : Grid.ofAxes noChannels =
      .ok (Grid.empty 0 1 3 4 (.perAxis [1 / 4, 1 / 3]) (some [])) := by
    unfold Grid.ofAxes
    rw [hcell]
    rfl
  have hagree : CellSize.agree? (.perAxis [(1 / 4 : ℝ), 1 / 3])
      (.perAxis [1 / 4, 1 / 3]) = some true := by
    simp [CellSize.agree?, CellSize.values, Setup.close_self]
  have hcheck : Grid.checkFit originRow
      (Grid.empty 0 1 3 4 (.perAxis [(1 / 4 : ℝ), 1 / 3]) (some []))
      (Kernel.Variant.boxCache (.perAxis [1 / 4, 1 / 3])) (PlaneMap.single (originRow (α := ℝ))) =
        .ok () := by
    unfold Grid.checkFit Kernel.Variant.boxCache Grid.empty
    rw [hagree]
    rfl
  refine leavesOut_of_deposit hcell (by decide) rfl hown ?_
  unfold Grid.deposit
  rw [hcheck]
  rfl

/-- Axes whose pixels have no size. -/
noncomputable def unsizedAxes : Axes Extended := ⟨1, 1, 3, 4, [.nan, .nan], [1], none, rfl⟩

/-- Cells of no size do not match the cache that was built for them. -/
theorem leavesOut_unsizedAxes :
    LeavesOut unsizedAxes (.cellSizes (.perAxis [.nan, .nan]) (.perAxis [.nan, .nan])) := by
  have hcell : unsizedAxes.cellSize = .ok (.perAxis [.nan, .nan]) := rfl
  have hown : Grid.ofAxes unsizedAxes =
      .ok (Grid.empty 1 1 3 4 (.perAxis [.nan, .nan]) (some [1])) := rfl
  have hagree : CellSize.agree? (.perAxis [Extended.nan, .nan]) (.perAxis [.nan, .nan]) =
      some false := by
    simp [CellSize.agree?, CellSize.values, Extended.close_nan]
  have hcheck : Grid.checkFit originRow
      (Grid.empty 1 1 3 4 (.perAxis [Extended.nan, .nan]) (some [1]))
      (Kernel.Variant.boxCache (.perAxis [.nan, .nan]))
        (PlaneMap.single (originRow (α := Extended))) =
        .error (.cellSizes (.perAxis [.nan, .nan]) (.perAxis [.nan, .nan])) := by
    unfold Grid.checkFit Kernel.Variant.boxCache Grid.empty
    rw [hagree]
    rfl
  refine leavesOut_of_deposit hcell (by decide) rfl hown ?_
  unfold Grid.deposit
  rw [hcheck]
  rfl

/-- An initialized gridder does not grid everything: not with axes without channels, and not where
    the sizes of the cells are no numbers. -/
theorem not_gridded_without_channels_or_sizes : LeavesOut noChannels .mismatch ∧
    LeavesOut unsizedAxes (.cellSizes (.perAxis [.nan, .nan]) (.perAxis [.nan, .nan])) :=
  ⟨leavesOut_noChannels, leavesOut_unsizedAxes⟩

end Gridder

end ApertureSynthesis
