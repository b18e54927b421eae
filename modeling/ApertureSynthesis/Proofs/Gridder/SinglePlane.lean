/-
  A gridder with a single w plane does what one for the anti-aliasing function does.

  A gridder for the anti-aliasing function and one for w projection with a single plane are `Twins`
  if they differ in nothing but the kind and the name of the cache. No operation tells twins apart
  (`Call.indifferent`): the single plane is the bare taper, all samples go to it, and no operation
  looks at the name. So twins are twins after any run of calls, and give the same images,
  predictions and counters (`single_plane_is_bare_taper`).
-/
import Mathlib
import ApertureSynthesis.Proofs.Gridder.Matching
import ApertureSynthesis.Proofs.Gridder.Passes
import ApertureSynthesis.Proofs.Kernel.BareTaper

namespace ApertureSynthesis

/-- There is a frequency for each channel, as it is in every table that is created. -/
structure Visibility.Tuned {α : Type} {nchan npol : ℕ} (vis : Visibility α nchan npol) : Prop where
  /-- The frequencies are a list -/
  listed : vis.bare = false
  /-- as long as there are channels. -/
  length : vis.frequency.length = nchan

theorem Visibility.Tuned.unit {α : Type} [Scalar α] {nchan npol : ℕ} {vis : Visibility α nchan npol}
    (h : vis.Tuned) : vis.unit.Tuned := ⟨h.listed, h.length⟩

/-! ## The name of a cache -/

namespace Grid

variable {α : Type} [Scalar α] {nchan npol : ℕ} (vis : Visibility α nchan npol) (g : Grid α)
  (c : Cache α) (name : String) (map : PlaneMap) (interpolation : Interpolation)

theorem frame_named : frame vis g (c.named name) map interpolation =
    (frame vis g c map interpolation).map fun f => { f with cache := f.cache.named name } := by
  unfold frame
  rw [map_bind_eq]
  refine bind_congr fun lattice => ?_
  rw [map_bind_eq]
  refine bind_congr fun frequency => ?_
  rw [map_bind_eq]
  exact bind_congr fun channels => rfl

/-- What a cache is called does not show in what is gridded, -/
theorem deposit_named (how : Contribution α) (sums : Option (Tensor α)) :
    deposit how vis g (c.named name) map sums interpolation =
      deposit how vis g c map sums interpolation := by
  have hfit : checkFit vis g (c.named name) map = checkFit vis g c map := rfl
  unfold deposit
  rw [hfit, frame_named]
  cases checkFit vis g c map with
  | error fault => rfl
  | ok _ =>
    cases frame vis g c map interpolation with
    | error fault => rfl
    | ok f => rfl

/-- nor in what is predicted, -/
theorem predict_named :
    predict vis g (c.named name) map interpolation = predict vis g c map interpolation := by
  have hfit : checkFit vis g (c.named name) map = checkFit vis g c map := rfl
  unfold predict
  rw [hfit, frame_named]
  refine bind_congr fun _ => ?_
  cases frame vis g c map interpolation with
  | error fault => rfl
  | ok f => rfl

/-- nor in how visibilities are weighted. -/
theorem reweight_named : reweight vis g (c.named name) = reweight vis g c := rfl

end Grid

theorem Corrector.create_named {α : Type} [Scalar α] (c : Cache α) (name : String) (ny nx : ℤ) :
    create (c.named name) ny nx = create c ny nx := rfl

namespace Gridder

/-! ## Twins -/

/-- A gridder for the anti-aliasing function, and one for w projection that differs only in the
    kind, of a single plane, and in the name of the cache. -/
structure Twins (s t : Gridder ℝ) : Prop where
  /-- The parameters of the kinds are the same, -/
  variant : ∃ m p, m.count = 1 ∧ s.variant = .spheroidal p ∧ t.variant = .wprojection m p
  /-- the caches differ in the name, -/
  cache : t.cache = s.cache.map (·.named "wprojection")
  /-- and all else is the same. -/
  interpolation : t.interpolation = s.interpolation
  axes : t.axes = s.axes
  corrector : t.corrector = s.corrector
  stage : t.stage = s.stage
  statistics : t.statistics = s.statistics

/-- An action that does not tell twins apart. -/
def Indifferent {β : Type} (x : Action ℝ β) : Prop := Matches Twins (· = ·) x x

section Actions

variable {nchan npol : ℕ}

theorem indifferent_theAxes : Indifferent theAxes :=
  Matches.get.bind fun s t h => by
    rw [h.axes]
    exact .need _

theorem indifferent_theCorrector : Indifferent theCorrector :=
  Matches.get.bind fun s t h => by
    rw [h.corrector]
    exact .need _

theorem matches_theCache : Matches Twins (fun c d => d = c.named "wprojection") theCache theCache :=
  Matches.get.bind fun s t h => by
    rw [h.cache]
    exact .need_map fun _ => rfl

/-- The cells of axes have a size. -/
theorem values_ne_nil_of_cellSize {axes : Axes ℝ} {cell : CellSize ℝ}
    (h : axes.cellSize = .ok cell) : cell.values ≠ [] := by
  unfold Axes.cellSize Axes.cellSize? at h
  cases hfield : axes.fieldOfView? with
  | none =>
    rw [hfield] at h
    cases h
  | some field =>
    rw [hfield] at h
    cases h
    exact List.cons_ne_nil _ _

theorem indifferent_prepare_none : Indifferent (prepare none) := by
  refine Matches.get.bind fun s _ h => ?_
  rw [h.axes]
  cases s.axes with
  | none => exact .throw .noAxes
  | some axes =>
    refine Matches.bind (.lift_same (Q := fun a b => b = a ∧ a.values ≠ [])
      fun cell hcell => ⟨rfl, values_ne_nil_of_cellSize hcell⟩) ?_
    rintro cell _ ⟨rfl, hcell⟩
    refine Matches.get.bind fun s t h => ?_
    obtain ⟨m, p, hm, hs, ht⟩ := h.variant
    rw [hs, ht, Kernel.buildCache_single hm p hcell]
    refine Matches.bind (.lift_map (Q := fun c d => d = c.named "wprojection") fun _ _ => rfl) ?_
    rintro cache _ rfl
    refine Matches.andThen (.modify fun s t h => { h with cache := rfl }) fun _ => ?_
    rw [Corrector.create_named]
    exact (Matches.lift _).andThen fun corrector =>
      .modify fun s t h => { h with corrector := rfl, stage := rfl }

theorem indifferent_prepare (axes : Option (Axes ℝ)) : Indifferent (prepare axes) := by
  cases axes with
  | none => exact indifferent_prepare_none
  | some a => exact Matches.andThen (.modify fun s t h => { h with axes := rfl }) fun _ =>
    indifferent_prepare_none

theorem indifferent_ensurePrepared : Indifferent ensurePrepared := by
  refine Matches.get.bind fun s t h => ?_
  rw [h.stage]
  split
  · exact indifferent_prepare none
  · exact .pure rfl

theorem indifferent_createGrid : Indifferent createGrid :=
  indifferent_ensurePrepared.andThen fun _ => indifferent_theAxes.andThen fun _ => .lift _

theorem indifferent_beginPass : Indifferent beginPass :=
  indifferent_ensurePrepared.andThen fun _ =>
    Matches.andThen (.modify fun _ _ h => { h with stage := rfl, statistics := rfl }) fun _ =>
      indifferent_createGrid.andThen fun _ => .pure rfl

theorem indifferent_ensurePass : Indifferent ensurePass := by
  refine Matches.get.bind fun s t h => ?_
  rw [h.stage]
  split
  · exact indifferent_beginPass.andThen fun _ => .pure rfl
  · exact .pure rfl

theorem indifferent_checkGrid (grid : Grid ℝ) : Indifferent (checkGrid grid) := by
  refine indifferent_theAxes.andThen fun axes => ?_
  split
  · exact .throw _
  · exact .pure rfl

theorem indifferent_ownGrid (grid : Option (Grid ℝ)) : Indifferent (ownGrid grid) := by
  cases grid with
  | none => exact indifferent_createGrid
  | some grid => exact .pure rfl

/-- Twins map all samples to the only plane. -/
theorem Twins.planeMap {s t : Gridder ℝ} (h : Twins s t) {vis : Visibility ℝ nchan npol}
    (hvis : vis.Tuned) (cache cache' : Option (Cache ℝ)) :
    s.variant.planeMap vis cache = .ok (PlaneMap.single vis) ∧
      t.variant.planeMap vis cache' = .ok (PlaneMap.single vis) := by
  obtain ⟨m, p, hm, hs, ht⟩ := h.variant
  rw [hs, ht]
  exact ⟨rfl, Kernel.map_single hm hvis.listed hvis.length⟩

theorem indifferent_gridInto (how : Grid.Contribution ℝ) {vis : Visibility ℝ nchan npol}
    (hvis : vis.Tuned) (sums : Option (Tensor ℝ)) (grid : Grid ℝ) :
    Indifferent (gridInto how vis sums grid) := by
  refine (indifferent_checkGrid grid).andThen fun _ => matches_theCache.bind ?_
  rintro cache _ rfl
  refine Matches.get.bind fun s t h => ?_
  obtain ⟨hs, ht⟩ := h.planeMap hvis (some cache) (some (cache.named "wprojection"))
  rw [hs, ht]
  refine (Matches.lift _).andThen fun map => Matches.get.bind fun s t h => ?_
  rw [h.interpolation, Grid.deposit_named]
  cases Grid.deposit how vis grid cache map sums s.interpolation with
  | error interrupted => exact .pure rfl
  | ok d =>
    refine Matches.andThen (.modify fun s t h => ?_) fun _ => .pure rfl
    exact { h with statistics := congrArg (· + d.statistics) h.statistics }

theorem indifferent_accumulate (how : Grid.Contribution ℝ) {vis : Visibility ℝ nchan npol}
    (hvis : vis.Tuned) (grid : Option (Grid ℝ)) (sums : Option (Tensor ℝ)) :
    Indifferent (accumulate how vis grid sums) := by
  rw [accumulate_eq]
  exact indifferent_ensurePrepared.andThen fun _ => indifferent_ensurePass.andThen fun _ =>
    (indifferent_ownGrid grid).andThen fun grid => indifferent_gridInto how hvis sums grid

theorem indifferent_complete (a : Accumulated ℝ) : Indifferent (complete a) := by
  unfold complete
  split
  · exact .pure rfl
  · exact .throw _

theorem indifferent_forward {vis : Visibility ℝ nchan npol} (hvis : vis.Tuned) (grid : Grid ℝ) :
    Indifferent (forward vis grid) := by
  refine indifferent_ensurePrepared.andThen fun _ => indifferent_ensurePass.andThen fun _ =>
    (indifferent_checkGrid grid).andThen fun _ => matches_theCache.bind ?_
  rintro cache _ rfl
  refine Matches.get.bind fun s t h => ?_
  obtain ⟨hs, ht⟩ := h.planeMap hvis (some cache) (some (cache.named "wprojection"))
  rw [hs, ht]
  refine (Matches.lift _).andThen fun map => Matches.get.bind fun s t h => ?_
  rw [h.interpolation, Grid.predict_named]
  refine (Matches.lift _).andThen fun predicted =>
    Matches.andThen (.modify fun s t h => ?_) fun _ => .pure rfl
  exact { h with statistics := congrArg (· + predicted.2) h.statistics }

theorem indifferent_modelToGrid (model : Image ℝ) : Indifferent (modelToGrid model) := by
  refine indifferent_ensurePrepared.andThen fun _ => indifferent_theAxes.andThen fun axes => ?_
  split
  · exact .throw _
  · exact indifferent_theCorrector.andThen fun _ => (Matches.lift _).andThen fun _ =>
      indifferent_createGrid.andThen fun _ => .lift _

theorem indifferent_endPass (pixels : Tensor ℝ) : Indifferent (endPass pixels) :=
  indifferent_theAxes.andThen fun _ => indifferent_theCorrector.andThen fun _ =>
    (Matches.lift _).andThen fun _ =>
      Matches.andThen (.modify fun _ _ h => { h with stage := rfl }) fun _ => .pure rfl

theorem indifferent_finalize (grid : Grid ℝ) (sums : Tensor ℝ) (normalize : Bool) :
    Indifferent (finalize grid sums normalize) := by
  refine Matches.get.bind fun s t h => ?_
  rw [h.stage]
  dsimp only
  split
  · refine Matches.get.bind fun s t h => ?_
    rw [h.stage]
    exact .throw_bind _
  · refine (indifferent_checkGrid grid).andThen fun _ => (Matches.lift _).andThen fun pixels => ?_
    cases normalize with
    | false => exact indifferent_endPass _
    | true => exact (Matches.lift _).andThen fun _ => indifferent_endPass _

theorem indifferent_invert {vis : Visibility ℝ nchan npol} (hvis : vis.Tuned)
    (psf normalize : Bool) :
    Indifferent (invert vis psf normalize) := by
  have hown : (if psf then vis.unit else vis).Tuned := by
    cases psf with
    | false => exact hvis
    | true => exact hvis.unit
  exact indifferent_beginPass.andThen fun pass =>
    (indifferent_accumulate .visibilities hown _ _).andThen fun a =>
      (indifferent_complete a).andThen fun d =>
      (indifferent_finalize d.grid d.sumWeights normalize).andThen fun _ => .pure rfl

theorem indifferent_predict {vis : Visibility ℝ nchan npol} (hvis : vis.Tuned) (model : Image ℝ) :
    Indifferent (predict vis model) :=
  (indifferent_modelToGrid model).andThen fun grid => indifferent_forward hvis grid

theorem indifferent_weight {vis : Visibility ℝ nchan npol} (hvis : vis.Tuned)
    (weighting : Weighting) :
    Indifferent (weight vis weighting) := by
  cases weighting with
  | natural => exact .pure rfl
  | uniform =>
    refine (indifferent_accumulate .weights hvis none none).andThen fun a =>
      (indifferent_complete a).andThen fun d => matches_theCache.bind ?_
    rintro cache _ rfl
    rw [Grid.reweight_named]
    exact .lift _

end Actions

/-! ## Runs of calls -/

/-- The visibilities that an operation is given have a frequency for each channel. -/
def Operation.Tuned {α : Type} [Scalar α] : Operation α → Prop
  | reverse vis _ _ | reverseWeights vis _ _ | forward vis _ => vis.Tuned
  | _ => True

/-- The visibilities that a call is given have a frequency for each channel. -/
def Call.Tuned {α : Type} [Scalar α] : Call α → Prop
  | operation op => op.Tuned
  | invert vis _ _ | predict vis _ | weight vis _ => vis.Tuned

theorem Operation.indifferent {op : Operation ℝ} (h : op.Tuned) : Indifferent op.act := by
  cases op with
  | prepare axes => exact indifferent_prepare axes
  | beginPass => exact indifferent_beginPass.andThen fun _ => .pure rfl
  | createGrid => exact indifferent_createGrid.andThen fun _ => .pure rfl
  | reverse vis grid sums =>
    exact (indifferent_accumulate _ h grid sums).andThen fun a =>
      (indifferent_complete a).andThen fun _ => .pure rfl
  | reverseWeights vis grid sums =>
    exact (indifferent_accumulate _ h grid sums).andThen fun a =>
      (indifferent_complete a).andThen fun _ => .pure rfl
  | forward vis grid => exact (indifferent_forward h grid).andThen fun _ => .pure rfl
  | modelToGrid model => exact (indifferent_modelToGrid model).andThen fun _ => .pure rfl
  | finalize grid sums normalize =>
    exact (indifferent_finalize grid sums normalize).andThen fun _ => .pure rfl

theorem Call.indifferent {call : Call ℝ} (h : call.Tuned) : Indifferent call.act := by
  cases call with
  | operation op => exact op.indifferent h
  | invert vis psf normalize =>
    exact (indifferent_invert h psf normalize).andThen fun _ => .pure rfl
  | predict vis model => exact (indifferent_predict h model).andThen fun _ => .pure rfl
  | weight vis weighting =>
    exact (Matches.lift _).andThen fun kind =>
      (indifferent_weight h kind).andThen fun _ => .pure rfl

/-- What is indifferent gives twins the same, and leaves twins. -/
theorem Indifferent.outcome {β : Type} {x : Action ℝ β} (h : Indifferent x) {s t : Gridder ℝ}
    (hst : Twins s t) :
    (outcome x t).1 = (outcome x s).1 ∧ Twins (outcome x s).2 (outcome x t).2 :=
    matches_eq_iff.1 h s t hst

/-- Twins stay twins, whatever is called. -/
theorem Twins.afterCalls {calls : List (Call ℝ)} (hcalls : ∀ call ∈ calls, call.Tuned)
    {s t : Gridder ℝ} (h : Twins s t) : Twins (afterCalls calls s) (afterCalls calls t) := by
  induction calls generalizing s t with
  | nil => exact h
  | cons call calls ih =>
    have hstep : Twins (call.after s) (call.after t) :=
      ((call.indifferent (hcalls call List.mem_cons_self)).outcome h).2
    exact ih (fun c hc => hcalls c (List.mem_cons_of_mem call hc)) hstep

/-! ## The single plane -/

/-- Images, predictions and counters do not tell two gridders apart. -/
structure SameImaging (s t : Gridder ℝ) : Prop where
  /-- They have counted the same, -/
  statistics : t.statistics = s.statistics
  /-- make the same images, -/
  image : ∀ {nchan npol : ℕ} (vis : Visibility ℝ nchan npol), vis.Tuned → ∀ psf normalize : Bool,
    (outcome (invert vis psf normalize) t).1 = (outcome (invert vis psf normalize) s).1
  /-- and predict the same. -/
  prediction : ∀ {nchan npol : ℕ} (vis : Visibility ℝ nchan npol), vis.Tuned → ∀ model : Image ℝ,
    (outcome (predict vis model) t).1 = (outcome (predict vis model) s).1

theorem Twins.sameImaging {s t : Gridder ℝ} (h : Twins s t) : SameImaging s t where
  statistics := h.statistics
  image _ hvis psf normalize := ((indifferent_invert hvis psf normalize).outcome h).1
  prediction _ hvis model := ((indifferent_predict hvis model).outcome h).1

/-- A kind of w projection is the anti-aliasing function with given parameters, under another
    name. -/
structure IsBareTaper (p : Kernel.Parameters ℝ) (m : Plane.Mapper ℝ) : Prop where
  /-- For the same cells it builds the same cache but for the name, or is refused with the same
      fault. -/
  cache : ∀ cellSize : CellSize ℝ, cellSize.values ≠ [] → ∀ shape frequency,
    (Kernel.Variant.wprojection m p).buildCache cellSize shape frequency =
      ((Kernel.Variant.spheroidal p).buildCache cellSize shape frequency).map
      (·.named "wprojection")
  /-- Gridders of both kinds image alike, after any calls. -/
  imaging : ∀ axes interpolation (calls : List (Call ℝ)), (∀ call ∈ calls, call.Tuned) →
    SameImaging (afterCalls calls (new (.spheroidal p) axes interpolation))
      (afterCalls calls (new (.wprojection m p) axes interpolation))

theorem isBareTaper_of_single {m : Plane.Mapper ℝ} (hm : m.count = 1) (p : Kernel.Parameters ℝ) :
    IsBareTaper p m where
  cache _ hcell := Kernel.buildCache_single hm p hcell
  imaging axes interpolation calls hcalls := by
    have htwins : Twins (new (.spheroidal p) axes interpolation)
        (new (.wprojection m p) axes interpolation) :=
      ⟨⟨m, p, hm, rfl, rfl⟩, rfl, rfl, rfl, rfl, rfl, rfl⟩
    exact (htwins.afterCalls hcalls).sameImaging

/-- In every cache of w projection the planes of zero w are the zero-w kernel. So with a single
    plane, whatever the positive greatest w, the spacing and the parameters, w projection can be had
    exactly if the anti-aliasing function can with the same parameters, and then it is that function
    under another name. -/
theorem single_plane_is_bare_taper {wmax planes spacing : Setting ℝ} {greatest : ℝ}
    {kind : Plane.Spacing} (hwmax : wmax.number? = some greatest) (hpos : 0 < greatest)
    (hplanes : planes.whole? = some 1) (hspacing : Plane.Spacing.check spacing = .ok kind)
    (args : Kernel.Arguments ℝ) :
    (∀ (m : Plane.Mapper ℝ) (p : Kernel.Parameters ℝ) cellSize shape frequency cache,
      (Kernel.Variant.wprojection m p).buildCache cellSize shape frequency = .ok cache →
        ∀ k, cache.planeValues[k]? = some 0 → cache.IsZeroW k) ∧
    ((∃ fault, Kernel.Variant.spheroidal? args = .error fault ∧
        Kernel.Variant.wprojection? wmax planes spacing args.request = .error fault) ∨
      ∃ p, Kernel.Variant.spheroidal? args = .ok (.spheroidal p) ∧
        Kernel.Variant.wprojection? wmax planes spacing args.request =
          .ok (.wprojection ⟨greatest, 1, kind⟩ p) ∧
        IsBareTaper p ⟨greatest, 1, kind⟩) := by
  refine ⟨fun m p cellSize shape frequency cache h k hk => Kernel.isZeroW_of_buildCache h hk, ?_⟩
  rw [Kernel.wprojection_single hplanes hwmax hpos hspacing, Kernel.Variant.spheroidal?]
  cases args.request.check with
  | error fault => exact .inl ⟨fault, rfl, rfl⟩
  | ok p => exact .inr ⟨p, rfl, rfl, isBareTaper_of_single rfl p⟩

/-- Two samples per cell, a half-width of one cell out of three. -/
noncomputable def narrowArguments : Kernel.Arguments ℝ :=
  [("oversample", .whole 2), ("cutoff", .real 1), ("support", .whole 1), ("maxsupport", .whole 3)]

/-- Two rows at a quarter of a wavelength, whose w is 2000. -/
noncomputable def distantVisibility : Visibility ℝ 1 1 :=
  { Grid.quarterVisibility with rows := Grid.quarterVisibility.rows.map ({ · with w := 2000 }) }

/-- The anti-aliasing function with these parameters serves a grid that is just as wide as the
    kernel. -/
theorem exists_narrow :
    ∃ (p : Kernel.Parameters ℝ) (σ : Setup), narrowArguments.request.check = .ok p ∧
    σ.variant = .spheroidal p ∧ σ.interpolation = .linear ∧ σ.axes = Setup.smallAxes ∧
    σ.cell = .perAxis [1 / 4, 1 / 3] ∧ σ.cache.planeValues = [0] := by
  have hcell : (CellSize.perAxis [(1 / 4 : ℝ), 1 / 3]).values ≠ [] := List.cons_ne_nil _ _
  obtain ⟨c, cache, hc, hbuild⟩ :=
    Kernel.exists_build_narrow (fun t ht => absurd ht (Option.not_mem_none t))
      (List.cons_ne_nil (Kernel.PlaneValue.ofScalar 0) []) hcell
      (show 3 ≤ min (3 : ℤ) 4 by decide) "spheroidal"
  obtain ⟨corrector, hcorrector⟩ := Kernel.exists_corrector_of_build hbuild
  obtain ⟨_, _, _, _, hbuilt⟩ := Kernel.exists_of_build hbuild
  exact ⟨.fitting c, ⟨.spheroidal (.fitting c), .linear, Setup.smallAxes, _, cache, corrector,
    Setup.cellSize_smallAxes, hbuild, hcorrector⟩, hc, rfl, rfl, rfl, rfl, hbuilt.cache_values⟩

/-- The image of rows far beyond the greatest w, in a single plane, is that of the anti-aliasing
    function. -/
theorem single_plane_is_bare_taper_narrow :
    ∃ p cache image, Kernel.Variant.spheroidal? narrowArguments = .ok (.spheroidal p) ∧
      Kernel.Variant.wprojection? (.real 1000) (.whole 1) (.text "quadratic")
        narrowArguments.request = .ok (.wprojection ⟨1000, 1, .quadratic⟩ p) ∧
      (Kernel.Variant.wprojection ⟨1000, 1, .quadratic⟩ p).buildCache (.perAxis [1 / 4, 1 / 3])
        Setup.smallAxes.shape (.several (Setup.smallAxes.frequency.map .real)) = .ok cache ∧
      cache.planeValues[0]? = some 0 ∧ cache.IsZeroW 0 ∧
      (outcome (invert distantVisibility false true)
        (new (.spheroidal p) (some Setup.smallAxes) .linear)).1 = .ok image ∧
      (outcome (invert distantVisibility false true)
        (new (.wprojection ⟨1000, 1, .quadratic⟩ p) (some Setup.smallAxes) .linear)).1 =
          .ok image := by
  obtain ⟨p, σ, hp, hvariant, hinterpolation, haxes, hcell, hvalues⟩ := exists_narrow
  have hwmax : (Setting.real (1000 : ℝ)).number? = some 1000 := rfl
  have hplanes : (Setting.whole 1 : Setting ℝ).whole? = some 1 := rfl
  have hspacing : Plane.Spacing.check (.text "quadratic" : Setting ℝ) = .ok .quadratic := rfl
  obtain ⟨hzero, ⟨fault, hrefused, -⟩ | ⟨p', hspheroidal, hwprojection, htaper⟩⟩ :=
    single_plane_is_bare_taper hwmax (by norm_num) hplanes hspacing narrowArguments
  · rw [Kernel.Variant.spheroidal?, hp] at hrefused
    cases hrefused
  obtain rfl : p = p' := by
    rw [Kernel.Variant.spheroidal?, hp] at hspheroidal
    exact Kernel.Variant.spheroidal.inj (Except.ok.inj hspheroidal)
  have hbuilt := σ.built
  rw [hvariant, haxes, hcell] at hbuilt
  have hcache := htaper.cache (.perAxis [1 / 4, 1 / 3]) (List.cons_ne_nil _ _) Setup.smallAxes.shape
    (.several (Setup.smallAxes.frequency.map .real))
  rw [hbuilt] at hcache
  have hfirst : (σ.cache.named "wprojection").planeValues[0]? = some 0 := by
    show σ.cache.planeValues[0]? = _
    rw [hvalues]
    rfl
  have hb : σ.Bounded := Setup.bounded_of_smallAxes haxes
  obtain ⟨map, hmap, hfit⟩ := σ.fit_grid (by rw [haxes]; decide) (by rw [haxes]; rfl)
    (show distantVisibility.bare = false from rfl) rfl
  obtain ⟨image, sums, _, _, hinvert, -⟩ :=
    Setup.exists_image false true distantVisibility rfl hb σ.describes_new hmap hfit
  rw [hvariant, hinterpolation, haxes] at hinvert
  have himage : (outcome (invert distantVisibility false true)
      (new (.spheroidal p) (some Setup.smallAxes) .linear)).1 = .ok (image, sums) :=
      congrArg Prod.fst hinvert
  have hsame :=
    (htaper.imaging (some Setup.smallAxes) .linear [] nofun).image distantVisibility ⟨rfl, rfl⟩
      false true
  exact ⟨p, _, (image, sums), hspheroidal, hwprojection, hcache, hfirst,
    hzero _ _ _ _ _ _ hcache 0 hfirst, himage, hsame.trans himage⟩

end Gridder

end ApertureSynthesis
