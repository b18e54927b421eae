/-
  Runs of gridders that succeed.

  `Yields x s r s'` says that the action `x` gives the result `r` from the gridder `s` and leaves
  `s'`; `Yields.bind` puts two of them together. A `Setup` is what an initialized gridder has
  besides its stage and counters, with the proof that cache and corrector were built for its axes.
  For each operation of a pass there is one statement: what it needs, what it gives, and in which
  stage it leaves the gridder of a setup.
-/
import Mathlib
import ApertureSynthesis.Proofs.Outcome
import ApertureSynthesis.Proofs.Corrector
import ApertureSynthesis.Proofs.Grid.Image
import ApertureSynthesis.Proofs.Grid.Adjoint
import ApertureSynthesis.Proofs.Gridder.Normalize
import ApertureSynthesis.Gridder.Imaging

namespace ApertureSynthesis

open ApertureSynthesis.Gridder

/-! ## Actions -/

/-- The action succeeds. -/
def Action.Yields {β : Type} (x : Action ℝ β) (s : Gridder ℝ) (r : β) (s' : Gridder ℝ) : Prop :=
  x.run.run s = (.ok r, s')

namespace Action

variable {β γ : Type} {s s' s'' : Gridder ℝ}

theorem Yields.pure (r : β) : Yields (Pure.pure r) s r s := rfl

/-- Two actions, one after the other. -/
theorem Yields.bind {x : Action ℝ β} {f : β → Action ℝ γ} {a : β} {r : γ} (hx : Yields x s a s')
    (hf : Yields (f a) s' r s'') : Yields (x >>= f) s r s'' := by
  unfold Yields at hx hf ⊢
  rw [ExceptT.run_bind, StateT.run_bind, hx]
  exact hf

/-- What remains after the first of two actions that succeed. -/
theorem Yields.of_bind {x : Action ℝ β} {f : β → Action ℝ γ} {a : β} {r : γ} (hx : Yields x s a s')
    (h : Yields (x >>= f) s r s'') : Yields (f a) s' r s'' := by
  unfold Yields at hx h ⊢
  rw [ExceptT.run_bind, StateT.run_bind, hx] at h
  exact h

theorem yields_get : Yields (get : Action ℝ (Gridder ℝ)) s s s := rfl

theorem yields_modify (f : Gridder ℝ → Gridder ℝ) :
    Yields (modify f : Action ℝ PUnit) s ⟨⟩ (f s) := rfl

theorem yields_lift {x : Except (Fault ℝ) β} {r : β} (h : x = .ok r) : Yields (lift x) s r s := by
  rw [h]
  rfl

theorem yields_need {part : Option β} {r : β} (h : part = some r) : Yields (need part) s r s := by
  rw [h]
  rfl

end Action

open ApertureSynthesis.Action

/-! ## Setups -/

namespace Gridder

/-- What an initialized gridder has: a cache that was built for its axes, and the corrector of the
    cache. -/
structure Setup where
  /-- The kind of convolution function. -/
  variant : Kernel.Variant ℝ
  /-- How the kernel is read between lattice points. -/
  interpolation : Interpolation
  /-- Axes of the grid. -/
  axes : Axes ℝ
  /-- Size of the cells. -/
  cell : CellSize ℝ
  /-- The convolution function. -/
  cache : Cache ℝ
  /-- The corrector. -/
  corrector : Corrector ℝ
  /-- The cells are those of the axes. -/
  cellSize_axes : axes.cellSize = .ok cell
  /-- The cache was built for them. -/
  built : variant.buildCache cell axes.shape (.several (axes.frequency.map .real)) = .ok cache
  /-- The corrector is that of the cache, over the axes. -/
  corrected : Corrector.create cache axes.ny axes.nx = .ok corrector

namespace Setup

variable (σ : Setup)

/-- The gridder of a setup in a stage, with counters. -/
noncomputable def inStage (stage : Stage) (statistics : Statistics) : Gridder ℝ :=
  ⟨σ.variant, σ.interpolation, some σ.axes, some σ.cache, some σ.corrector, stage, statistics⟩

/-- A gridder has a setup, or gets it on first use. -/
def Describes (s : Gridder ℝ) : Prop :=
  s.variant = σ.variant ∧ s.interpolation = σ.interpolation ∧ s.axes = some σ.axes ∧
    (s.stage = .unconfigured ∨ s.cache = some σ.cache ∧ s.corrector = some σ.corrector)

/-- The empty grid of a setup. -/
noncomputable def grid : Grid ℝ :=
  Grid.empty σ.axes.nchan σ.axes.npol.toNat σ.axes.ny.toNat σ.axes.nx.toNat σ.cell
    (some σ.axes.frequency)

/-- The axes have lengths that arrays can have. -/
structure Bounded : Prop where
  /-- The polarisations are a number. -/
  npol_nonneg : 0 ≤ σ.axes.npol
  /-- All lengths are numbers of 64 bits. -/
  npol_lt : σ.axes.npol < 2 ^ 63
  ny_lt : σ.axes.ny < 2 ^ 63
  nx_lt : σ.axes.nx < 2 ^ 63

variable {σ} {stage : Stage} (statistics : Statistics)

/-- A corrector has at least one pixel along each axis. -/
theorem length_pos (σ : Setup) : 0 < σ.axes.ny ∧ 0 < σ.axes.nx := Corrector.length_pos σ.corrected

/-! ## Preparation -/

theorem yields_ensurePrepared (hstage : stage ≠ .unconfigured) :
    Yields ensurePrepared (σ.inStage stage statistics) () (σ.inStage stage statistics) := by
  refine yields_get.bind ?_
  rw [if_neg (by exact hstage)]
  exact Yields.pure _

/-- On first use a gridder is prepared for its axes. -/
theorem Describes.yields_ensurePrepared {s : Gridder ℝ} (h : σ.Describes s) :
    ∃ stage, stage ≠ .unconfigured ∧
      Yields ensurePrepared s () (σ.inStage stage s.statistics) := by
  obtain ⟨variant, interpolation, axes, cache, corrector, stage, statistics⟩ := s
  obtain ⟨rfl, rfl, rfl, hstage⟩ := h
  by_cases hun : stage = .unconfigured
  · subst hun
    refine ⟨.initialized, by decide, yields_get.bind ?_⟩
    rw [if_pos rfl]
    refine Yields.bind (yields_get (s := ⟨σ.variant, σ.interpolation, some σ.axes, cache, corrector,
      .unconfigured, statistics⟩)) ?_
    refine (yields_lift σ.cellSize_axes).bind (yields_get.bind ((yields_lift σ.built).bind ?_))
    exact (yields_modify _).bind ((yields_lift σ.corrected).bind (yields_modify _))
  · obtain ⟨rfl, rfl⟩ := hstage.resolve_left hun
    exact ⟨stage, hun, Setup.yields_ensurePrepared statistics hun⟩

/-- What prepares first runs from a gridder as it runs once that is prepared. -/
theorem Describes.prepared {s : Gridder ℝ} (h : σ.Describes s) :
    ∃ stage, stage ≠ .unconfigured ∧
      ∀ {β : Type} (rest : Unit → Action ℝ β) (r : β) (s' : Gridder ℝ),
        Yields (ensurePrepared >>= rest) (σ.inStage stage s.statistics) r s' →
        Yields (ensurePrepared >>= rest) s r s' := by
  obtain ⟨stage, hstage, hfirst⟩ := h.yields_ensurePrepared
  exact ⟨stage, hstage, fun rest r s' hrest =>
    hfirst.bind ((Setup.yields_ensurePrepared _ hstage).of_bind hrest)⟩

/-! ## Passes -/

section Passes

variable {nchan npol : ℕ} {vis : Visibility ℝ nchan npol} {g : Grid ℝ}

theorem ofAxes_eq (hb : σ.Bounded) : Grid.ofAxes σ.axes = .ok σ.grid := by
  obtain ⟨hny, hnx⟩ := σ.length_pos
  refine Grid.ofAxes_eq_ok.2 ⟨?_, σ.cell, σ.cellSize_axes, rfl⟩
  simpa [hny.le, hnx.le, hb.npol_nonneg] using ⟨hb.npol_lt, hb.ny_lt, hb.nx_lt⟩

theorem yields_createGrid (hb : σ.Bounded) (hstage : stage ≠ .unconfigured) :
    Yields createGrid (σ.inStage stage statistics) σ.grid (σ.inStage stage statistics) := by
  refine (yields_ensurePrepared statistics hstage).bind ?_
  exact (yields_get.bind (yields_need rfl)).bind (yields_lift (ofAxes_eq hb))

theorem yields_beginPass (hb : σ.Bounded) (hstage : stage ≠ .unconfigured) :
    Yields beginPass (σ.inStage stage statistics)
      (σ.grid, Tensor.fill [σ.grid.nchan, σ.grid.npol] 0) (σ.inStage .active .zero) := by
  refine (yields_ensurePrepared statistics hstage).bind ((yields_modify _).bind ?_)
  exact (yields_createGrid .zero hb (by decide)).bind (Yields.pure _)

theorem yields_ensurePass (hb : σ.Bounded) (hstage : stage ≠ .unconfigured) :
    ∃ statistics', Yields ensurePass (σ.inStage stage statistics) ()
      (σ.inStage .active statistics') := by
  by_cases hactive : stage = .active
  · subst hactive
    refine ⟨statistics, yields_get.bind ?_⟩
    rw [if_neg (by exact fun h => h rfl)]
    exact Yields.pure _
  · refine ⟨.zero, yields_get.bind ?_⟩
    rw [if_pos (by exact hactive)]
    exact (yields_beginPass statistics hb hstage).bind (Yields.pure _)

theorem shape_grid (hb : σ.Bounded) : σ.grid.shape.map Int.ofNat = σ.axes.shape := by
  obtain ⟨hny, hnx⟩ := σ.length_pos
  have hnpol := hb.npol_nonneg
  simp [grid, Grid.shape, Grid.empty, Axes.shape, hny.le, hnx.le, hnpol]

/-- What has the shape of the axes has that of the grid. -/
theorem eq_shape_grid (hb : σ.Bounded) {shape : List ℕ} (h : shape.map Int.ofNat = σ.axes.shape) :
    shape = σ.grid.shape :=
  List.map_injective_iff.2 (fun _ _ => Int.ofNat.inj) (h.trans (shape_grid hb).symm)

/-- Grids of the shape of the axes pass. -/
theorem yields_checkGrid (hb : σ.Bounded) (hg : Grid.Alike σ.grid g) :
    Yields (checkGrid g) (σ.inStage stage statistics) () (σ.inStage stage statistics) := by
  have hshape : g.shape.map Int.ofNat = σ.axes.shape := by
    rw [← shape_grid hb, Grid.shape, Grid.shape, hg.nchan, hg.npol, hg.ny, hg.nx]
  refine (yields_get.bind (yields_need rfl)).bind ?_
  rw [if_neg (not_not.2 hshape)]
  exact Yields.pure _

/-- In a pass, visibilities are added to a grid of the shape of the axes. -/
theorem yields_accumulate (hb : σ.Bounded) (hg : Grid.Alike σ.grid g) {map : PlaneMap}
    (hmap : σ.variant.planeMap vis (some σ.cache) = .ok map) {how : Grid.Contribution ℝ}
    {sums : Tensor ℝ} {d : Grid.Deposit ℝ}
    (hd : Grid.deposit how vis g σ.cache map (some sums) σ.interpolation = .ok d) :
    Yields (accumulate how vis (some g) (some sums)) (σ.inStage .active statistics) ⟨d, none⟩
      (σ.inStage .active (statistics + d.statistics)) := by
  have hpass : Yields ensurePass (σ.inStage .active statistics) ()
      (σ.inStage .active statistics) := by
    refine yields_get.bind ?_
    rw [if_neg (by exact fun h => h rfl)]
    exact Yields.pure _
  refine (yields_ensurePrepared statistics (by decide)).bind (hpass.bind ?_)
  refine (Yields.pure g).bind ((yields_checkGrid statistics hb hg).bind ?_)
  refine (yields_get.bind (yields_need rfl)).bind (yields_get.bind ((yields_lift hmap).bind ?_))
  refine yields_get.bind ?_
  dsimp only [inStage]
  rw [hd]
  exact (yields_modify _).bind (Yields.pure _)

theorem yields_forward (hb : σ.Bounded) (hstage : stage ≠ .unconfigured)
    (hg : Grid.Alike σ.grid g) {map : PlaneMap}
    (hmap : σ.variant.planeMap vis (some σ.cache) = .ok map) {vis' : Visibility ℝ nchan npol}
    {counted : Statistics}
    (hpredict : Grid.predict vis g σ.cache map σ.interpolation = .ok (vis', counted)) :
    ∃ statistics', Yields (forward vis g) (σ.inStage stage statistics) vis'
      (σ.inStage .active statistics') := by
  obtain ⟨begun, hpass⟩ := yields_ensurePass statistics hb hstage
  refine ⟨begun + counted, (yields_ensurePrepared statistics hstage).bind (hpass.bind ?_)⟩
  refine (yields_checkGrid begun hb hg).bind ((yields_get.bind (yields_need rfl)).bind ?_)
  refine yields_get.bind ((yields_lift hmap).bind (yields_get.bind ?_))
  exact (yields_lift hpredict).bind ((yields_modify _).bind (Yields.pure _))

/-- A model of the shape of the axes is corrected and transformed. -/
theorem yields_modelToGrid (hb : σ.Bounded) (hstage : stage ≠ .unconfigured) {model : Image ℝ}
    (hshape : model.shape = σ.grid.shape) {corrected : Image ℝ}
    (hcorrect : σ.corrector.correct model = .ok corrected) {m : Grid ℝ}
    (hm : σ.grid.ofImage corrected.pixels = .ok m) :
    Yields (modelToGrid model) (σ.inStage stage statistics) m (σ.inStage stage statistics) := by
  refine (yields_ensurePrepared statistics hstage).bind
    ((yields_get.bind (yields_need rfl)).bind ?_)
  rw [if_neg (not_not.2 (by rw [hshape, shape_grid hb]))]
  refine (yields_get.bind (yields_need rfl)).bind ((yields_lift hcorrect).bind ?_)
  exact (yields_createGrid statistics hb hstage).bind (yields_lift hm)

/-- A pass is finalized by the image of its grid, corrected. -/
theorem yields_finalize (hb : σ.Bounded) (hg : Grid.Alike σ.grid g) {t : Tensor (Cplx ℝ)}
    (ht : g.toImage = .ok t) {sums : Tensor ℝ} (hsums : sums.shape = [g.nchan, g.npol])
    (normalize : Bool) {image : Image ℝ} (hcorrect : σ.corrector.correct
      { pixels := .real (passPixels g sums normalize t), coordinates := σ.axes.coordinates } =
        .ok image) :
    Yields (finalize g sums normalize) (σ.inStage .active statistics) image
      (σ.inStage .finalized statistics) := by
  refine yields_get.bind ?_
  rw [if_neg (by exact fun h => h rfl)]
  refine (yields_checkGrid statistics hb hg).bind ((yields_lift ht).bind ?_)
  -- the division is a step of its own, and what follows reads its result
  have hlast : Yields (do
      let axes ← theAxes
      let image ← lift ((← theCorrector).correct
        { pixels := .real (passPixels g sums normalize t), coordinates := axes.coordinates })
      modify fun g => { g with stage := .finalized }
      return image) (σ.inStage .active statistics) image (σ.inStage .finalized statistics) := by
    refine (yields_get.bind (yields_need rfl)).bind ?_
    refine (yields_get.bind (yields_need rfl)).bind ((yields_lift hcorrect).bind ?_)
    exact (yields_modify _).bind (Yields.pure _)
  cases normalize with
  | false => exact (Yields.pure _).bind hlast
  | true => exact (yields_lift (weightTable_eq hsums)).bind ((Yields.pure _).bind hlast)

end Passes

end Setup

end Gridder

end ApertureSynthesis
