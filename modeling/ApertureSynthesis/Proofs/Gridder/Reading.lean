/-
  What a single pass of a gridder computes, apart from what it does to the gridder.

  `Reads x s r` says that the action `x` gives `r` from the gridder `s`, a result or a refusal, and
  leaves the gridder as it is. For a setup, gridding onto an empty grid, transforming a model and
  predicting from a grid are results that the setup alone determines (`Setup.gridded`,
  `Setup.modelGrid`, `Setup.degridded`), and an image, a prediction and a weighting succeed exactly
  if these do (`yields_invert`, `yields_predict`, `yields_weight`). Gridders that are configured
  alike have a common setup, or are refused both (`ConfiguredAlike.exists_setup`).
-/
import Mathlib
import ApertureSynthesis.Proofs.Gridder.Stages

namespace ApertureSynthesis

open ApertureSynthesis.Gridder ApertureSynthesis.Action

/-! ## Actions that leave a gridder as it is -/

namespace Action

section Reads

variable {α : Type} [Scalar α] {β γ δ : Type} {s : Gridder α}

/-- The action gives `r` and leaves the gridder as it is. -/
def Reads (x : Action α β) (s : Gridder α) (r : Except (Fault α) β) : Prop := outcome x s = (r, s)

theorem Reads.of_snd {x : Action α β} (h : (outcome x s).2 = s) : Reads x s (outcome x s).1 :=
  Prod.ext rfl h

theorem Reads.pure (r : β) : Reads (Pure.pure r) s (.ok r) := rfl

theorem Reads.throw (fault : Fault α) : Reads (throw fault : Action α β) s (.error fault) := rfl

theorem reads_get : Reads (get : Action α (Gridder α)) s (.ok s) := rfl

theorem reads_lift (x : Except (Fault α) β) : Reads (lift x) s x := rfl

/-- Two actions, one after the other, of which the first succeeds. -/
theorem Reads.bind_ok {x : Action α β} {f : β → Action α γ} {a : β} {r : Except (Fault α) γ}
    (hx : Reads x s (.ok a)) (hf : Reads (f a) s r) : Reads (x >>= f) s r := outcome_bind_ok hx hf

/-- Two actions, one after the other. -/
theorem Reads.bind {x : Action α β} {f : β → Action α γ} {r : Except (Fault α) β}
    {q : β → Except (Fault α) γ} (hx : Reads x s r) (hf : ∀ a, Reads (f a) s (q a)) :
    Reads (x >>= f) s (r >>= q) := by
  cases r with
  | error fault => exact outcome_bind_error hx
  | ok a => exact hx.bind_ok (hf a)

theorem Reads.mapM {f : δ → Action α β} {q : δ → Except (Fault α) β} (h : ∀ v, Reads (f v) s (q v))
    (vs : List δ) : Reads (vs.mapM f) s (vs.mapM q) := by
  induction vs with
  | nil => exact Reads.pure []
  | cons v vs ih =>
    rw [List.mapM_cons, List.mapM_cons]
    exact (h v).bind fun a => ih.bind fun as => Reads.pure (a :: as)

end Reads

variable {β γ : Type} {s s' s'' : Gridder ℝ}

theorem Reads.yields {x : Action ℝ β} {r : Except (Fault ℝ) β} {a : β} (h : Reads x s r) :
    Yields x s a s' ↔ r = .ok a ∧ s' = s := by
  show outcome x s = (.ok a, s') ↔ _
  rw [show outcome x s = (r, s) from h, Prod.mk.injEq]
  exact and_congr_right' eq_comm

/-- Two actions, of which the first succeeds, succeed if the second does. -/
theorem Yields.bind_iff {x : Action ℝ β} {f : β → Action ℝ γ} {a : β} {r : γ}
    (hx : Yields x s a s') :
    Yields (x >>= f) s r s'' ↔ Yields (f a) s' r s'' := ⟨hx.of_bind, hx.bind⟩

/-- Nothing follows an action that is refused. -/
theorem not_yields_bind {x : Action ℝ β} {f : β → Action ℝ γ} {fault : Fault ℝ}
    (hx : outcome x s = (.error fault, s')) (r : γ) : ¬ Yields (x >>= f) s r s'' := by
  intro h
  have hout : outcome (x >>= f) s = (.ok r, s'') := h
  rw [outcome_bind_error hx] at hout
  cases hout

/-- What is done with the result of an action at the end. -/
theorem yields_bind_pure {x : Action ℝ β} {f : β → γ} {r : γ} :
    Yields (x >>= fun a => pure (f a)) s r s' ↔ ∃ a, Yields x s a s' ∧ r = f a := by
  rcases hout : outcome x s with ⟨fault | a, t⟩
  · refine ⟨fun h => absurd h (not_yields_bind hout r), ?_⟩
    rintro ⟨a, ha, -⟩
    cases hout.symm.trans ha
  · have hx : Yields x s a t := hout
    rw [hx.bind_iff]
    constructor
    · intro h
      cases h
      exact ⟨a, hout, rfl⟩
    · rintro ⟨a', ha', rfl⟩
      cases hout.symm.trans ha'
      rfl

end Action

namespace Gridder

/-! ## Gridders that are configured alike -/

/-- Gridders with one kind of convolution function, one interpolation and the same axes. -/
structure ConfiguredAlike (s t : Gridder ℝ) : Prop where
  /-- The kind of convolution function is the same, -/
  variant : t.variant = s.variant
  /-- and so are the interpolation -/
  interpolation : t.interpolation = s.interpolation
  /-- and the axes. -/
  axes : t.axes = s.axes

theorem ConfiguredAlike.refl (s : Gridder ℝ) : ConfiguredAlike s s := ⟨rfl, rfl, rfl⟩

theorem ConfiguredAlike.symm {s t : Gridder ℝ} (h : ConfiguredAlike s t) : ConfiguredAlike t s :=
  ⟨h.variant.symm, h.interpolation.symm, h.axes.symm⟩

/-- What is built for the axes of a gridder is what others that are configured alike have, or
    get. -/
theorem ConfiguredAlike.exists_setup_of_built {s t : Gridder ℝ} (h : ConfiguredAlike s t)
    (hs : s.BuiltForAxes) (ht : t.Sound) : ∃ σ : Setup, σ.Describes s ∧ σ.Describes t := by
  obtain ⟨axes, cell, cache, corrector, haxes, hcache, hcorrector, hcell, hbuilt, hcorrected⟩ := hs
  refine ⟨⟨s.variant, s.interpolation, axes, cell, cache, corrector, hcell, hbuilt, hcorrected⟩,
    ⟨rfl, rfl, haxes, .inr ⟨hcache, hcorrector⟩⟩,
    ⟨h.variant, h.interpolation, h.axes.trans haxes, ?_⟩⟩
  by_cases hstage : t.stage = .unconfigured
  · exact .inl hstage
  · obtain ⟨axes', cell', cache', corrector', haxes', hcache', hcorrector', hcell', hbuilt',
      hcorrected'⟩ :=
      ht hstage
    obtain rfl : axes = axes' := Option.some.inj (haxes.symm.trans (h.axes.symm.trans haxes'))
    obtain rfl : cell = cell' := Except.ok.inj (hcell.symm.trans hcell')
    rw [h.variant] at hbuilt'
    obtain rfl : cache = cache' := Except.ok.inj (hbuilt.symm.trans hbuilt')
    obtain rfl : corrector = corrector' := Except.ok.inj (hcorrected.symm.trans hcorrected')
    exact .inr ⟨hcache', hcorrector'⟩

/-- Gridders in the first stage, one of which can be prepared. -/
theorem ConfiguredAlike.exists_setup_of_prepared {s t s' : Gridder ℝ} (h : ConfiguredAlike s t)
    (hs : s.stage = .unconfigured) (ht : t.stage = .unconfigured)
    (hprepared : outcome ensurePrepared s = (.ok (), s')) :
    ∃ σ : Setup, σ.Describes s ∧ σ.Describes t := by
  rw [ensurePrepared_of_unconfigured hs] at hprepared
  obtain ⟨axes, cell, cache, corrector, haxes, hcell, hbuilt, hcorrected, -⟩ | ⟨fault, cache,
    herror⟩ :=
    prepare_outcome none s
  · exact ⟨⟨s.variant, s.interpolation, axes, cell, cache, corrector, hcell, hbuilt, hcorrected⟩,
      ⟨rfl, rfl, haxes, .inl hs⟩, ⟨h.variant, h.interpolation, h.axes.trans haxes, .inl ht⟩⟩
  · rw [herror] at hprepared
    cases hprepared

/-- Gridders that are configured alike have a common setup, or are refused both on first use. -/
theorem ConfiguredAlike.exists_setup {s t : Gridder ℝ} (h : ConfiguredAlike s t) (hs : s.Sound)
    (ht : t.Sound) :
    (∃ σ : Setup, σ.Describes s ∧ σ.Describes t) ∨
      (∃ fault s', outcome ensurePrepared s = (.error fault, s')) ∧
        ∃ fault t', outcome ensurePrepared t = (.error fault, t') := by
  by_cases hstage : s.stage = .unconfigured
  · by_cases hstage' : t.stage = .unconfigured
    · rcases hout : outcome ensurePrepared s with ⟨fault | _, s'⟩
      · rcases hout' : outcome ensurePrepared t with ⟨fault' | _, t'⟩
        · exact .inr ⟨⟨fault, s', rfl⟩, fault', t', rfl⟩
        · obtain ⟨σ, hσt, hσs⟩ := h.symm.exists_setup_of_prepared hstage' hstage hout'
          exact .inl ⟨σ, hσs, hσt⟩
      · exact .inl (h.exists_setup_of_prepared hstage hstage' hout)
    · obtain ⟨σ, hσt, hσs⟩ := h.symm.exists_setup_of_built (ht hstage') hs
      exact .inl ⟨σ, hσs, hσt⟩
  · exact .inl (h.exists_setup_of_built (hs hstage) ht)

/-! ## What a setup determines -/

namespace Setup

variable {nchan npol : ℕ} {σ : Setup} {stage : Stage} {statistics : Statistics}

/-- Visibilities gridded onto an empty grid. -/
noncomputable def gridded (σ : Setup) (how : Grid.Contribution ℝ) (vis : Visibility ℝ nchan npol) :
    Except (Fault ℝ) (Grid.Deposit ℝ) := do
  let grid ← Grid.ofAxes σ.axes
  let map ← σ.variant.planeMap vis (some σ.cache)
  match Grid.deposit how vis grid σ.cache map none σ.interpolation with
  | .ok d => return d
  | .error interrupted => throw interrupted.fault

/-- The grid of a model. -/
noncomputable def modelGrid (σ : Setup) (model : Image ℝ) : Except (Fault ℝ) (Grid ℝ) :=
  if model.shape.map Int.ofNat ≠ σ.axes.shape then .error (.modelShape model.shape σ.axes.shape)
  else do
    let corrected ← σ.corrector.correct model
    let grid ← Grid.ofAxes σ.axes
    grid.ofImage corrected.pixels

/-- Visibilities predicted from a grid. -/
noncomputable def degridded (σ : Setup) (grid : Grid ℝ) (vis : Visibility ℝ nchan npol) :
    Except (Fault ℝ) (Visibility ℝ nchan npol) := do
  let map ← σ.variant.planeMap vis (some σ.cache)
  (Grid.predict vis grid σ.cache map σ.interpolation).map Prod.fst

theorem gridded_eq_ok {how : Grid.Contribution ℝ} {vis : Visibility ℝ nchan npol}
    {d : Grid.Deposit ℝ} :
    σ.gridded how vis = .ok d ↔ ∃ grid, Grid.ofAxes σ.axes = .ok grid ∧
      ∃ map, σ.variant.planeMap vis (some σ.cache) = .ok map ∧
        Grid.deposit how vis grid σ.cache map none σ.interpolation = .ok d := by
  unfold gridded
  simp only [bind_eq_ok]
  refine exists_congr fun grid => and_congr_right fun _ => exists_congr fun map =>
    and_congr_right fun _ => ?_
  cases Grid.deposit how vis grid σ.cache map none σ.interpolation with
  | error interrupted => simp [throw, throwThe, MonadExceptOf.throw]
  | ok d' => simp [pure, Except.pure]

/-- The axes have lengths that arrays can have, or there is no grid for them. -/
theorem ofAxes_cases (σ : Setup) :
    σ.Bounded ∧ Grid.ofAxes σ.axes = .ok σ.grid ∨ ∃ fault, Grid.ofAxes σ.axes = .error fault := by
  cases hgrid : Grid.ofAxes σ.axes with
  | error fault => exact .inr ⟨fault, rfl⟩
  | ok grid =>
    obtain ⟨hlengths, -⟩ := Grid.ofAxes_eq_ok.1 hgrid
    simp only [List.forall_mem_cons] at hlengths
    obtain ⟨⟨hnonneg, hnpol⟩, ⟨-, hny⟩, ⟨-, hnx⟩, -⟩ := hlengths
    have hb : σ.Bounded := ⟨hnonneg, hnpol, hny, hnx⟩
    exact .inl ⟨hb, by rw [← hgrid, ofAxes_eq hb]⟩

theorem gridded_eq_ok_of_bounded (hb : σ.Bounded) {how : Grid.Contribution ℝ}
    {vis : Visibility ℝ nchan npol} {d : Grid.Deposit ℝ} :
    σ.gridded how vis = .ok d ↔ ∃ map, σ.variant.planeMap vis (some σ.cache) = .ok map ∧
      Grid.deposit how vis σ.grid σ.cache map none σ.interpolation = .ok d := by
  simp only [gridded_eq_ok, ofAxes_eq hb, Except.ok.injEq, exists_eq_left']

theorem bounded_of_gridded {how : Grid.Contribution ℝ} {vis : Visibility ℝ nchan npol}
    {d : Grid.Deposit ℝ} (h : σ.gridded how vis = .ok d) : σ.Bounded := by
  obtain ⟨grid, hgrid, -⟩ := gridded_eq_ok.1 h
  obtain ⟨hb, -⟩ | ⟨fault, herror⟩ := σ.ofAxes_cases
  · exact hb
  · rw [herror] at hgrid
    cases hgrid

/-- The grid of a model is like the empty grid. -/
theorem alike_modelGrid {model : Image ℝ} {grid : Grid ℝ} (h : σ.modelGrid model = .ok grid) :
    σ.Bounded ∧ Grid.Alike σ.grid grid := by
  unfold modelGrid at h
  split at h
  · cases h
  · obtain ⟨corrected, -, h⟩ := exists_of_bind h
    obtain ⟨empty, hempty, h⟩ := exists_of_bind h
    obtain ⟨hb, hgrid⟩ | ⟨fault, herror⟩ := σ.ofAxes_cases
    · obtain rfl : σ.grid = empty := Except.ok.inj (hgrid.symm.trans hempty)
      obtain ⟨hny, hnx⟩ := σ.length_pos
      have hshape : corrected.pixels.shape = σ.grid.shape := by
        by_contra hne
        rw [Grid.ofImage, if_pos hne] at h
        cases h
      obtain ⟨m, hm, halike, -⟩ := σ.grid.exists_ofImage (show 0 < σ.axes.ny.toNat by omega)
        (show 0 < σ.axes.nx.toNat by omega) hshape
      obtain rfl : m = grid := Except.ok.inj (hm.symm.trans h)
      exact ⟨hb, halike⟩
    · rw [herror] at hempty
      cases hempty

/-! ## Single passes -/

/-- What prepares first does from a gridder what it does once that is prepared. -/
theorem Describes.outcome_prepared {s : Gridder ℝ} (h : σ.Describes s) :
    ∃ stage, stage ≠ .unconfigured ∧ Yields ensurePrepared s () (σ.inStage stage s.statistics) ∧
      ∀ {β : Type} (rest : Unit → Action ℝ β), outcome (ensurePrepared >>= rest) s =
        outcome (ensurePrepared >>= rest) (σ.inStage stage s.statistics) := by
  obtain ⟨stage, hstage, hprepared⟩ := h.yields_ensurePrepared
  exact ⟨stage, hstage, hprepared, fun rest => (outcome_bind_ok hprepared rfl).trans
    (outcome_bind_ok (Setup.yields_ensurePrepared _ hstage) rfl).symm⟩

theorem reads_theAxes : Reads theAxes (σ.inStage stage statistics) (.ok σ.axes) := rfl

theorem reads_theCache : Reads theCache (σ.inStage stage statistics) (.ok σ.cache) := rfl

theorem reads_theCorrector : Reads theCorrector (σ.inStage stage statistics) (.ok σ.corrector) :=
  rfl

theorem reads_createGrid (hstage : stage ≠ .unconfigured) :
    Reads createGrid (σ.inStage stage statistics) (Grid.ofAxes σ.axes) :=
  Reads.bind_ok (Setup.yields_ensurePrepared statistics hstage)
    (reads_theAxes.bind_ok (reads_lift _))

theorem reads_modelToGrid (hstage : stage ≠ .unconfigured) (model : Image ℝ) :
    Reads (modelToGrid model) (σ.inStage stage statistics) (σ.modelGrid model) := by
  refine Reads.bind_ok (Setup.yields_ensurePrepared statistics hstage) (reads_theAxes.bind_ok ?_)
  unfold modelGrid
  split
  · exact Reads.throw _
  · exact reads_theCorrector.bind_ok ((reads_lift _).bind fun corrected =>
      (reads_createGrid hstage).bind fun grid => reads_lift _)

section Passes

variable {vis : Visibility ℝ nchan npol} {s t : Gridder ℝ}

/-- Gridding in a pass, from a fresh grid or one that is given empty. What is counted is what the
    pass had counted and what is counted now; a refusal leaves the pass open. -/
theorem outcome_accumulate (how : Grid.Contribution ℝ) (vis : Visibility ℝ nchan npol)
    (hb : σ.Bounded) {begun : Statistics}
    (hprepared : Yields ensurePrepared s () (σ.inStage stage statistics))
    (hpass : Yields ensurePass (σ.inStage stage statistics) () (σ.inStage .active begun))
    {grid : Option (Grid ℝ)} (hgrid : grid = none ∨ grid = some σ.grid) {sums : Option (Tensor ℝ)}
    (hsums : sums = none ∨ sums = some (Tensor.fill [σ.grid.nchan, σ.grid.npol] 0)) :
    outcome (accumulate how vis grid sums >>= complete) s =
      match σ.gridded how vis with
      | .ok d => (.ok d, σ.inStage .active (begun + d.statistics))
      | .error fault => (.error fault, σ.inStage .active begun) := by
  -- a fresh grid is the empty one
  have hsame : outcome (accumulate how vis grid sums) s =
      outcome (accumulate how vis (some σ.grid) sums) s := by
    rcases hgrid with rfl | rfl
    · have hcreate : Reads createGrid (σ.inStage .active begun) (Grid.ofAxes σ.axes) :=
        reads_createGrid Stage.noConfusion
      rw [ofAxes_eq hb] at hcreate
      refine (outcome_bind_ok hprepared (outcome_bind_ok hpass (outcome_bind_ok hcreate rfl))).trans
        ?_
      exact (outcome_bind_ok hprepared
        (outcome_bind_ok hpass (outcome_bind_ok (Reads.pure σ.grid) rfl))).symm
    · rfl
  have halike := Grid.Alike.refl σ.grid
  have hdeposit : ∀ map, Grid.deposit how vis σ.grid σ.cache map sums σ.interpolation =
      Grid.deposit how vis σ.grid σ.cache map none σ.interpolation := by
    rcases hsums with rfl | rfl
    · exact fun _ => rfl
    · exact fun _ => rfl
  unfold gridded
  rw [ofAxes_eq hb]
  cases hmap : σ.variant.planeMap vis (some σ.cache) with
  | error fault =>
    refine outcome_bind_error (hsame.trans (outcome_bind_ok hprepared (outcome_bind_ok hpass ?_)))
    refine outcome_bind_ok (Reads.pure σ.grid)
      (outcome_bind_ok (yields_checkGrid begun hb halike) ?_)
    refine outcome_bind_ok reads_theCache (outcome_bind_ok reads_get ?_)
    exact outcome_bind_error (outcome_lift hmap _)
  | ok map =>
    have hreached := hsame.trans (outcome_bind_ok hprepared (outcome_bind_ok hpass
      (outcome_bind_ok (Reads.pure σ.grid) (outcome_bind_ok (yields_checkGrid begun hb halike)
        (outcome_bind_ok reads_theCache (outcome_bind_ok reads_get
          (outcome_bind_ok (outcome_lift hmap _) (outcome_bind_ok reads_get rfl))))))))
    dsimp only [inStage] at hreached
    rw [hdeposit] at hreached
    show _ = match (match Grid.deposit how vis σ.grid σ.cache map none σ.interpolation with
      | .ok d => .ok d
      | .error interrupted => .error interrupted.fault : Except (Fault ℝ) (Grid.Deposit ℝ)) with
      | .ok d => _
      | .error fault => _
    cases hd : Grid.deposit how vis σ.grid σ.cache map none σ.interpolation with
    | error interrupted =>
      rw [hd] at hreached
      exact outcome_bind_ok hreached rfl
    | ok d =>
      rw [hd] at hreached
      exact outcome_bind_ok hreached rfl

/-- Nothing is gridded or imaged without axes that arrays can have. -/
theorem outcome_beginPass_error (hs : σ.Describes s) {fault : Fault ℝ}
    (herror : Grid.ofAxes σ.axes = .error fault) :
    ∃ s', outcome beginPass s = (.error fault, s') := by
  obtain ⟨stage, hstage, hprepared⟩ := hs.yields_ensurePrepared
  have hcreate : Reads createGrid (σ.inStage .active .zero) (Grid.ofAxes σ.axes) :=
    reads_createGrid Stage.noConfusion
  rw [herror] at hcreate
  exact ⟨_,
    outcome_bind_ok hprepared (outcome_bind_ok (outcome_modify _ _) (outcome_bind_error hcreate))⟩

/-- A pass that is begun is refused its grid, and so is one that is open. -/
theorem outcome_accumulate_error (how : Grid.Contribution ℝ) (vis : Visibility ℝ nchan npol)
    (hs : σ.Describes s) {fault : Fault ℝ} (herror : Grid.ofAxes σ.axes = .error fault) :
    ∃ s', outcome (accumulate how vis none none) s = (.error fault, s') := by
  obtain ⟨stage, hstage, hprepared⟩ := hs.yields_ensurePrepared
  by_cases hactive : stage = .active
  · subst hactive
    have hpass : Yields ensurePass (σ.inStage .active s.statistics) ()
        (σ.inStage .active s.statistics) := rfl
    have hcreate : Reads createGrid (σ.inStage .active s.statistics) (Grid.ofAxes σ.axes) :=
      reads_createGrid hstage
    rw [herror] at hcreate
    exact ⟨_, outcome_bind_ok hprepared (outcome_bind_ok hpass (outcome_bind_error hcreate))⟩
  · have hdescribes : σ.Describes (σ.inStage stage s.statistics) := ⟨rfl, rfl, rfl, .inr ⟨rfl, rfl⟩⟩
    obtain ⟨s', hbegin⟩ := outcome_beginPass_error hdescribes herror
    have hpass : outcome ensurePass (σ.inStage stage s.statistics) = (.error fault, s') := by
      refine outcome_bind_ok (outcome_get _) ?_
      rw [if_pos (by exact hactive)]
      exact outcome_bind_error hbegin
    exact ⟨s', outcome_bind_ok hprepared (outcome_bind_error hpass)⟩

/-- An image is made where the visibilities can be gridded and their grid finalized. -/
theorem yields_invert (hs : σ.Describes s) {psf normalize : Bool} {image : Image ℝ}
    {sums : Tensor ℝ} :
    Yields (invert vis psf normalize) s (image, sums) t ↔
      ∃ d, σ.gridded .visibilities (if psf then vis.unit else vis) = .ok d ∧ sums = d.sumWeights ∧
        Yields (finalize d.grid d.sumWeights normalize)
          (σ.inStage .active d.statistics) image t := by
  obtain ⟨hb, -⟩ | ⟨fault, herror⟩ := σ.ofAxes_cases
  · have hbegin : Yields beginPass s (σ.grid, Tensor.fill [σ.grid.nchan, σ.grid.npol] 0)
        (σ.inStage .active .zero) := by
      obtain ⟨stage, hstage, hfirst⟩ := hs.prepared
      exact hfirst _ _ _ (yields_beginPass s.statistics hb hstage)
    have hpass : Yields ensurePass (σ.inStage .active .zero) () (σ.inStage .active .zero) := rfl
    have hgrid := outcome_accumulate .visibilities (if psf then vis.unit else vis) hb
      (Setup.yields_ensurePrepared .zero Stage.noConfusion) hpass (.inr rfl) (.inr rfl)
    refine hbegin.bind_iff.trans ?_
    dsimp only
    rw [← bind_assoc]
    cases hd : σ.gridded .visibilities (if psf then vis.unit else vis) with
    | error fault =>
      rw [hd] at hgrid
      refine ⟨fun h => absurd h (not_yields_bind hgrid _), ?_⟩
      rintro ⟨d, herror, -⟩
      cases herror
    | ok d =>
      rw [hd] at hgrid
      refine (Yields.bind_iff hgrid).trans (yields_bind_pure.trans ?_)
      rw [Statistics.zero_add]
      constructor
      · rintro ⟨image', himage, heq⟩
        cases heq
        exact ⟨d, rfl, rfl, himage⟩
      · rintro ⟨d', hd', rfl, himage⟩
        cases hd'
        exact ⟨image, himage, rfl⟩
  · obtain ⟨s', hbegin⟩ := outcome_beginPass_error hs herror
    refine ⟨fun h => absurd h (not_yields_bind hbegin _), ?_⟩
    rintro ⟨d, hd, -⟩
    obtain ⟨grid, hgrid, -⟩ := gridded_eq_ok.1 hd
    rw [herror] at hgrid
    cases hgrid

/-- Prediction from a grid of the shape of the axes. -/
theorem yields_forward_iff (hb : σ.Bounded) (hstage : stage ≠ .unconfigured) {grid : Grid ℝ}
    (hgrid : Grid.Alike σ.grid grid) {vis' : Visibility ℝ nchan npol} :
    (∃ t, Yields (forward vis grid) (σ.inStage stage statistics) vis' t) ↔
      σ.degridded grid vis = .ok vis' := by
  obtain ⟨begun, hpass⟩ := yields_ensurePass statistics hb hstage
  have hprepared := Setup.yields_ensurePrepared (σ := σ) statistics hstage
  have hfit : Yields (checkGrid grid) (σ.inStage .active begun) () (σ.inStage .active begun) :=
    yields_checkGrid begun hb hgrid
  unfold degridded
  cases hmap : σ.variant.planeMap vis (some σ.cache) with
  | error fault =>
    have hrefused : outcome (forward vis grid) (σ.inStage stage statistics) =
        (.error fault, σ.inStage .active begun) := by
      refine outcome_bind_ok hprepared (outcome_bind_ok hpass (outcome_bind_ok hfit ?_))
      exact outcome_bind_ok reads_theCache (outcome_bind_ok reads_get
        (outcome_bind_error (outcome_lift hmap _)))
    refine ⟨fun ⟨t, h⟩ => ?_, fun h => by cases h⟩
    cases hrefused.symm.trans h
  | ok map =>
    have hvalue : ∀ {r}, Grid.predict vis grid σ.cache map σ.interpolation = r → (do
        let map ← Except.ok map
        (Grid.predict vis grid σ.cache map σ.interpolation).map Prod.fst) = r.map Prod.fst :=
      fun h => congrArg (Except.map Prod.fst) h
    cases hpredict : Grid.predict vis grid σ.cache map σ.interpolation with
    | error fault =>
      have hrefused : outcome (forward vis grid) (σ.inStage stage statistics) =
          (.error fault, σ.inStage .active begun) := by
        refine outcome_bind_ok hprepared (outcome_bind_ok hpass (outcome_bind_ok hfit ?_))
        refine outcome_bind_ok reads_theCache (outcome_bind_ok reads_get ?_)
        exact outcome_bind_ok (outcome_lift hmap _) (outcome_bind_ok reads_get
          (outcome_bind_error (outcome_lift hpredict _)))
      refine ⟨fun ⟨t, h⟩ => ?_, fun h => ?_⟩
      · cases hrefused.symm.trans h
      · cases (hvalue hpredict).symm.trans h
    | ok predicted =>
      obtain ⟨vis'', counted⟩ := predicted
      obtain ⟨after, hforward⟩ := yields_forward statistics hb hstage hgrid hmap hpredict
      constructor
      · rintro ⟨t, h⟩
        cases hforward.symm.trans h
        exact hvalue hpredict
      · intro h
        cases (hvalue hpredict).symm.trans h
        exact ⟨_, hforward⟩

/-- Visibilities are predicted where the model has a grid and they can be predicted from it. -/
theorem yields_predict (hs : σ.Describes s) {model : Image ℝ} {vis' : Visibility ℝ nchan npol} :
    (∃ t, Yields (predict vis model) s vis' t) ↔
      ∃ grid, σ.modelGrid model = .ok grid ∧ σ.degridded grid vis = .ok vis' := by
  obtain ⟨stage, hstage, -, hsame⟩ := hs.outcome_prepared
  have hmodel : outcome (modelToGrid model) s = (σ.modelGrid model, σ.inStage stage s.statistics) :=
    (hsame _).trans (reads_modelToGrid hstage model)
  cases hgrid : σ.modelGrid model with
  | error fault =>
    rw [hgrid] at hmodel
    refine ⟨fun ⟨t, h⟩ => absurd h (not_yields_bind hmodel _), ?_⟩
    rintro ⟨grid, herror, -⟩
    cases herror
  | ok grid =>
    rw [hgrid] at hmodel
    obtain ⟨hb, halike⟩ := alike_modelGrid hgrid
    have hrest : (∃ t, Yields (predict vis model) s vis' t) ↔
        ∃ t, Yields (forward vis grid) (σ.inStage stage s.statistics) vis' t :=
      exists_congr fun t => Yields.bind_iff hmodel
    rw [hrest, yields_forward_iff hb hstage halike]
    simp only [Except.ok.injEq, exists_eq_left']

/-- Visibilities are weighted where their weights can be gridded and divided by the density. -/
theorem yields_weight (hs : σ.Describes s) {vis' : Visibility ℝ nchan npol} :
    (∃ t, Yields (weight vis .uniform) s vis' t) ↔
      ∃ d, σ.gridded .weights vis = .ok d ∧ Grid.reweight vis d.grid σ.cache = .ok vis' := by
  obtain ⟨stage, hstage, hprepared⟩ := hs.yields_ensurePrepared
  have hsplit : weight vis .uniform =
      (accumulate .weights vis none none >>= complete) >>= fun d => theCache >>= fun cache =>
        lift (Grid.reweight vis d.grid cache) := (bind_assoc _ _ _).symm
  obtain ⟨hb, -⟩ | ⟨fault, herror⟩ := σ.ofAxes_cases
  · obtain ⟨begun, hpass⟩ := yields_ensurePass s.statistics hb hstage
    have hgrid := outcome_accumulate .weights vis hb hprepared hpass (.inl rfl) (.inl rfl)
    rw [hsplit]
    cases hd : σ.gridded .weights vis with
    | error fault =>
      rw [hd] at hgrid
      refine ⟨fun ⟨t, h⟩ => absurd h (not_yields_bind hgrid _), ?_⟩
      rintro ⟨d, herror, -⟩
      cases herror
    | ok d =>
      rw [hd] at hgrid
      have hread : Reads (theCache >>= fun cache => lift (Grid.reweight vis d.grid cache))
          (σ.inStage .active (begun + d.statistics)) (Grid.reweight vis d.grid σ.cache) :=
        reads_theCache.bind_ok (reads_lift _)
      have hrest : ∀ t, Yields ((accumulate .weights vis none none >>= complete) >>= fun d =>
          theCache >>= fun cache => lift (Grid.reweight vis d.grid cache)) s vis' t ↔
          Grid.reweight vis d.grid σ.cache = .ok vis' ∧
            t = σ.inStage .active (begun + d.statistics) :=
        fun t => (Yields.bind_iff hgrid).trans hread.yields
      simp only [hrest, exists_and_left, exists_eq, and_true, Except.ok.injEq, exists_eq_left']
  · obtain ⟨s', hrefused⟩ := outcome_accumulate_error .weights vis hs herror
    refine ⟨fun ⟨t, h⟩ => absurd h (not_yields_bind hrefused _), ?_⟩
    rintro ⟨d, hd, -⟩
    obtain ⟨grid, hgrid, -⟩ := gridded_eq_ok.1 hd
    rw [herror] at hgrid
    cases hgrid

end Passes

end Setup

/-- The counters of a pass are still there when it has been finalized. -/
theorem statistics_finalize {s t : Gridder ℝ} {grid : Grid ℝ} {sums : Tensor ℝ} {normalize : Bool}
    {image : Image ℝ} (h : Yields (finalize grid sums normalize) s image t) :
    t.statistics = s.statistics := by
  have hout : outcome (finalize grid sums normalize) s = (.ok image, t) := h
  have hend := snd_finalize grid sums normalize s
  rw [hout] at hend
  rcases hend with rfl | ⟨-, rfl⟩
  · rfl
  · rfl

end Gridder

end ApertureSynthesis
