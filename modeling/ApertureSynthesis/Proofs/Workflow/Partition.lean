/-
  Partitioned workflows and single passes agree, in exact arithmetic.

  For a setup, the slices of visibilities are gridded to deposits that add up to that of the whole
  (`gridded_slices`), in any order, and prediction from a grid treats rows one by one
  (`rowByRow_degridded`). A workflow prepares its gridder and then only reads it until all grids are
  summed (`reads_gridParts`, `reads_shared`); work that is deferred is the work done at once
  (`execute_value`, `mapM_execute_value`). So for gridders that are configured alike a workflow over
  slices succeeds exactly if the single pass does, with the same results (`partitioned_iff_whole`).
-/
import Mathlib
import ApertureSynthesis.Proofs.Gridder.Reading
import ApertureSynthesis.Proofs.Workflow.Slices
import ApertureSynthesis.Workflow.Partition

namespace ApertureSynthesis

open ApertureSynthesis.Gridder ApertureSynthesis.Action

variable {nchan npol : ℕ}

/-! ## Slices for a setup -/

namespace Workflow

variable {σ : Setup} {vis : Visibility ℝ nchan npol}

theorem cells_grid (σ : Setup) : σ.grid.cells = Tensor.fill σ.grid.cells.shape 0 := rfl

theorem on_gridded (hb : σ.Bounded) {how : Grid.Contribution ℝ} {d : Grid.Deposit ℝ}
    (h : σ.gridded how vis = .ok d) : d.On σ.grid := by
  obtain ⟨map, -, hd⟩ := (Setup.gridded_eq_ok_of_bounded hb).1 h
  exact on_deposit hd

/-- All rows can be gridded where those of each part can, and give the sum. -/
theorem gridded_append (hb : σ.Bounded) (vis : Visibility ℝ nchan npol) {how : Grid.Contribution ℝ}
    (rows₁ rows₂ : List (Row ℝ nchan npol)) (d : Grid.Deposit ℝ) :
    σ.gridded how (vis.withRows (rows₁ ++ rows₂)) = .ok d ↔
      ∃ d₁ d₂, σ.gridded how (vis.withRows rows₁) = .ok d₁ ∧
        σ.gridded how (vis.withRows rows₂) = .ok d₂ ∧ d = add d₁ d₂ := by
  have hmaps := Plane.planeMap_append vis rows₁ rows₂ σ.variant (some σ.cache)
  simp only [Setup.gridded_eq_ok_of_bounded hb]
  constructor
  · rintro ⟨map, hmap, hd⟩
    obtain ⟨map₁, map₂, hmap₁, hmap₂, happends⟩ := hmaps.split hmap
    obtain ⟨d₁, d₂, hd₁, hd₂, rfl⟩ := (deposit_append (cells_grid σ) happends).1 hd
    exact ⟨d₁, d₂, ⟨map₁, hmap₁, hd₁⟩, ⟨map₂, hmap₂, hd₂⟩, rfl⟩
  · rintro ⟨d₁, d₂, ⟨map₁, hmap₁, hd₁⟩, ⟨map₂, hmap₂, hd₂⟩, rfl⟩
    obtain ⟨map, hmap, happends⟩ := hmaps.join hmap₁ hmap₂
    exact ⟨map, hmap, (deposit_append (cells_grid σ) happends).2 ⟨d₁, d₂, hd₁, hd₂, rfl⟩⟩

/-- What parts are gridded to is on the grid of the setup. -/
theorem on_mapM_gridded (hb : σ.Bounded) {how : Grid.Contribution ℝ}
    {parts : List (Visibility ℝ nchan npol)} {ds : List (Grid.Deposit ℝ)}
    (h : parts.mapM (σ.gridded how) = .ok ds) : ∀ d ∈ ds, d.On σ.grid := by
  intro d hd
  obtain ⟨part, -, hpart⟩ := exists_of_mem_mapM h hd
  exact on_gridded hb hpart

/-- The sum of deposits on one grid, by a tree that cuts lists in two. -/
theorem givenTreeSum_two {g : Grid ℝ} {ds : List (Grid.Deposit ℝ)} (hds : ∀ d ∈ ds, d.On g) :
    givenTreeSum (.whole 2) ds = sum ds := tree_eq_sum _ ds fun d hd => (hds d hd).shaped

/-- Rows in several lists are gridded to the sum of what each list is gridded to. -/
theorem gridded_flatten (hb : σ.Bounded) (vis : Visibility ℝ nchan npol) (how : Grid.Contribution ℝ)
    {rowss : List (List (Row ℝ nchan npol))} (hne : rowss ≠ []) (d : Grid.Deposit ℝ) :
    σ.gridded how (vis.withRows rowss.flatten) = .ok d ↔
      ∃ ds, (rowss.map vis.withRows).mapM (σ.gridded how) = .ok ds ∧ sum ds = .ok d := by
  rw [List.mapM_map]
  refine mapM_flatten (fun rows => σ.gridded how (vis.withRows rows)) add sum
    (gridded_append hb vis) (fun _ _ _ => rfl) (fun rows rowss a bs ha hbs hne => ?_) hne d
  obtain ⟨b, hsum⟩ := sum_eq_ok hne
  have hon : ∀ d ∈ bs, d.On σ.grid := by
    rw [← Function.comp_def (σ.gridded how), ← List.mapM_map] at hbs
    exact on_mapM_gridded hb hbs
  exact ⟨b, hsum, sum_cons (on_gridded hb ha).shaped (fun d hd => (hon d hd).shaped) hsum⟩

/-- Parts that have a sum have been gridded, so there is a grid for the axes. -/
theorem bounded_of_sum {how : Grid.Contribution ℝ} {parts : List (Visibility ℝ nchan npol)}
    {d : Grid.Deposit ℝ} (h : (parts.mapM (σ.gridded how) >>= givenTreeSum (.whole 2)) = .ok d) :
    σ.Bounded := by
  obtain ⟨ds, hds, hsum⟩ := exists_of_bind h
  cases ds with
  | nil =>
    rw [givenTreeSum_two (g := σ.grid) (List.forall_mem_nil _)] at hsum
    cases hsum
  | cons d ds =>
    obtain ⟨part, -, hpart⟩ := exists_of_mem_mapM hds List.mem_cons_self
    exact Setup.bounded_of_gridded hpart

/-- Slices of visibilities, in any order, add up to the deposit of the whole. -/
theorem gridded_slices {how : Grid.Contribution ℝ} {rowss : List (List (Row ℝ nchan npol))}
    (hne : rowss ≠ []) (hrows : rowss.flatten = vis.rows) {parts : List (Visibility ℝ nchan npol)}
    (hparts : parts.Perm (rowss.map vis.withRows)) (d : Grid.Deposit ℝ) :
    (parts.mapM (σ.gridded how) >>= givenTreeSum (.whole 2)) = .ok d ↔
    σ.gridded how vis = .ok d := by
  rw [bind_eq_ok]
  by_cases hb : σ.Bounded
  · have hwhole := gridded_flatten hb vis how hne d
    rw [hrows] at hwhole
    refine Iff.trans ?_ hwhole.symm
    constructor
    · rintro ⟨ds, hds, hsum⟩
      rw [givenTreeSum_two (on_mapM_gridded hb hds)] at hsum
      obtain ⟨ds', hds', hperm⟩ := mapM_perm hparts hds
      exact ⟨ds', hds', by rwa [← sum_perm hperm (on_mapM_gridded hb hds)]⟩
    · rintro ⟨ds', hds', hsum⟩
      obtain ⟨ds, hds, hperm⟩ := mapM_perm hparts.symm hds'
      refine ⟨ds, hds, ?_⟩
      rwa [givenTreeSum_two (on_mapM_gridded hb hds), ← sum_perm hperm (on_mapM_gridded hb hds')]
  · -- without a grid for the axes nothing is gridded, neither a part nor the whole
    exact ⟨fun h => absurd (bounded_of_sum (bind_eq_ok.2 h)) hb,
      fun h => absurd (Setup.bounded_of_gridded h) hb⟩

theorem rowByRow_degridded (σ : Setup) (grid : Grid ℝ) (vis : Visibility ℝ nchan npol) :
    RowByRow vis (σ.degridded grid) where
  append rows₁ rows₂ v := by
    have hmaps := Plane.planeMap_append vis rows₁ rows₂ σ.variant (some σ.cache)
    simp only [Setup.degridded, bind_eq_ok]
    constructor
    · rintro ⟨map, hmap, hv⟩
      obtain ⟨map₁, map₂, hmap₁, hmap₂, happends⟩ := hmaps.split hmap
      obtain ⟨v₁, v₂, hv₁, hv₂, rfl⟩ := (predict_append happends).1 hv
      exact ⟨v₁, v₂, ⟨map₁, hmap₁, hv₁⟩, ⟨map₂, hmap₂, hv₂⟩, rfl⟩
    · rintro ⟨v₁, v₂, ⟨map₁, hmap₁, hv₁⟩, ⟨map₂, hmap₂, hv₂⟩, rfl⟩
      obtain ⟨map, hmap, happends⟩ := hmaps.join hmap₁ hmap₂
      exact ⟨map, hmap, (predict_append happends).2 ⟨v₁, v₂, hv₁, hv₂, rfl⟩⟩
  keeps rows v h := by
    obtain ⟨map, -, hv⟩ := exists_of_bind h
    exact (length_predict hv).1
  length rows v h := by
    obtain ⟨map, -, hv⟩ := exists_of_bind h
    exact (length_predict hv).2

end Workflow

/-! ## Work that is deferred -/

section Deferred

variable {m : Type → Type} [Monad m] [LawfulMonad m] {β δ : Type}

/-- The value of work that was handed to a switch is that of the work. -/
theorem execute_value (sw : Switch) (work : m β) : (sw.execute work >>= Work.value) = work := by
  unfold Switch.execute
  split
  · rw [pure_bind]
    rfl
  · rw [bind_assoc]
    simp only [pure_bind, Work.value, bind_pure]

/-- The values of a list of work are those of the work, done in its order. -/
theorem mapM_execute_value (sw : Switch) (work : δ → m β) (vs : List δ) :
    ((vs.mapM fun v => sw.execute (work v)) >>= fun works => works.mapM Work.value) =
      vs.mapM work := by
  induction vs with
  | nil => simp
  | cons v vs ih =>
    rw [List.mapM_cons, List.mapM_cons, ← ih]
    unfold Switch.execute
    split
    · simp [List.mapM_cons, Work.value]
    · simp [List.mapM_cons, Work.value]

theorem optimizeAll_eq {m : Type → Type} {β : Type} (sw : Switch) (ws : List (Work m β)) :
    sw.optimizeAll ws = ws := List.map_id ws

end Deferred

/-! ## Workflows over parts -/

namespace Workflow

section Simplified

variable {α : Type} [Scalar α] {sw : Switch}

/-- Simplification changes nothing in the workflows: images, -/
theorem invertList_eq (parts : List (Visibility α nchan npol)) (psf normalize : Bool) :
    invertList sw parts psf normalize = (do
      ensurePrepared
      sw.execute do
        let total ← gridParts .visibilities (.whole 2)
            (if psf then parts.map Visibility.unit else parts)
        finalizeSum total normalize) := by
  unfold invertList Switch.optimize
  simp only [bind_pure]

/-- predictions -/
theorem predictList_eq (parts : List (Visibility α nchan npol)) (model : Image α) :
    predictList sw parts model = (do
      ensurePrepared
      let grid ← sw.execute (modelToGrid model)
      parts.mapM fun vis => sw.execute do degridPartition vis (← grid.value)) := by
  unfold predictList
  simp only [optimizeAll_eq, bind_pure]

/-- and weights. -/
theorem weightList_uniform_eq (parts : List (Visibility α nchan npol)) :
    weightList sw parts .uniform = (do
      ensurePrepared
      let merged ← sw.execute (gridParts .weights (.whole 2) parts)
      parts.mapM fun vis => sw.execute do
        lift (Grid.reweight vis (← merged.value).grid (← theCache))) := by
  unfold weightList
  simp only [optimizeAll_eq, bind_pure]

/-- Work that a list of other work needs, done once or each time that it is needed. -/
theorem reads_shared {β γ δ : Type} {s : Gridder α} {work : Action α β} {r : Except (Fault α) β}
    {f : δ → β → Action α γ} {q : δ → β → Except (Fault α) γ} (hwork : Reads work s r)
    (hf : ∀ v a, Reads (f v a) s (q v a)) {vs : List δ} (hne : vs ≠ []) :
    Reads (do
      let shared ← sw.execute work
      vs.mapM fun v => do f v (← shared.value)) s (do
      let a ← r
      vs.mapM fun v => q v a) := by
  unfold Switch.execute
  split
  · rw [pure_bind]
    cases r with
    | error fault =>
      obtain ⟨v, vs, rfl⟩ := List.exists_cons_of_ne_nil hne
      rw [List.mapM_cons]
      exact outcome_bind_error (outcome_bind_error hwork)
    | ok a => exact Reads.mapM (fun v => hwork.bind_ok (hf v a)) vs
  · rw [bind_assoc]
    simp only [pure_bind, Work.value]
    exact hwork.bind fun a => Reads.mapM (fun v => hf v a) vs

end Simplified

section Parts

variable {σ : Setup} {stage : Stage} {statistics : Statistics}
  {parts : List (Visibility ℝ nchan npol)} {s t : Gridder ℝ} {sw : Switch}

theorem reads_gridPartition (how : Grid.Contribution ℝ) (vis : Visibility ℝ nchan npol) :
    Reads (gridPartition how vis) (σ.inStage stage statistics) (σ.gridded how vis) := by
  refine Setup.reads_theAxes.bind_ok
    ((reads_lift _).bind fun grid => Setup.reads_theCache.bind_ok ?_)
  refine reads_get.bind_ok ((reads_lift _).bind fun map => reads_get.bind_ok ?_)
  dsimp only [Setup.inStage]
  cases Grid.deposit how vis grid σ.cache map none σ.interpolation with
  | error interrupted => exact Reads.throw _
  | ok d => exact Reads.pure d

theorem reads_gridParts (how : Grid.Contribution ℝ) (split : Setting ℝ) :
    Reads (gridParts how split parts) (σ.inStage stage statistics)
      (parts.mapM (σ.gridded how) >>= givenTreeSum split) :=
  (Reads.mapM (reads_gridPartition how) parts).bind fun _ => reads_lift _

theorem reads_degridPartition (grid : Grid ℝ) (vis : Visibility ℝ nchan npol) :
    Reads (degridPartition vis grid) (σ.inStage stage statistics) (σ.degridded grid vis) := by
  refine Setup.reads_theCache.bind_ok (reads_get.bind_ok ((reads_lift _).bind fun map => ?_))
  refine reads_get.bind_ok ?_
  dsimp only [Setup.inStage]
  have hfirst : (Grid.predict vis grid σ.cache map σ.interpolation).map Prod.fst =
      Grid.predict vis grid σ.cache map σ.interpolation >>= fun p => .ok p.1 := by
    cases Grid.predict vis grid σ.cache map σ.interpolation <;> rfl
  rw [hfirst]
  exact (reads_lift _).bind fun p => Reads.pure p.1

theorem yields_finalizeSum (hb : σ.Bounded) (hstage : stage ≠ .unconfigured) {d : Grid.Deposit ℝ}
    {normalize : Bool} {image : Image ℝ} {sums : Tensor ℝ} {counted : Statistics} :
    Yields (finalizeSum d normalize) (σ.inStage stage statistics) (image, sums, counted) t ↔
      sums = d.sumWeights ∧ counted = d.statistics ∧
        Yields (finalize d.grid d.sumWeights normalize)
          (σ.inStage .active d.statistics) image t := by
  refine (Setup.yields_beginPass statistics hb hstage).bind_iff.trans ?_
  refine (yields_modify _).bind_iff.trans (yields_bind_pure.trans ?_)
  constructor
  · rintro ⟨image', himage, heq⟩
    cases heq
    exact ⟨rfl, rfl, himage⟩
  · rintro ⟨rfl, rfl, himage⟩
    exact ⟨image, himage, rfl⟩

/-- The image of parts is made where they can be gridded and the sum of their grids finalized. -/
theorem yields_invertList (hs : σ.Describes s) {psf normalize : Bool} {image : Image ℝ}
    {sums : Tensor ℝ} {counted : Statistics} :
    Yields (invertList sw parts psf normalize >>= Work.value) s (image, sums, counted) t ↔
      ∃ d, ((if psf then parts.map Visibility.unit else parts).mapM (σ.gridded .visibilities) >>=
          givenTreeSum (.whole 2)) = .ok d ∧ sums = d.sumWeights ∧ counted = d.statistics ∧
        Yields (finalize d.grid d.sumWeights normalize)
          (σ.inStage .active d.statistics) image t := by
  obtain ⟨stage, hstage, hprepared⟩ := hs.yields_ensurePrepared
  have hread : Reads
      (gridParts .visibilities (.whole 2) (if psf then parts.map Visibility.unit else parts))
      (σ.inStage stage s.statistics) _ := reads_gridParts .visibilities (.whole 2)
  rw [invertList_eq, bind_assoc]
  simp only [execute_value]
  refine hprepared.bind_iff.trans ?_
  cases hd : ((if psf then parts.map Visibility.unit else parts).mapM (σ.gridded .visibilities) >>=
      givenTreeSum (.whole 2)) with
  | error fault =>
    rw [hd] at hread
    refine ⟨fun h => absurd h (not_yields_bind hread _), ?_⟩
    rintro ⟨d, herror, -⟩
    cases herror
  | ok d =>
    rw [hd] at hread
    refine (Yields.bind_iff hread).trans ((yields_finalizeSum (bounded_of_sum hd) hstage).trans ?_)
    simp only [Except.ok.injEq, exists_eq_left']

/-- Parts are predicted where the model has a grid and each of them can be predicted from it. -/
theorem yields_predictList (hs : σ.Describes s) {model : Image ℝ} (hne : parts ≠ [])
    {results : List (Visibility ℝ nchan npol)} :
    (∃ t, Yields (predictList sw parts model >>= fun works => works.mapM Work.value) s results t) ↔
      ∃ grid, σ.modelGrid model = .ok grid ∧ parts.mapM (σ.degridded grid) = .ok results := by
  obtain ⟨stage, hstage, hprepared⟩ := hs.yields_ensurePrepared
  have hread : Reads (do
      let grid ← sw.execute (modelToGrid model)
      parts.mapM fun vis => do degridPartition vis (← grid.value))
        (σ.inStage stage s.statistics) _ :=
    reads_shared (Setup.reads_modelToGrid hstage model)
      (fun vis grid => reads_degridPartition grid vis) hne
  rw [predictList_eq]
  simp only [bind_assoc, mapM_execute_value]
  have hrest : ∀ t, Yields (do
      ensurePrepared
      let grid ← sw.execute (modelToGrid model)
      parts.mapM fun vis => do degridPartition vis (← grid.value)) s results t ↔ _ :=
    fun t => hprepared.bind_iff.trans hread.yields
  simp only [hrest, exists_and_left, exists_eq, and_true, bind_eq_ok]

/-- Parts are weighted where the weights of all can be gridded and those of each divided by the
    density. -/
theorem yields_weightList (hs : σ.Describes s) (hne : parts ≠ [])
    {results : List (Visibility ℝ nchan npol)} :
    (∃ t,
      Yields (weightList sw parts .uniform >>= fun works => works.mapM Work.value) s results t) ↔
      ∃ d, (parts.mapM (σ.gridded .weights) >>= givenTreeSum (.whole 2)) = .ok d ∧
        parts.mapM (fun vis => Grid.reweight vis d.grid σ.cache) = .ok results := by
  obtain ⟨stage, hstage, hprepared⟩ := hs.yields_ensurePrepared
  have hread : Reads (do
      let merged ← sw.execute (gridParts .weights (.whole 2) parts)
      parts.mapM fun vis => do
        lift (Grid.reweight vis (← merged.value).grid (← theCache)))
      (σ.inStage stage s.statistics) _ :=
    reads_shared (reads_gridParts .weights (.whole 2))
      (fun vis d => Setup.reads_theCache.bind_ok (reads_lift (Grid.reweight vis d.grid σ.cache)))
      hne
  rw [weightList_uniform_eq]
  simp only [bind_assoc, mapM_execute_value]
  have hrest : ∀ t, Yields (do
      ensurePrepared
      let merged ← sw.execute (gridParts .weights (.whole 2) parts)
      parts.mapM fun vis => do
        lift (Grid.reweight vis (← merged.value).grid (← theCache))) s results t ↔ _ :=
    fun t => hprepared.bind_iff.trans hread.yields
  simp only [hrest, exists_and_left, exists_eq, and_true, bind_eq_ok]

end Parts

/-! ## Workflows and single passes -/

variable {vis : Visibility ℝ nchan npol}

/-- Slices with all values set to one are slices of the visibilities with all values set to one. -/
theorem unit_slices {rowss : List (List (Row ℝ nchan npol))} (hrows : rowss.flatten = vis.rows) :
    ∃ ones : List (List (Row ℝ nchan npol)), ones.flatten = vis.unit.rows ∧
      (ones = [] ↔ rowss = []) ∧
      (rowss.map vis.withRows).map Visibility.unit = ones.map vis.unit.withRows := by
  refine ⟨rowss.map (List.map (·.mapSamples fun _ _ s => { s with value := 1 })), ?_,
    List.map_eq_nil_iff, ?_⟩
  · rw [← List.map_flatten, hrows]
    rfl
  · rw [List.map_map, List.map_map]
    rfl

/-- The parts of an image or of a point spread function add up to the deposit of the whole. -/
theorem gridded_units {σ : Setup} {rowss : List (List (Row ℝ nchan npol))} (hne : rowss ≠ [])
    (hrows : rowss.flatten = vis.rows) {parts : List (Visibility ℝ nchan npol)}
    (hparts : parts.Perm (rowss.map vis.withRows)) (psf : Bool) (d : Grid.Deposit ℝ) :
    ((if psf then parts.map Visibility.unit else parts).mapM (σ.gridded .visibilities) >>=
        givenTreeSum (.whole 2)) = .ok d ↔
      σ.gridded .visibilities (if psf then vis.unit else vis) = .ok d := by
  cases psf with
  | true =>
    obtain ⟨ones, hones, hnil, hslices⟩ := unit_slices hrows
    refine gridded_slices (fun h => hne (hnil.1 h)) hones ?_ d
    rw [← hslices]
    exact hparts.map Visibility.unit
  | false => exact gridded_slices hne hrows hparts d

/-- What prepares its gridder first is refused where that is. -/
theorem not_yields_of_refused {β γ : Type} {s s' t : Gridder ℝ} {fault : Fault ℝ}
    (h : outcome ensurePrepared s = (.error fault, s')) (rest : Unit → Action ℝ β)
    (f : β → Action ℝ γ) (r : γ) : ¬ Yields ((ensurePrepared >>= rest) >>= f) s r t :=
  not_yields_bind (outcome_bind_error h) r

/-- Whatever visibilities are cut into and however gridders are configured, workflows over the
    slices succeed exactly if the single pass does, and have the same results: the image, sums of
    weights and counters of slices in any order, and the predicted or weighted slices, gathered. -/
theorem partitioned_iff_whole {s t : Gridder ℝ} (hs : s.Sound) (ht : t.Sound)
    (h : ConfiguredAlike s t) (vis : Visibility ℝ nchan npol) {n : ℕ} (hn : 1 ≤ n) (sw : Switch) :
    ∃ slices, vis.scatterAs (.whole n) = .ok slices ∧
      (∀ parts, parts.Perm slices → ∀ psf normalize image sums counted,
        (∃ s', Yields (invertList sw parts psf normalize >>= Work.value) s
          (image, sums, counted) s') ↔
          ∃ t', Yields (invert vis psf normalize) t (image, sums) t' ∧ counted = t'.statistics) ∧
      (∀ model predicted,
        (∃ parts s',
          Yields (predictList sw slices model >>= fun works => works.mapM Work.value) s parts s' ∧
          vis.gather parts = .ok predicted) ↔
        ∃ t', Yields (predict vis model) t predicted t') ∧
      ∀ weighted,
        (∃ parts s',
          Yields (weightList sw slices .uniform >>= fun works => works.mapM Work.value) s parts s' ∧
          vis.gather parts = .ok weighted) ↔
        ∃ t', Yields (weight vis .uniform) t weighted t' := by
  obtain ⟨rowss, hne, hrows, hslices⟩ := vis.exists_slices hn
  have hsome : rowss.map vis.withRows ≠ [] := fun hnil => hne (List.map_eq_nil_iff.1 hnil)
  refine ⟨_, hslices, ?_⟩
  rcases h.exists_setup hs ht with ⟨σ, hσs, hσt⟩ | ⟨⟨fault, s', hrefused⟩, fault', t', hrefused'⟩
  · refine ⟨fun parts hparts psf normalize image sums counted => ?_, fun model predicted => ?_,
      fun weighted => ?_⟩
    · simp only [yields_invertList hσs, Setup.yields_invert hσt, gridded_units hne hrows hparts]
      constructor
      · rintro ⟨after, d, hd, rfl, rfl, himage⟩
        exact ⟨after, ⟨d, hd, rfl, himage⟩, (statistics_finalize himage).symm⟩
      · rintro ⟨after, ⟨d, hd, rfl, himage⟩, rfl⟩
        exact ⟨after, d, hd, rfl, statistics_finalize himage, himage⟩
    · simp only [exists_and_right, yields_predictList hσs hsome, Setup.yields_predict hσt,
        gather_slices (rowByRow_degridded σ _ vis) hne hrows]
      constructor
      · rintro ⟨parts, ⟨grid, hgrid, hparts⟩, hgathered⟩
        exact ⟨grid, hgrid, parts, hparts, hgathered⟩
      · rintro ⟨grid, hgrid, parts, hparts, hgathered⟩
        exact ⟨parts, ⟨grid, hgrid, hparts⟩, hgathered⟩
    · simp only [exists_and_right, yields_weightList hσs hsome, Setup.yields_weight hσt,
        gridded_slices hne hrows (List.Perm.refl _), gather_slices rowByRow_reweight hne hrows]
      constructor
      · rintro ⟨parts, ⟨d, hd, hparts⟩, hgathered⟩
        exact ⟨d, hd, parts, hparts, hgathered⟩
      · rintro ⟨d, hd, parts, hparts, hgathered⟩
        exact ⟨parts, ⟨d, hd, hparts⟩, hgathered⟩
  · -- every workflow and every pass prepares its gridder first
    refine ⟨fun parts _ psf normalize image sums counted => ⟨?_, ?_⟩,
      fun model predicted => ⟨?_, ?_⟩, fun weighted => ⟨?_, ?_⟩⟩
    · rintro ⟨after, hyields⟩
      exact absurd hyields (not_yields_of_refused hrefused _ _ _)
    · rintro ⟨after, hyields, -⟩
      exact absurd hyields (not_yields_of_refused hrefused' _ _ _)
    · rintro ⟨parts, after, hyields, -⟩
      exact absurd hyields (not_yields_of_refused hrefused _ _ _)
    · rintro ⟨after, hyields⟩
      exact absurd hyields (not_yields_of_refused hrefused' _ _ _)
    · rintro ⟨parts, after, hyields, -⟩
      exact absurd hyields (not_yields_of_refused hrefused _ _ _)
    · rintro ⟨after, hyields⟩
      exact absurd hyields (not_yields_of_refused hrefused' _ _ _)

/-- Two rows in three slices: the image of the slices, in any order. -/
theorem partitioned_iff_whole_quarterVisibility :
    (new .box (some Setup.smallAxes) .linear : Gridder ℝ).Sound ∧
    ConfiguredAlike (new .box (some Setup.smallAxes) .linear)
      (new .box (some Setup.smallAxes) .linear) ∧
    Grid.quarterVisibility.rowCount = 2 ∧
    ∃ slices image sums counted, Grid.quarterVisibility.scatterAs (.whole (3 : ℕ)) = .ok slices ∧
      ∀ parts, parts.Perm slices → ∃ s',
        Yields (invertList {} parts false false >>= Work.value)
          (new .box (some Setup.smallAxes) .linear) (image, sums, counted) s' := by
  obtain ⟨σ, hbounded, hvariant, hinterpolation, haxes, -, -⟩ := Setup.exists_small
  have hsound := sound_new (.box : Kernel.Variant ℝ) (some Setup.smallAxes) .linear
  have halike := ConfiguredAlike.refl (new .box (some Setup.smallAxes) .linear)
  obtain ⟨map, hmap, hfit⟩ := σ.fit_grid (by rw [haxes]; decide) (by rw [haxes]; rfl)
    (show Grid.quarterVisibility.bare = false from rfl) rfl
  obtain ⟨image, sums, -, counted, hinvert, -⟩ :=
    Setup.exists_invert hbounded σ.describes_new hmap hfit
  rw [hvariant, hinterpolation, haxes] at hinvert
  obtain ⟨slices, hslices, himages, -, -⟩ :=
    partitioned_iff_whole hsound hsound halike Grid.quarterVisibility (show 1 ≤ 3 by decide) {}
  exact ⟨hsound, halike, rfl, slices, image, sums, counted, hslices, fun parts hparts =>
    (himages parts hparts false false image sums counted).2 ⟨_, hinvert, rfl⟩⟩

end Workflow

end ApertureSynthesis
