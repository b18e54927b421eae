/-
  Passes over visibilities whose rows are put together from two parts, in exact arithmetic.

  A deposit on top of another is their sum: one step adds the same to both (`step_add`), and so does
  a run (`foldlM_add`). With the plane maps of both parts appended, gridding all rows succeeds if
  gridding each part on a grid of its own does, and gives the sum (`deposit_append`). Prediction and
  weighting by density treat each row by itself (`predict_append`, `rowByRow_reweight`).
-/
import Mathlib
import ApertureSynthesis.Proofs.Grid.Prediction
import ApertureSynthesis.Proofs.Grid.Rows
import ApertureSynthesis.Proofs.Workflow.Reduction
import ApertureSynthesis.Grid.Density

namespace ApertureSynthesis.Workflow

open Grid

variable {nchan npol : ℕ}

/-! ## Adding on top of a deposit -/

section OnTop

variable {how : Contribution ℝ} {cells weights : List ℕ} {d e d' : Deposit ℝ} {g : Grid ℝ}

theorem cells_addTaps (how : Contribution ℝ) (channel : ℕ) (taps : List (Tap ℝ))
    (samples : List (Sample ℝ)) (g : Grid ℝ) :
    (addTaps how channel taps samples g).cells =
      (samples.zipIdx.flatMap fun s => taps.map fun t => (s, t)).foldl
        (fun t x => t.modify [channel, x.1.2, x.2.j, x.2.i] (· + how.cell x.2.value x.1.1))
        g.cells := by
  rw [addTaps_eq_foldl, cells_foldl_addAt _ (fun _ => channel)]

theorem addTaps_add (he : e.Shaped cells weights) (hd : d.Shaped cells weights) (channel : ℕ)
    (taps : List (Tap ℝ)) (samples : List (Sample ℝ)) :
    addTaps how channel taps samples (add e d).grid =
      (add e { d with grid := addTaps how channel taps samples d.grid }).grid := by
  refine ((alike_add e _).symm.trans ((alike_add e d).trans (alike_addTaps _ _ _ _ _))).eq_of_cells
    ?_
  have hcells : (add e d).grid.cells = Tensor.zipWith (· + ·) e.grid.cells d.grid.cells := rfl
  rw [cells_addTaps, hcells]
  show _ = Tensor.zipWith (· + ·) e.grid.cells (addTaps how channel taps samples d.grid).cells
  rw [cells_addTaps]
  refine (Tensor.zipWith_foldl _ ?_ ?_ (hd.cells.trans he.cells.symm)).symm
  · exact fun t x => Tensor.shape_modify t _ _
  · exact fun t x ht => Tensor.zipWith_modify ht _ _

theorem addWeights_zipWith {s t : Tensor ℝ} (h : t.shape = s.shape) (channel : ℕ)
    (values : List ℝ) :
    addWeights (Tensor.zipWith (· + ·) s t) channel values =
      (addWeights t channel values).map (Tensor.zipWith (· + ·) s) := by
  unfold addWeights
  rw [Tensor.shape_zipWith, ← h]
  split
  · dsimp only
    split
    · rfl
    · split
      · rfl
      · refine congrArg Except.ok (Tensor.zipWith_foldl _ ?_ ?_ h).symm
        · exact fun t k => Tensor.shape_modifyAt t _ _
        · exact fun t k ht => Tensor.zipWith_modifyAt ht _ _
  · rfl

theorem shape_addWeights {sums sums' : Tensor ℝ} {channel : ℕ} {values : List ℝ}
    (h : addWeights sums channel values = .ok sums') : sums'.shape = sums.shape := by
  unfold addWeights at h
  split at h
  · dsimp only at h
    split at h
    · cases h
    · split at h
      · cases h
      · cases h
        exact Tensor.shape_foldl (fun t _ => Tensor.shape_modifyAt t _ _) _ _
  · cases h

/-- What a sample adds to a deposit on top of another it adds to the deposit itself. -/
theorem addSample_add (he : e.Shaped cells weights) (hd : d.Shaped cells weights)
    (placement : Placement ℝ) (samples : List (Sample ℝ)) :
    addSample how placement samples (add e d) = .ok d' ↔
      ∃ d₁, addSample how placement samples d = .ok d₁ ∧ d' = add e d₁ := by
  cases placement with
  | outside =>
    have hcount : e.statistics + { d.statistics with outside := d.statistics.outside + 1 } =
        { e.statistics + d.statistics with outside := (e.statistics + d.statistics).outside + 1 } :=
      Statistics.ext rfl rfl (Int.add_assoc _ _ _).symm rfl
    simp only [addSample, Except.ok.injEq, exists_eq_left', add, hcount]
    exact eq_comm
  | inside channel runs =>
    have hcount : e.statistics + { d.statistics with gridded := d.statistics.gridded + 1 } =
        { e.statistics + d.statistics with gridded := (e.statistics + d.statistics).gridded + 1 } :=
      Statistics.ext (Int.add_assoc _ _ _).symm rfl rfl rfl
    have hsums : addWeights (add e d).sumWeights channel
        (samples.map (how.weight (tapTotal runs.flatten))) =
        (addWeights d.sumWeights channel (samples.map (how.weight (tapTotal runs.flatten)))).map
          (Tensor.zipWith (· + ·) e.sumWeights) :=
      addWeights_zipWith (hd.weights.trans he.weights.symm) _ _
    simp only [addSample, hsums, addTaps_add he hd]
    cases addWeights d.sumWeights channel (samples.map (how.weight (tapTotal runs.flatten))) with
    | error fault => simp [Except.map]
    | ok sums =>
      simp only [Except.map, Except.ok.injEq, exists_eq_left', add, hcount]
      exact eq_comm

theorem step_add (he : e.Shaped cells weights) (hd : d.Shaped cells weights) (f : Frame ℝ)
    (x : ℕ × Row ℝ nchan npol × ℕ × Vector (Sample ℝ) npol) :
    step how f (add e d) x = .ok d' ↔ ∃ d₁, step how f d x = .ok d₁ ∧ d' = add e d₁ := by
  obtain ⟨k, r, b, ps⟩ := x
  unfold step
  dsimp only
  by_cases hall : Row.channelFlagged ps = true
  · rw [if_pos hall, if_pos hall]
    simp [eq_comm]
  · rw [if_neg hall, if_neg hall]
    cases f.place k r b with
    | error fault => simp
    | ok placement => exact addSample_add he hd placement ps.toList

/-- A step changes neither the axes of the grid nor those of the sums of weights. -/
theorem step_keeps {f : Frame ℝ} {x : ℕ × Row ℝ nchan npol × ℕ × Vector (Sample ℝ) npol}
    (h : step how f d x = .ok d') :
    Alike d.grid d'.grid ∧ d'.sumWeights.shape = d.sumWeights.shape := by
  obtain ⟨k, r, b, ps⟩ := x
  unfold step at h
  dsimp only at h
  split at h
  · cases h
    exact ⟨Alike.refl _, rfl⟩
  · split at h
    · rename_i placement _
      cases placement with
      | outside =>
        cases h
        exact ⟨Alike.refl _, rfl⟩
      | inside channel runs =>
        simp only [addSample] at h
        split at h
        · rename_i hsums
          cases h
          exact ⟨alike_addTaps _ _ _ _ _, shape_addWeights hsums⟩
        · cases h
    · cases h

theorem on_step {f : Frame ℝ} {x : ℕ × Row ℝ nchan npol × ℕ × Vector (Sample ℝ) npol} (hd : d.On g)
    (h : step how f d x = .ok d') : d'.On g :=
  ⟨hd.alike.trans (step_keeps h).1, (step_keeps h).2.trans hd.weights⟩

theorem on_foldlM {f : Frame ℝ} {xs : List (ℕ × Row ℝ nchan npol × ℕ × Vector (Sample ℝ) npol)}
    (hd : d.On g) (h : xs.foldlM (step how f) d = .ok d') : d'.On g := by
  induction xs generalizing d with
  | nil =>
    cases h
    exact hd
  | cons x xs ih =>
    rw [List.foldlM_cons] at h
    obtain ⟨d₁, hd₁, hrest⟩ := exists_of_bind h
    exact ih (on_step hd hd₁) hrest

/-- A run from a deposit on top of another is the run from that deposit, on top of the other. -/
theorem foldlM_add (he : e.On g) (hd : d.On g) (f : Frame ℝ)
    (xs : List (ℕ × Row ℝ nchan npol × ℕ × Vector (Sample ℝ) npol)) :
    xs.foldlM (step how f) (add e d) = .ok d' ↔
      ∃ d₁, xs.foldlM (step how f) d = .ok d₁ ∧ d' = add e d₁ := by
  induction xs generalizing d with
  | nil => simp [pure, Except.pure, eq_comm]
  | cons x xs ih =>
    rw [List.foldlM_cons, List.foldlM_cons]
    simp only [bind_eq_ok]
    constructor
    · rintro ⟨a, ha, hrest⟩
      obtain ⟨d₁, hd₁, rfl⟩ := (step_add he.shaped hd.shaped f x).1 ha
      obtain ⟨d₂, hd₂, rfl⟩ := (ih (on_step hd hd₁)).1 hrest
      exact ⟨d₂, ⟨d₁, hd₁, hd₂⟩, rfl⟩
    · rintro ⟨d₂, ⟨d₁, hd₁, hd₂⟩, rfl⟩
      exact ⟨add e d₁, (step_add he.shaped hd.shaped f x).2 ⟨d₁, hd₁, rfl⟩,
        (ih (on_step hd hd₁)).2 ⟨d₂, hd₂, rfl⟩⟩

end OnTop

/-! ## Rows in two parts -/

section Parts

variable {vis : Visibility ℝ nchan npol} {rows₁ rows₂ : List (Row ℝ nchan npol)} {g : Grid ℝ}
  {c : Cache ℝ} {m₁ m₂ m : PlaneMap} {interpolation : Interpolation} {f : Frame ℝ}

/-! ### Gridding -/

/-- An empty grid with the counters that a pass starts with. -/
noncomputable def start (vis : Visibility ℝ nchan npol) (g : Grid ℝ) (map : PlaneMap) : Deposit ℝ :=
  ⟨g, Tensor.fill [g.nchan, g.npol] 0, { flagged := flaggedRows vis, clamped := map.clamped }⟩

theorem on_start (vis : Visibility ℝ nchan npol) (g : Grid ℝ) (map : PlaneMap) :
    (start vis g map).On g := ⟨Alike.refl g, rfl⟩

/-- Counters start with those of both parts; cells and sums of weights start at zero. -/
theorem start_append (hg : g.cells = Tensor.fill g.cells.shape 0)
    (h : PlaneMap.Appends rows₁.length rows₂.length m₁ m₂ m) :
    start (vis.withRows (rows₁ ++ rows₂)) g m =
      add (start (vis.withRows rows₁) g m₁) (start (vis.withRows rows₂) g m₂) := by
  have hzero : (0 : Cplx ℝ) + 0 = 0 := Cplx.val_injective (by simp)
  refine deposit_eq ?_ ?_ ?_ ?_
  · exact (alike_add _ _).symm
  · show g.cells = Tensor.zipWith (· + ·) g.cells g.cells
    rw [hg, Tensor.zipWith_fill, hzero]
  · show Tensor.fill _ 0 = Tensor.zipWith (· + ·) (Tensor.fill _ 0) (Tensor.fill _ 0)
    rw [Tensor.zipWith_fill, add_zero]
  · refine Statistics.ext rfl ?_ rfl h.clamped
    show (((rows₁ ++ rows₂).countP Row.flagged : ℕ) : ℤ) = _
    rw [List.countP_append, Nat.cast_add]
    rfl

theorem deposit_eq_ok {how : Contribution ℝ} {d : Deposit ℝ} :
    deposit how vis g c m none interpolation = .ok d ↔
      checkFit vis g c m = .ok () ∧ ∃ f, frame vis g c m interpolation = .ok f ∧
        (samplesOf vis).foldlM (step how f) (start vis g m) = .ok d :=
  Grid.deposit_eq_ok

theorem on_deposit {how : Contribution ℝ} {d : Deposit ℝ}
    (h : deposit how vis g c m none interpolation = .ok d) : d.On g := by
  obtain ⟨-, f, -, hrun⟩ := deposit_eq_ok.1 h
  exact on_foldlM (on_start vis g m) hrun

/-- A run over the samples of all rows is a run over those of each part, from the counters of its
    own. -/
theorem foldlM_append (hg : g.cells = Tensor.fill g.cells.shape 0)
    (h : PlaneMap.Appends rows₁.length rows₂.length m₁ m₂ m) (hf : f.map = m) {how : Contribution ℝ}
    {d : Deposit ℝ} :
    (samplesOf (vis.withRows (rows₁ ++ rows₂))).foldlM (step how f)
        (start (vis.withRows (rows₁ ++ rows₂)) g m) = .ok d ↔
      ∃ d₁ d₂,
        (samplesOf (vis.withRows rows₁)).foldlM (step how (withMap f m₁))
          (start (vis.withRows rows₁) g m₁) = .ok d₁ ∧
        (samplesOf (vis.withRows rows₂)).foldlM (step how (withMap f m₂))
          (start (vis.withRows rows₂) g m₂) = .ok d₂ ∧ d = add d₁ d₂ := by
  subst hf
  have hon₁ := on_start (vis.withRows rows₁) g m₁
  have hon₂ := on_start (vis.withRows rows₂) g m₂
  have hfirst : ∀ e : Deposit ℝ, (samplesOf (vis.withRows rows₁)).foldlM (step how f) e =
      (samplesOf (vis.withRows rows₁)).foldlM (step how (withMap f m₁)) e := by
    refine foldlM_congr fun x hx e => ?_
    obtain ⟨hk, -, -⟩ := mem_samplesOf hx
    exact (step_withMap (fun b => (h.plane_left hk b).symm) e x.2).symm
  have hsecond : ∀ e : Deposit ℝ,
      ((samplesOf (vis.withRows rows₂)).map fun x => (rows₁.length + x.1, x.2)).foldlM
      (step how f) e = (samplesOf (vis.withRows rows₂)).foldlM (step how (withMap f m₂)) e := by
    intro e
    rw [List.foldlM_map]
    exact foldlM_congr (fun x _ e =>
      (step_withMap (fun b => (h.plane_right x.1 b).symm) e x.2).symm) e
  rw [samplesOf_append, start_append hg h, add_comm hon₁ hon₂, List.foldlM_append, bind_eq_ok]
  simp only [hfirst, hsecond, foldlM_add hon₂ hon₁]
  constructor
  · rintro ⟨_, ⟨d₁, hd₁, rfl⟩, hrest⟩
    have hon := on_foldlM hon₁ hd₁
    rw [add_comm hon₂ hon] at hrest
    obtain ⟨d₂, hd₂, rfl⟩ := (foldlM_add hon hon₂ _ _).1 hrest
    exact ⟨d₁, d₂, hd₁, hd₂, rfl⟩
  · rintro ⟨d₁, d₂, hd₁, hd₂, rfl⟩
    have hon := on_foldlM hon₁ hd₁
    refine ⟨_, ⟨d₁, hd₁, rfl⟩, ?_⟩
    rw [add_comm hon₂ hon]
    exact (foldlM_add hon hon₂ _ _).2 ⟨d₂, hd₂, rfl⟩

/-- Gridding all rows on an empty grid succeeds if gridding each part on one of its own does, and
    gives the sum. -/
theorem deposit_append (hg : g.cells = Tensor.fill g.cells.shape 0)
    (h : PlaneMap.Appends rows₁.length rows₂.length m₁ m₂ m) {how : Contribution ℝ}
    {d : Deposit ℝ} :
    deposit how (vis.withRows (rows₁ ++ rows₂)) g c m none interpolation = .ok d ↔
      ∃ d₁ d₂, deposit how (vis.withRows rows₁) g c m₁ none interpolation = .ok d₁ ∧
        deposit how (vis.withRows rows₂) g c m₂ none interpolation = .ok d₂ ∧ d = add d₁ d₂ := by
  obtain ⟨hfit₁, hfit₂⟩ := checkFit_append vis g c h
  have hframe : ∀ rows m', frame (vis.withRows rows) g c m' interpolation =
      (frame (vis.withRows (rows₁ ++ rows₂)) g c m interpolation).map (withMap · m') :=
    fun rows m' => frame_withRows _ _ _ _
  simp only [deposit_eq_ok, ← hfit₁, ← hfit₂, hframe rows₁ m₁, hframe rows₂ m₂]
  cases hf : frame (vis.withRows (rows₁ ++ rows₂)) g c m interpolation with
  | error fault => simp [Except.map]
  | ok f =>
    simp only [Except.map, Except.ok.injEq, exists_eq_left', foldlM_append hg h (map_frame hf)]
    constructor
    · rintro ⟨hfit, d₁, d₂, hd₁, hd₂, rfl⟩
      exact ⟨d₁, d₂, ⟨hfit, hd₁⟩, ⟨hfit, hd₂⟩, rfl⟩
    · rintro ⟨d₁, d₂, ⟨hfit, hd₁⟩, ⟨-, hd₂⟩, rfl⟩
      exact ⟨hfit, d₁, d₂, hd₁, hd₂, rfl⟩

/-! ### Prediction -/

/-- What is done to visibilities is done to each row by itself: it succeeds for all rows if it does
    for those of each part, and keeps the channels and the number of rows. -/
structure RowByRow (vis : Visibility ℝ nchan npol)
    (P : Visibility ℝ nchan npol → Except (Fault ℝ) (Visibility ℝ nchan npol)) : Prop where
  /-- The rows of both parts, one after the other. -/
  append : ∀ rows₁ rows₂ {v}, P (vis.withRows (rows₁ ++ rows₂)) = .ok v ↔
    ∃ v₁ v₂, P (vis.withRows rows₁) = .ok v₁ ∧ P (vis.withRows rows₂) = .ok v₂ ∧
      v = vis.withRows (v₁.rows ++ v₂.rows)
  /-- Only rows change, -/
  keeps : ∀ rows {v}, P (vis.withRows rows) = .ok v → v = vis.withRows v.rows
  /-- and as many remain. -/
  length : ∀ rows {v}, P (vis.withRows rows) = .ok v → v.rows.length = rows.length

theorem predict_eq_ok {v : Visibility ℝ nchan npol} :
    (predict vis g c m interpolation).map Prod.fst = .ok v ↔
      checkFit vis g c m = .ok () ∧ ∃ f, frame vis g c m interpolation = .ok f ∧
        ∃ results, vis.rows.zipIdx.mapM (predictRow f g) = .ok results ∧
          v = vis.withRows (results.map Prod.fst) := by
  rw [map_eq_ok]
  simp only [Grid.predict_eq_ok]
  constructor
  · rintro ⟨_, ⟨hfit, f, hf, results, hresults, rfl⟩, rfl⟩
    exact ⟨hfit, f, hf, results, hresults, rfl⟩
  · rintro ⟨hfit, f, hf, results, hresults, rfl⟩
    exact ⟨_, ⟨hfit, f, hf, results, hresults, rfl⟩, rfl⟩

/-- A row of a part is predicted as it is among all rows. -/
theorem predictRow_withMap {k k' : ℕ} (h : ∀ b, m.plane k' b = f.map.plane k b)
    (r : Row ℝ nchan npol) :
    predictRow (withMap f m) g (r, k') = predictRow f g (r, k) := by
  have hplaces : (withMap f m).place k' r = f.place k r := funext fun b => place_withMap (h b) r
  unfold predictRow
  dsimp only
  rw [hplaces]

theorem mapM_predictRow_append (h : PlaneMap.Appends rows₁.length rows₂.length m₁ m₂ f.map) :
    (rows₁ ++ rows₂).zipIdx.mapM (predictRow f g) = (do
      let results₁ ← rows₁.zipIdx.mapM (predictRow (withMap f m₁) g)
      let results₂ ← rows₂.zipIdx.mapM (predictRow (withMap f m₂) g)
      return results₁ ++ results₂) := by
  have hfirst : rows₁.zipIdx.mapM (predictRow f g) =
      rows₁.zipIdx.mapM (predictRow (withMap f m₁) g) := by
    refine mapM_congr fun ⟨r, k⟩ hr => ?_
    obtain ⟨-, hk, -⟩ := List.mem_zipIdx hr
    exact (predictRow_withMap (fun b => (h.plane_left (by omega) b).symm) r).symm
  have hsecond : (rows₂.zipIdx rows₁.length).mapM (predictRow f g) =
      rows₂.zipIdx.mapM (predictRow (withMap f m₂) g) := by
    rw [List.zipIdx_eq_map_add, List.mapM_map]
    exact mapM_congr fun ⟨r, k⟩ _ =>
      (predictRow_withMap (fun b => (h.plane_right k b).symm) r).symm
  rw [List.zipIdx_append, List.mapM_append, hfirst, Nat.zero_add, hsecond]

theorem predict_append (h : PlaneMap.Appends rows₁.length rows₂.length m₁ m₂ m)
    {v : Visibility ℝ nchan npol} :
    (predict (vis.withRows (rows₁ ++ rows₂)) g c m interpolation).map Prod.fst = .ok v ↔
      ∃ v₁ v₂, (predict (vis.withRows rows₁) g c m₁ interpolation).map Prod.fst = .ok v₁ ∧
        (predict (vis.withRows rows₂) g c m₂ interpolation).map Prod.fst = .ok v₂ ∧
        v = vis.withRows (v₁.rows ++ v₂.rows) := by
  obtain ⟨hfit₁, hfit₂⟩ := checkFit_append vis g c h
  have hframe : ∀ rows m', frame (vis.withRows rows) g c m' interpolation =
      (frame (vis.withRows (rows₁ ++ rows₂)) g c m interpolation).map (withMap · m') :=
    fun rows m' => frame_withRows _ _ _ _
  simp only [predict_eq_ok, ← hfit₁, ← hfit₂, hframe rows₁ m₁, hframe rows₂ m₂]
  cases hf : frame (vis.withRows (rows₁ ++ rows₂)) g c m interpolation with
  | error fault => simp [Except.map]
  | ok f =>
    obtain rfl := map_frame hf
    have hrows : ∀ rows, (vis.withRows rows).rows = rows := fun _ => rfl
    simp only [Except.map, Except.ok.injEq, exists_eq_left', hrows,
      mapM_predictRow_append h, bind_eq_ok]
    constructor
    · rintro ⟨hfit, _, ⟨results₁, h₁, results₂, h₂, hboth⟩, rfl⟩
      cases hboth
      exact ⟨_, _, ⟨hfit, results₁, h₁, rfl⟩,
        ⟨hfit, results₂, h₂, rfl⟩, by rw [List.map_append]; rfl⟩
    · rintro ⟨_, _, ⟨hfit, results₁, h₁, rfl⟩, ⟨-, results₂, h₂, rfl⟩, rfl⟩
      exact ⟨hfit, _, ⟨results₁, h₁, results₂, h₂, rfl⟩, by rw [List.map_append]; rfl⟩

theorem length_predict {v : Visibility ℝ nchan npol}
    (h : (predict vis g c m interpolation).map Prod.fst = .ok v) :
    v = vis.withRows v.rows ∧ v.rows.length = vis.rows.length := by
  obtain ⟨-, f, -, results, hresults, rfl⟩ := predict_eq_ok.1 h
  have hlength := (mapM_eq_ok_iff.1 hresults).length_eq
  rw [List.length_zipIdx] at hlength
  exact ⟨rfl, by rw [Visibility.withRows, List.length_map, hlength]⟩

/-! ### Weighting by density -/

/-- How a row is weighted: by the grid, and the frequencies and channels of the visibilities. -/
noncomputable def rowWeighting (vis : Visibility ℝ nchan npol) (g : Grid ℝ) (c : Cache ℝ) :
    Except (Fault ℝ) (Row ℝ nchan npol → Except (Fault ℝ) (Row ℝ nchan npol)) :=
  if npol ≠ g.npol then .error (.polarisations npol g.npol)
  else do
    let l ← g.lattice c
    let frequency ← vis.spectrum
    let channels ← g.channelsOf vis
    return fun r => reweightRow g channels r (nearestCells l frequency r)

theorem reweight_withRows (rows : List (Row ℝ nchan npol)) :
    reweight (vis.withRows rows) g c =
      rowWeighting vis g c >>= fun weigh => (rows.mapM weigh).map vis.withRows := by
  have hzip : ∀ (l : Grid.Lattice ℝ) (frequency : List ℝ) (channels : List ℕ),
      (rows.zip (rows.map (nearestCells l frequency))).mapM
        (fun (r, places) => reweightRow g channels r places) =
      rows.mapM fun r => reweightRow g channels r (nearestCells l frequency r) := by
    intro l frequency channels
    have hpairs : rows.zip (rows.map (nearestCells l frequency)) =
        rows.map fun r => (r, nearestCells l frequency r) := by
      simpa using List.zip_map' (f := id) (g := nearestCells l frequency) (l := rows)
    rw [hpairs, List.mapM_map]
    rfl
  have hspectrum : (vis.withRows rows).spectrum = vis.spectrum := rfl
  have hchannels : g.channelsOf (vis.withRows rows) = g.channelsOf vis := rfl
  unfold reweight mapping rowWeighting
  rw [hspectrum, hchannels]
  by_cases hnpol : npol = g.npol
  · rw [if_neg (not_not.2 hnpol), if_neg (not_not.2 hnpol)]
    cases g.lattice c with
    | error fault => rfl
    | ok l =>
      cases vis.spectrum with
      | error fault => rfl
      | ok frequency =>
        cases g.channelsOf vis with
        | error fault => rfl
        | ok channels =>
          exact congrArg (Except.map vis.withRows) (hzip l frequency channels)
  · rw [if_pos hnpol, if_pos hnpol]
    rfl

theorem rowByRow_reweight : RowByRow vis fun v => reweight v g c where
  append rows₁ rows₂ v := by
    simp only [reweight_withRows]
    cases rowWeighting vis g c with
    | error fault => simp [bind, Except.bind]
    | ok weigh =>
      show (List.mapM weigh (rows₁ ++ rows₂)).map vis.withRows = .ok v ↔ ∃ v₁ v₂,
        (List.mapM weigh rows₁).map vis.withRows = .ok v₁ ∧
        (List.mapM weigh rows₂).map vis.withRows = .ok v₂ ∧ _
      rw [List.mapM_append]
      cases List.mapM weigh rows₁ with
      | error fault => simp [Except.map, bind, Except.bind]
      | ok results₁ =>
        cases List.mapM weigh rows₂ with
        | error fault => simp [Except.map, bind, Except.bind]
        | ok results₂ =>
          simp [Except.map, bind, Except.bind, pure, Except.pure, Visibility.withRows, eq_comm]
  keeps rows v h := by
    rw [reweight_withRows] at h
    obtain ⟨weigh, -, h⟩ := exists_of_bind h
    cases hrows : rows.mapM weigh with
    | error fault => rw [hrows] at h; cases h
    | ok results => rw [hrows] at h; cases h; rfl
  length rows v h := by
    rw [reweight_withRows] at h
    obtain ⟨weigh, -, h⟩ := exists_of_bind h
    cases hrows : rows.mapM weigh with
    | error fault => rw [hrows] at h; cases h
    | ok results =>
      rw [hrows] at h
      cases h
      exact (mapM_eq_ok_iff.1 hrows).length_eq.symm

end Parts

end ApertureSynthesis.Workflow
