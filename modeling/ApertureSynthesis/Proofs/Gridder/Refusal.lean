/-
  What refused operations leave of a gridder.

  Past the first stage an operation on a pass that is refused keeps the axes, the cache and the
  corrector. It also keeps the stage and the counters, with one exception: gridding and predicting
  open a pass before they look at what they are given, so that a refusal outside a pass leaves a new
  pass open, with nothing counted (`Operation.after_of_refused`). A run of refused operations
  therefore leaves the gridder as it was, or as the start of one pass leaves it (`run_of_refused`),
  and the end of a pass stays refused exactly as long as none of them grids or predicts
  (`refused_run_keeps`). An image that is finished loses its counters this way (`refused_reopens`).
-/
import Mathlib
import ApertureSynthesis.Proofs.Gridder.History
import ApertureSynthesis.Proofs.Gridder.Passes
import ApertureSynthesis.Proofs.Gridder.Reading

namespace ApertureSynthesis.Gridder

variable {α : Type} [Scalar α] {nchan npol : ℕ} {s : Gridder α}

/-! ## Operations on a pass -/

namespace Operation

/-- Gridding and predicting, which start a pass unless one is open. -/
def OpensPass : Operation α → Prop
  | reverse _ _ _ | reverseWeights _ _ _ | forward _ _ => True
  | _ => False

/-- What is done with a pass: gridding and predicting, the transform of a model and the end of the
    pass. -/
def OnPass : Operation α → Prop
  | modelToGrid _ | finalize _ _ _ => True
  | op => op.OpensPass

theorem OnPass.not_prepares {op : Operation α} (h : op.OnPass) : ¬ op.Prepares := by
  rintro ⟨axes, rfl⟩
  exact h

/-- An action is refused if it is when its result is not looked at. -/
theorem error_of_act {β γ : Type} {x : Action α β} {f : β → γ} {fault : Fault α}
    (h : (outcome (do let a ← x; return f a) s).1 = .error fault) :
    (outcome x s).1 = .error fault := by
  rcases hx : outcome x s with ⟨fault' | a, s'⟩
  · rw [outcome_bind_error hx] at h
    exact congrArg Except.error (Except.error.inj h)
  · rw [outcome_bind_ok hx rfl] at h
    cases h

theorem griddingEvents_of_refused {how : Grid.Contribution α} {vis : Visibility α nchan npol}
    {grid : Option (Grid α)} {sums : Option (Tensor α)} {fault : Fault α}
    (h : (outcome (do complete (← accumulate how vis grid sums)) s).1 = .error fault) :
    griddingEvents how vis grid sums s = opening s := by
  rw [griddingEvents, h]
  exact List.append_nil _

/-- A refused operation opens a pass, if it grids or predicts, and does nothing else. -/
theorem events_of_refused {op : Operation α} (hop : op.OnPass) (h : op.Refused s) :
    op.OpensPass ∧ op.events s = opening s ∨ ¬ op.OpensPass ∧ op.events s = [] := by
  obtain ⟨fault, h⟩ := h
  cases op with
  | prepare axes => exact hop.elim
  | beginPass => exact hop.elim
  | createGrid => exact hop.elim
  | reverse vis grid sums =>
    rw [act, ← bind_assoc] at h
    exact .inl ⟨trivial, griddingEvents_of_refused (error_of_act h)⟩
  | reverseWeights vis grid sums =>
    rw [act, ← bind_assoc] at h
    exact .inl ⟨trivial, griddingEvents_of_refused (error_of_act h)⟩
  | forward vis grid =>
    refine .inl ⟨trivial, ?_⟩
    rw [events, predictionEvents, error_of_act h]
    exact List.append_nil _
  | modelToGrid model => exact .inr ⟨id, rfl⟩
  | finalize grid sums normalize =>
    refine .inr ⟨id, ?_⟩
    rw [events, error_of_act h]

/-- A refused operation leaves a gridder as it is, or as the start of a pass leaves it. -/
theorem after_of_refused (hs : s.stage ≠ .unconfigured) {op : Operation α} (hop : op.OnPass)
    (h : op.Refused s) :
    op.OpensPass ∧ op.after s = replay (opening s) s ∨ ¬ op.OpensPass ∧ op.after s = s := by
  rw [op.after_eq_replay hs hop.not_prepares]
  obtain ⟨hopens, hevents⟩ | ⟨hopens, hevents⟩ := events_of_refused hop h
  · exact .inl ⟨hopens, by rw [hevents]⟩
  · exact .inr ⟨hopens, by rw [hevents]; rfl⟩

end Operation

open Operation

/-! ## Runs of refused operations -/

theorem replay_opening_of_active (h : s.stage = .active) : replay (opening s) s = s := by
  rw [opening, if_pos h]
  rfl

theorem replay_opening_of_idle (h : s.stage ≠ .active) :
    replay (opening s) s = { s with stage := .active, statistics := .zero } := by
  rw [opening, if_neg h]
  rfl

theorem stage_replay_opening (s : Gridder α) : (replay (opening s) s).stage = .active := by
  by_cases h : s.stage = .active
  · rwa [replay_opening_of_active h]
  · rw [replay_opening_of_idle h]

/-- Each operation of a run is refused where it stands. -/
def AllRefused : List (Operation α) → Gridder α → Prop
  | [], _ => True
  | op :: ops, s => op.Refused s ∧ AllRefused ops (op.after s)

/-- Refused operations leave a gridder as it is, unless one of them grids or predicts: then they
    leave it as the start of a pass leaves it. -/
theorem run_of_refused {ops : List (Operation α)} (hops : ∀ op ∈ ops, op.OnPass)
    (hs : s.stage ≠ .unconfigured) (h : AllRefused ops s) :
    (∃ op ∈ ops, op.OpensPass) ∧ run ops s = replay (opening s) s ∨
      (∀ op ∈ ops, ¬ op.OpensPass) ∧ run ops s = s := by
  induction ops generalizing s with
  | nil => exact .inr ⟨nofun, rfl⟩
  | cons op ops ih =>
    obtain ⟨hrefused, hrest⟩ := h
    have hrun : run (op :: ops) s = run ops (op.after s) := rfl
    have ih :=
      fun hs => ih (fun o ho => hops o (List.mem_cons_of_mem op ho)) (s := op.after s) hs hrest
    rw [hrun]
    obtain ⟨hopens, hafter⟩ | ⟨hopens, hafter⟩ :=
      after_of_refused hs (hops op List.mem_cons_self) hrefused
    · -- from here on a pass is open, and the others keep everything
      have hactive : (op.after s).stage = .active := by rw [hafter, stage_replay_opening]
      have hrest : run ops (op.after s) = op.after s := by
        obtain ⟨-, hrun⟩ | ⟨-, hrun⟩ := ih (by rw [hactive]; exact Stage.noConfusion)
        · rw [hrun, replay_opening_of_active hactive]
        · exact hrun
      exact .inl ⟨⟨op, List.mem_cons_self, hopens⟩, hrest.trans hafter⟩
    · rw [hafter] at ih ⊢
      obtain ⟨⟨o, ho, hopens⟩, hrun⟩ | ⟨hnone, hrun⟩ := ih hs
      · exact .inl ⟨⟨o, List.mem_cons_of_mem op ho, hopens⟩, hrun⟩
      · exact .inr ⟨List.forall_mem_cons.2 ⟨hopens, hnone⟩, hrun⟩

theorem finalize_refused_of_idle (h : s.stage ≠ .active) (grid : Grid α) (sums : Tensor α)
    (normalize : Bool) : Refused (.finalize grid sums normalize) s := by
  obtain ⟨fault, hout⟩ | ⟨hactive, -⟩ := outcome_finalize_cases grid sums normalize s
  · have hact : outcome (Operation.finalize grid sums normalize).act s = (.error fault, s) :=
      outcome_bind_error hout
    exact ⟨fault, by rw [hact]⟩
  · exact absurd hactive h

/-- Refused operations on a gridder past the first stage keep axes, cache and corrector. In a pass
    they keep the stage and the counters too, and outside one they do so unless one of them grids or
    predicts; the end of a pass is then still refused. Gridding or predicting that is refused
    outside a pass opens one, with nothing counted. -/
theorem refused_run_keeps (hs : s.stage ≠ .unconfigured) {ops : List (Operation α)}
    (hops : ∀ op ∈ ops, op.OnPass) (h : AllRefused ops s) :
    (run ops s).axes = s.axes ∧ (run ops s).cache = s.cache ∧ (run ops s).corrector = s.corrector ∧
    (s.stage = .active → run ops s = s) ∧
    ((∀ op ∈ ops, ¬ op.OpensPass) → run ops s = s ∧
      (s.stage ≠ .active →
        ∀ grid sums normalize, Refused (.finalize grid sums normalize) (run ops s))) ∧
    (s.stage ≠ .active → (∃ op ∈ ops, op.OpensPass) →
      run ops s = { s with stage := .active, statistics := .zero }) := by
  obtain ⟨⟨op, hmem, hopens⟩, hrun⟩ | ⟨hnone, hrun⟩ := run_of_refused hops hs h
  · rw [hrun]
    refine ⟨axes_replay, cache_replay, corrector_replay, replay_opening_of_active, fun hnone => ?_,
      fun hidle _ => replay_opening_of_idle hidle⟩
    exact absurd hopens (hnone op hmem)
  · rw [hrun]
    refine ⟨rfl, rfl, rfl, fun _ => rfl, fun _ => ⟨rfl, finalize_refused_of_idle⟩, fun _ => ?_⟩
    rintro ⟨op, hmem, hopens⟩
    exact absurd hopens (hnone op hmem)

/-! ## A finished pass that is opened again -/

/-- A grid of another shape than the axes is refused for gridding. -/
theorem reverse_refused_of_shape (hs : s.stage ≠ .unconfigured) {axes : Axes α}
    (haxes : s.axes = some axes) {grid : Grid α} (hshape : grid.shape.map Int.ofNat ≠ axes.shape)
    (vis : Visibility α nchan npol) (sums : Option (Tensor α)) :
    Refused (.reverse vis (some grid) sums) s := by
  have hopened : (replay (opening s) s).axes = some axes := by rw [axes_replay, haxes]
  have htheAxes : outcome theAxes (replay (opening s) s) = (.ok axes, replay (opening s) s) := by
    rw [theAxes, outcome_bind_ok (outcome_get _) rfl, hopened]
    rfl
  have hcheck : outcome (checkGrid grid) (replay (opening s) s) =
      (.error (.gridShape grid.shape axes.shape), replay (opening s) s) := by
    rw [checkGrid, outcome_bind_ok htheAxes rfl, if_pos hshape]
    rfl
  have hinto : outcome (ownGrid (some grid) >>= gridInto .visibilities vis sums)
      (replay (opening s) s) = (.error (.gridShape grid.shape axes.shape), replay (opening s) s) :=
    outcome_bind_ok rfl (outcome_bind_error hcheck)
  have hreverse : ∃ fault, outcome (Gridder.reverse vis (some grid) sums) s =
      (.error fault, replay (opening s) s) := by
    rw [Gridder.reverse, accumulate_eq]
    obtain ⟨fault, h⟩ | h :=
      outcome_ensurePass (x := ownGrid (some grid) >>= gridInto .visibilities vis sums) hs
    · exact ⟨fault, h⟩
    · exact ⟨_, h.trans hinto⟩
  obtain ⟨fault, hout⟩ := hreverse
  have hact : outcome (Operation.reverse vis (some grid) sums).act s =
      (.error fault, replay (opening s) s) :=
    outcome_bind_error hout
  exact ⟨fault, by rw [hact]⟩

/-- The grid that is made for three rows of four pixels, and sums of weights for it. -/
noncomputable def ownPass : Grid ℝ × Tensor ℝ :=
  ((Grid.ofAxes Setup.smallAxes).toOption.getD Grid.smallGrid, Tensor.fill [1, 1] 0)

/-- The end of this pass. -/
noncomputable def endOwnPass : Operation ℝ := .finalize ownPass.1 ownPass.2 false

/-- Gridding onto a grid that has too few columns. -/
noncomputable def reverseNarrow : Operation ℝ :=
  .reverse Grid.quarterVisibility (some Grid.smallGrid) none

/-- A gridder for the box function, after a pass over two rows, one of them flagged. -/
noncomputable def finishedGridder : Gridder ℝ :=
  run [.reverse Grid.quarterVisibility none none, endOwnPass] boxGridder

theorem exists_finishedGridder :
    ∃ (σ : Setup) (counted : Statistics), σ.Bounded ∧ σ.axes = Setup.smallAxes ∧
    σ.grid = ownPass.1 ∧ finishedGridder = σ.inStage .finalized counted ∧ counted.flagged = 1 := by
  obtain ⟨σ, hb, hvariant, hinterpolation, haxes, -, -⟩ := Setup.exists_small
  have hgrid : σ.grid = ownPass.1 := by
    rw [ownPass, ← haxes, Setup.ofAxes_eq hb]
    rfl
  have hbox : boxGridder = σ.inStage .initialized .zero := by
    have hprepare :=
      prepare_ok (new σ.variant (some σ.axes) σ.interpolation) σ.cellSize_axes σ.built σ.corrected
    rw [hvariant, hinterpolation, haxes] at hprepare
    rw [Setup.inStage, hvariant, hinterpolation, haxes]
    exact congrArg Prod.snd (prepare_boxGridder.symm.trans hprepare)
  obtain ⟨map, hmap, hfit⟩ := σ.fit_grid (by rw [haxes]; decide) (by rw [haxes]; rfl)
    (show Grid.quarterVisibility.bare = false from rfl) rfl
  obtain ⟨d, hd, hadds⟩ := Grid.addVisibilities_adds (hfit σ.grid (.refl _)) σ.interpolation none
    fun _ ht => absurd ht (Option.not_mem_none _)
  have hgridded : σ.gridded .visibilities Grid.quarterVisibility = .ok d :=
    (Setup.gridded_eq_ok_of_bounded hb).2 ⟨map, hmap, hd⟩
  -- the first operation starts a pass and counts, the second ends it
  have hstart : Action.Yields ensurePrepared (σ.inStage .initialized .zero) ()
      (σ.inStage .initialized .zero) :=
    Setup.yields_ensurePrepared .zero Stage.noConfusion
  have hpass : Action.Yields ensurePass (σ.inStage .initialized .zero) ()
      (σ.inStage .active .zero) :=
    outcome_bind_ok (outcome_get _)
      (outcome_bind_ok (Setup.yields_beginPass .zero hb Stage.noConfusion) rfl)
  have hreverse :=
    Setup.outcome_accumulate .visibilities Grid.quarterVisibility hb hstart hpass (.inl rfl)
      (.inl rfl)
  rw [hgridded] at hreverse
  obtain ⟨image, -, hfinalize, -⟩ := Setup.exists_finalize hb (.refl σ.grid)
    (show ownPass.2.shape = [σ.grid.nchan, σ.grid.npol] by rw [hgrid]; rfl) false
    (.zero + d.statistics)
  have hafter : (Operation.reverse Grid.quarterVisibility none none).after boxGridder =
      σ.inStage .active (.zero + d.statistics) := by
    rw [hbox, Operation.after, Operation.act, ← bind_assoc]
    exact (snd_bind_pure _ _ _).trans (congrArg Prod.snd hreverse)
  have hend : endOwnPass.after (σ.inStage .active (.zero + d.statistics)) =
      σ.inStage .finalized (.zero + d.statistics) := by
    rw [endOwnPass, ← hgrid]
    exact (snd_bind_pure _ _ _).trans (congrArg Prod.snd hfinalize)
  refine ⟨σ, .zero + d.statistics, hb, haxes, hgrid, ?_, ?_⟩
  · show endOwnPass.after ((Operation.reverse Grid.quarterVisibility none none).after boxGridder) =
        _
    rw [hafter, hend]
  · have hflagged := (Grid.deposit_counters hd).1
    rw [Statistics.zero_add, hflagged]
    rfl

/-- What is refused after the pass, and how gridding that is refused leaves the gridder. -/
theorem finishedGridder_refusals :
    finishedGridder.stage = .finalized ∧ finishedGridder.statistics.flagged = 1 ∧
    endOwnPass.Refused finishedGridder ∧ reverseNarrow.Refused finishedGridder ∧
    ¬ endOwnPass.Refused { finishedGridder with stage := .active, statistics := .zero } := by
  obtain ⟨σ, counted, hb, haxes, hgrid, hfinished, hflagged⟩ := exists_finishedGridder
  rw [hfinished]
  refine ⟨rfl, hflagged, finalize_refused_of_idle Stage.noConfusion _ _ _, ?_, ?_⟩
  · refine reverse_refused_of_shape Stage.noConfusion rfl ?_ _ _
    rw [haxes]
    decide
  · obtain ⟨image, -, hfinalize, -⟩ := Setup.exists_finalize hb (.refl σ.grid)
      (show ownPass.2.shape = [σ.grid.nchan, σ.grid.npol] by rw [hgrid]; rfl) false .zero
    rw [hgrid] at hfinalize
    have hact : outcome endOwnPass.act (σ.inStage .active .zero) =
        (.ok (), σ.inStage .finalized .zero) :=
      outcome_bind_ok hfinalize rfl
    rintro ⟨fault, hrefused⟩
    have hok : (outcome endOwnPass.act (σ.inStage .active .zero)).1 = .error fault := hrefused
    rw [hact] at hok
    cases hok

theorem configured_finishedGridder : finishedGridder.stage ≠ .unconfigured := by
  rw [finishedGridder_refusals.1]
  exact Stage.noConfusion

/-- The end of a pass is refused after the pass, and keeps everything; then gridding is refused. -/
theorem allRefused_finishedGridder : AllRefused [endOwnPass, reverseNarrow] finishedGridder := by
  obtain ⟨-, -, hend, hnarrow, -⟩ := finishedGridder_refusals
  have hafter : endOwnPass.after finishedGridder = finishedGridder := by
    obtain ⟨hopens, -⟩ | ⟨-, hafter⟩ :=
      after_of_refused configured_finishedGridder (show endOwnPass.OnPass from trivial) hend
    · exact hopens.elim
    · exact hafter
  refine ⟨hend, ?_, trivial⟩
  rwa [hafter]

theorem refused_run_keeps_finishedGridder :
    finishedGridder.stage ≠ .unconfigured ∧ (∀ op ∈ [endOwnPass, reverseNarrow], op.OnPass) ∧
    AllRefused [endOwnPass, reverseNarrow] finishedGridder ∧
    run [endOwnPass, reverseNarrow] finishedGridder =
      { finishedGridder with stage := .active, statistics := .zero } := by
  have honpass : ∀ op ∈ [endOwnPass, reverseNarrow], op.OnPass := by
    simp [endOwnPass, reverseNarrow, OnPass, OpensPass]
  obtain ⟨-, -, -, -, -, hopened⟩ :=
    refused_run_keeps configured_finishedGridder honpass allRefused_finishedGridder
  refine ⟨configured_finishedGridder, honpass, allRefused_finishedGridder, hopened ?_ ?_⟩
  · rw [finishedGridder_refusals.1]
    exact Stage.noConfusion
  · exact ⟨reverseNarrow, by simp, trivial⟩

/-- Gridding onto a grid of the wrong shape is refused, and yet a finished gridder is in a pass
    afterwards, its counters are lost, and the end of a pass is no longer refused. -/
theorem refused_reopens :
    finishedGridder.stage = .finalized ∧ finishedGridder.statistics ≠ .zero ∧
    endOwnPass.Refused finishedGridder ∧ reverseNarrow.Refused finishedGridder ∧
    (reverseNarrow.after finishedGridder).stage = .active ∧
    (reverseNarrow.after finishedGridder).statistics = .zero ∧
    ¬ endOwnPass.Refused (reverseNarrow.after finishedGridder) := by
  obtain ⟨hstage, hflagged, hend, hnarrow, hopened⟩ := finishedGridder_refusals
  have hafter : reverseNarrow.after finishedGridder =
      { finishedGridder with stage := .active, statistics := .zero } := by
    rw [← replay_opening_of_idle (by rw [hstage]; exact Stage.noConfusion)]
    obtain ⟨-, hafter⟩ | ⟨hcloses, -⟩ :=
      after_of_refused configured_finishedGridder (show reverseNarrow.OnPass from trivial) hnarrow
    · exact hafter
    · exact absurd trivial hcloses
  refine ⟨hstage, fun hzero => ?_, hend, hnarrow, ?_, ?_, ?_⟩
  · rw [hzero] at hflagged
    exact absurd hflagged (by decide)
  · rw [hafter]
  · rw [hafter]
  · rwa [hafter]

end ApertureSynthesis.Gridder
