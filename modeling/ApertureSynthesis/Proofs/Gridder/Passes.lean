/-
  Passes do not influence each other.

  A `Call` is an operation of a gridder, or one of the functions for imaging, prediction and
  weighting that are built on them; `Call.operations` says which operations it makes. So a run of
  calls has the history of the operations that it makes (`after_eq_replay`), and `passes_apart`
  reads from it what any run after one successful initialization keeps: the cache and the corrector,
  that an image needs a pass of its own, and that the counters are those of the last pass.

  An image and a prediction come out as on a fresh gridder. Two gridders that agree up to stage and
  counters begin a pass with the same outcome, so what is computed from there is the same
  (`outcome_beginPass_eq`). Prediction may go on in an open pass, but reads neither stage nor
  counters (`fst_predict`).
-/
import Mathlib
import ApertureSynthesis.Proofs.Gridder.History
import ApertureSynthesis.Proofs.Gridder.Matching

namespace ApertureSynthesis.Gridder

variable {α : Type} [Scalar α]

/-! ## Calls -/

/-- What is called of a gridder: its operations, and what is built on them. -/
inductive Call (α : Type) [Scalar α] where
  /-- An operation. -/
  | operation (op : Operation α)
  /-- Makes the image of visibilities, or the point spread function. -/
  | invert {nchan npol : ℕ} (vis : Visibility α nchan npol) (psf normalize : Bool)
  /-- Predicts visibilities from a model. -/
  | predict {nchan npol : ℕ} (vis : Visibility α nchan npol) (model : Image α)
  /-- Weights visibilities as a setting says. -/
  | weight {nchan npol : ℕ} (vis : Visibility α nchan npol) (weighting : Setting α)

namespace Call

/-- A call as an action, whatever it gives. -/
def act : Call α → Action α Unit
  | operation op => op.act
  | invert vis psf normalize => do let _ ← Gridder.invert vis psf normalize
  | predict vis model => do let _ ← Gridder.predict vis model
  | weight vis weighting => do let _ ← Gridder.weight vis (← lift (Weighting.check weighting))

/-- The gridder after a call, also one that is refused. -/
def after (call : Call α) (s : Gridder α) : Gridder α := (outcome call.act s).2

/-- The operations that a call makes. One that is refused is the last. -/
def operations (s : Gridder α) : Call α → List (Operation α)
  | operation op => [op]
  | invert vis psf normalize =>
    .beginPass :: match outcome Gridder.beginPass s with
      | (.error _, _) => []
      | (.ok (grid, sums), begun) =>
        let vis := if psf then vis.unit else vis
        .reverse vis (some grid) (some sums) ::
          match (outcome (do complete (← Gridder.reverse vis (some grid) (some sums))) begun).1 with
          | .error _ => []
          | .ok d => [.finalize d.grid d.sumWeights normalize]
  | predict vis model =>
    .modelToGrid model :: match (outcome (Gridder.modelToGrid model) s).1 with
      | .error _ => []
      | .ok grid => [.forward vis grid]
  | weight vis weighting =>
    match Weighting.check weighting with
    | .ok .uniform => [.reverseWeights vis none none]
    | _ => []

end Call

theorem snd_beginPass (s : Gridder α) : Operation.beginPass.after s = (outcome beginPass s).2 :=
  snd_bind_pure _ _ s

theorem snd_reverse {nchan npol : ℕ} (vis : Visibility α nchan npol) (grid : Option (Grid α))
    (sums : Option (Tensor α)) (s : Gridder α) : (Operation.reverse vis grid sums).after s =
      (outcome (do complete (← reverse vis grid sums)) s).2 := by
  rw [Operation.after, Operation.act, ← bind_assoc]
  exact snd_bind_pure _ _ s

theorem snd_reverseWeights {nchan npol : ℕ} (vis : Visibility α nchan npol) (grid : Option (Grid α))
    (sums : Option (Tensor α)) (s : Gridder α) : (Operation.reverseWeights vis grid sums).after s =
      (outcome (do complete (← reverseWeights vis grid sums)) s).2 := by
  rw [Operation.after, Operation.act, ← bind_assoc]
  exact snd_bind_pure _ _ s

namespace Call

variable {nchan npol : ℕ} (vis : Visibility α nchan npol) (s : Gridder α)

/-- Imaging begins a pass, grids into it and, if that did not fail, finalizes it. -/
theorem after_invert (psf normalize : Bool) :
    (invert vis psf normalize).after s = run ((invert vis psf normalize).operations s) s := by
  refine (snd_bind_pure _ _ s).trans ?_
  rw [Gridder.invert, operations]
  rcases hbegin : outcome beginPass s with ⟨fault | ⟨grid, sums⟩, begun⟩
  · rw [outcome_bind_error hbegin]
    exact (congrArg Prod.snd hbegin).symm.trans (snd_beginPass s).symm
  have hfirst : Operation.beginPass.after s = begun := by rw [snd_beginPass, hbegin]
  rw [outcome_bind_ok hbegin rfl]
  dsimp only
  rw [← bind_assoc]
  generalize (if psf then vis.unit else vis) = own
  have hreverse := snd_reverse own (some grid) (some sums) begun
  rcases hd : outcome (do complete (← Gridder.reverse own (some grid) (some sums))) begun with
    ⟨fault | d, s'⟩
  · rw [hd] at hreverse
    rw [outcome_bind_error hd]
    show s' = (Operation.reverse own (some grid) (some sums)).after (Operation.beginPass.after s)
    rw [hfirst, hreverse]
  · rw [hd] at hreverse
    rw [outcome_bind_ok hd rfl]
    show _ = (Operation.finalize d.grid d.sumWeights normalize).after
      ((Operation.reverse own (some grid) (some sums)).after (Operation.beginPass.after s))
    rw [hfirst, hreverse]
    exact (snd_bind_pure _ _ s').trans (snd_bind_pure _ _ s').symm

/-- Prediction makes the grid of the model and, if that did not fail, predicts from it. -/
theorem after_predict (model : Image α) :
    (predict vis model).after s = run ((predict vis model).operations s) s := by
  refine (snd_bind_pure _ _ s).trans ?_
  rw [Gridder.predict, operations]
  have hmodel : (Operation.modelToGrid model).after s = (outcome (modelToGrid model) s).2 :=
    snd_bind_pure _ _ s
  rcases hgrid : outcome (modelToGrid model) s with ⟨fault | grid, s'⟩
  · rw [outcome_bind_error hgrid]
    rw [hgrid] at hmodel
    exact hmodel.symm
  · rw [hgrid] at hmodel
    rw [outcome_bind_ok hgrid rfl]
    show _ = (Operation.forward vis grid).after ((Operation.modelToGrid model).after s)
    rw [hmodel]
    exact (snd_bind_pure _ _ s').symm

/-- Uniform weighting grids the weights; other weightings leave the gridder alone. -/
theorem after_weight (weighting : Setting α) :
    (weight vis weighting).after s = run ((weight vis weighting).operations s) s := by
  rw [Call.after, act, operations]
  cases hcheck : Weighting.check weighting with
  | error fault => rfl
  | ok kind =>
    rw [outcome_bind_ok (outcome_lift rfl s) rfl]
    refine (snd_bind_pure _ _ s).trans ?_
    cases kind with
    | natural => rfl
    | uniform =>
      -- reweighting reads the gridder only
      have hread : ∀ (d : Grid.Deposit α) (s' : Gridder α),
          (outcome (do lift (Grid.reweight vis d.grid (← theCache))) s').2 = s' := fun d s' =>
        ((keeps_part cache).bind fun _ => .of_snd fun _ => rfl : Keeps (· = s') _) s' rfl
      show (outcome _ s).2 = (Operation.reverseWeights vis none none).after s
      rw [snd_reverseWeights, Gridder.weight, ← bind_assoc]
      exact snd_outcome_bind
        (P := (· = (outcome (do complete (← Gridder.reverseWeights vis none none)) s).2)) rfl
        fun d s' h => (hread d s').trans h

/-- A call leaves the gridder as the operations do that it makes. -/
theorem after_eq_run (call : Call α) (s : Gridder α) :
    call.after s = run (call.operations s) s := by
  cases call with
  | operation op => rfl
  | invert vis psf normalize => exact after_invert vis s psf normalize
  | predict vis model => exact after_predict vis s model
  | weight vis weighting => exact after_weight vis s weighting

end Call

/-- The gridder after a run of calls. -/
def afterCalls (calls : List (Call α)) (s : Gridder α) : Gridder α :=
  calls.foldl (fun s call => call.after s) s

/-- The operations that a run of calls makes. -/
def operationsOf : List (Call α) → Gridder α → List (Operation α)
  | [], _ => []
  | call :: calls, s => call.operations s ++ operationsOf calls (call.after s)

theorem afterCalls_eq_run (calls : List (Call α)) (s : Gridder α) :
    afterCalls calls s = run (operationsOf calls s) s := by
  induction calls generalizing s with
  | nil => rfl
  | cons call calls ih =>
    show afterCalls calls (call.after s) =
        run (call.operations s ++ operationsOf calls (call.after s)) s
    rw [ih, run_append, ← call.after_eq_run]

/-- The call is an initialization. -/
def Call.Prepares (call : Call α) : Prop := ∃ axes, call = .operation (.prepare axes)

/-- Only an initialization initializes. -/
theorem Call.not_prepares {call : Call α} (h : ¬ call.Prepares) {s : Gridder α} {op : Operation α}
    (hop : op ∈ call.operations s) : ¬ op.Prepares := by
  rintro ⟨axes, rfl⟩
  cases call with
  | operation op =>
    obtain rfl := List.mem_singleton.1 hop
    exact h ⟨axes, rfl⟩
  | invert vis psf normalize =>
    have hop := (List.mem_cons.1 hop).resolve_left nofun
    split at hop
    · exact List.not_mem_nil hop
    · have hop := (List.mem_cons.1 hop).resolve_left nofun
      split at hop
      · exact List.not_mem_nil hop
      · exact nomatch List.mem_singleton.1 hop
  | predict vis model =>
    have hop := (List.mem_cons.1 hop).resolve_left nofun
    split at hop
    · exact List.not_mem_nil hop
    · exact nomatch List.mem_singleton.1 hop
  | weight vis weighting =>
    rw [operations] at hop
    split at hop
    · exact nomatch List.mem_singleton.1 hop
    · exact List.not_mem_nil hop

theorem not_prepares_operationsOf {calls : List (Call α)} (h : ∀ call ∈ calls, ¬ call.Prepares)
    (s : Gridder α) : ∀ op ∈ operationsOf calls s, ¬ op.Prepares := by
  induction calls generalizing s with
  | nil => exact fun op hop => absurd hop List.not_mem_nil
  | cons call calls ih =>
    intro op hop
    rcases List.mem_append.1 hop with hop | hop
    · exact Call.not_prepares (h call List.mem_cons_self) hop
    · exact ih (fun c hc => h c (List.mem_cons_of_mem call hc)) _ op hop

/-! ## Gridders that agree up to stage and counters -/

/-- Gridders past the first stage that differ at most in stage and counters. -/
structure Agree (s t : Gridder α) : Prop where
  /-- All else is the same. -/
  eq : t = { s with stage := t.stage, statistics := t.statistics }
  /-- Both are past the first stage. -/
  configured_left : s.stage ≠ .unconfigured
  configured_right : t.stage ≠ .unconfigured

section Agree

variable {β γ : Type} {s t u : Gridder α} {nchan npol : ℕ}

theorem Agree.symm (h : Agree s t) : Agree t s :=
  ⟨by rw [h.eq], h.configured_right, h.configured_left⟩

theorem Agree.trans (h : Agree s t) (h' : Agree t u) : Agree s u :=
  ⟨by rw [h'.eq, h.eq], h.configured_left, h'.configured_right⟩

theorem Agree.part (h : Agree s t) (part : Gridder α → β)
    (hpart : ∀ s stage statistics,
      part { s with stage := stage, statistics := statistics } = part s) :
    part t = part s := by
  rw [h.eq, hpart]

/-- Whatever happens to the passes of a gridder, it agrees with what it was. -/
theorem agree_replay (log : List Event) (hs : s.stage ≠ .unconfigured) : Agree s (replay log s) :=
  ⟨replay_eq log s, hs, configured_replay hs⟩

theorem Agree.replay (h : Agree s t) (log : List Event) : Agree (replay log s) (replay log t) :=
  (agree_replay log h.configured_left).symm.trans (h.trans (agree_replay log h.configured_right))

/-- Initializations for the same axes build the same. -/
theorem agree_of_prepare {s' t' : Gridder α} {given given' : Option (Axes α)}
    (hs : outcome (prepare given) s = (.ok (), s')) (ht : outcome (prepare given') t = (.ok (), t'))
    (hvariant : t.variant = s.variant) (hinterpolation : t.interpolation = s.interpolation)
    (haxes : t'.axes = s'.axes) : Agree s' t' := by
  obtain ⟨a, cell, cache, corrector, hcell, hcache, hcorrector, rfl⟩ := exists_of_prepare hs
  obtain ⟨a', cell', cache', corrector', hcell', hcache', hcorrector', rfl⟩ := exists_of_prepare ht
  obtain rfl : a' = a := Option.some.inj haxes
  obtain rfl : cell' = cell := Except.ok.inj (hcell'.symm.trans hcell)
  rw [hvariant] at hcache'
  obtain rfl : cache' = cache := Except.ok.inj (hcache'.symm.trans hcache)
  obtain rfl : corrector' = corrector := Except.ok.inj (hcorrector'.symm.trans hcorrector)
  exact ⟨by rw [hvariant, hinterpolation], Stage.noConfusion, Stage.noConfusion⟩

/-- An action that does not tell gridders apart that agree. -/
def Lockstep (x : Action α β) : Prop :=
  ∀ s t, Agree s t → (outcome x t).1 = (outcome x s).1 ∧ Agree (outcome x s).2 (outcome x t).2

theorem lockstep_iff_matches {x : Action α β} : Lockstep x ↔ Matches Agree (· = ·) x x :=
  matches_eq_iff.symm

theorem Lockstep.of_snd {x : Action α β} (r : Except (Fault α) β) (h : ∀ s, outcome x s = (r, s)) :
    Lockstep x := by
  intro s t hst
  rw [h s, h t]
  exact ⟨rfl, hst⟩

theorem Lockstep.lift (x : Except (Fault α) β) : Lockstep (lift x) :=
  lockstep_iff_matches.2 (.lift x)

theorem Lockstep.bind {x : Action α β} {f : β → Action α γ} (hx : Lockstep x)
    (hf : ∀ a, Lockstep (f a)) :
    Lockstep (x >>= f) :=
  lockstep_iff_matches.2
    ((lockstep_iff_matches.1 hx).andThen fun a => lockstep_iff_matches.1 (hf a))

/-- A gridder may be read, if the same follows for those that agree. -/
theorem Lockstep.get {f : Gridder α → Action α β} (hsame : ∀ s t, Agree s t → f t = f s)
    (h : ∀ s, Lockstep (f s)) : Lockstep (get >>= f) := by
  intro s t hst
  rw [outcome_bind_ok (outcome_get s) rfl, outcome_bind_ok (outcome_get t) rfl, hsame s t hst]
  exact h s s t hst

theorem Lockstep.need (part : Option β) : Lockstep (need part : Action α β) :=
  lockstep_iff_matches.2 (.need part)

theorem lockstep_theAxes : Lockstep (theAxes : Action α (Axes α)) :=
  .get (fun _ _ h => by rw [h.eq]) fun _ => .need _

theorem lockstep_theCache : Lockstep (theCache : Action α (Cache α)) :=
  .get (fun _ _ h => by rw [h.eq]) fun _ => .need _

theorem lockstep_theCorrector : Lockstep (theCorrector : Action α (Corrector α)) :=
  .get (fun _ _ h => by rw [h.eq]) fun _ => .need _

theorem lockstep_ensurePrepared : Lockstep (ensurePrepared : Action α Unit) := by
  intro s t h
  rw [ensurePrepared_of_configured h.configured_left,
    ensurePrepared_of_configured h.configured_right]
  exact ⟨rfl, h⟩

theorem lockstep_createGrid : Lockstep (createGrid : Action α (Grid α)) :=
  lockstep_ensurePrepared.bind fun _ => lockstep_theAxes.bind fun _ => .lift _

theorem lockstep_modelToGrid (model : Image α) : Lockstep (modelToGrid model) := by
  refine lockstep_ensurePrepared.bind fun _ => lockstep_theAxes.bind fun axes => ?_
  split
  · exact .of_snd _ fun _ => rfl
  · refine lockstep_theCorrector.bind fun _ => (Lockstep.lift _).bind fun corrected => ?_
    exact lockstep_createGrid.bind fun _ => .lift _

theorem lockstep_checkGrid (grid : Grid α) : Lockstep (checkGrid grid) := by
  refine lockstep_theAxes.bind fun axes => ?_
  split
  · exact .of_snd _ fun _ => rfl
  · exact .of_snd _ fun _ => rfl

theorem lockstep_predictFrom (vis : Visibility α nchan npol) (grid : Grid α) :
    Lockstep (predictFrom vis grid) := by
  refine (lockstep_checkGrid grid).bind fun _ => lockstep_theCache.bind fun cache => ?_
  refine .get (fun _ _ h => by rw [h.eq]) fun s => (Lockstep.lift _).bind fun map => ?_
  refine .get (fun _ _ h => by rw [h.eq]) fun s => (Lockstep.lift _).bind fun predicted => ?_
  exact Lockstep.bind (fun s t h => ⟨rfl, h.replay [.counted predicted.2]⟩) fun _ =>
    .of_snd _ fun _ => rfl

/-- Whatever passes there were, the next begins the same. -/
theorem outcome_beginPass_eq (h : Agree s t) : outcome beginPass t = outcome beginPass s := by
  have hopen : Event.started.apply t = Event.started.apply s := by rw [h.eq]; rfl
  rw [beginPass, outcome_bind_ok (ensurePrepared_of_configured h.configured_right) rfl,
    outcome_bind_ok (outcome_modify _ t) rfl,
    outcome_bind_ok (ensurePrepared_of_configured h.configured_left) rfl,
    outcome_bind_ok (outcome_modify _ s) rfl]
  exact congrArg (outcome _) hopen

/-- So an image is the same, and so is what it leaves. -/
theorem outcome_invert_eq (h : Agree s t) (vis : Visibility α nchan npol) (psf normalize : Bool) :
    outcome (invert vis psf normalize) t = outcome (invert vis psf normalize) s := by
  have hbegin := outcome_beginPass_eq h
  rw [invert]
  rcases hout : outcome beginPass s with ⟨fault | ⟨grid, sums⟩, begun⟩
  · rw [hout] at hbegin
    rw [outcome_bind_error hbegin, outcome_bind_error hout]
  · rw [hout] at hbegin
    rw [outcome_bind_ok hbegin rfl, outcome_bind_ok hout rfl]

/-- A pass is started, or open, wherever there is a grid for it. -/
theorem outcome_ensurePass_of_grid (hs : s.stage ≠ .unconfigured) {grid : Grid α}
    (hgrid : (outcome createGrid s).1 = .ok grid) :
    outcome ensurePass s = (.ok (), replay (opening s) s) := by
  rw [ensurePass, outcome_bind_ok (outcome_get s) rfl, opening]
  by_cases hactive : s.stage = .active
  · rw [if_neg (not_not.2 hactive), if_pos hactive]
    rfl
  · rw [if_pos hactive, if_neg hactive]
    have hstarted := agree_replay [.started] hs
    have hcreate : outcome createGrid (Event.started.apply s) = (.ok grid, Event.started.apply s) :=
      Prod.ext ((lockstep_createGrid s _ hstarted).1.trans hgrid)
        (snd_createGrid hstarted.configured_right)
    have hbegin : outcome beginPass s =
        (.ok (grid, Tensor.fill [grid.nchan, grid.npol] 0), Event.started.apply s) := by
      rw [beginPass, outcome_bind_ok (ensurePrepared_of_configured hs) rfl,
        outcome_bind_ok (outcome_modify _ s) rfl]
      exact outcome_bind_ok hcreate rfl
    exact outcome_bind_ok hbegin rfl

/-- What is predicted from a grid does not depend on the passes before. -/
theorem fst_forward (h : Agree s t) {own : Grid α} (hown : (outcome createGrid s).1 = .ok own)
    (vis : Visibility α nchan npol) (grid : Grid α) :
    (outcome (forward vis grid) t).1 = (outcome (forward vis grid) s).1 := by
  have hforward : ∀ u : Gridder α, Agree s u →
      outcome (forward vis grid) u = outcome (predictFrom vis grid) (replay (opening u) u) := by
    intro u hu
    have hpass :=
      outcome_ensurePass_of_grid hu.configured_right ((lockstep_createGrid s u hu).1.trans hown)
    exact (outcome_bind_ok (ensurePrepared_of_configured hu.configured_right) rfl).trans
      (outcome_bind_ok hpass rfl)
  have hs : Agree s s := h.trans h.symm
  have hopened : Agree (replay (opening s) s) (replay (opening t) t) :=
    (agree_replay _ hs.configured_left).symm.trans (h.trans (agree_replay _ h.configured_right))
  rw [hforward t h, hforward s hs]
  exact (lockstep_predictFrom vis grid _ _ hopened).1

/-- What succeeds, succeeds step by step. -/
theorem exists_of_outcome_bind {x : Action α β} {f : β → Action α γ} {r : γ}
    (h : (outcome (x >>= f) s).1 = .ok r) :
    ∃ a s', outcome x s = (.ok a, s') ∧ (outcome (f a) s').1 = .ok r := by
  rcases hout : outcome x s with ⟨fault | a, s'⟩
  · rw [outcome_bind_error hout] at h
    cases h
  · rw [outcome_bind_ok hout rfl] at h
    exact ⟨a, s', rfl, h⟩

/-- A model is transformed to a grid only where there is an empty one. -/
theorem exists_grid_of_modelToGrid (hs : s.stage ≠ .unconfigured) {model : Image α} {grid : Grid α}
    (h : (outcome (modelToGrid model) s).1 = .ok grid) :
    ∃ own, (outcome createGrid s).1 = .ok own := by
  have hsnd : ∀ {δ : Type} (part : Gridder α → Option δ),
      (outcome (do need (part (← get)) : Action α δ) s).2 = s :=
      fun part => keeps_part (P := (· = s)) part s rfl
  rw [modelToGrid, outcome_bind_ok (ensurePrepared_of_configured hs) rfl] at h
  obtain ⟨axes, s₁, haxes, hrest⟩ := exists_of_outcome_bind h
  obtain rfl : s = s₁ := (hsnd Gridder.axes).symm.trans (congrArg Prod.snd haxes)
  split at hrest
  · cases hrest
  · obtain ⟨corrector, s₂, hcorrector, hrest⟩ := exists_of_outcome_bind hrest
    obtain rfl : s = s₂ := (hsnd Gridder.corrector).symm.trans (congrArg Prod.snd hcorrector)
    obtain ⟨corrected, s₃, hcorrected, hrest⟩ := exists_of_outcome_bind hrest
    obtain rfl : s = s₃ := congrArg Prod.snd hcorrected
    obtain ⟨own, s₄, hown, -⟩ := exists_of_outcome_bind hrest
    exact ⟨own, congrArg Prod.fst hown⟩

/-- So a prediction is the same. -/
theorem fst_predict (h : Agree s t) (vis : Visibility α nchan npol) (model : Image α) :
    (outcome (predict vis model) t).1 = (outcome (predict vis model) s).1 := by
  obtain ⟨hmodel, hagree⟩ := lockstep_modelToGrid model s t h
  rw [predict]
  rcases hs : outcome (modelToGrid model) s with ⟨fault | grid, s'⟩ <;>
    rcases ht : outcome (modelToGrid model) t with ⟨fault' | grid', t'⟩ <;>
    rw [hs, ht] at hmodel hagree <;> cases hmodel
  · rw [outcome_bind_error hs, outcome_bind_error ht]
  · obtain ⟨own, hown⟩ := exists_grid_of_modelToGrid h.configured_left (congrArg Prod.fst hs)
    have hs' : s' = s := by rw [← snd_modelToGrid h.configured_left model, hs]
    rw [outcome_bind_ok hs rfl, outcome_bind_ok ht rfl]
    exact fst_forward hagree (hs'.symm ▸ hown) vis grid

end Agree

/-! ## Runs after an initialization -/

/-- A new gridder of the same kind, with the same interpolation, that was initialized for the same
    axes. -/
def FreshLike (s fresh : Gridder α) : Prop :=
  ∃ own given, outcome (prepare given) (new s.variant own s.interpolation) = (.ok (), fresh) ∧
    fresh.axes = s.axes

/-- Nothing that was done with the passes of a gridder `s` shows in the gridder `t` that it has
    become, apart from the counters of the last pass in the log. -/
structure PassesApart (s t : Gridder α) (log : List Event) : Prop where
  /-- The axes are the same, -/
  axes : t.axes = s.axes
  /-- and so are the cache -/
  cache : t.cache = s.cache
  /-- and the corrector. -/
  corrector : t.corrector = s.corrector
  /-- A pass is finalized only if it was started since the last one was finalized. -/
  finalized : ∀ before later, log = before ++ .finalized :: later →
    ∃ earlier since, before = earlier ++ .started :: since ∧ .finalized ∉ since
  /-- The counters are the total of what was counted since the last pass was started, -/
  counted : ∀ earlier since, log = earlier ++ .started :: since → .started ∉ since →
    t.statistics = .total (since.filterMap Event.counters?)
  /-- and are kept until one is started. -/
  unstarted : .started ∉ log → t.statistics = s.statistics
  /-- There is a fresh gridder of the same configuration. -/
  exists_fresh : ∃ fresh, FreshLike s fresh
  /-- An image is the one that a fresh gridder makes, or refused as there, -/
  image : ∀ fresh, FreshLike s fresh →
    ∀ {nchan npol : ℕ} (vis : Visibility α nchan npol) (psf normalize : Bool),
      (outcome (invert vis psf normalize) t).1 = (outcome (invert vis psf normalize) fresh).1
  /-- and so is a prediction. -/
  prediction : ∀ fresh, FreshLike s fresh →
    ∀ {nchan npol : ℕ} (vis : Visibility α nchan npol) (model : Image α),
      (outcome (predict vis model) t).1 = (outcome (predict vis model) fresh).1

/-- What can be initialized can be initialized afresh. -/
theorem exists_freshLike {s s' : Gridder α} {given : Option (Axes α)}
    (h : outcome (prepare given) s = (.ok (), s')) : ∃ fresh, FreshLike s' fresh := by
  obtain ⟨a, cell, cache, corrector, hcell, hcache, hcorrector, rfl⟩ := exists_of_prepare h
  exact ⟨_, some a, none,
    prepare_ok (new s.variant (some a) s.interpolation) hcell hcache hcorrector, rfl⟩

/-- A fresh gridder of the same configuration agrees with what an initialization leaves. -/
theorem FreshLike.agree {s s' fresh : Gridder α} {given : Option (Axes α)}
    (h : outcome (prepare given) s = (.ok (), s')) (hfresh : FreshLike s' fresh) :
    Agree fresh s' := by
  obtain ⟨own, given', hprepare, haxes⟩ := hfresh
  obtain ⟨a, cell, cache, corrector, -, -, -, rfl⟩ := exists_of_prepare h
  exact (agree_of_prepare h hprepare rfl rfl haxes).symm

/-- After any run of calls that follows a successful initialization, refused calls among them but no
    further initialization, passes have not influenced each other. -/
theorem passes_apart {s₀ s : Gridder α} {given : Option (Axes α)}
    (h : outcome (prepare given) s₀ = (.ok (), s)) (calls : List (Call α))
    (hcalls : ∀ call ∈ calls, ¬ call.Prepares) :
    PassesApart s (afterCalls calls s) (history (operationsOf calls s) s) := by
  have hinitialized : s.stage = .initialized := by
    obtain ⟨a, cell, cache, corrector, -, -, -, rfl⟩ := exists_of_prepare h
    rfl
  have hs : s.stage ≠ .unconfigured := hinitialized.trans_ne Stage.noConfusion
  have hidle : s.stage ≠ .active := hinitialized.trans_ne Stage.noConfusion
  have hops := not_prepares_operationsOf hcalls s
  have hproper := properLog_history hops hs
  have hrun := (afterCalls_eq_run calls s).trans (run_eq_replay hops hs)
  generalize history (operationsOf calls s) s = log at hproper hrun
  rw [hrun]
  have hfresh : ∀ fresh, FreshLike s fresh → Agree fresh (replay log s) := fun fresh hlike =>
    (hlike.agree h).trans (agree_replay log hs)
  refine ⟨axes_replay, cache_replay, corrector_replay, ?_, ?_, ?_, exists_freshLike h, ?_, ?_⟩
  · -- a pass is open where the log has its end
    rintro before later rfl
    have hactive := (properLog_append.1 hproper).2.1.resolve_left nofun
    exact (exists_started hactive).resolve_left hidle
  · rintro earlier since rfl hsince
    exact statistics_replay earlier hsince
  · intro hlog
    rw [log_eq_nil hproper hidle hlog]
    rfl
  · intro fresh hlike nchan npol vis psf normalize
    rw [outcome_invert_eq (hfresh fresh hlike)]
  · intro fresh hlike nchan npol vis model
    exact fst_predict (hfresh fresh hlike) vis model

theorem prepare_boxGridder :
    outcome (prepare none) (new .box (some Setup.smallAxes) .linear) = (.ok (), boxGridder) := by
  obtain ⟨σ, -, hvariant, -, haxes, -, -⟩ := Setup.exists_small
  have hcell := σ.cellSize_axes
  have hbuilt := σ.built
  have hcorrected := σ.corrected
  rw [hvariant] at hbuilt
  rw [haxes] at hcell hbuilt hcorrected
  have hprepare : outcome (prepare none) (new .box (some Setup.smallAxes) .linear) = (.ok (), _) :=
    prepare_ok (new .box (some Setup.smallAxes) .linear) hcell hbuilt hcorrected
  have hgridder : boxGridder = _ := congrArg Prod.snd hprepare
  rw [hprepare, hgridder]

/-- A pass is begun and left, an image is made, and weights are found before more is gridded. -/
noncomputable def mixedCalls : List (Call ℝ) :=
  [.operation .beginPass, .invert Grid.quarterVisibility false true,
    .weight Grid.quarterVisibility (.text "uniform"),
    .operation (.reverse Grid.quarterVisibility none none)]

theorem passes_apart_boxGridder :
    PassesApart boxGridder (afterCalls mixedCalls boxGridder)
      (history (operationsOf mixedCalls boxGridder) boxGridder) :=
  passes_apart prepare_boxGridder mixedCalls (by simp [mixedCalls, Call.Prepares])

end ApertureSynthesis.Gridder
