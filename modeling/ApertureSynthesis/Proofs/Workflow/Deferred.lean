/-
  Asking for the values of workflows without a client.

  For one piece of work a switch without a client gives the value of doing it at once, deferred or
  not (`execute_compute`), and so it does for a list of work that is asked for piece by piece
  (`mapM_execute_compute`). Work that the pieces of a list share is done once, or again for each
  piece; it only reads the gridder, which makes no difference where there is a piece
  (`outcome_shared`). So every way of execution without a client gives the same images, predictions
  and weights, and leaves the gridder the same (`client_free_values`). A list of graphs as a whole
  has no value that can be asked for, nor has a list of visibilities that was only handed through
  (`natural_weights_refused`).
-/
import Mathlib
import ApertureSynthesis.Proofs.Gridder.History
import ApertureSynthesis.Proofs.Workflow.Partition

namespace ApertureSynthesis

open ApertureSynthesis.Gridder ApertureSynthesis.Action

variable {α : Type} {nchan npol : ℕ} {sw direct : Switch}

/-! ## Switches -/

section Switches

variable {m : Type → Type} [Monad m] [LawfulMonad m] [MonadExceptOf (Fault α) m] {β δ : Type}

/-- The value of a piece of work is what doing it at once gives. -/
theorem execute_compute (hclient : sw.client = false) (work : m β) :
    (do sw.compute (α := α) (← sw.execute work)) = (do return .done (← work)) := by
  unfold Switch.execute Switch.compute
  by_cases h : sw.deferring = true
  · simp [h, hclient]
  · simp [h]

/-- The values of a list of work, asked for piece by piece, are what doing it at once gives, in its
    order. -/
theorem mapM_execute_compute (hclient : sw.client = false) (work : δ → m β) (vs : List δ) :
    (do (← vs.mapM fun v => sw.execute (work v)).mapM (sw.compute (α := α))) =
      vs.mapM fun v => do return .done (← work v) := by
  induction vs with
  | nil => simp
  | cons v vs ih =>
    have hfirst := execute_compute (α := α) hclient (work v)
    rw [List.mapM_cons, List.mapM_cons, ← ih, ← hfirst]
    unfold Switch.execute Switch.compute
    by_cases h : sw.deferring = true
    · simp [h, hclient]
    · simp [h]

omit [LawfulMonad m] [MonadExceptOf (Fault α) m] in
/-- Work done at once is there. -/
theorem execute_of_direct (hdirect : direct.deferring = false) (work : m β) :
    direct.execute work = (do return .done (← work)) := if_neg (by simp [hdirect])

omit [LawfulMonad m] in
/-- What is there is not asked for again. -/
theorem compute_of_direct (hdirect : direct.deferring = false) (w : Work m β) :
    direct.compute (α := α) w = pure w := if_neg (by simp [hdirect])

omit [LawfulMonad m] in
theorem computeList_of_direct (hdirect : direct.deferring = false) (ws : List (Work m β)) :
    direct.computeList (α := α) ws = pure ws := if_neg (by simp [hdirect])

end Switches

variable [Scalar α]

/-! ## Work that only reads a gridder -/

namespace Gridder

variable {β γ δ : Type}

theorem Keeps.mapM {P : Gridder α → Prop} {f : δ → Action α β} (h : ∀ v, Keeps P (f v))
    (vs : List δ) :
    Keeps P (vs.mapM f) := by
  induction vs with
  | nil => exact .of_snd fun _ => rfl
  | cons v vs ih =>
    rw [List.mapM_cons]
    exact (h v).bind fun a => ih.bind fun as => .of_snd fun _ => rfl

/-- What is done after preparation starts past the first stage. -/
theorem outcome_prepared_congr {x y : Action α β}
    (h : ∀ s, s.stage ≠ .unconfigured → outcome x s = outcome y s) (s : Gridder α) :
    outcome (do ensurePrepared; x) s = outcome (do ensurePrepared; y) s := by
  rcases hout : outcome ensurePrepared s with ⟨fault | _, s'⟩
  · exact (outcome_bind_error hout).trans (outcome_bind_error hout).symm
  · rw [outcome_bind_ok hout rfl, outcome_bind_ok hout rfl]
    exact h s' (configured_of_ensurePrepared hout)

/-- Nothing comes of an action whose result is refused, whatever it is. -/
theorem not_ok_of_refused {x : Action α β} {f : β → Action α γ} {fault : Fault α}
    (hf : ∀ a, f a = throw fault) (s : Gridder α) (r : γ) : (outcome (x >>= f) s).1 ≠ .ok r := by
  rcases hout : outcome x s with ⟨fault' | a, s'⟩
  · rw [outcome_bind_error hout]
    exact nofun
  · rw [outcome_bind_ok hout (congrArg (outcome · s') (hf a))]
    exact nofun

end Gridder

namespace Workflow

variable {β γ δ : Type} {s : Gridder α}

theorem snd_gridPartition (how : Grid.Contribution α) (vis : Visibility α nchan npol)
    (s : Gridder α) :
    (outcome (gridPartition how vis) s).2 = s := by
  refine ((keeps_part axes).bind fun _ => ?_ : Keeps (· = s) _) s rfl
  refine Keeps.bind (.of_snd fun _ => rfl) fun grid => (keeps_part cache).bind fun cache => ?_
  refine Keeps.bind (.of_snd fun _ => rfl) fun s => Keeps.bind (.of_snd fun _ => rfl) fun map => ?_
  refine Keeps.bind (.of_snd fun _ => rfl) fun s => ?_
  split
  · exact .of_snd fun _ => rfl
  · exact .of_snd fun _ => rfl

theorem snd_gridParts (how : Grid.Contribution α) (split : Setting α)
    (parts : List (Visibility α nchan npol)) (s : Gridder α) :
    (outcome (gridParts how split parts) s).2 = s := by
  have hparts : Keeps (· = s) (parts.mapM (gridPartition how)) :=
    Keeps.mapM (fun vis => .of_snd fun s => snd_gridPartition how vis s) parts
  rw [gridParts]
  exact hparts.bind (fun results => .of_snd fun _ => rfl) s rfl

theorem snd_degridPartition (vis : Visibility α nchan npol) (grid : Grid α) (s : Gridder α) :
    (outcome (degridPartition vis grid) s).2 = s := by
  refine ((keeps_part cache).bind fun cache => ?_ : Keeps (· = s) _) s rfl
  refine Keeps.bind (.of_snd fun _ => rfl) fun s => Keeps.bind (.of_snd fun _ => rfl) fun map => ?_
  exact Keeps.bind (.of_snd fun _ => rfl) fun s => Keeps.bind (.of_snd fun _ => rfl) fun _ =>
    .of_snd fun _ => rfl

theorem snd_reweight (vis : Visibility α nchan npol) (grid : Grid α) (s : Gridder α) :
    (outcome (do lift (Grid.reweight vis grid (← theCache))) s).2 = s :=
  ((keeps_part cache).bind fun _ => .of_snd fun _ => rfl : Keeps (· = s) _) s rfl

/-- Pieces of work that share a part, each of them asked for, give what doing them at once gives, if
    they only read the gridder and there are any. -/
theorem outcome_shared (hclient : sw.client = false) (hdirect : direct.deferring = false)
    {work : Action α β} {f : δ → β → Action α γ} (hwork : (outcome work s).2 = s)
    (hf : ∀ v a, (outcome (f v a) s).2 = s) {vs : List δ} (hne : vs ≠ []) :
    outcome (do
      let shared ← sw.execute work
      (← vs.mapM fun v => sw.execute do f v (← shared.value)).mapM (sw.compute (α := α))) s =
    outcome (do
      let shared ← direct.execute work
      vs.mapM fun v => direct.execute do f v (← shared.value)) s := by
  have hpieces : ∀ sw : Switch, Reads (do
      let shared ← sw.execute work
      vs.mapM fun v => do
        let a ← shared.value
        let b ← f v a
        return (Work.done b : Work (Action α) γ)) s (do
      let a ← (outcome work s).1
      vs.mapM fun v => do
        let b ← (outcome (f v a) s).1
        return (Work.done b : Work (Action α) γ)) := fun sw =>
    reads_shared (.of_snd hwork)
      (fun v a => (Reads.of_snd (hf v a)).bind fun b => Reads.pure (Work.done b)) hne
  calc
    _ = outcome (do
        let shared ← sw.execute work
        vs.mapM fun v => do
          let a ← shared.value
          let b ← f v a
          return (Work.done b : Work (Action α) γ)) s := by
      simp only [mapM_execute_compute hclient, bind_assoc]
    _ = outcome (do
        let shared ← direct.execute work
        vs.mapM fun v => do
          let a ← shared.value
          let b ← f v a
          return (Work.done b : Work (Action α) γ)) s := (hpieces sw).trans (hpieces direct).symm
    _ = _ := by
      simp only [execute_of_direct hdirect, bind_assoc]

/-! ## Workflows -/

section Values

variable {g : Gridder α} {parts : List (Visibility α nchan npol)}

theorem invertList_compute (hclient : sw.client = false) (hdirect : direct.deferring = false)
    (psf normalize : Bool) : (do sw.compute (α := α) (← invertList sw parts psf normalize)) =
      invertList direct parts psf normalize := by
  rw [invertList_eq, invertList_eq, bind_assoc]
  simp only [execute_compute hclient, execute_of_direct hdirect]

theorem outcome_predictList_compute (hclient : sw.client = false)
    (hdirect : direct.deferring = false) (hne : parts ≠ []) (model : Image α) :
    outcome (do (← predictList sw parts model).mapM (sw.compute (α := α))) g =
      outcome (predictList direct parts model) g := by
  rw [predictList_eq, predictList_eq, bind_assoc]
  refine outcome_prepared_congr (fun s hs => ?_) g
  rw [bind_assoc]
  exact outcome_shared hclient hdirect (snd_modelToGrid hs model)
    (fun vis grid => snd_degridPartition vis grid s) hne

theorem outcome_weightList_compute (hclient : sw.client = false)
    (hdirect : direct.deferring = false) (hne : parts ≠ []) :
    outcome (do (← weightList sw parts .uniform).mapM (sw.compute (α := α))) g =
      outcome (weightList direct parts .uniform) g := by
  rw [weightList_uniform_eq, weightList_uniform_eq, bind_assoc]
  refine outcome_prepared_congr (fun s hs => ?_) g
  rw [bind_assoc]
  exact outcome_shared hclient hdirect (snd_gridParts .weights (.whole 2) parts s)
    (fun vis d => snd_reweight vis d.grid s) hne

/-- Switches that do work at once do the same. -/
theorem lists_of_direct (hsw : sw.deferring = false) (hdirect : direct.deferring = false) :
    (∀ model, predictList sw parts model = predictList direct parts model) ∧
      ∀ weighting, weightList sw parts weighting = weightList direct parts weighting := by
  refine ⟨fun model => ?_, fun weighting => ?_⟩
  · rw [predictList_eq, predictList_eq]
    simp only [execute_of_direct hsw, execute_of_direct hdirect]
  · cases weighting with
    | natural => rfl
    | uniform =>
      rw [weightList_uniform_eq, weightList_uniform_eq]
      simp only [execute_of_direct hsw, execute_of_direct hdirect]

end Values

/-- Every way of execution without a client gives the same: the image of parts, asked for as a
    whole, and their predictions and weights, asked for piece by piece, are those of doing the work
    at once, in its order, and so are refusals and the gridder that is left. A list that is asked
    for as a whole is that of the work done at once where nothing is deferred, and is refused where
    anything is. -/
theorem client_free_values (hclient : sw.client = false) (hdirect : direct.deferring = false)
    (g : Gridder α) {parts : List (Visibility α nchan npol)} (hne : parts ≠ []) :
    (∀ psf normalize, outcome (do sw.compute (α := α) (← invertList sw parts psf normalize)) g =
      outcome (do direct.compute (α := α) (← invertList direct parts psf normalize)) g) ∧
    (∀ model, outcome (do (← predictList sw parts model).mapM (sw.compute (α := α))) g =
      outcome (do direct.computeList (α := α) (← predictList direct parts model)) g) ∧
    outcome (do (← weightList sw parts .uniform).mapM (sw.compute (α := α))) g =
      outcome (do direct.computeList (α := α) (← weightList direct parts .uniform)) g ∧
    (sw.deferring = false →
      (∀ model, outcome (do sw.computeList (α := α) (← predictList sw parts model)) g =
        outcome (do direct.computeList (α := α) (← predictList direct parts model)) g) ∧
      ∀ weighting, outcome (do sw.computeList (α := α) (← weightList sw parts weighting)) g =
        outcome (do direct.computeList (α := α) (← weightList direct parts weighting)) g) ∧
    (sw.deferring = true →
      (∀ model r,
        (outcome (do sw.computeList (α := α) (← predictList sw parts model)) g).1 ≠ .ok r) ∧
      ∀ weighting r,
        (outcome (do sw.computeList (α := α) (← weightList sw parts weighting)) g).1 ≠ .ok r) := by
  simp only [compute_of_direct hdirect, computeList_of_direct hdirect, bind_pure]
  refine ⟨fun psf normalize => ?_, outcome_predictList_compute hclient hdirect hne,
    outcome_weightList_compute hclient hdirect hne, fun hsw => ?_, fun hdeferred => ?_⟩
  · rw [invertList_compute hclient hdirect]
  · simp only [computeList_of_direct hsw, bind_pure, (lists_of_direct hsw hdirect).1,
      (lists_of_direct hsw hdirect).2, implies_true, and_self]
  · exact ⟨fun model => not_ok_of_refused (fun ws => if_pos hdeferred) g,
      fun weighting => not_ok_of_refused (fun ws => if_pos hdeferred) g⟩

/-- Work is done at once. -/
def atOnce : Switch := { deferring := false }

/-- Work is deferred, and there is no client. -/
def alone : Switch := {}

/-- A gridder for the box function, on its first use. -/
noncomputable def smallGridder : Gridder ℝ := new .box (some Setup.smallAxes) .linear

/-- Two rows in one part, deferred or not. -/
theorem client_free_values_quarterVisibility :
    alone.client = false ∧ atOnce.deferring = false ∧ [Grid.quarterVisibility] ≠ [] ∧
    outcome
      (do alone.compute (α := ℝ) (← invertList alone [Grid.quarterVisibility] false true))
      smallGridder =
      outcome (do atOnce.compute (α := ℝ) (← invertList atOnce [Grid.quarterVisibility] false true))
        smallGridder ∧
    outcome
        (do (← weightList alone [Grid.quarterVisibility] .uniform).mapM (alone.compute (α := ℝ)))
        smallGridder =
      outcome
        (do atOnce.computeList (α := ℝ) (← weightList atOnce [Grid.quarterVisibility] .uniform))
        smallGridder := by
  obtain ⟨himage, -, hweighted, -⟩ := client_free_values (show alone.client = false from rfl)
    (show atOnce.deferring = false from rfl) smallGridder
    (List.cons_ne_nil Grid.quarterVisibility [])
  exact ⟨rfl, rfl, List.cons_ne_nil _ _, himage false true, hweighted⟩

/-- With natural weights the parts are handed through, and cannot be asked for where work is
    deferred. -/
theorem natural_weights_refused :
    alone.client = false ∧
    outcome (do alone.computeList (α := ℝ) (← weightList alone [Grid.quarterVisibility] .natural))
      smallGridder = (.error .missing, smallGridder) ∧
    outcome (do atOnce.computeList (α := ℝ) (← weightList atOnce [Grid.quarterVisibility] .natural))
      smallGridder = (.ok [.done Grid.quarterVisibility], smallGridder) := ⟨rfl, rfl, rfl⟩

end Workflow

end ApertureSynthesis
