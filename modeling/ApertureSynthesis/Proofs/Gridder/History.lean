/-
  What a run of operations does to a gridder past the first stage, told by events.

  Between two initializations a gridder changes in its stage and its counters only, and only in
  three ways: a pass is started, samples are counted, a pass is finalized. `Operation.events` is
  what an operation, also one that is refused, does of these, and `Operation.after_eq_replay` says
  that it does nothing else. For a run of operations this gives `run_eq_replay`: the gridder at the
  end is the history of the run, replayed. What a history keeps (`axes_replay` and its like), when
  it leaves a pass open (`exists_started`) and what it counts (`statistics_replay`) are then facts
  about events alone.
-/
import Mathlib
import ApertureSynthesis.Proofs.Gridder.Stages

namespace ApertureSynthesis.Gridder

variable {α : Type} [Scalar α]

/-! ## Events -/

/-- What happens to the passes of a gridder. -/
inductive Event where
  /-- A pass is started. -/
  | started
  /-- Samples are gridded or predicted, with these counters. -/
  | counted (counters : Statistics)
  /-- The pass is turned into an image. -/
  | finalized

namespace Event

/-- The gridder after an event. -/
def apply (s : Gridder α) : Event → Gridder α
  | started => { s with statistics := .zero, stage := .active }
  | counted counters => { s with statistics := s.statistics + counters }
  | finalized => { s with stage := .finalized }

/-- The counters of an event. -/
def counters? : Event → Option Statistics
  | counted counters => some counters
  | _ => none

/-- Only a start can happen outside a pass. -/
def Proper (s : Gridder α) (e : Event) : Prop := e = started ∨ s.stage = .active

end Event

/-- The gridder after events, one after the other. -/
def replay (log : List Event) (s : Gridder α) : Gridder α := log.foldl Event.apply s

/-- Each event of a log can happen where it stands. -/
def ProperLog : List Event → Gridder α → Prop
  | [], _ => True
  | e :: log, s => e.Proper s ∧ ProperLog log (e.apply s)

section Replay

variable {s : Gridder α} {log log' : List Event}

theorem replay_append (log log' : List Event) (s : Gridder α) :
    replay (log ++ log') s = replay log' (replay log s) := List.foldl_append

/-- Of a gridder, events change the stage and the counters only. -/
theorem replay_eq (log : List Event) (s : Gridder α) :
    replay log s =
      { s with stage := (replay log s).stage, statistics := (replay log s).statistics } := by
  induction log generalizing s with
  | nil => rfl
  | cons e log ih =>
    show replay log (e.apply s) = _
    rw [ih]
    cases e <;> rfl

theorem variant_replay : (replay log s).variant = s.variant := by rw [replay_eq]

theorem interpolation_replay : (replay log s).interpolation = s.interpolation := by rw [replay_eq]

theorem axes_replay : (replay log s).axes = s.axes := by rw [replay_eq]

theorem cache_replay : (replay log s).cache = s.cache := by rw [replay_eq]

theorem corrector_replay : (replay log s).corrector = s.corrector := by rw [replay_eq]

theorem configured_replay (h : s.stage ≠ .unconfigured) : (replay log s).stage ≠ .unconfigured := by
  induction log generalizing s with
  | nil => exact h
  | cons e log ih =>
    refine ih ?_
    cases e with
    | started => exact Stage.noConfusion
    | counted _ => exact h
    | finalized => exact Stage.noConfusion

theorem properLog_append :
    ProperLog (log ++ log') s ↔ ProperLog log s ∧ ProperLog log' (replay log s) := by
  induction log generalizing s with
  | nil => exact (and_iff_right trivial).symm
  | cons e log ih => exact (and_congr_right' ih).trans and_assoc.symm

/-- A pass that is open at the end was open at the beginning, or it was started and not finalized
    since. -/
theorem exists_started (h : (replay log s).stage = .active) :
    s.stage = .active ∨ ∃ earlier since, log = earlier ++ .started :: since ∧
    .finalized ∉ since := by
  -- the last event decides, unless it only counts
  induction log using List.reverseRecOn with
  | nil => exact .inl h
  | append_singleton log e ih =>
    rw [replay_append] at h
    cases e with
    | started => exact .inr ⟨log, [], rfl, List.not_mem_nil⟩
    | counted counters =>
      refine (ih h).imp_right ?_
      rintro ⟨earlier, since, rfl, hsince⟩
      exact ⟨earlier, since ++ [.counted counters], by simp, by simp [hsince]⟩
    | finalized => exact Stage.noConfusion h

/-- A pass is started before anything else happens outside one. -/
theorem log_eq_nil (h : ProperLog log s) (hs : s.stage ≠ .active) (hlog : .started ∉ log) :
    log = [] := by
  cases log with
  | nil => rfl
  | cons e log =>
    refine absurd ?_ hlog
    obtain rfl := h.1.resolve_right hs
    exact List.mem_cons_self

/-- Without a start the counters add to those at the beginning. -/
theorem statistics_replay_of_not_started (h : .started ∉ log) :
    (replay log s).statistics = (log.filterMap Event.counters?).foldl (· + ·) s.statistics := by
  induction log generalizing s with
  | nil => rfl
  | cons e log ih =>
    have hrest : .started ∉ log := fun hmem => h (List.mem_cons_of_mem e hmem)
    cases e with
    | started => exact absurd List.mem_cons_self h
    | counted counters => exact ih hrest
    | finalized => exact ih hrest

/-- The counters at the end are the total of those since the last start. -/
theorem statistics_replay (earlier : List Event) {since : List Event} (h : .started ∉ since) :
    (replay (earlier ++ .started :: since) s).statistics =
      .total (since.filterMap Event.counters?) := by
  rw [replay_append]
  exact statistics_replay_of_not_started h

end Replay

/-! ## Events of operations -/

section Operations

variable {β : Type} {nchan npol : ℕ} {s u : Gridder α}

/-- The counters of a prediction from a grid. -/
def predictionCounters (vis : Visibility α nchan npol) (grid : Grid α) (s : Gridder α) :
    Option Statistics := do
  let cache ← s.cache
  let map ← (s.variant.planeMap vis (some cache)).toOption
  let (_, counters) ← (Grid.predict vis grid cache map s.interpolation).toOption
  return counters

/-- Gridding and predicting start a pass unless one is open. -/
def opening (s : Gridder α) : List Event := if s.stage = .active then [] else [.started]

/-- What gridding does: it opens a pass, and counts what it gridded unless it is refused or broken
    off. -/
def griddingEvents (how : Grid.Contribution α) (vis : Visibility α nchan npol)
    (grid : Option (Grid α)) (sums : Option (Tensor α)) (s : Gridder α) : List Event :=
  opening s ++ match (outcome (do complete (← accumulate how vis grid sums)) s).1 with
    | .ok d => [.counted d.statistics]
    | .error _ => []

/-- What a prediction from a grid does: it opens a pass, and counts unless it is refused. -/
def predictionEvents (vis : Visibility α nchan npol) (grid : Grid α) (s : Gridder α) : List Event :=
  opening s ++ match (outcome (forward vis grid) s).1 with
    | .ok _ => (s.predictionCounters vis grid).toList.map .counted
    | .error _ => []

/-- What an operation does to the passes of a gridder past the first stage. -/
def Operation.events (s : Gridder α) : Operation α → List Event
  | prepare _ => []
  | beginPass => [.started]
  | createGrid => []
  | reverse vis grid sums => griddingEvents .visibilities vis grid sums s
  | reverseWeights vis grid sums => griddingEvents .weights vis grid sums s
  | forward vis grid => predictionEvents vis grid s
  | modelToGrid _ => []
  | finalize grid sums normalize =>
    match (outcome (Gridder.finalize grid sums normalize) s).1 with
    | .ok _ => [.finalized]
    | .error _ => []

theorem snd_createGrid (hs : s.stage ≠ .unconfigured) : (outcome createGrid s).2 = s := by
  rw [createGrid, outcome_bind_ok (ensurePrepared_of_configured hs) rfl]
  exact ((keeps_part axes).bind fun a => .of_snd fun _ => rfl : Keeps (· = s) _) s rfl

theorem snd_modelToGrid (hs : s.stage ≠ .unconfigured) (model : Image α) :
    (outcome (modelToGrid model) s).2 = s := by
  rw [modelToGrid, outcome_bind_ok (ensurePrepared_of_configured hs) rfl]
  refine ((keeps_part axes).bind fun axes => ?_ : Keeps (· = s) _) s rfl
  split
  · exact .of_snd fun _ => rfl
  · refine (keeps_part corrector).bind fun _ =>
      Keeps.bind (.of_snd fun _ => rfl) fun corrected => ?_
    refine Keeps.bind ?_ fun grid => .of_snd fun _ => rfl
    rintro _ rfl
    exact snd_createGrid hs

/-- A pass is started, also if there is no grid for it. -/
theorem outcome_beginPass (hs : s.stage ≠ .unconfigured) :
    (outcome beginPass s).2 = Event.started.apply s := by
  have hcreate := snd_createGrid (s := Event.started.apply s) Stage.noConfusion
  rw [beginPass, outcome_bind_ok (ensurePrepared_of_configured hs) rfl,
    outcome_bind_ok (outcome_modify _ s) rfl]
  exact snd_outcome_bind (P := (· = Event.started.apply s)) hcreate fun _ s' h => h

theorem snd_ensurePass (hs : s.stage ≠ .unconfigured) :
    (outcome ensurePass s).2 = replay (opening s) s := by
  rw [ensurePass, outcome_bind_ok (outcome_get s) rfl, opening]
  by_cases hactive : s.stage = .active
  · rw [if_neg (not_not.2 hactive), if_pos hactive]
    rfl
  · rw [if_pos hactive, if_neg hactive]
    exact snd_outcome_bind (P := (· = Event.started.apply s)) (outcome_beginPass hs) fun _ s' h => h

/-- Gridding and predicting run in a pass, or are refused where none can be started. -/
theorem outcome_ensurePass {x : Action α β} (hs : s.stage ≠ .unconfigured) :
    (∃ fault, outcome (do ensurePrepared; ensurePass; x) s = (.error fault, replay (opening s) s)) ∨
      outcome (do ensurePrepared; ensurePass; x) s = outcome x (replay (opening s) s) := by
  have hpass := snd_ensurePass hs
  rw [outcome_bind_ok (ensurePrepared_of_configured hs) rfl]
  rcases hout : outcome ensurePass s with ⟨fault | _, u⟩
  · obtain rfl : u = replay (opening s) s := by rwa [hout] at hpass
    exact .inl ⟨fault, outcome_bind_error hout⟩
  · obtain rfl : u = replay (opening s) s := by rwa [hout] at hpass
    exact .inr (outcome_bind_ok hout rfl)

/-- The cache, for what is done next. -/
theorem outcome_theCache_bind {f : Cache α → Action α β} :
    (∃ fault, outcome (theCache >>= f) s = (.error fault, s)) ∨
      ∃ cache, s.cache = some cache ∧ outcome (theCache >>= f) s = outcome (f cache) s := by
  cases hcache : s.cache with
  | none =>
    have hnone : outcome theCache s = (.error .missing, s) := by
      rw [theCache, outcome_bind_ok (outcome_get s) rfl, hcache]
      rfl
    exact .inl ⟨.missing, outcome_bind_error hnone⟩
  | some cache =>
    have hsome : outcome theCache s = (.ok cache, s) := by
      rw [theCache, outcome_bind_ok (outcome_get s) rfl, hcache]
      rfl
    exact .inr ⟨cache, rfl, outcome_bind_ok hsome rfl⟩

/-- The grid that is given, or a fresh one. -/
def ownGrid : Option (Grid α) → Action α (Grid α)
  | some grid => pure grid
  | none => createGrid

/-- Gridding into a grid, in a pass. -/
def gridInto (how : Grid.Contribution α) (vis : Visibility α nchan npol) (sums : Option (Tensor α))
    (grid : Grid α) : Action α (Accumulated α) := do
  checkGrid grid
  let cache ← theCache
  let map ← lift ((← get).variant.planeMap vis (some cache))
  match Grid.deposit how vis grid cache map sums (← get).interpolation with
  | .error interrupted => return ⟨interrupted.reached, some interrupted.fault⟩
  | .ok d =>
    modify fun g => { g with statistics := g.statistics + d.statistics }
    return ⟨d, none⟩

theorem accumulate_eq (how : Grid.Contribution α) (vis : Visibility α nchan npol)
    (grid : Option (Grid α)) (sums : Option (Tensor α)) : accumulate how vis grid sums = (do
      ensurePrepared
      ensurePass
      gridInto how vis sums (← ownGrid grid)) := by
  cases grid <;> rfl

theorem snd_ownGrid (hs : s.stage ≠ .unconfigured) (grid : Option (Grid α)) :
    (outcome (ownGrid grid) s).2 = s := by
  cases grid with
  | none => exact snd_createGrid hs
  | some grid => rfl

/-- Gridding into a grid adds to the counters only if it is not broken off. -/
theorem outcome_gridInto_cases (how : Grid.Contribution α) (vis : Visibility α nchan npol)
    (sums : Option (Tensor α)) (grid : Grid α) (s : Gridder α) :
    (∃ fault, outcome (gridInto how vis sums grid) s = (.error fault, s)) ∨
    (∃ reached fault, outcome (gridInto how vis sums grid) s = (.ok ⟨reached, some fault⟩, s)) ∨
    ∃ d, outcome (gridInto how vis sums grid) s =
      (.ok ⟨d, none⟩, (Event.counted d.statistics).apply s) := by
  rw [gridInto]
  obtain ⟨fault, h⟩ | ⟨_, h⟩ := outcome_of_snd (keeps_checkGrid (P := (· = s)) grid s rfl)
  · exact .inl ⟨fault, outcome_bind_error h⟩
  rw [outcome_bind_ok h rfl]
  obtain ⟨fault, h⟩ | ⟨cache, -, h⟩ := outcome_theCache_bind (s := s)
  · exact .inl ⟨fault, h⟩
  rw [h, outcome_bind_ok (outcome_get s) rfl]
  cases hmap : s.variant.planeMap vis (some cache) with
  | error fault => exact .inl ⟨fault, outcome_bind_error (outcome_lift rfl s)⟩
  | ok map =>
    rw [outcome_bind_ok (outcome_lift rfl s) rfl, outcome_bind_ok (outcome_get s) rfl]
    cases Grid.deposit how vis grid cache map sums s.interpolation with
    | error interrupted => exact .inr (.inl ⟨interrupted.reached, interrupted.fault, rfl⟩)
    | ok d => exact .inr (.inr ⟨d, rfl⟩)

theorem snd_accumulate (hs : s.stage ≠ .unconfigured) (how : Grid.Contribution α)
    (vis : Visibility α nchan npol) (grid : Option (Grid α)) (sums : Option (Tensor α)) :
    (outcome (do complete (← accumulate how vis grid sums)) s).2 =
      replay (griddingEvents how vis grid sums s) s := by
  have hconfigured : (replay (opening s) s).stage ≠ .unconfigured := configured_replay hs
  rw [griddingEvents, replay_append, accumulate_eq]
  obtain ⟨fault, h⟩ | h := outcome_ensurePass (x := ownGrid grid >>= gridInto how vis sums) hs
  · rw [outcome_bind_error h]
    rfl
  obtain ⟨fault, hgrid⟩ | ⟨own, hgrid⟩ := outcome_of_snd (snd_ownGrid hconfigured grid)
  · rw [outcome_bind_error (h.trans (outcome_bind_error hgrid))]
    rfl
  have hinto := h.trans (outcome_bind_ok hgrid rfl)
  obtain ⟨fault, h⟩ | ⟨reached, fault, h⟩ | ⟨d, h⟩ :=
    outcome_gridInto_cases how vis sums own (replay (opening s) s)
  · rw [outcome_bind_error (hinto.trans h)]
    rfl
  · rw [outcome_bind_ok (hinto.trans h) rfl]
    rfl
  · rw [outcome_bind_ok (hinto.trans h) rfl]
    rfl

/-- Prediction from a grid, in a pass. -/
def predictFrom (vis : Visibility α nchan npol) (grid : Grid α) :
    Action α (Visibility α nchan npol) := do
  checkGrid grid
  let cache ← theCache
  let map ← lift ((← get).variant.planeMap vis (some cache))
  let (predicted, statistics) ← lift (Grid.predict vis grid cache map (← get).interpolation)
  modify fun g => { g with statistics := g.statistics + statistics }
  return predicted

/-- Prediction from a grid is counted unless it is refused. -/
theorem outcome_predictFrom_cases (vis : Visibility α nchan npol) (grid : Grid α) (s : Gridder α) :
    (∃ fault, outcome (predictFrom vis grid) s = (.error fault, s)) ∨
    ∃ predicted counters, s.predictionCounters vis grid = some counters ∧
      outcome (predictFrom vis grid) s = (.ok predicted, (Event.counted counters).apply s) := by
  rw [predictFrom]
  obtain ⟨fault, h⟩ | ⟨_, h⟩ := outcome_of_snd (keeps_checkGrid (P := (· = s)) grid s rfl)
  · exact .inl ⟨fault, outcome_bind_error h⟩
  rw [outcome_bind_ok h rfl]
  obtain ⟨fault, h⟩ | ⟨cache, hcache, h⟩ := outcome_theCache_bind (s := s)
  · exact .inl ⟨fault, h⟩
  rw [h, outcome_bind_ok (outcome_get s) rfl]
  cases hmap : s.variant.planeMap vis (some cache) with
  | error fault => exact .inl ⟨fault, outcome_bind_error (outcome_lift rfl s)⟩
  | ok map =>
    rw [outcome_bind_ok (outcome_lift rfl s) rfl, outcome_bind_ok (outcome_get s) rfl]
    cases hpredict : Grid.predict vis grid cache map s.interpolation with
    | error fault => exact .inl ⟨fault, outcome_bind_error (outcome_lift rfl s)⟩
    | ok predicted =>
      refine .inr ⟨predicted.1, predicted.2, ?_, rfl⟩
      simp [predictionCounters, hcache, hmap, hpredict, Except.toOption]

theorem snd_forward (hs : s.stage ≠ .unconfigured) (vis : Visibility α nchan npol) (grid : Grid α) :
    (outcome (forward vis grid) s).2 = replay (predictionEvents vis grid s) s := by
  have hsame : (replay (opening s) s).predictionCounters vis grid =
      s.predictionCounters vis grid := by
    rw [predictionCounters, cache_replay, variant_replay, interpolation_replay, predictionCounters]
  rw [predictionEvents, replay_append, ← hsame, show forward vis grid = (do
    ensurePrepared; ensurePass; predictFrom vis grid) from rfl]
  obtain ⟨fault, h⟩ | h := outcome_ensurePass (x := predictFrom vis grid) hs
  · rw [h]
    rfl
  obtain ⟨fault, hfrom⟩ | ⟨predicted, counters, hcounters, hfrom⟩ :=
    outcome_predictFrom_cases vis grid (replay (opening s) s)
  · rw [h, hfrom]
    rfl
  · rw [h, hfrom, hcounters]
    rfl

end Operations

/-! ## Runs -/

/-- The operation is an initialization. -/
def Operation.Prepares (op : Operation α) : Prop := ∃ axes, op = .prepare axes

theorem snd_bind_pure {β γ : Type} (x : Action α β) (f : β → γ) (s : Gridder α) :
    (outcome (do let a ← x; return f a) s).2 = (outcome x s).2 :=
  snd_outcome_bind (P := (· = (outcome x s).2)) rfl fun _ _ h => h

/-- An operation on a gridder past the first stage does what its events say, and nothing else. -/
theorem Operation.after_eq_replay {s : Gridder α} (hs : s.stage ≠ .unconfigured) {op : Operation α}
    (hop : ¬ op.Prepares) : op.after s = replay (op.events s) s := by
  cases op with
  | prepare axes => exact absurd ⟨axes, rfl⟩ hop
  | beginPass => exact (snd_bind_pure _ _ s).trans (outcome_beginPass hs)
  | createGrid => exact (snd_bind_pure _ _ s).trans (snd_createGrid hs)
  | reverse vis grid sums =>
    rw [after, act, ← bind_assoc]
    exact (snd_bind_pure _ _ s).trans (snd_accumulate hs .visibilities vis grid sums)
  | reverseWeights vis grid sums =>
    rw [after, act, ← bind_assoc]
    exact (snd_bind_pure _ _ s).trans (snd_accumulate hs .weights vis grid sums)
  | forward vis grid => exact (snd_bind_pure _ _ s).trans (snd_forward hs vis grid)
  | modelToGrid model => exact (snd_bind_pure _ _ s).trans (snd_modelToGrid hs model)
  | finalize grid sums normalize =>
    refine (snd_bind_pure _ _ s).trans ?_
    obtain ⟨fault, h⟩ | ⟨-, image, h⟩ := outcome_finalize_cases grid sums normalize s
    · rw [events, h]
      rfl
    · rw [events, h]
      rfl

/-- Opened passes may count. -/
theorem properLog_opening (counters : Option Statistics) (s : Gridder α) :
    ProperLog (opening s ++ counters.toList.map .counted) s := by
  have hactive : (replay (opening s) s).stage = .active := by
    rw [opening]
    split
    · assumption
    · rfl
  refine properLog_append.2 ⟨?_, ?_⟩
  · rw [opening]
    split
    · trivial
    · exact ⟨.inl rfl, trivial⟩
  · cases counters with
    | none => trivial
    | some c => exact ⟨.inr hactive, trivial⟩

theorem properLog_griddingEvents (how : Grid.Contribution α) {nchan npol : ℕ}
    (vis : Visibility α nchan npol) (grid : Option (Grid α)) (sums : Option (Tensor α))
    (s : Gridder α) :
    ProperLog (griddingEvents how vis grid sums s) s := by
  rw [griddingEvents]
  cases (outcome (do complete (← accumulate how vis grid sums)) s).1 with
  | error fault => exact properLog_opening none s
  | ok d => exact properLog_opening (some d.statistics) s

/-- Only the start of a pass happens outside one. -/
theorem Operation.properLog_events (op : Operation α) (s : Gridder α) :
    ProperLog (op.events s) s := by
  cases op with
  | prepare axes => trivial
  | beginPass => exact ⟨.inl rfl, trivial⟩
  | createGrid => trivial
  | reverse vis grid sums => exact properLog_griddingEvents _ vis grid sums s
  | reverseWeights vis grid sums => exact properLog_griddingEvents _ vis grid sums s
  | forward vis grid =>
    rw [events, predictionEvents]
    cases (outcome (Gridder.forward vis grid) s).1 with
    | error fault => exact properLog_opening none s
    | ok predicted => exact properLog_opening _ s
  | modelToGrid model => trivial
  | finalize grid sums normalize =>
    rw [events]
    obtain ⟨fault, h⟩ | ⟨hactive, image, h⟩ := outcome_finalize_cases grid sums normalize s
    · rw [h]
      trivial
    · rw [h]
      exact ⟨.inr hactive, trivial⟩

/-- What a run of operations does to the passes of a gridder. -/
def history : List (Operation α) → Gridder α → List Event
  | [], _ => []
  | op :: ops, s => op.events s ++ history ops (op.after s)

/-- A gridder past the first stage is, after operations other than initializations, what their
    history says. -/
theorem run_eq_replay {ops : List (Operation α)} (hops : ∀ op ∈ ops, ¬ op.Prepares) {s : Gridder α}
    (hs : s.stage ≠ .unconfigured) : run ops s = replay (history ops s) s := by
  induction ops generalizing s with
  | nil => rfl
  | cons op ops ih =>
    have hafter := op.after_eq_replay hs (hops op List.mem_cons_self)
    have hconfigured : (op.after s).stage ≠ .unconfigured := by
      rw [hafter]
      exact configured_replay hs
    show run ops (op.after s) = replay (op.events s ++ history ops (op.after s)) s
    rw [ih (fun o ho => hops o (List.mem_cons_of_mem op ho)) hconfigured, replay_append, ← hafter]

theorem properLog_history {ops : List (Operation α)} (hops : ∀ op ∈ ops, ¬ op.Prepares)
    {s : Gridder α} (hs : s.stage ≠ .unconfigured) : ProperLog (history ops s) s := by
  induction ops generalizing s with
  | nil => trivial
  | cons op ops ih =>
    have hafter := op.after_eq_replay hs (hops op List.mem_cons_self)
    refine properLog_append.2 ⟨op.properLog_events s, ?_⟩
    rw [← hafter]
    refine ih (fun o ho => hops o (List.mem_cons_of_mem op ho)) ?_
    rw [hafter]
    exact configured_replay hs

end ApertureSynthesis.Gridder
