/-
  Stages of a gridder: when its cache and its corrector belong to its axes.

  `Gridder.Sound` says that a gridder past the first stage has the cache and the corrector of its
  axes. `prepare_outcome` is everything that an initialization can do, also one that is refused. All
  other operations keep axes, cache and corrector, or build them on first use
  (`eq_prepare_or_kept`), whether they are refused or not. So one step alone can leave a gridder
  with a cache or corrector of other axes: an initialization for new axes that is refused after the
  first stage. It keeps the stage, but takes the axes (`not_sound_refused`), and the gridder stays
  so until an initialization succeeds (`run_sound_or_spoilt`).
-/
import Mathlib
import ApertureSynthesis.Proofs.Gridder.Setup

namespace ApertureSynthesis.Gridder

variable {α : Type} [Scalar α]

/-! ## Gridders with the cache of their axes -/

/-- The cache and the corrector are those of the axes. -/
def BuiltForAxes (s : Gridder α) : Prop :=
  ∃ axes cell cache corrector, s.axes = some axes ∧ s.cache = some cache ∧
    s.corrector = some corrector ∧ axes.cellSize = .ok cell ∧
    s.variant.buildCache cell axes.shape (.several (axes.frequency.map .real)) = .ok cache ∧
    Corrector.create cache axes.ny axes.nx = .ok corrector

/-- Past the first stage a gridder has the cache and the corrector of its axes. -/
def Sound (s : Gridder α) : Prop := s.stage ≠ .unconfigured → s.BuiltForAxes

theorem sound_new (variant : Kernel.Variant α) (axes : Option (Axes α))
    (interpolation : Interpolation) :
    (new variant axes interpolation).Sound := fun h => absurd rfl h

/-- `s'` is a later state of a gridder `s` past the first stage, with what that had. -/
structure Same (s s' : Gridder α) : Prop where
  /-- The kind of convolution function is the same, -/
  variant : s'.variant = s.variant
  /-- and so are the axes, -/
  axes : s'.axes = s.axes
  /-- the cache -/
  cache : s'.cache = s.cache
  /-- and the corrector. -/
  corrector : s'.corrector = s.corrector
  /-- It is past the first stage. -/
  configured : s'.stage ≠ .unconfigured

theorem Same.trans {s s' s'' : Gridder α} (h : Same s s') (h' : Same s' s'') : Same s s'' :=
  ⟨h'.variant.trans h.variant, h'.axes.trans h.axes, h'.cache.trans h.cache,
    h'.corrector.trans h.corrector, h'.configured⟩

theorem BuiltForAxes.of_same {s s' : Gridder α} (h : s.BuiltForAxes) (hs : Same s s') :
    s'.BuiltForAxes := by
  obtain ⟨axes, cell, cache, corrector, hbuilt⟩ := h
  refine ⟨axes, cell, cache, corrector, ?_⟩
  rw [hs.variant, hs.axes, hs.cache, hs.corrector]
  exact hbuilt

/-- `s'` is a later state of a gridder `s` that kept what it had, or built what it needs on first
    use. -/
structure Kept (s s' : Gridder α) : Prop where
  /-- The kind of convolution function is the same, -/
  variant : s'.variant = s.variant
  /-- and so are the axes. -/
  axes : s'.axes = s.axes
  /-- Past the first stage nothing else was built. -/
  same : s.stage ≠ .unconfigured → Same s s'
  /-- What left the first stage was built for the axes. -/
  built : s.stage = .unconfigured → s'.Sound

theorem Kept.refl (s : Gridder α) : Kept s s :=
  ⟨rfl, rfl, fun h => ⟨rfl, rfl, rfl, rfl, h⟩, fun h h' => absurd h h'⟩

theorem Same.kept {s s' : Gridder α} (h : Same s s') (hs : s.stage ≠ .unconfigured) : Kept s s' :=
  ⟨h.variant, h.axes, fun _ => h, fun hun => absurd hun hs⟩

theorem Kept.sound {s s' : Gridder α} (h : Kept s s') (hs : s.Sound) : s'.Sound := by
  by_cases hstage : s.stage = .unconfigured
  · exact h.built hstage
  · exact fun _ => (hs hstage).of_same (h.same hstage)

theorem Kept.trans {s s' s'' : Gridder α} (h : Kept s s') (h' : Kept s' s'') : Kept s s'' where
  variant := h'.variant.trans h.variant
  axes := h'.axes.trans h.axes
  same hs := (h.same hs).trans (h'.same (h.same hs).configured)
  built hs := h'.sound (h.built hs)

/-! ## What actions leave -/

section Outcome

variable {β γ : Type} {s s' : Gridder α}

/-- What an action gives from a gridder, and the gridder that it leaves. -/
def outcome (x : Action α β) (s : Gridder α) : Except (Fault α) β × Gridder α := x.run.run s

theorem outcome_bind_ok {x : Action α β} {f : β → Action α γ} {a : β}
    {r : Except (Fault α) γ × Gridder α} (hx : outcome x s = (.ok a, s'))
    (hf : outcome (f a) s' = r) : outcome (x >>= f) s = r := by
  unfold outcome at hx hf ⊢
  rw [ExceptT.run_bind, StateT.run_bind, hx]
  exact hf

theorem outcome_bind_error {x : Action α β} {f : β → Action α γ} {fault : Fault α}
    (hx : outcome x s = (.error fault, s')) : outcome (x >>= f) s = (.error fault, s') := by
  unfold outcome at hx ⊢
  rw [ExceptT.run_bind, StateT.run_bind, hx]
  rfl

/-- What holds of the gridder that an action leaves, and what the next action keeps, holds after
    both. -/
theorem snd_outcome_bind {x : Action α β} {f : β → Action α γ} {P : Gridder α → Prop}
    (hx : P (outcome x s).2) (hf : ∀ a s', P s' → P (outcome (f a) s').2) :
    P (outcome (x >>= f) s).2 := by
  rcases hout : outcome x s with ⟨_ | a, s'⟩
  · rw [hout] at hx
    rwa [outcome_bind_error hout]
  · rw [hout] at hx
    rw [outcome_bind_ok hout rfl]
    exact hf a s' hx

theorem outcome_get (s : Gridder α) : outcome (get : Action α (Gridder α)) s = (.ok s, s) := rfl

theorem outcome_modify (f : Gridder α → Gridder α) (s : Gridder α) :
    outcome (modify f : Action α PUnit) s = (.ok ⟨⟩, f s) := rfl

theorem outcome_lift {x r : Except (Fault α) β} (h : x = r) (s : Gridder α) :
    outcome (lift x) s = (r, s) := by
  rw [← h]
  rfl

/-- An action that leaves the gridder as it is, is refused or gives a result. -/
theorem outcome_of_snd {x : Action α β} (h : (outcome x s).2 = s) :
    (∃ fault, outcome x s = (.error fault, s)) ∨ ∃ a, outcome x s = (.ok a, s) := by
  rcases hout : outcome x s with ⟨fault | a, s'⟩
  · obtain rfl : s' = s := by rwa [hout] at h
    exact .inl ⟨fault, rfl⟩
  · obtain rfl : s' = s := by rwa [hout] at h
    exact .inr ⟨a, rfl⟩

/-- An action that keeps what a gridder has, or builds what it needs on first use. -/
def Keeping (x : Action α β) : Prop := ∀ s : Gridder α, Kept s (outcome x s).2

/-- An action that keeps what a gridder has past the first stage. -/
def Steady (x : Action α β) : Prop :=
  ∀ s : Gridder α, s.stage ≠ .unconfigured → Same s (outcome x s).2

theorem Keeping.steady {x : Action α β} (h : Keeping x) : Steady x := fun s hs => (h s).same hs

theorem Keeping.of_snd {x : Action α β} (h : ∀ s : Gridder α, (outcome x s).2 = s) : Keeping x := by
  intro s
  rw [h]
  exact Kept.refl s

theorem Keeping.pure (r : β) : Keeping (Pure.pure r : Action α β) := .of_snd fun _ => rfl

theorem Keeping.throw (fault : Fault α) : Keeping (throw fault : Action α β) := .of_snd fun _ => rfl

theorem Keeping.get : Keeping (get : Action α (Gridder α)) := .of_snd fun _ => rfl

theorem Keeping.lift (x : Except (Fault α) β) : Keeping (lift x) := .of_snd fun _ => rfl

theorem Keeping.need (part : Option β) : Keeping (need part : Action α β) := by
  cases part with
  | none => exact .throw .missing
  | some x => exact .pure x

/-- Counters may change, -/
theorem Keeping.count (f : Gridder α → Statistics) :
    Keeping (modify fun g => { g with statistics := f g } : Action α PUnit) := fun _ =>
  ⟨rfl, rfl, fun hs => ⟨rfl, rfl, rfl, rfl, hs⟩, fun hs hs' => absurd hs hs'⟩

/-- and past the first stage so may the stage. -/
theorem Steady.enter (f : Gridder α → Statistics) {stage : Stage} (h : stage ≠ .unconfigured) :
    Steady (modify fun g => { g with statistics := f g, stage := stage } : Action α PUnit) :=
      fun _ _ =>
  ⟨rfl, rfl, rfl, rfl, h⟩

theorem Keeping.bind {x : Action α β} {f : β → Action α γ} (hx : Keeping x)
    (hf : ∀ a, Keeping (f a)) :
    Keeping (x >>= f) := fun s => snd_outcome_bind (hx s) fun a s' h => h.trans (hf a s')

theorem Steady.bind {x : Action α β} {f : β → Action α γ} (hx : Steady x) (hf : ∀ a, Steady (f a)) :
    Steady (x >>= f) := fun s hs =>
  snd_outcome_bind (hx s hs) fun a s' h => h.trans (hf a s' h.configured)

end Outcome

/-! ## Initialization -/

/-- Where cache and corrector can be built for the axes, an initialization builds them. -/
theorem prepare_ok (s : Gridder α) {a : Axes α} {cell : CellSize α} {cache : Cache α}
    {corrector : Corrector α} (hcell : a.cellSize = .ok cell)
    (hcache : s.variant.buildCache cell a.shape (.several (a.frequency.map .real)) = .ok cache)
    (hcorrector : Corrector.create cache a.ny a.nx = .ok corrector) :
    outcome (prepare none) { s with axes := some a } =
      (.ok (), ⟨s.variant, s.interpolation, some a, some cache, some corrector, .initialized,
        s.statistics⟩) := by
  have hget := outcome_get { s with axes := some a }
  refine outcome_bind_ok hget (outcome_bind_ok (outcome_lift hcell _) ?_)
  refine outcome_bind_ok hget (outcome_bind_ok (outcome_lift hcache _) ?_)
  refine outcome_bind_ok (outcome_modify _ _) (outcome_bind_ok (outcome_lift hcorrector _) ?_)
  exact outcome_modify _ _

/-- An initialization either builds cache and corrector for the axes that it is given, or else the
    gridder's own, or it is refused. One that is refused keeps the stage and the corrector, but
    takes the axes; if only the corrector could not be built it also takes the cache. -/
theorem prepare_outcome (axes : Option (Axes α)) (s : Gridder α) :
    (∃ a cell cache corrector, axes.or s.axes = some a ∧ a.cellSize = .ok cell ∧
      s.variant.buildCache cell a.shape (.several (a.frequency.map .real)) = .ok cache ∧
      Corrector.create cache a.ny a.nx = .ok corrector ∧
      outcome (prepare axes) s =
        (.ok (),
          ⟨s.variant, s.interpolation, some a, some cache, some corrector, .initialized,
            s.statistics⟩)) ∨
    ∃ fault cache, outcome (prepare axes) s =
      (.error fault, { s with axes := axes.or s.axes, cache := cache }) := by
  have hfirst : outcome (prepare axes) s =
      outcome (prepare none) { s with axes := axes.or s.axes } := by
    cases axes <;> rfl
  rw [hfirst]
  generalize axes.or s.axes = own
  cases own with
  | none => exact .inr ⟨.noAxes, s.cache, rfl⟩
  | some a =>
    have hown := outcome_get { s with axes := some a }
    cases hcell : a.cellSize with
    | error fault =>
      exact .inr ⟨fault, s.cache, outcome_bind_ok hown (outcome_bind_error (outcome_lift hcell _))⟩
    | ok cell =>
      cases hcache : s.variant.buildCache cell a.shape (.several (a.frequency.map .real)) with
      | error fault =>
        exact .inr
          ⟨fault, s.cache, outcome_bind_ok hown <| outcome_bind_ok (outcome_lift hcell _) <|
          outcome_bind_ok hown <| outcome_bind_error (outcome_lift hcache _)⟩
      | ok cache =>
        cases hcorrector : Corrector.create cache a.ny a.nx with
        | error fault =>
          exact .inr
            ⟨fault, some cache, outcome_bind_ok hown <| outcome_bind_ok (outcome_lift hcell _) <|
            outcome_bind_ok hown <| outcome_bind_ok (outcome_lift hcache _) <|
            outcome_bind_ok (outcome_modify _ _) <| outcome_bind_error (outcome_lift hcorrector _)⟩
        | ok corrector =>
          exact .inl ⟨a, cell, cache, corrector, rfl, hcell, hcache, hcorrector,
            prepare_ok s hcell hcache hcorrector⟩

/-- What an initialization that succeeds has built. -/
theorem exists_of_prepare {axes : Option (Axes α)} {s s' : Gridder α}
    (h : outcome (prepare axes) s = (.ok (), s')) :
    ∃ a cell cache corrector, a.cellSize = .ok cell ∧
      s.variant.buildCache cell a.shape (.several (a.frequency.map .real)) = .ok cache ∧
      Corrector.create cache a.ny a.nx = .ok corrector ∧
      s' =
        ⟨s.variant, s.interpolation, some a, some cache, some corrector, .initialized,
          s.statistics⟩ := by
  obtain ⟨a, cell, cache, corrector, -, hcell, hcache, hcorrector, hok⟩ | ⟨fault, cache, herror⟩ :=
    prepare_outcome axes s
  · rw [hok] at h
    cases h
    exact ⟨a, cell, cache, corrector, hcell, hcache, hcorrector, rfl⟩
  · rw [herror] at h
    cases h

/-- An initialization that succeeds builds cache and corrector of the axes. -/
theorem builtForAxes_prepare {axes : Option (Axes α)} {s s' : Gridder α}
    (h : outcome (prepare axes) s = (.ok (), s')) : s'.BuiltForAxes := by
  obtain ⟨a, cell, cache, corrector, hcell, hcache, hcorrector, rfl⟩ := exists_of_prepare h
  exact ⟨a, cell, cache, corrector, rfl, rfl, rfl, hcell, hcache, hcorrector⟩

/-- A gridder with cache and corrector of its axes is not refused these axes again. -/
theorem prepare_own {s : Gridder α} (h : s.BuiltForAxes) {axes : Option (Axes α)}
    (hown : axes.or s.axes = s.axes) (fault : Fault α) :
    (outcome (prepare axes) s).1 ≠ .error fault := by
  obtain ⟨a, cell, cache, corrector, haxes, -, -, hcell, hcache, hcorrector⟩ := h
  have hsame : outcome (prepare axes) s = outcome (prepare none) s := by
    cases axes with
    | none => rfl
    | some b =>
      have hb : some b = s.axes := hown
      show outcome (prepare none) { s with axes := some b } = _
      rw [hb]
  have hs : s = { s with axes := some a } := by rw [← haxes]
  rw [hsame, hs, prepare_ok s hcell hcache hcorrector]
  exact fun herror => by cases herror

/-! ## Passes -/

section Passes

variable {β : Type} {nchan npol : ℕ}

theorem ensurePrepared_of_configured {s : Gridder α} (h : s.stage ≠ .unconfigured) :
    outcome ensurePrepared s = (.ok (), s) := by
  refine outcome_bind_ok (outcome_get s) ?_
  rw [if_neg h]
  rfl

theorem ensurePrepared_of_unconfigured {s : Gridder α} (h : s.stage = .unconfigured) :
    outcome ensurePrepared s = outcome (prepare none) s := by
  refine outcome_bind_ok (outcome_get s) ?_
  rw [if_pos h]

/-- A gridder is prepared on first use for its axes, or stays in the first stage. -/
theorem keeping_ensurePrepared : Keeping (ensurePrepared : Action α Unit) := by
  intro s
  by_cases hs : s.stage = .unconfigured
  · rw [ensurePrepared_of_unconfigured hs]
    obtain ⟨a, cell, cache, corrector, haxes, hcell, hcache, hcorrector, hok⟩ | ⟨fault, cache,
      herror⟩ :=
      prepare_outcome none s
    · rw [hok]
      exact ⟨rfl, haxes.symm, fun hne => absurd hs hne, fun _ _ =>
        ⟨a, cell, cache, corrector, rfl, rfl, rfl, hcell, hcache, hcorrector⟩⟩
    · rw [herror]
      exact ⟨rfl, rfl, fun hne => absurd hs hne, fun _ hne => absurd hs hne⟩
  · rw [ensurePrepared_of_configured hs]
    exact Kept.refl s

theorem configured_of_ensurePrepared {s s' : Gridder α}
    (h : outcome ensurePrepared s = (.ok (), s')) :
    s'.stage ≠ .unconfigured := by
  by_cases hs : s.stage = .unconfigured
  · rw [ensurePrepared_of_unconfigured hs] at h
    obtain ⟨a, cell, cache, corrector, -, -, -, -, hok⟩ | ⟨fault, cache, herror⟩ :=
      prepare_outcome none s
    · rw [hok] at h
      cases h
      exact Stage.noConfusion
    · rw [herror] at h
      cases h
  · rw [ensurePrepared_of_configured hs] at h
    cases h
    exact hs

/-- What follows preparation starts past the first stage. -/
theorem Steady.prepared {rest : Unit → Action α β} (h : Steady (rest ())) :
    Keeping (ensurePrepared >>= rest) := by
  intro s
  have hfirst := keeping_ensurePrepared s
  rcases hout : outcome ensurePrepared s with ⟨_ | _, s'⟩
  · rw [hout] at hfirst
    rw [outcome_bind_error hout]
    exact hfirst
  · have hs' := configured_of_ensurePrepared hout
    rw [hout] at hfirst
    rw [outcome_bind_ok hout rfl]
    exact hfirst.trans ((h s' hs').kept hs')

theorem keeping_theAxes : Keeping (theAxes : Action α (Axes α)) := Keeping.get.bind fun _ => .need _

theorem keeping_theCache : Keeping (theCache : Action α (Cache α)) :=
  Keeping.get.bind fun _ => .need _

theorem keeping_theCorrector : Keeping (theCorrector : Action α (Corrector α)) :=
  Keeping.get.bind fun _ => .need _

theorem keeping_createGrid : Keeping (createGrid : Action α (Grid α)) :=
  keeping_ensurePrepared.bind fun _ => keeping_theAxes.bind fun _ => .lift _

theorem keeping_beginPass : Keeping (beginPass : Action α (Grid α × Tensor α)) := by
  refine Steady.prepared (Steady.bind (.enter (fun _ => .zero) Stage.noConfusion) fun _ => ?_)
  exact (keeping_createGrid.bind fun _ => .pure _).steady

theorem keeping_ensurePass : Keeping (ensurePass : Action α Unit) := by
  refine Keeping.get.bind fun s => ?_
  split
  · exact keeping_beginPass.bind fun _ => .pure _
  · exact .pure _

theorem keeping_checkGrid (grid : Grid α) : Keeping (checkGrid grid) := by
  refine keeping_theAxes.bind fun axes => ?_
  split
  · exact .throw _
  · exact .pure _

theorem keeping_accumulate (how : Grid.Contribution α) (vis : Visibility α nchan npol)
    (grid : Option (Grid α)) (sums : Option (Tensor α)) :
    Keeping (accumulate how vis grid sums) := by
  refine keeping_ensurePrepared.bind fun _ => keeping_ensurePass.bind fun _ => ?_
  cases grid
  case' none => refine keeping_createGrid.bind fun g => ?_
  case' some g => refine (Keeping.pure g).bind fun g => ?_
  -- the rest is the same for the grid that is given and for a fresh one
  all_goals
    refine (keeping_checkGrid g).bind fun _ => keeping_theCache.bind fun cache => ?_
    refine Keeping.get.bind fun s => (Keeping.lift _).bind fun map => Keeping.get.bind fun t => ?_
    split
    · exact .pure _
    · exact (Keeping.count _).bind fun _ => .pure _

theorem keeping_complete (a : Accumulated α) : Keeping (complete a) := by
  unfold complete
  split
  · exact .pure _
  · exact .throw _

theorem keeping_forward (vis : Visibility α nchan npol) (grid : Grid α) :
    Keeping (forward vis grid) := by
  refine keeping_ensurePrepared.bind fun _ => keeping_ensurePass.bind fun _ => ?_
  refine (keeping_checkGrid grid).bind fun _ => keeping_theCache.bind fun cache => ?_
  refine Keeping.get.bind fun s => (Keeping.lift _).bind fun map => Keeping.get.bind fun t => ?_
  exact (Keeping.lift _).bind fun p => (Keeping.count _).bind fun _ => .pure _

theorem keeping_modelToGrid (model : Image α) : Keeping (modelToGrid model) := by
  refine keeping_ensurePrepared.bind fun _ => keeping_theAxes.bind fun axes => ?_
  split
  · exact .throw _
  · refine keeping_theCorrector.bind fun _ => (Keeping.lift _).bind fun corrected => ?_
    exact keeping_createGrid.bind fun _ => .lift _

/-- An action after which `P` holds of the gridder if it did before. -/
def Keeps (P : Gridder α → Prop) (x : Action α β) : Prop := ∀ s, P s → P (outcome x s).2

section Keeps

variable {P : Gridder α → Prop} {γ : Type}

theorem Keeps.of_snd {x : Action α β} (h : ∀ s : Gridder α, (outcome x s).2 = s) : Keeps P x := by
  intro s hs
  rwa [h]

theorem Keeps.bind {x : Action α β} {f : β → Action α γ} (hx : Keeps P x)
    (hf : ∀ a, Keeps P (f a)) :
    Keeps P (x >>= f) := fun s hs => snd_outcome_bind (hx s hs) hf

theorem keeps_part (part : Gridder α → Option β) :
    Keeps P (do need (part (← get)) : Action α β) := by
  refine .of_snd fun s => ?_
  rw [outcome_bind_ok (outcome_get s) rfl]
  cases part s <;> rfl

theorem keeps_checkGrid (grid : Grid α) : Keeps P (checkGrid grid) := by
  refine (keeps_part axes).bind fun axes => ?_
  split
  · exact .of_snd fun _ => rfl
  · exact .of_snd fun _ => rfl

end Keeps

/-- The image of the pixels of a pass, and the end of the pass. -/
def endPass (pixels : Tensor α) : Action α (Image α) := do
  let axes ← theAxes
  let image ← lift ((← theCorrector).correct
    { pixels := .real pixels, coordinates := axes.coordinates })
  modify fun g => { g with stage := .finalized }
  return image

theorem outcome_endPass_cases (pixels : Tensor α) (s : Gridder α) :
    (∃ fault, outcome (endPass pixels) s = (.error fault, s)) ∨
      ∃ image, outcome (endPass pixels) s = (.ok image, { s with stage := .finalized }) := by
  rw [endPass]
  obtain ⟨fault, h⟩ | ⟨axes, h⟩ := outcome_of_snd (keeps_part (P := (· = s)) axes s rfl)
  · exact .inl ⟨fault, outcome_bind_error h⟩
  rw [theAxes, outcome_bind_ok h rfl]
  obtain ⟨fault, h⟩ | ⟨corrector, h⟩ := outcome_of_snd (keeps_part (P := (· = s)) corrector s rfl)
  · exact .inl ⟨fault, outcome_bind_error h⟩
  rw [theCorrector, outcome_bind_ok h rfl]
  cases corrector.correct { pixels := .real pixels, coordinates := axes.coordinates } with
  | error fault => exact .inl ⟨fault, rfl⟩
  | ok image => exact .inr ⟨image, rfl⟩

/-- Finalizing is refused, or it ends a pass. -/
theorem outcome_finalize_cases (grid : Grid α) (sums : Tensor α) (normalize : Bool)
    (s : Gridder α) :
    (∃ fault, outcome (finalize grid sums normalize) s = (.error fault, s)) ∨
    s.stage = .active ∧ ∃ image, outcome (finalize grid sums normalize) s =
      (.ok image, { s with stage := .finalized }) := by
  rw [finalize, outcome_bind_ok (outcome_get s) rfl]
  by_cases hactive : s.stage = .active
  · rw [if_neg (not_not.2 hactive)]
    obtain ⟨fault, h⟩ | ⟨_, h⟩ := outcome_of_snd (keeps_checkGrid (P := (· = s)) grid s rfl)
    · exact .inl ⟨fault, outcome_bind_error h⟩
    rw [outcome_bind_ok h rfl]
    cases grid.toImage with
    | error fault => exact .inl ⟨fault, rfl⟩
    | ok image =>
      rw [outcome_bind_ok (outcome_lift rfl s) rfl]
      cases normalize with
      | false => exact (outcome_endPass_cases _ s).imp_right fun h => ⟨hactive, h⟩
      | true =>
        cases weightTable sums grid.nchan grid.npol with
        | error fault => exact .inl ⟨fault, rfl⟩
        | ok weights => exact (outcome_endPass_cases _ s).imp_right fun h => ⟨hactive, h⟩
  · rw [if_pos hactive]
    exact .inl ⟨_, rfl⟩

/-- The end of a pass changes a gridder in its stage only, and only one that is in a pass. -/
theorem snd_finalize (grid : Grid α) (sums : Tensor α) (normalize : Bool) (s : Gridder α) :
    (outcome (finalize grid sums normalize) s).2 = s ∨
      s.stage = .active ∧
        (outcome (finalize grid sums normalize) s).2 = { s with stage := .finalized } := by
  obtain ⟨fault, h⟩ | ⟨hactive, image, h⟩ := outcome_finalize_cases grid sums normalize s
  · exact .inl (by rw [h])
  · exact .inr ⟨hactive, by rw [h]⟩

theorem keeping_finalize (grid : Grid α) (sums : Tensor α) (normalize : Bool) :
    Keeping (finalize grid sums normalize) := by
  intro s
  rcases snd_finalize grid sums normalize s with h | ⟨hactive, h⟩
  · rw [h]
    exact Kept.refl s
  · rw [h]
    have hconfigured : s.stage ≠ .unconfigured :=
      fun hs => Stage.noConfusion (hactive.symm.trans hs)
    exact Same.kept ⟨rfl, rfl, rfl, rfl, Stage.noConfusion⟩ hconfigured

end Passes

/-! ## Operations -/

/-- The operations of a gridder, with what they are given. -/
inductive Operation (α : Type) [Scalar α] where
  /-- Builds the cache for axes, those given or its own. -/
  | prepare (axes : Option (Axes α))
  /-- Starts a pass. -/
  | beginPass
  /-- Makes an empty grid. -/
  | createGrid
  /-- Grids visibilities. -/
  | reverse {nchan npol : ℕ} (vis : Visibility α nchan npol) (grid : Option (Grid α))
      (sums : Option (Tensor α))
  /-- Grids the weights of visibilities. -/
  | reverseWeights {nchan npol : ℕ} (vis : Visibility α nchan npol) (grid : Option (Grid α))
      (sums : Option (Tensor α))
  /-- Predicts visibilities from a grid. -/
  | forward {nchan npol : ℕ} (vis : Visibility α nchan npol) (grid : Grid α)
  /-- Transforms a model to a grid. -/
  | modelToGrid (model : Image α)
  /-- Turns the grid of a pass into an image. -/
  | finalize (grid : Grid α) (sums : Tensor α) (normalize : Bool)

namespace Operation

/-- An operation as an action, whatever it gives. -/
def act : Operation α → Action α Unit
  | prepare axes => Gridder.prepare axes
  | beginPass => do let _ ← Gridder.beginPass
  | createGrid => do let _ ← Gridder.createGrid
  | reverse vis grid sums => do let _ ← complete (← Gridder.reverse vis grid sums)
  | reverseWeights vis grid sums => do let _ ← complete (← Gridder.reverseWeights vis grid sums)
  | forward vis grid => do let _ ← Gridder.forward vis grid
  | modelToGrid model => do let _ ← Gridder.modelToGrid model
  | finalize grid sums normalize => do let _ ← Gridder.finalize grid sums normalize

/-- The gridder after an operation, also one that was refused. -/
def after (op : Operation α) (s : Gridder α) : Gridder α := (outcome op.act s).2

/-- The operation is refused. -/
def Refused (op : Operation α) (s : Gridder α) : Prop :=
  ∃ fault, (outcome op.act s).1 = .error fault

/-- An operation either initializes, or keeps what a gridder has or builds it on first use. -/
theorem eq_prepare_or_kept (op : Operation α) :
    (∃ axes, op = .prepare axes) ∨ ∀ s, Kept s (op.after s) := by
  cases op with
  | prepare axes => exact .inl ⟨axes, rfl⟩
  | beginPass => exact .inr (keeping_beginPass.bind fun _ => .pure _)
  | createGrid => exact .inr (keeping_createGrid.bind fun _ => .pure _)
  | reverse vis grid sums =>
    exact .inr
      ((keeping_accumulate _ vis grid sums).bind fun a =>
        (keeping_complete a).bind fun _ => .pure _)
  | reverseWeights vis grid sums =>
    exact .inr
      ((keeping_accumulate _ vis grid sums).bind fun a =>
        (keeping_complete a).bind fun _ => .pure _)
  | forward vis grid => exact .inr ((keeping_forward vis grid).bind fun _ => .pure _)
  | modelToGrid model => exact .inr ((keeping_modelToGrid model).bind fun _ => .pure _)
  | finalize grid sums normalize =>
    exact .inr ((keeping_finalize grid sums normalize).bind fun _ => .pure _)

end Operation

open Operation

/-- New axes for which a gridder with the cache of its own axes is refused. -/
structure Spoils (axes : Axes α) (s : Gridder α) : Prop where
  /-- Cache and corrector are those of the axes so far. -/
  sound : s.Sound
  /-- The gridder is past the first stage. -/
  configured : s.stage ≠ .unconfigured
  /-- The axes are others. -/
  ne : s.axes ≠ some axes
  /-- Cache or corrector cannot be built for them. -/
  refused : Refused (.prepare (some axes)) s

/-- An operation, also one that is refused, leaves a sound gridder sound, unless it is an
    initialization for new axes that is refused. -/
theorem sound_after {s : Gridder α} (h : s.Sound) (op : Operation α) :
    (op.after s).Sound ∨ ∃ axes, op = .prepare (some axes) ∧ Spoils axes s := by
  obtain ⟨axes, rfl⟩ | hkept := op.eq_prepare_or_kept
  · rcases hout : outcome (prepare axes) s with ⟨fault | _, s'⟩
    · have hrefused : (outcome (prepare axes) s).1 = .error fault := by rw [hout]
      by_cases hs : s.stage = .unconfigured
      · -- in the first stage nothing is asked of cache and corrector
        refine .inl fun hne => absurd ?_ hne
        obtain ⟨a, cell, cache, corrector, -, -, -, -, hok⟩ | ⟨fault', cache, herror⟩ :=
          prepare_outcome axes s
        · rw [hok] at hrefused
          cases hrefused
        · show (outcome (prepare axes) s).2.stage = .unconfigured
          rw [herror]
          exact hs
      · cases axes with
        | none => exact absurd hrefused (prepare_own (h hs) rfl fault)
        | some a =>
          refine .inr ⟨a, rfl, h, hs, fun hown => ?_, fault, hrefused⟩
          exact prepare_own (h hs) (show (some a).or s.axes = s.axes from hown.symm) fault hrefused
    · refine .inl fun _ => ?_
      show (outcome (prepare axes) s).2.BuiltForAxes
      rw [hout]
      exact builtForAxes_prepare hout
  · exact .inl ((hkept s).sound h)

/-- An initialization that is not refused makes a gridder sound. -/
theorem sound_after_prepare {s : Gridder α} {axes : Option (Axes α)}
    (h : ¬ Refused (.prepare axes) s) :
    ((Operation.prepare axes).after s).Sound := by
  rcases hout : outcome (prepare axes) s with ⟨fault | _, s'⟩
  · refine absurd ⟨fault, ?_⟩ h
    show (outcome (prepare axes) s).1 = _
    rw [hout]
  · intro _
    show (outcome (prepare axes) s).2.BuiltForAxes
    rw [hout]
    exact builtForAxes_prepare hout

/-- The gridder after a run of operations. -/
def run (ops : List (Operation α)) (s : Gridder α) : Gridder α :=
  ops.foldl (fun s op => op.after s) s

theorem run_append (ops ops' : List (Operation α)) (s : Gridder α) :
    run (ops ++ ops') s = run ops' (run ops s) := List.foldl_append

/-- After any run of operations on a new gridder, refused ones among them, a gridder past the first
    stage has the cache and the corrector of its axes; unless it had been spoiled by an
    initialization for new axes that was refused, and none has succeeded since. -/
theorem run_sound_or_spoilt (variant : Kernel.Variant α) (axes : Option (Axes α))
    (interpolation : Interpolation) (ops : List (Operation α)) :
    (run ops (new variant axes interpolation)).Sound ∨
    ∃ before a since, ops = before ++ .prepare (some a) :: since ∧
      Spoils a (run before (new variant axes interpolation)) ∧
      ∀ between b later, since = between ++ .prepare b :: later →
        Refused (.prepare b)
          (run (before ++ .prepare (some a) :: between) (new variant axes interpolation)) := by
  -- by induction on the run, an operation at its end
  induction ops using List.reverseRecOn with
  | nil => exact .inl (sound_new variant axes interpolation)
  | append_singleton ops op ih =>
    rw [run_append]
    rcases ih with hsound | ⟨before, a, since, rfl, hspoils, hsince⟩
    · rcases sound_after hsound op with hnext | ⟨a, rfl, hspoils⟩
      · exact .inl hnext
      · refine .inr ⟨ops, a, [], rfl, hspoils, fun between b later hnil => ?_⟩
        cases between <;> cases hnil
    · by_cases hop : ∃ b, op = .prepare b ∧
          ¬ Refused (.prepare b)
            (run (before ++ .prepare (some a) :: since) (new variant axes interpolation))
      · obtain ⟨b, rfl, hok⟩ := hop
        exact .inl (sound_after_prepare hok)
      · refine .inr ⟨before, a, since ++ [op], by simp, hspoils, fun between b later hsplit => ?_⟩
        rcases List.eq_nil_or_concat later with rfl | ⟨later', last, rfl⟩
        · obtain ⟨rfl, hlast⟩ := List.append_inj' hsplit rfl
          cases hlast
          by_contra hok
          exact hop ⟨b, rfl, hok⟩
        · have hsplit' : since ++ [op] = (between ++ .prepare b :: later') ++ [last] := by
            rw [hsplit]
            simp
          exact hsince between b later' (List.append_inj' hsplit' rfl).1

/-- Axes without rows. -/
noncomputable def flatAxes : Axes ℝ := { Setup.smallAxes with ny := 0 }

/-- A gridder for the box function, initialized for its own axes. -/
noncomputable def boxGridder : Gridder ℝ :=
  run [.prepare none] (new .box (some Setup.smallAxes) .linear)

/-- Axes without rows are refused, and yet the gridder is left with them, past the first stage and
    with the corrector of the axes that it had. -/
theorem not_sound_refused :
    boxGridder.Sound ∧ boxGridder.stage = .initialized ∧ boxGridder.axes = some Setup.smallAxes ∧
    Refused (.prepare (some flatAxes)) boxGridder ∧
    (run [.prepare (some flatAxes)] boxGridder).stage = .initialized ∧
    (run [.prepare (some flatAxes)] boxGridder).axes = some flatAxes ∧
    (run [.prepare (some flatAxes)] boxGridder).corrector = boxGridder.corrector ∧
    ¬ (run [.prepare (some flatAxes)] boxGridder).Sound := by
  obtain ⟨σ, -, hvariant, -, haxes, -, -⟩ := Setup.exists_small
  have hbox : outcome (prepare none) (new .box (some Setup.smallAxes) .linear) =
      (.ok (), ⟨.box, .linear, some Setup.smallAxes, some σ.cache, some σ.corrector, .initialized,
        .zero⟩) := by
    have hcell := σ.cellSize_axes
    have hbuilt := σ.built
    have hcorrected := σ.corrected
    rw [hvariant] at hbuilt
    rw [haxes] at hcell hbuilt hcorrected
    exact prepare_ok (new .box (some Setup.smallAxes) .linear) hcell hbuilt hcorrected
  have hgridder : boxGridder = ⟨.box, .linear, some Setup.smallAxes, some σ.cache, some σ.corrector,
      .initialized, .zero⟩ := congrArg Prod.snd hbox
  -- no cache has a corrector over axes without rows
  have hflat : ∀ (cache : Cache ℝ) corrector,
      Corrector.create cache flatAxes.ny flatAxes.nx ≠ .ok corrector := by
    intro cache corrector hcreate
    obtain ⟨phase, -, -, hwidth, -, -⟩ := Corrector.exists_of_create hcreate
    have hrows : flatAxes.ny = 0 := rfl
    omega
  have hunbuilt : ∀ s : Gridder ℝ, s.axes = some flatAxes → ¬ s.BuiltForAxes := by
    rintro s hs ⟨a, cell, cache, corrector, haxes, -, -, -, -, hcorrector⟩
    obtain rfl : flatAxes = a := Option.some.inj (hs.symm.trans haxes)
    exact hflat cache corrector hcorrector
  obtain ⟨a, cell, cache, corrector, ha, -, -, hcorrector, -⟩ | ⟨fault, cache, herror⟩ :=
    prepare_outcome (some flatAxes) boxGridder
  · obtain rfl : flatAxes = a := Option.some.inj ha
    exact absurd hcorrector (hflat cache corrector)
  · have hrun : run [.prepare (some flatAxes)] boxGridder =
        { boxGridder with axes := some flatAxes, cache := cache } := congrArg Prod.snd herror
    have hstage : boxGridder.stage = .initialized := by rw [hgridder]
    have hbuilt : boxGridder.BuiltForAxes := by
      rw [hgridder]
      exact builtForAxes_prepare hbox
    refine ⟨fun _ => hbuilt, hstage, by rw [hgridder],
      ⟨fault, congrArg Prod.fst herror⟩, ?_, ?_, ?_, fun hsound => ?_⟩
    · rw [hrun]
      exact hstage
    · rw [hrun]
    · rw [hrun]
    · refine hunbuilt _ ?_ (hsound ?_)
      · rw [hrun]
      · rw [hrun, hstage]
        exact Stage.noConfusion

end ApertureSynthesis.Gridder
