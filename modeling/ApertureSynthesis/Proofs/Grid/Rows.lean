/-
  Gridding of visibilities whose rows are put together from parts, in any arithmetic.

  Where a row goes depends on the plane of its channels and on nothing else of the other rows, so a
  frame with another plane map places the rows that have the same planes in the same way
  (`step_withMap`). Counters are kept beside grid and sums and never looked at (`foldlM_counting`).
  So a row whose samples are all flagged can be put in anywhere: its own steps do nothing, those
  after it find their planes one row later, and what it leaves is one flagged row and the entries
  that the plane map clamped for it (`deposit_insert`).
-/
import Mathlib
import ApertureSynthesis.Proofs.Grid.Deposit
import ApertureSynthesis.Proofs.Outcome
import ApertureSynthesis.Proofs.Plane.Append

namespace ApertureSynthesis.Grid

variable {α : Type} [Scalar α] {nchan npol : ℕ} {vis : Visibility α nchan npol}
  {rows₁ rows₂ : List (Row α nchan npol)} {g : Grid α} {c : Cache α} {m₁ m₂ m : PlaneMap}
  {sums : Option (Tensor α)} {interpolation : Interpolation} {f : Frame α} {how : Contribution α}

/-! ## Frames -/

theorem checkFit_eq_ok {map : PlaneMap} :
    checkFit vis g c map = .ok () ↔ npol = g.npol ∧ map.planes.shape = [vis.rowCount, nchan] ∧
      map.count = c.planeCount ∧ g.cellSize.agree? c.cellSize = some true := by
  unfold checkFit
  split
  · simp_all
  · split
    · simp_all
    · split
      · simp_all
      · split <;> simp_all

/-- All rows fit a grid and a cache if the rows of either part do. -/
theorem checkFit_append (vis : Visibility α nchan npol) (g : Grid α) (c : Cache α)
    (h : PlaneMap.Appends rows₁.length rows₂.length m₁ m₂ m) :
    (checkFit (vis.withRows (rows₁ ++ rows₂)) g c m = .ok () ↔
      checkFit (vis.withRows rows₁) g c m₁ = .ok ()) ∧
    (checkFit (vis.withRows (rows₁ ++ rows₂)) g c m = .ok () ↔
      checkFit (vis.withRows rows₂) g c m₂ = .ok ()) := by
  obtain ⟨width, h₁, h₂, hm⟩ := h.shape
  obtain ⟨hcount₁, hcount₂⟩ := h.count
  have hrows : ∀ rows, (vis.withRows rows).rowCount = rows.length := fun _ => rfl
  simp [checkFit_eq_ok, h₁, h₂, hm, hcount₁, hcount₂, hrows]

/-- A frame with another plane map. -/
def withMap (f : Frame α) (m : PlaneMap) : Frame α := { f with map := m }

theorem frame_withRows (rows rows' : List (Row α nchan npol)) (m m' : PlaneMap) :
    frame (vis.withRows rows') g c m' interpolation =
      (frame (vis.withRows rows) g c m interpolation).map (withMap · m') := by
  have hspectrum : (vis.withRows rows').spectrum = (vis.withRows rows).spectrum := rfl
  have hchannels : g.channelsOf (vis.withRows rows') = g.channelsOf (vis.withRows rows) := rfl
  unfold frame
  rw [hspectrum, hchannels]
  cases g.lattice c with
  | error fault => rfl
  | ok lattice =>
    cases (vis.withRows rows).spectrum with
    | error fault => rfl
    | ok frequency => cases g.channelsOf (vis.withRows rows) <;> rfl

theorem map_frame (h : frame vis g c m interpolation = .ok f) : f.map = m := by
  obtain ⟨lattice, channels, -, -, rfl⟩ := exists_of_frame h
  rfl

theorem place_withMap {k k' b : ℕ} (h : m.plane k' b = f.map.plane k b) (r : Row α nchan npol) :
    (withMap f m).place k' r b = f.place k r b := by
  unfold Frame.place
  rw [← h]
  rfl

/-! ## Steps and runs -/

omit [Scalar α] in
theorem samplesOf_append :
    samplesOf (vis.withRows (rows₁ ++ rows₂)) = samplesOf (vis.withRows rows₁) ++
      (samplesOf (vis.withRows rows₂)).map fun x => (rows₁.length + x.1, x.2) := by
  show (rows₁ ++ rows₂).zipIdx.flatMap _ = rows₁.zipIdx.flatMap _ ++ (rows₂.zipIdx.flatMap _).map _
  rw [List.zipIdx_append, List.flatMap_append, Nat.zero_add,
    List.zipIdx_eq_map_add (l := rows₂) (i := rows₁.length), List.flatMap_map, List.map_flatMap]
  simp only [List.map_map, Function.comp_def]

/-- A step for a row of a part is the step for it among all rows. -/
theorem step_withMap {k k' : ℕ} (h : ∀ b, m.plane k' b = f.map.plane k b) (d : Deposit α)
    (x : Row α nchan npol × ℕ × Vector (Sample α) npol) :
    step how (withMap f m) d (k', x) = step how f d (k, x) := by
  unfold step
  simp only [place_withMap (h x.2.1) x.1]

/-- A deposit with further counts. -/
def Deposit.counting (d : Deposit α) (t : Statistics) : Deposit α :=
  { d with statistics := d.statistics + t }

/-- Of two passes, both end or both are broken off, and the second has reached what the first has,
    with further counts. -/
inductive Recounted (t : Statistics) : Except (Interrupted α) (Deposit α) →
    Except (Interrupted α) (Deposit α) → Prop
  /-- Both have ended. -/
  | ended (d : Deposit α) : Recounted t (.ok d) (.ok (d.counting t))
  /-- Both were broken off. -/
  | broken (fault fault' : Fault α) (d : Deposit α) :
      Recounted t (.error ⟨fault, d⟩) (.error ⟨fault', d.counting t⟩)

/-- What was counted before makes no difference to a sample. -/
theorem addSample_counting (placement : Placement α) (samples : List (Sample α)) (d : Deposit α)
    (t : Statistics) :
    Recounted t (addSample how placement samples d)
      (addSample how placement samples (d.counting t)) := by
  cases placement with
  | outside =>
    have hcount : { d.statistics + t with outside := (d.statistics + t).outside + 1 } =
        { d.statistics with outside := d.statistics.outside + 1 } + t :=
      Statistics.ext rfl rfl (Int.add_right_comm _ _ _) rfl
    simp only [addSample, Deposit.counting, hcount]
    exact .ended { d with statistics := { d.statistics with outside := d.statistics.outside + 1 } }
  | inside channel runs =>
    have hcount : { d.statistics + t with gridded := (d.statistics + t).gridded + 1 } =
        { d.statistics with gridded := d.statistics.gridded + 1 } + t :=
      Statistics.ext (Int.add_right_comm _ _ _) rfl rfl rfl
    simp only [addSample, Deposit.counting, hcount]
    cases addWeights d.sumWeights channel (samples.map (how.weight (tapTotal runs.flatten))) with
    | error fault => exact .broken fault fault ⟨_, _, _⟩
    | ok sums => exact .ended ⟨_, _, _⟩

theorem step_counting (f : Frame α) (d : Deposit α) (t : Statistics)
    (x : ℕ × Row α nchan npol × ℕ × Vector (Sample α) npol) :
    Recounted t (step how f d x) (step how f (d.counting t) x) := by
  obtain ⟨k, r, b, ps⟩ := x
  unfold step
  dsimp only
  by_cases hall : Row.channelFlagged ps = true
  · rw [if_pos hall, if_pos hall]
    exact .ended d
  · rw [if_neg hall, if_neg hall]
    cases f.place k r b with
    | error fault => exact .broken fault fault d
    | ok placement => exact addSample_counting placement ps.toList d t

/-- What was counted before makes no difference to a run. -/
theorem foldlM_counting (f : Frame α) (t : Statistics)
    (xs : List (ℕ × Row α nchan npol × ℕ × Vector (Sample α) npol)) (d : Deposit α) :
    Recounted t (xs.foldlM (step how f) d) (xs.foldlM (step how f) (d.counting t)) := by
  induction xs generalizing d with
  | nil => exact .ended d
  | cons x xs ih =>
    rw [List.foldlM_cons, List.foldlM_cons]
    have hfirst : Recounted t (step how f d x) (step how f (d.counting t) x) :=
      step_counting f d t x
    cases hstep : step how f d x with
    | error interrupted =>
      rw [hstep] at hfirst
      generalize step how f (d.counting t) x = y at hfirst
      cases hfirst
      exact .broken _ _ _
    | ok next =>
      rw [hstep] at hfirst
      generalize step how f (d.counting t) x = y at hfirst
      cases hfirst
      exact ih next

/-- Samples whose polarisations are all flagged change nothing. -/
theorem foldlM_flagged (f : Frame α) (d : Deposit α)
    {xs : List (ℕ × Row α nchan npol × ℕ × Vector (Sample α) npol)}
    (h : ∀ x ∈ xs, Row.channelFlagged x.2.2.2 = true) : xs.foldlM (step how f) d = .ok d := by
  induction xs with
  | nil => rfl
  | cons x xs ih =>
    obtain ⟨k, r, b, ps⟩ := x
    have hfirst : step how f d (k, r, b, ps) = .ok d := if_pos (h _ List.mem_cons_self)
    rw [List.foldlM_cons, hfirst]
    exact ih fun y hy => h y (List.mem_cons_of_mem _ hy)

/-- What a pass starts with. -/
def opened (vis : Visibility α nchan npol) (g : Grid α) (map : PlaneMap)
    (sums : Option (Tensor α)) :
    Deposit α where
  grid := g
  sumWeights := sums.getD (Tensor.fill [g.nchan, g.npol] 0)
  statistics := { flagged := flaggedRows vis, clamped := map.clamped }

/-- A pass checks what it is given, makes a frame and adds the samples one by one. -/
theorem deposit_eq_bind : deposit how vis g c m sums interpolation = (do
    (checkFit vis g c m).mapError (Interrupted.mk · (opened vis g m sums))
    let f ← (frame vis g c m interpolation).mapError (Interrupted.mk · (opened vis g m sums))
    (samplesOf vis).foldlM (step how f) (opened vis g m sums)) := by
  unfold deposit
  cases checkFit vis g c m with
  | error fault => rfl
  | ok _ => cases frame vis g c m interpolation <;> rfl

theorem deposit_eq_ok {d : Deposit α} :
    deposit how vis g c m sums interpolation = .ok d ↔
      checkFit vis g c m = .ok () ∧ ∃ f, frame vis g c m interpolation = .ok f ∧
        (samplesOf vis).foldlM (step how f) (opened vis g m sums) = .ok d := by
  rw [deposit_eq_bind]
  cases checkFit vis g c m with
  | error fault => simp [Except.mapError, bind, Except.bind]
  | ok _ =>
    cases frame vis g c m interpolation with
    | error fault => simp [Except.mapError, bind, Except.bind]
    | ok f => simp [Except.mapError, bind, Except.bind]

/-! ## A flagged row -/

omit [Scalar α] in
theorem flaggedRows_insert {r : Row α nchan npol} (hr : r.flagged = true) :
    flaggedRows (vis.withRows (rows₁ ++ r :: rows₂)) =
      flaggedRows (vis.withRows (rows₁ ++ rows₂)) + 1 := by
  show (rows₁ ++ r :: rows₂).countP Row.flagged = (rows₁ ++ rows₂).countP Row.flagged + 1
  rw [List.countP_append, List.countP_append, List.countP_cons_of_pos hr, Nat.add_assoc]

omit [Scalar α] in
/-- The samples of a flagged row have all polarisations flagged. -/
theorem channelFlagged_of_flagged {r : Row α nchan npol} (hr : r.flagged = true) :
    ∀ x ∈ samplesOf (vis.withRows [r]), Row.channelFlagged x.2.2.2 = true := by
  intro x hx
  obtain ⟨⟨r', k⟩, hrow, hsample⟩ := List.mem_flatMap.1 hx
  obtain ⟨⟨ps, b⟩, hchannel, rfl⟩ := List.mem_map.1 hsample
  have hr' : r' = r := List.mem_singleton.1 (List.fst_mem_of_mem_zipIdx hrow)
  subst hr'
  exact List.all_eq_true.1 hr ps (List.fst_mem_of_mem_zipIdx hchannel)

/-- A run passes over a row whose samples are all flagged, and the rows after it go where they
    did. -/
theorem foldlM_insert {r : Row α nchan npol} (hr : r.flagged = true) {clamped : ℤ}
    (h : PlaneMap.Inserts rows₁.length rows₂.length clamped f.map m) (d : Deposit α) :
    (samplesOf (vis.withRows (rows₁ ++ r :: rows₂))).foldlM (step how (withMap f m)) d =
      (samplesOf (vis.withRows (rows₁ ++ rows₂))).foldlM (step how f) d := by
  have hfirst : ∀ e : Deposit α,
      (samplesOf (vis.withRows rows₁)).foldlM (step how (withMap f m)) e =
      (samplesOf (vis.withRows rows₁)).foldlM (step how f) e := by
    refine foldlM_congr fun x hx e => ?_
    obtain ⟨hk, -, -⟩ := mem_samplesOf hx
    exact step_withMap (h.before x.1 hk) e x.2
  have hrow : ∀ e : Deposit α,
      ((samplesOf (vis.withRows [r])).map fun x => (rows₁.length + x.1, x.2)).foldlM
      (step how (withMap f m)) e = .ok e := by
    intro e
    refine foldlM_flagged _ e fun x hx => ?_
    obtain ⟨y, hy, rfl⟩ := List.mem_map.1 hx
    exact channelFlagged_of_flagged hr y hy
  have hsecond : ∀ e : Deposit α,
      ((samplesOf (vis.withRows rows₂)).map fun x => (rows₁.length + (1 + x.1), x.2)).foldlM
        (step how (withMap f m)) e =
      ((samplesOf (vis.withRows rows₂)).map fun x => (rows₁.length + x.1, x.2)).foldlM
      (step how f) e := by
    intro e
    rw [List.foldlM_map, List.foldlM_map]
    exact foldlM_congr (fun x _ e => step_withMap (h.after x.1) e x.2) e
  rw [← List.singleton_append, samplesOf_append, samplesOf_append, samplesOf_append,
    List.map_append, List.map_map, List.foldlM_append, List.foldlM_append, hfirst]
  refine congrArg (_ >>= ·) (funext fun e => ?_)
  rw [List.foldlM_append, hrow]
  exact hsecond e

/-- A row whose samples are all flagged leaves one flagged row and what is clamped of it. -/
theorem deposit_insert {r : Row α nchan npol} (hr : r.flagged = true) {clamped : ℤ} {m' : PlaneMap}
    (h : PlaneMap.Inserts rows₁.length rows₂.length clamped m' m) :
    Recounted { flagged := 1, clamped := clamped }
      (deposit how (vis.withRows (rows₁ ++ rows₂)) g c m' sums interpolation)
      (deposit how (vis.withRows (rows₁ ++ r :: rows₂)) g c m sums interpolation) := by
  have hcheck : checkFit (vis.withRows (rows₁ ++ r :: rows₂)) g c m = .ok () ↔
      checkFit (vis.withRows (rows₁ ++ rows₂)) g c m' = .ok () := by
    obtain ⟨width, hm', hm⟩ := h.shape
    have hrows : ∀ rows, (vis.withRows rows).rowCount = rows.length := fun _ => rfl
    simp [checkFit_eq_ok, hrows, hm, hm', h.count, Nat.add_comm 1]
  have hopened : opened (vis.withRows (rows₁ ++ r :: rows₂)) g m sums =
      (opened (vis.withRows (rows₁ ++ rows₂)) g m' sums).counting
      { flagged := 1, clamped := clamped } := by
    unfold opened Deposit.counting
    rw [flaggedRows_insert hr, h.clamped]
    rfl
  rw [deposit_eq_bind, deposit_eq_bind, hopened,
    frame_withRows (rows₁ ++ rows₂) (rows₁ ++ r :: rows₂) m' m]
  cases hfit : checkFit (vis.withRows (rows₁ ++ rows₂)) g c m' with
  | error fault =>
    cases hfit' : checkFit (vis.withRows (rows₁ ++ r :: rows₂)) g c m with
    | error fault' => exact .broken fault fault' _
    | ok _ =>
      rw [hcheck, hfit] at hfit'
      cases hfit'
  | ok _ =>
    rw [hcheck.2 hfit]
    cases hframe : frame (vis.withRows (rows₁ ++ rows₂)) g c m' interpolation with
    | error fault => exact .broken fault fault _
    | ok f =>
      obtain rfl := map_frame hframe
      show Recounted _ ((samplesOf (vis.withRows (rows₁ ++ rows₂))).foldlM (step how f) _)
        ((samplesOf (vis.withRows (rows₁ ++ r :: rows₂))).foldlM (step how (withMap f m)) _)
      rw [foldlM_insert hr h]
      exact foldlM_counting f _ _ _

end ApertureSynthesis.Grid
