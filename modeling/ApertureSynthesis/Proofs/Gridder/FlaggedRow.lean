/-
  A row whose samples are all flagged leaves nothing but counts.

  Gridding finds the planes of all rows before it looks at a flag. So a flagged row adds nothing to
  grid and sums of weights, but besides the one flagged row its channels beyond the range of the
  planes are counted as clamped (`rowCounts`). For each operation that grids, one run with the row
  is told by the run without it (`accumulate_insert`, `gridPartition_insert`): both are refused,
  both are broken off, or both end, with the same grid and the same sums.
-/
import Mathlib
import ApertureSynthesis.Proofs.Grid.Gridding
import ApertureSynthesis.Proofs.Grid.Rows
import ApertureSynthesis.Proofs.Gridder.History
import ApertureSynthesis.Proofs.Gridder.Setup
import ApertureSynthesis.Proofs.Kernel.BareTaper
import ApertureSynthesis.Workflow.Partition

namespace ApertureSynthesis.Gridder

section Row

variable {α : Type} [Scalar α] {nchan npol : ℕ}

/-! ## What a row leaves -/

/-- What a flagged row adds to the counters: one flagged row, and its channels beyond the range of
    the planes. -/
def rowCounts (s : Gridder α) (vis : Visibility α nchan npol) (r : Row α nchan npol) :
    Statistics where
  flagged := 1
  clamped := s.variant.clampedIn s.cache vis.frequency r

/-- Outcomes that are both refused and leave the same gridder, or that both give a result. -/
inductive Alongside {β : Type} (R : β × Gridder α → β × Gridder α → Prop) :
    Except (Fault α) β × Gridder α → Except (Fault α) β × Gridder α → Prop
  /-- Both are refused. -/
  | refused (fault fault' : Fault α) (s : Gridder α) :
      Alongside R (.error fault, s) (.error fault', s)
  /-- Both give a result. -/
  | given {a a' : β} {s s' : Gridder α} (related : R (a, s) (a', s')) :
      Alongside R (.ok a, s) (.ok a', s')

/-- Gridding without a row and with it: what was reached differs in the counts of the row. If it was
    not broken off, they are counted by the gridder too. -/
inductive Beside (vis : Visibility α nchan npol) (r : Row α nchan npol) :
    Accumulated α × Gridder α → Accumulated α × Gridder α → Prop
  /-- All samples were gridded. -/
  | ended (d : Grid.Deposit α) (s : Gridder α) :
      Beside vis r (⟨d, none⟩, s) (⟨d.counting (s.rowCounts vis r), none⟩,
        { s with statistics := s.statistics + s.rowCounts vis r })
  /-- Gridding was broken off. -/
  | broken (fault fault' : Fault α) (d : Grid.Deposit α) (s : Gridder α) :
      Beside vis r (⟨d, some fault⟩, s) (⟨d.counting (s.rowCounts vis r), some fault'⟩, s)

/-! ## Gridding with a row and without it -/

/-- What begins alike goes on side by side. -/
theorem Alongside.bind {β γ : Type} {R : γ × Gridder α → γ × Gridder α → Prop} {x : Action α β}
    {f f' : β → Action α γ} (h : ∀ a s, Alongside R (outcome (f a) s) (outcome (f' a) s))
    (s : Gridder α) :
    Alongside R (outcome (x >>= f) s) (outcome (x >>= f') s) := by
  rcases hx : outcome x s with ⟨fault | a, s'⟩
  · rw [outcome_bind_error hx, outcome_bind_error hx]
    exact .refused fault fault s'
  · rw [outcome_bind_ok hx rfl, outcome_bind_ok hx rfl]
    exact h a s'

variable (vis : Visibility α nchan npol) (rows₁ rows₂ : List (Row α nchan npol))
  {r : Row α nchan npol}

/-- The plane maps of a gridder with the row and without it, and what is done with them. -/
theorem alongside_planeMap {β : Type} {R : β × Gridder α → β × Gridder α → Prop}
    {f f' : Cache α → PlaneMap → Action α β}
    (h : ∀ s cache m m', s.cache = some cache → PlaneMap.Inserts rows₁.length rows₂.length
      (s.rowCounts vis r).clamped m' m →
      Alongside R (outcome (f cache m') s) (outcome (f' cache m) s))
    (s : Gridder α) :
    Alongside R
      (outcome (do
        let cache ← theCache
        f cache (← lift ((← get).variant.planeMap (vis.withRows (rows₁ ++ rows₂)) (some cache)))) s)
      (outcome (do
        let cache ← theCache
        f' cache
          (← lift ((← get).variant.planeMap (vis.withRows (rows₁ ++ r :: rows₂)) (some cache))))
        s) := by
  cases hcache : s.cache with
  | none =>
    have hnone : outcome theCache s = (.error .missing, s) := by
      rw [theCache, outcome_bind_ok (outcome_get s) rfl, hcache]
      rfl
    rw [outcome_bind_error hnone, outcome_bind_error hnone]
    exact .refused _ _ s
  | some cache =>
    have hsome : outcome theCache s = (.ok cache, s) := by
      rw [theCache, outcome_bind_ok (outcome_get s) rfl, hcache]
      rfl
    obtain ⟨hwith, hwithout⟩ := Plane.planeMap_insert vis rows₁ rows₂ s.variant (some cache) r
    rw [outcome_bind_ok hsome rfl, outcome_bind_ok hsome rfl, outcome_bind_ok (outcome_get s) rfl,
      outcome_bind_ok (outcome_get s) rfl]
    cases hmap' : s.variant.planeMap (vis.withRows (rows₁ ++ rows₂)) (some cache) with
    | error fault =>
      cases hmap : s.variant.planeMap (vis.withRows (rows₁ ++ r :: rows₂)) (some cache) with
      | error fault' => exact .refused fault fault' s
      | ok m =>
        obtain ⟨m', hm', -⟩ := hwith hmap
        rw [hmap'] at hm'
        cases hm'
    | ok m' =>
      obtain ⟨m, hm, hinserts⟩ := hwithout hmap'
      rw [← hcache] at hinserts
      rw [hm, outcome_bind_ok (outcome_lift rfl s) rfl, outcome_bind_ok (outcome_lift rfl s) rfl]
      exact h s cache m m' hcache hinserts

theorem gridInto_insert (hr : r.flagged = true) (how : Grid.Contribution α)
    (sums : Option (Tensor α)) (grid : Grid α) (s : Gridder α) :
    Alongside (Beside vis r) (outcome (gridInto how (vis.withRows (rows₁ ++ rows₂)) sums grid) s)
      (outcome (gridInto how (vis.withRows (rows₁ ++ r :: rows₂)) sums grid) s) := by
  refine Alongside.bind
    (fun _ s => alongside_planeMap vis rows₁ rows₂ (fun s cache m m' _ hinserts => ?_) s) s
  rw [outcome_bind_ok (outcome_get s) rfl, outcome_bind_ok (outcome_get s) rfl]
  have hdeposit : Grid.Recounted (s.rowCounts vis r)
      (Grid.deposit how (vis.withRows (rows₁ ++ rows₂)) grid cache m' sums s.interpolation)
      (Grid.deposit how (vis.withRows (rows₁ ++ r :: rows₂)) grid cache m sums s.interpolation) :=
    Grid.deposit_insert hr hinserts
  generalize Grid.deposit how (vis.withRows (rows₁ ++ rows₂)) grid cache m' sums
    s.interpolation = x, Grid.deposit how (vis.withRows (rows₁ ++ r :: rows₂)) grid cache m sums
      s.interpolation = y at hdeposit ⊢
  cases hdeposit with
  | ended d =>
    have hended : Beside vis r (⟨d, none⟩, { s with statistics := s.statistics + d.statistics })
        (⟨d.counting (s.rowCounts vis r), none⟩,
          { s with statistics := s.statistics + d.statistics + s.rowCounts vis r }) := .ended d _
    rw [Statistics.add_assoc] at hended
    exact .given hended
  | broken fault fault' d => exact .given (.broken fault fault' d s)

theorem accumulate_insert (hr : r.flagged = true) (how : Grid.Contribution α)
    (grid : Option (Grid α)) (sums : Option (Tensor α)) (s : Gridder α) :
    Alongside (Beside vis r) (outcome (accumulate how (vis.withRows (rows₁ ++ rows₂)) grid sums) s)
      (outcome (accumulate how (vis.withRows (rows₁ ++ r :: rows₂)) grid sums) s) := by
  rw [accumulate_eq, accumulate_eq]
  refine Alongside.bind (fun _ s => ?_) s
  refine Alongside.bind (fun _ s => ?_) s
  exact Alongside.bind (fun own s => gridInto_insert vis rows₁ rows₂ hr how sums own s) s

theorem gridPartition_insert (hr : r.flagged = true) (how : Grid.Contribution α) (s : Gridder α) :
    Alongside (fun x y => y = (x.1.counting (x.2.rowCounts vis r), x.2))
      (outcome (Workflow.gridPartition how (vis.withRows (rows₁ ++ rows₂))) s)
      (outcome (Workflow.gridPartition how (vis.withRows (rows₁ ++ r :: rows₂))) s) := by
  refine Alongside.bind (fun axes s => ?_) s
  refine Alongside.bind
    (fun own s => alongside_planeMap vis rows₁ rows₂ (fun s cache m m' _ hinserts => ?_) s) s
  rw [outcome_bind_ok (outcome_get s) rfl, outcome_bind_ok (outcome_get s) rfl]
  have hdeposit : Grid.Recounted (s.rowCounts vis r)
      (Grid.deposit how (vis.withRows (rows₁ ++ rows₂)) own cache m' none s.interpolation)
      (Grid.deposit how (vis.withRows (rows₁ ++ r :: rows₂)) own cache m none s.interpolation) :=
    Grid.deposit_insert hr hinserts
  generalize Grid.deposit how (vis.withRows (rows₁ ++ rows₂)) own cache m' none s.interpolation = x,
    Grid.deposit how (vis.withRows (rows₁ ++ r :: rows₂)) own cache m none
      s.interpolation = y at hdeposit ⊢
  cases hdeposit with
  | ended d => exact .given rfl
  | broken fault fault' d => exact .refused fault fault' s

/-- Where gridding without the row ends, so does gridding with it. -/
theorem Alongside.eq_of_ended {vis : Visibility α nchan npol} {d : Grid.Deposit α} {s : Gridder α}
    {y : Except (Fault α) (Accumulated α) × Gridder α}
    (h : Alongside (Beside vis r) (.ok ⟨d, none⟩, s) y) :
    y = (.ok ⟨d.counting (s.rowCounts vis r), none⟩,
      { s with statistics := s.statistics + s.rowCounts vis r }) := by
  cases h with
  | given hbeside =>
    cases hbeside
    rfl

/-- A row whose samples are all flagged can be anywhere among visibilities: gridding them, and
    gridding their weights, gives the same grid and the same sums of weights as without the row, and
    the counters differ in one flagged row and in the channels of the row that are beyond the range
    of the planes, which are clamped. The same goes for gridding a part of visibilities into a grid
    of its own. -/
theorem flagged_row_leaves_counts (hr : r.flagged = true) (how : Grid.Contribution α)
    (s : Gridder α) :
    (∀ grid sums, Alongside (Beside vis r)
      (outcome (accumulate how (vis.withRows (rows₁ ++ rows₂)) grid sums) s)
      (outcome (accumulate how (vis.withRows (rows₁ ++ r :: rows₂)) grid sums) s)) ∧
    Alongside (fun x y => y = (x.1.counting (x.2.rowCounts vis r), x.2))
      (outcome (Workflow.gridPartition how (vis.withRows (rows₁ ++ rows₂))) s)
      (outcome (Workflow.gridPartition how (vis.withRows (rows₁ ++ r :: rows₂))) s) :=
  ⟨fun grid sums => accumulate_insert vis rows₁ rows₂ hr how grid sums s,
    gridPartition_insert vis rows₁ rows₂ hr how s⟩

end Row

/-! ## A row far beyond the planes -/

/-- A flagged row at the origin of the uv plane, with a w in metres. -/
noncomputable def flaggedRow (w : ℝ) : Row ℝ 1 1 := ⟨0, 0, w, #v[#v[⟨0, 1, true⟩]]⟩

/-- A gridder with three planes up to a w of one wavelength. -/
noncomputable def threePlanes (p : Kernel.Parameters ℝ) : Gridder ℝ :=
  new (.wprojection ⟨1, 3, .linear⟩ p) (some Setup.smallAxes) .linear

theorem clampedIn_threePlanes (p : Kernel.Parameters ℝ) (cache : Option (Cache ℝ)) (w : ℝ) :
    (threePlanes p).variant.clampedIn cache Grid.quarterVisibility.frequency (flaggedRow w) =
      if 1 + 1e-8 < |w| then 1 else 0 := by
  simp [threePlanes, new, Kernel.Variant.clampedIn, Plane.countBeyond, Plane.beyond,
    Scalar.abs_real, Grid.quarterVisibility, flaggedRow, Grid.wavelengths_quarterVisibility]

/-- In a pass of this gridder two rows near the origin are gridded. -/
theorem exists_pass : ∃ p grid sums s d s',
    Kernel.Variant.wprojection? (.real 1) (.whole 3) (.text "linear") Kernel.narrowRequest =
      .ok (threePlanes p).variant ∧
    outcome beginPass (threePlanes p) = (.ok (grid, sums), s) ∧
    outcome (reverse Grid.quarterVisibility (some grid) (some sums)) s = (.ok ⟨d, none⟩, s') ∧
    s'.variant = (threePlanes p).variant := by
  have hterm : ∀ t ∈ some (Kernel.Variant.chirpTerm (α := ℝ)), t.obstacle = none := by
    intro t ht
    obtain rfl := Option.some.inj ht
    rfl
  have hvalues : (Plane.values .linear (1 : ℝ) 3).map Kernel.PlaneValue.ofScalar ≠ [] :=
    List.cons_ne_nil _ _
  have hcell : (CellSize.perAxis [(1 / 4 : ℝ), 1 / 3]).values ≠ [] := List.cons_ne_nil _ _
  obtain ⟨c, cache, hc, hbuild⟩ :=
    Kernel.exists_build_narrow hterm hvalues hcell (show 3 ≤ min (3 : ℤ) 4 by decide) "wprojection"
  obtain ⟨corrector, hcorrector⟩ := Kernel.exists_corrector_of_build hbuild
  let σ : Setup :=
    ⟨.wprojection ⟨1, 3, .linear⟩ (.fitting c), .linear, Setup.smallAxes, _, cache, corrector,
      Setup.cellSize_smallAxes, hbuild, hcorrector⟩
  have hb : σ.Bounded := Setup.bounded_of_smallAxes rfl
  have hvariant : Kernel.Variant.wprojection? (.real 1) (.whole 3)
      (.text "linear") Kernel.narrowRequest = .ok σ.variant := by
    rw [Kernel.wprojection_eq (n := 3) rfl (by decide) rfl (by norm_num) rfl, hc]
    rfl
  obtain ⟨stage, hstage, hprepared⟩ := σ.describes_new.prepared
  have hbegun := hprepared _ _ _ (Setup.yields_beginPass .zero hb hstage)
  obtain ⟨map, hmap, hfit⟩ := σ.fit_grid Nat.one_pos rfl
    (show Grid.quarterVisibility.bare = false from rfl) rfl
  obtain ⟨-, -, d, hd, -⟩ :=
    Grid.deposit_adds (hfit σ.grid (Grid.Alike.refl _)) Grid.masked_visibilities
      σ.interpolation (some (Tensor.fill [σ.grid.nchan, σ.grid.npol] 0)) (by simp [Tensor.fill])
  exact ⟨.fitting c, _, _, _, d, _, hvariant, hbegun,
    Setup.yields_accumulate .zero hb (Grid.Alike.refl _) hmap hd, rfl⟩

/-- A flagged row with a w of zero leaves one flagged row. -/
theorem flagged_row_leaves_counts_threePlanes : ∃ p grid sums s d s' s'',
    Kernel.Variant.wprojection? (.real 1) (.whole 3) (.text "linear") Kernel.narrowRequest =
      .ok (threePlanes p).variant ∧
    outcome beginPass (threePlanes p) = (.ok (grid, sums), s) ∧ (flaggedRow 0).flagged = true ∧
    outcome (reverse Grid.quarterVisibility (some grid) (some sums)) s = (.ok ⟨d, none⟩, s') ∧
    outcome (reverse (Grid.quarterVisibility.withRows (flaggedRow 0 :: Grid.quarterVisibility.rows))
      (some grid) (some sums)) s = (.ok ⟨d.counting { flagged := 1 }, none⟩, s'') := by
  obtain ⟨p, grid, sums, s, d, s', hvariant, hbegin, hwithout, hs'⟩ := exists_pass
  obtain ⟨hbeside, -⟩ :=
    flagged_row_leaves_counts Grid.quarterVisibility [] Grid.quarterVisibility.rows
      (show (flaggedRow 0).flagged = true from rfl) .visibilities s
  have hgiven : Alongside (Beside Grid.quarterVisibility (flaggedRow 0)) (.ok ⟨d, none⟩, s')
      (outcome
        (reverse (Grid.quarterVisibility.withRows (flaggedRow 0 :: Grid.quarterVisibility.rows))
        (some grid) (some sums)) s) := hwithout ▸ hbeside (some grid) (some sums)
  have hcounts : s'.rowCounts Grid.quarterVisibility (flaggedRow 0) = { flagged := 1 } := by
    rw [rowCounts, hs', clampedIn_threePlanes, if_neg (by norm_num)]
    rfl
  exact ⟨p, grid, sums, s, d, s', _, hvariant, hbegin, rfl, hwithout, hcounts ▸ hgiven.eq_of_ended⟩

/-- The channels of a flagged row are clamped as those of any other row: with a flagged row two
    wavelengths from the plane of zero w, the counters differ in a clamped sample too. -/
theorem clamped_of_flagged_row : ∃ p grid sums s d s' d' s'',
    Kernel.Variant.wprojection? (.real 1) (.whole 3) (.text "linear") Kernel.narrowRequest =
      .ok (threePlanes p).variant ∧
    outcome beginPass (threePlanes p) = (.ok (grid, sums), s) ∧ (flaggedRow 2).flagged = true ∧
    outcome (reverse Grid.quarterVisibility (some grid) (some sums)) s = (.ok ⟨d, none⟩, s') ∧
    outcome (reverse (Grid.quarterVisibility.withRows (flaggedRow 2 :: Grid.quarterVisibility.rows))
      (some grid) (some sums)) s = (.ok ⟨d', none⟩, s'') ∧
    d'.statistics.clamped = d.statistics.clamped + 1 := by
  obtain ⟨p, grid, sums, s, d, s', hvariant, hbegin, hwithout, hs'⟩ := exists_pass
  have hbeside : Alongside (Beside Grid.quarterVisibility (flaggedRow 2))
      (outcome (reverse Grid.quarterVisibility (some grid) (some sums)) s)
      (outcome
        (reverse (Grid.quarterVisibility.withRows (flaggedRow 2 :: Grid.quarterVisibility.rows))
        (some grid) (some sums)) s) :=
    accumulate_insert _ [] _ rfl .visibilities (some grid) (some sums) s
  rw [hwithout] at hbeside
  refine ⟨p, grid, sums, s, d, s', _, _, hvariant, hbegin, rfl, hwithout, hbeside.eq_of_ended, ?_⟩
  have hclamped : s'.variant.clampedIn s'.cache Grid.quarterVisibility.frequency
      (flaggedRow 2) = 1 := by
    rw [hs', clampedIn_threePlanes, if_pos (by norm_num)]
  show d.statistics.clamped + ((s'.variant.clampedIn s'.cache _ _ : ℕ) : ℤ) = _
  rw [hclamped]
  rfl

end ApertureSynthesis.Gridder
