/-
  Multi-frequency synthesis: a grid of one channel holds the sum of what a spectral grid holds.

  Visibilities are gridded twice, onto the channels of a spectral grid and onto one channel. Where a
  row and channel is placed does not depend on the channels of the grid (`place_merged`), and on a
  spectral grid it goes to exactly one of them, the nearest, whatever the frequencies are. So one
  step keeps the sum over the channels equal to the one channel (`step_merges`), and a whole pass
  does (`sum_of_channels`): both end with the same counters, or both are broken off at the same
  point for the same reason.
-/
import Mathlib
import ApertureSynthesis.Proofs.Grid.Channels
import ApertureSynthesis.Proofs.Grid.Safety

namespace ApertureSynthesis.Grid

variable {nchan npol : ℕ}

/-! ## Two passes side by side -/

section Together

variable {α : Type} {R : Deposit α → Deposit α → Prop}

/-- Two passes that ended both, or were broken off both for the same reason, in states that stand in
    a relation. -/
inductive Together (R : Deposit α → Deposit α → Prop) :
    Except (Interrupted α) (Deposit α) → Except (Interrupted α) (Deposit α) → Prop where
  /-- Both ended. -/
  | ok {d d' : Deposit α} (h : R d d') : Together R (.ok d) (.ok d')
  /-- Both were broken off. -/
  | error (fault : Fault α) {d d' : Deposit α} (h : R d d') :
      Together R (.error ⟨fault, d⟩) (.error ⟨fault, d'⟩)

theorem Together.bind {x y : Except (Interrupted α) (Deposit α)} (h : Together R x y)
    {f f' : Deposit α → Except (Interrupted α) (Deposit α)}
    (hf : ∀ d d', R d d' → Together R (f d) (f' d')) : Together R (x >>= f) (y >>= f') := by
  cases h with
  | ok h => exact hf _ _ h
  | error fault h => exact .error fault h

/-- If the first of two passes ends, so does the second. -/
theorem Together.exists_of_ok {x y : Except (Interrupted α) (Deposit α)} (h : Together R x y)
    {d : Deposit α} (hx : x = .ok d) : ∃ d', y = .ok d' ∧ R d d' := by
  cases h with
  | ok h =>
    cases hx
    exact ⟨_, rfl, h⟩
  | error => cases hx

/-- Steps that keep a relation of two states keep it in a run over the same samples. -/
theorem foldlM_together {β : Type} {f f' : Deposit α → β → Except (Interrupted α) (Deposit α)}
    (xs : List β) (hstep : ∀ x ∈ xs, ∀ d d', R d d' → Together R (f d x) (f' d' x))
    {d d' : Deposit α} (h : R d d') : Together R (xs.foldlM f d) (xs.foldlM f' d') := by
  induction xs generalizing d d' with
  | nil => exact .ok h
  | cons x xs ih =>
    rw [List.foldlM_cons, List.foldlM_cons]
    refine (hstep x List.mem_cons_self _ _ h).bind fun _ _ hnext => ih (fun y hy => ?_) hnext
    exact hstep y (List.mem_cons_of_mem x hy)

end Together

/-! ## Placement on one channel -/

section Merged

variable {α : Type}

/-- A placement with its channel moved to the only channel of a grid. -/
def Placement.merged : Placement α → Placement α
  | .outside => .outside
  | .inside _ runs => .inside 0 runs

/-- A frame for the only channel of a grid. -/
def Frame.merged (nchan : ℕ) (f : Frame α) : Frame α :=
  { f with gridChannels := 1, channels := List.replicate nchan 0 }

variable [Scalar α]

/-- On a grid of one channel, samples are placed as on any other. -/
theorem place_merged {f : Frame α} {channelOf : α → ℕ}
    (hchannels : f.channels = f.frequency.map channelOf)
    (hlt : ∀ channel ∈ f.channels, channel < f.gridChannels) {k b : ℕ} (r : Row α nchan npol)
    (hb : b < nchan) : (f.merged nchan).place k r b = (f.place k r b).map Placement.merged := by
  have hone : (List.replicate nchan 0)[b]? = some 0 := List.getElem?_replicate_of_lt hb
  unfold Frame.place Frame.merged
  dsimp only
  rw [hone]
  cases hhertz : f.frequency[b]? with
  | none => rfl
  | some hertz =>
    have hchannel : f.channels[b]? = some (channelOf hertz) := by
      rw [hchannels, List.getElem?_map, hhertz, Option.map_some]
    have hin := hlt _ (List.mem_of_getElem? hchannel)
    rw [hchannel]
    cases f.cache.planes[(f.map.plane k b).toNat]? with
    | none => rfl
    | some plane =>
      cases f.cache.supports[(f.map.plane k b).toNat]? with
      | none => rfl
      | some s =>
        dsimp only
        cases footprint plane s _ _ with
        | error fault => rfl
        | ok F =>
          simp only [bind, Except.bind, hin, Nat.zero_lt_one, if_true]
          split <;> rfl

/-- A sample inside a grid is on one of its channels. -/
theorem channel_lt_of_place {f : Frame α} {k b channel : ℕ} {r : Row α nchan npol}
    {runs : List (List (Tap α))} (h : f.place k r b = .ok (.inside channel runs)) :
    channel < f.gridChannels := by
  unfold Frame.place at h
  dsimp only at h
  split at h
  · obtain ⟨F, -, h⟩ := exists_of_bind h
    split at h
    · cases h
    · split at h
      · rename_i hlt
        cases h
        exact hlt
      · cases h
  · cases h

/-- The frame of a grid of one channel is that of a grid of several, but for the channels. -/
theorem frame_merged (vis : Visibility α nchan npol) (c : Cache α) (map : PlaneMap)
    (interpolation : Interpolation) {fs : List α} (hfs : 2 ≤ fs.length) (m ny nx : ℕ)
    (cellSize : CellSize α) (frequency : Option (List α)) :
    frame vis (empty 1 m ny nx cellSize frequency) c map interpolation =
      (frame vis (empty fs.length m ny nx cellSize (some fs)) c map interpolation).map
        (Frame.merged nchan) := by
  have hseveral : (empty fs.length m ny nx cellSize (some fs)).nchan ≠ 1 :=
    show fs.length ≠ 1 by omega
  obtain ⟨f, rest, rfl⟩ := List.exists_cons_of_length_pos (show 0 < fs.length by omega)
  have hlattice : (empty 1 m ny nx cellSize frequency).lattice c =
      (empty (f :: rest).length m ny nx cellSize (some (f :: rest))).lattice c := rfl
  have hone : (empty 1 m ny nx cellSize frequency).channelsOf vis = .ok (List.replicate nchan 0) :=
    if_pos rfl
  unfold frame
  rw [hlattice, hone]
  cases (empty (f :: rest).length m ny nx cellSize (some (f :: rest))).lattice c with
  | error fault => rfl
  | ok l =>
    unfold Grid.channelsOf
    cases vis.spectrum with
    | error fault => rfl
    | ok frequency =>
      rw [if_neg hseveral]
      rfl

/-- Each channel of visibilities goes to a channel of a spectral grid that is found from its
    frequency. -/
theorem exists_channelOf {vis : Visibility α nchan npol} {g : Grid α} {c : Cache α} {map : PlaneMap}
    {interpolation : Interpolation} {fs : List α} (hfs : 2 ≤ fs.length)
    (hnchan : g.nchan = fs.length) (hfrequency : g.frequency = some fs) {f : Frame α}
    (h : frame vis g c map interpolation = .ok f) :
    f.gridChannels = g.nchan ∧ ∃ channelOf : α → ℕ, f.channels = f.frequency.map channelOf ∧
      ∀ channel ∈ f.channels, channel < f.gridChannels := by
  obtain ⟨lattice, channels, -, hchannels, rfl⟩ := exists_of_frame h
  refine ⟨rfl, fun hertz => (nearest? fs hertz).getD 0, ?_⟩
  have hne : fs ≠ [] := List.ne_nil_of_length_pos (by omega)
  have heq : channels = vis.frequency.map fun hertz => (nearest? fs hertz).getD 0 := by
    unfold Grid.channelsOf at hchannels
    rw [if_neg (by omega)] at hchannels
    obtain ⟨frequency, hspectrum, hchannels⟩ := exists_of_bind hchannels
    unfold Visibility.spectrum at hspectrum
    split at hspectrum
    · cases hspectrum
    · cases hspectrum
      rw [hfrequency] at hchannels
      cases fs with
      | nil => exact absurd rfl hne
      | cons => exact (Except.ok.inj hchannels).symm
  refine ⟨heq, fun channel hmem => ?_⟩
  rw [heq] at hmem
  obtain ⟨hertz, -, rfl⟩ := List.mem_map.1 hmem
  exact (nearest?_lt hne hertz).trans_eq hnchan.symm

end Merged

/-! ## The sum over channels -/

/-- A grid has one channel, and the other axes of a spectral grid. -/
structure OneChannelOf {α : Type} (g g' : Grid α) : Prop where
  /-- There is one channel. -/
  nchan : g'.nchan = 1
  /-- Polarisations are the same, -/
  npol : g'.npol = g.npol
  /-- rows -/
  ny : g'.ny = g.ny
  /-- and columns. -/
  nx : g'.nx = g.nx

/-- What one pass has put on the only channel of grid `g'` is the sum of what another has put on the
    channels of grid `g`. -/
structure Merges (g g' : Grid ℝ) (d d' : Deposit ℝ) : Prop where
  /-- One pass is on the spectral grid, -/
  alike : Alike g d.grid
  /-- the other on one channel. -/
  alike_one : Alike g' d'.grid
  /-- Sums of weights are by channel and polarisation. -/
  shape : d.sumWeights.shape = [g.nchan, g.npol]
  /-- So are those of the one channel. -/
  shape_one : d'.sumWeights.shape = [g'.nchan, g'.npol]
  /-- Each cell is the sum of that cell over the channels. -/
  cell : ∀ p j i, p < g.npol → j < g.ny → i < g.nx →
    (d'.grid.get 0 p j i).val = ∑ ch ∈ Finset.range g.nchan, (d.grid.get ch p j i).val
  /-- Each sum of weights is the sum of those of the channels. -/
  weight : ∀ p, p < g.npol →
    d'.sumWeights.get [0, p] = ∑ ch ∈ Finset.range g.nchan, d.sumWeights.get [ch, p]
  /-- The same samples were counted. -/
  statistics : d'.statistics = d.statistics

/-- What taps add to a cell, for samples by polarisation. -/
noncomputable def tapShare (how : Contribution ℝ) (taps : List (Tap ℝ)) (samples : List (Sample ℝ))
    (p j i : ℕ) : ℂ :=
  ((samples.zipIdx.flatMap fun s => taps.map fun t => (s, t)).map fun x =>
    if x.1.2 = p ∧ x.2.j = j ∧ x.2.i = i then (how.cell x.2.value x.1.1).val else 0).sum

/-- Taps add to the cells of their channel, and to no others. -/
theorem val_get_addTaps_eq (how : Contribution ℝ) (channel : ℕ) (taps : List (Tap ℝ))
    (samples : List (Sample ℝ)) (g : Grid ℝ) {ch p j i : ℕ} (hch : ch < g.nchan) (hp : p < g.npol)
    (hj : j < g.ny) (hi : i < g.nx) :
    ((addTaps how channel taps samples g).get ch p j i).val =
      (g.get ch p j i).val + if channel = ch then tapShare how taps samples p j i else 0 := by
  rw [Grid.get, addTaps_eq_foldl, cells_foldl_addAt _ (fun _ => channel),
    Tensor.view_foldl_modify Cplx.val Cplx.val_add _ _ _ _ (within_cells g hch hp hj hi)]
  refine congrArg (_ + ·) ?_
  unfold tapShare
  by_cases hchannel : channel = ch
  · rw [if_pos hchannel]
    refine congrArg List.sum (List.map_congr_left fun x _ => if_congr ?_ rfl rfl)
    simp [hchannel]
  · rw [if_neg hchannel]
    refine List.sum_eq_zero fun y hy => ?_
    obtain ⟨x, -, rfl⟩ := List.mem_map.1 hy
    rw [if_neg]
    simp [hchannel]

section Steps

variable {how : Contribution ℝ} {g g' : Grid ℝ} {d d' : Deposit ℝ}

/-- A sum over channels grows by what is added to one of them. -/
theorem sum_add_ite {M : Type} [AddCommMonoid M] {n channel : ℕ} (hlt : channel < n) (f : ℕ → M)
    (x : M) :
    ∑ ch ∈ Finset.range n, (f ch + if channel = ch then x else 0) =
      ∑ ch ∈ Finset.range n, f ch + x := by
  rw [Finset.sum_add_distrib, Finset.sum_ite_eq, if_pos (Finset.mem_range.2 hlt)]

theorem addSample_merges (hone : OneChannelOf g g') (h : Merges g g' d d')
    {samples : List (Sample ℝ)} (hlen : samples.length = g.npol) {placement : Placement ℝ}
    (hlt : ∀ channel runs, placement = .inside channel runs → channel < g.nchan) :
    Together (Merges g g') (addSample how placement samples d)
      (addSample how placement.merged samples d') := by
  cases placement with
  | outside =>
    refine .ok ⟨h.alike, h.alike_one, h.shape, h.shape_one, h.cell, h.weight, ?_⟩
    rw [h.statistics]
  | inside channel runs =>
    have hchannel := hlt channel runs rfl
    obtain ⟨sums, hsums, hshape, hget⟩ := addWeights_ok h.shape hchannel
      (samples.map (how.weight (tapTotal runs.flatten))) (by rw [List.length_map, hlen])
    obtain ⟨sums', hsums', hshape', hget'⟩ := addWeights_ok h.shape_one
      (show 0 < g'.nchan by rw [hone.nchan]; exact Nat.zero_lt_one)
      (samples.map (how.weight (tapTotal runs.flatten))) (by rw [List.length_map, hlen, hone.npol])
    have halike := alike_addTaps how channel runs.flatten samples d.grid
    have halike' := alike_addTaps how 0 runs.flatten samples d'.grid
    simp only [Placement.merged, addSample, hsums, hsums']
    refine .ok ⟨h.alike.trans halike, h.alike_one.trans halike', hshape, hshape', ?_, ?_, ?_⟩
    · intro p j i hp hj hi
      have hcell : ∀ ch ∈ Finset.range g.nchan,
          ((addTaps how channel runs.flatten samples d.grid).get ch p j i).val =
            (d.grid.get ch p j i).val +
              if channel = ch then tapShare how runs.flatten samples p j i else 0 := fun ch hch =>
        val_get_addTaps_eq how channel _ _ d.grid (h.alike.nchan ▸ Finset.mem_range.1 hch)
          (h.alike.npol ▸ hp) (h.alike.ny ▸ hj) (h.alike.nx ▸ hi)
      have hcell' := val_get_addTaps_eq how 0 runs.flatten samples d'.grid
        (show 0 < d'.grid.nchan by rw [h.alike_one.nchan, hone.nchan]; exact Nat.zero_lt_one)
        (show p < d'.grid.npol by rwa [h.alike_one.npol, hone.npol])
        (show j < d'.grid.ny by rwa [h.alike_one.ny, hone.ny])
        (show i < d'.grid.nx by rwa [h.alike_one.nx, hone.nx])
      rw [hcell', if_pos rfl, Finset.sum_congr rfl hcell, sum_add_ite hchannel,
        h.cell p j i hp hj hi]
    · intro p hp
      have hp' : p < (samples.map (how.weight (tapTotal runs.flatten))).length := by
        rwa [List.length_map, hlen]
      have hzero : 0 < g'.nchan := by rw [hone.nchan]; exact Nat.zero_lt_one
      rw [hget' 0 p hzero hp', if_pos rfl, h.weight p hp,
        Finset.sum_congr rfl fun ch hch => hget ch p (Finset.mem_range.1 hch) hp',
        sum_add_ite hchannel]
    · rw [h.statistics]

/-- One step keeps the sum over the channels equal to the one channel. -/
theorem step_merges (hone : OneChannelOf g g') (hnpol : npol = g.npol) {f f' : Frame ℝ}
    (hchannels : f.gridChannels = g.nchan) {k b : ℕ} {r : Row ℝ nchan npol}
    (ps : Vector (Sample ℝ) npol) (hplace : f'.place k r b = (f.place k r b).map Placement.merged)
    (h : Merges g g' d d') :
    Together (Merges g g') (step how f d (k, r, b, ps)) (step how f' d' (k, r, b, ps)) := by
  simp only [step, hplace]
  by_cases hall : Row.channelFlagged ps = true
  · rw [if_pos hall, if_pos hall]
    exact .ok h
  · rw [if_neg hall, if_neg hall]
    cases hhere : f.place k r b with
    | error fault => exact .error fault h
    | ok placement =>
      refine addSample_merges hone h (by rw [Vector.length_toList, hnpol])
        fun channel runs hinside => ?_
      subst hinside
      exact (channel_lt_of_place hhere).trans_eq hchannels

end Steps

/-! ## A whole pass -/

/-- Before a sample is added, nothing is on any channel. -/
theorem merges_empty (fs : List ℝ) (m ny nx : ℕ) (cellSize : CellSize ℝ)
    (frequency : Option (List ℝ)) (statistics : Statistics) :
    Merges (empty fs.length m ny nx cellSize (some fs)) (empty 1 m ny nx cellSize frequency)
      ⟨empty fs.length m ny nx cellSize (some fs), Tensor.fill [fs.length, m] 0, statistics⟩
      ⟨empty 1 m ny nx cellSize frequency, Tensor.fill [1, m] 0, statistics⟩ where
  alike := Alike.refl _
  alike_one := Alike.refl _
  shape := rfl
  shape_one := rfl
  cell p j i _ _ _ := by
    simp only [Grid.get, empty, Tensor.get_fill_zero, Cplx.val_zero, Finset.sum_const_zero]
  weight p _ := by simp only [Tensor.get_fill_zero, Finset.sum_const_zero]
  statistics := rfl

/-- Visibilities, or whatever is added for them, gridded onto one channel are the sum over the
    channels of a spectral grid, cell by cell; so are the sums of weights, and the counters are
    equal. This holds for any frequencies of two or more grid channels. If one of the passes is
    broken off, so is the other, for the same reason and in states of which this is true; and
    visibilities that pass the checks are gridded to the end. -/
theorem sum_of_channels (how : Contribution ℝ) (vis : Visibility ℝ nchan npol) (c : Cache ℝ)
    (map : PlaneMap) (interpolation : Interpolation) {fs : List ℝ} (hfs : 2 ≤ fs.length)
    (m ny nx : ℕ) (cellSize : CellSize ℝ) (frequency : Option (List ℝ)) :
    Together
      (Merges (empty fs.length m ny nx cellSize (some fs)) (empty 1 m ny nx cellSize frequency))
      (deposit how vis (empty fs.length m ny nx cellSize (some fs)) c map none interpolation)
      (deposit how vis (empty 1 m ny nx cellSize frequency) c map none interpolation) ∧
    (Ready vis (empty fs.length m ny nx cellSize (some fs)) c map →
      ∃ d, deposit how vis (empty fs.length m ny nx cellSize (some fs)) c map none interpolation =
        .ok d) := by
  refine ⟨?_, fun hready => ?_⟩
  · have hone : OneChannelOf (empty fs.length m ny nx cellSize (some fs))
        (empty 1 m ny nx cellSize frequency) := ⟨rfl, rfl, rfl, rfl⟩
    have hfaults : checkFit vis (empty 1 m ny nx cellSize frequency) c map =
        checkFit vis (empty fs.length m ny nx cellSize (some fs)) c map := rfl
    have hstart := merges_empty fs m ny nx cellSize frequency
      { flagged := flaggedRows vis, clamped := map.clamped }
    unfold deposit
    rw [hfaults, frame_merged vis c map interpolation hfs m ny nx cellSize frequency]
    cases hcheck : checkFit vis (empty fs.length m ny nx cellSize (some fs)) c map with
    | error fault => exact .error fault hstart
    | ok _ =>
      cases hframe : frame vis (empty fs.length m ny nx cellSize (some fs)) c map interpolation with
      | error fault => exact .error fault hstart
      | ok f =>
        obtain ⟨hgrid, channelOf, hchannels, hlt⟩ := exists_channelOf hfs rfl rfl hframe
        refine foldlM_together (samplesOf vis) (fun x hx d d' hd => ?_) hstart
        obtain ⟨k, r, b, ps⟩ := x
        obtain ⟨-, -, hb⟩ := mem_samplesOf hx
        exact step_merges hone (matches_of_checkFit hcheck).1 hgrid ps
          (place_merged hchannels hlt r hb) hd
  · have hnone : ∀ t ∈ (none : Option (Tensor ℝ)), t.shape = [fs.length, m] :=
      fun t ht => by cases ht
    obtain ⟨d, hd, -⟩ := hready.exists_deposit how interpolation hnone
    exact ⟨d, hd⟩

/-- Three channels, the highest frequency first, on a grid that has each of them and on one
    channel. -/
theorem sum_of_channels_threeChannels : 2 ≤ descending.length ∧
    Ready threeChannels threeChannelGrid twoPhases (PlaneMap.single threeChannels) ∧
    ∃ d d', addVisibilities threeChannels threeChannelGrid twoPhases
        (PlaneMap.single threeChannels) none .linear = .ok d ∧
      addVisibilities threeChannels (empty 1 1 3 3 (.perAxis [1, 1]) none) twoPhases
        (PlaneMap.single threeChannels) none .linear = .ok d' ∧
      (d'.grid.get 0 0 1 1).val =
        (d.grid.get 0 0 1 1).val + (d.grid.get 1 0 1 1).val + (d.grid.get 2 0 1 1).val ∧
      d'.sumWeights.get [0, 0] =
        d.sumWeights.get [0, 0] + d.sumWeights.get [1, 0] + d.sumWeights.get [2, 0] ∧
      d'.statistics = d.statistics := by
  have hready : Ready threeChannels threeChannelGrid twoPhases (PlaneMap.single threeChannels) :=
    ⟨fit_threeChannels.cache, fit_threeChannels.checked, rfl, rfl, by decide,
      fit_threeChannels.tuned, 1, 1, rfl⟩
  have hlen : 2 ≤ descending.length := by decide
  obtain ⟨htogether, hends⟩ := sum_of_channels .visibilities threeChannels twoPhases
    (PlaneMap.single threeChannels) .linear hlen 1 3 3 (.perAxis [1, 1]) none
  obtain ⟨d, hd⟩ := hends hready
  obtain ⟨d', hd', h⟩ := htogether.exists_of_ok hd
  have hcell := h.cell 0 1 1 (by decide) (by decide) (by decide)
  have hweight := h.weight 0 (by decide)
  have hthree : (empty descending.length 1 3 3 (.perAxis [1, 1]) (some descending)).nchan = 3 := rfl
  rw [hthree, Finset.sum_range_succ, Finset.sum_range_succ, Finset.sum_range_one] at hcell hweight
  exact ⟨hlen, hready, d, d', hd, hd', hcell, hweight, h.statistics⟩

end ApertureSynthesis.Grid
