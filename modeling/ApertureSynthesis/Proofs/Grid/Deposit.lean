/-
  Deposits: what a pass over samples adds to a grid and to its sums of weights.

  `Deposit.Adds d d' cells weights` says that `d'` is `d` with `cells` added to the cells and
  `weights` to the sums of weights. One step adds the share of its sample (`step_adds`), and a run
  adds the shares of all samples (`foldlM_adds`); `deposit_adds` is this for whole visibilities,
  with samples counted by row and channel. A contribution is only asked to leave cells without a tap
  alone, and to give nothing for flagged samples.
-/
import Mathlib
import ApertureSynthesis.Proofs.Outcome
import ApertureSynthesis.Proofs.Grid.Placement
import ApertureSynthesis.Grid.Deposit

namespace ApertureSynthesis

variable {nchan npol : ℕ}

/-- The sample of a row, channel and polarisation, of weight zero where there is none. -/
noncomputable def Visibility.sampleAt (vis : Visibility ℝ nchan npol) (k b p : ℕ) : Sample ℝ :=
  if h : k < vis.rows.length ∧ b < nchan ∧ p < npol then
    vis.rows[k].samples[b][p]
  else ⟨0, 0, false⟩

/-! ## Counters -/

attribute [ext] Statistics

namespace Statistics

theorem add_comm (a b : Statistics) : a + b = b + a :=
  Statistics.ext (Int.add_comm _ _) (Int.add_comm _ _) (Int.add_comm _ _) (Int.add_comm _ _)

theorem add_assoc (a b c : Statistics) : a + b + c = a + (b + c) :=
  Statistics.ext (Int.add_assoc _ _ _) (Int.add_assoc _ _ _) (Int.add_assoc _ _ _)
    (Int.add_assoc _ _ _)

theorem zero_add (a : Statistics) : zero + a = a :=
  Statistics.ext (Int.zero_add _) (Int.zero_add _) (Int.zero_add _) (Int.zero_add _)

end Statistics

namespace Grid

/-! ## Adding to the cells of a grid -/

/-- Two grids differ in their cells only. -/
structure Alike {α : Type} (g g' : Grid α) : Prop where
  /-- They have the same channels, -/
  nchan : g'.nchan = g.nchan
  /-- polarisations, -/
  npol : g'.npol = g.npol
  /-- rows, -/
  ny : g'.ny = g.ny
  /-- columns, -/
  nx : g'.nx = g.nx
  /-- cell size -/
  cellSize : g'.cellSize = g.cellSize
  /-- and frequencies. -/
  frequency : g'.frequency = g.frequency

theorem Alike.refl {α : Type} (g : Grid α) : Alike g g := ⟨rfl, rfl, rfl, rfl, rfl, rfl⟩

theorem Alike.trans {α : Type} {g g' g'' : Grid α} (h : Alike g g') (h' : Alike g' g'') :
    Alike g g'' :=
  ⟨h'.nchan.trans h.nchan, h'.npol.trans h.npol, h'.ny.trans h.ny, h'.nx.trans h.nx,
    h'.cellSize.trans h.cellSize, h'.frequency.trans h.frequency⟩

theorem Alike.symm {α : Type} {g g' : Grid α} (h : Alike g g') : Alike g' g :=
  ⟨h.nchan.symm, h.npol.symm, h.ny.symm, h.nx.symm, h.cellSize.symm, h.frequency.symm⟩

/-- Grids that differ in their cells only are equal if the cells are. -/
theorem Alike.eq_of_cells {α : Type} {g g' : Grid α} (h : Alike g g')
    (hcells : g'.cells = g.cells) :
    g' = g := by
  obtain ⟨cells, nchan, npol, ny, nx, cellSize, frequency, hshape⟩ := g
  obtain ⟨cells', nchan', npol', ny', nx', cellSize', frequency', hshape'⟩ := g'
  obtain ⟨rfl, rfl, rfl, rfl, rfl, rfl⟩ := h
  obtain rfl : cells' = cells := hcells
  rfl

theorem Alike.shape_cells {α : Type} {g g' : Grid α} (h : Alike g g') :
    g'.cells.shape = g.cells.shape := by
  rw [g'.shape_cells, g.shape_cells, h.nchan, h.npol, h.ny, h.nx]

/-- A cell of a grid is within it. -/
theorem within_cells {α : Type} (g : Grid α) {ch p j i : ℕ} (hch : ch < g.nchan) (hp : p < g.npol)
    (hj : j < g.ny) (hi : i < g.nx) : Tensor.Within g.cells.shape [ch, p, j, i] := by
  rw [g.shape_cells]
  exact ⟨hch, hp, hj, hi, trivial⟩

section Additions

variable {α : Type} [Scalar α]

section AddAll

variable {γ : Type} (xs : List γ) (ch p j i : γ → ℕ) (z : γ → Cplx α) (g : Grid α)

theorem alike_foldl_addAt :
    Alike g (xs.foldl (fun g x => g.addAt (ch x) (p x) (j x) (i x) (z x)) g) := by
  induction xs generalizing g with
  | nil => exact Alike.refl g
  | cons x xs ih =>
    have hstep : Alike g (g.addAt (ch x) (p x) (j x) (i x) (z x)) := ⟨rfl, rfl, rfl, rfl, rfl, rfl⟩
    exact hstep.trans (ih _)

theorem cells_foldl_addAt :
    (xs.foldl (fun g x => g.addAt (ch x) (p x) (j x) (i x) (z x)) g).cells =
      xs.foldl (fun t x => t.modify [ch x, p x, j x, i x] (· + z x)) g.cells := by
  induction xs generalizing g with
  | nil => rfl
  | cons x xs ih => exact ih _

end AddAll

/-- Taps of samples, one after the other, as one list of additions. -/
theorem addTaps_eq_foldl (how : Contribution α) (channel : ℕ) (taps : List (Tap α))
    (samples : List (Sample α)) (g : Grid α) :
    addTaps how channel taps samples g =
      (samples.zipIdx.flatMap fun s => taps.map fun t => (s, t)).foldl
        (fun g x => g.addAt channel x.1.2 x.2.j x.2.i (how.cell x.2.value x.1.1)) g := by
  rw [List.foldl_flatMap]
  simp only [List.foldl_map]
  rfl

theorem alike_addTaps (how : Contribution α) (channel : ℕ) (taps : List (Tap α))
    (samples : List (Sample α)) (g : Grid α) : Alike g (addTaps how channel taps samples g) := by
  rw [addTaps_eq_foldl]
  exact alike_foldl_addAt _ (fun _ => channel) _ _ _ _ g

theorem addTaps_nil (how : Contribution α) (channel : ℕ) (samples : List (Sample α)) (g : Grid α) :
    addTaps how channel [] samples g = g := by
  have hnone : (samples.zipIdx.flatMap fun s => ([] : List (Tap α)).map fun t => (s, t)) = [] :=
    List.flatMap_eq_nil_iff.2 fun _ _ => rfl
  rw [addTaps_eq_foldl, hnone, List.foldl_nil]

end Additions

/-- A contribution leaves cells without a tap alone and gives nothing for flagged samples. -/
structure Contribution.Masked (how : Contribution ℝ) : Prop where
  /-- No tap, nothing added. -/
  cell_zero : ∀ s, how.cell 0 s = 0
  /-- A flagged sample adds to no cell -/
  cell_flagged : ∀ tap s, s.flagged = true → how.cell tap s = 0
  /-- and to no sum of weights. -/
  weight_flagged : ∀ total s, s.flagged = true → how.weight total s = 0

/-- The taps of a footprint that are on the grid add to each cell what the footprint reads there. -/
theorem val_get_addTaps {how : Contribution ℝ} (hm : how.Masked) (channel : ℕ) (F : Footprint ℝ)
    (samples : List (Sample ℝ)) (g : Grid ℝ) {ch p j i : ℕ} (hch : ch < g.nchan) (hp : p < g.npol)
    (hlen : p < samples.length) (hj : j < g.ny) (hi : i < g.nx) :
    ((addTaps how channel (F.runs g.ny g.nx).flatten samples g).get ch p j i).val =
      (g.get ch p j i).val +
        if channel = ch then (how.cell (F.read j i) samples[p]).val else 0 := by
  -- the taps of one polarisation, and of these the one at the cell in question
  have htaps : ∀ q (hq : q < samples.length),
      ((F.runs g.ny g.nx).flatten.map fun t =>
        if [channel, q, t.j, t.i] = [ch, p, j, i] then
          (how.cell t.value samples[q]).val else 0).sum =
      if q = p then
        if channel = ch then (how.cell (F.read j i) samples[p]).val else 0
      else 0 := by
    intro q hq
    rw [sum_runs F g.ny g.nx
      (fun j' i' tap => if [channel, q, j', i'] = [ch, p, j, i] then
        (how.cell tap samples[q]).val else 0)
      (fun j' i' => by rw [hm.cell_zero, Cplx.val_zero, ite_self])]
    rw [Finset.sum_eq_single_of_mem j (Finset.mem_range.2 hj),
      Finset.sum_eq_single_of_mem i (Finset.mem_range.2 hi)]
    · by_cases hqp : q = p
      · subst hqp
        simp
      · simp [hqp]
    · intro i' _ hne
      rw [if_neg]
      simp [hne]
    · intro j' _ hne
      refine Finset.sum_eq_zero fun i' _ => ?_
      rw [if_neg]
      simp [hne]
  rw [Grid.get, addTaps_eq_foldl, cells_foldl_addAt _ (fun _ => channel),
    Tensor.view_foldl_modify Cplx.val Cplx.val_add _ _ _ _ (within_cells g hch hp hj hi),
    sum_map_flatMap]
  simp only [List.map_map, Function.comp_def]
  rw [sum_map_zipIdx samples _ _ htaps, Finset.sum_ite_eq', if_pos (Finset.mem_range.2 hlen)]
  rfl

/-! ## Adding to sums of weights -/

/-- Values for the polarisations of a channel, added one after the other. -/
theorem addWeights_eq_foldl {α : Type} [Scalar α] {sums : Tensor α} {n m : ℕ}
    (hshape : sums.shape = [n, m]) {channel : ℕ} (hch : channel < n) {values : List α}
    (hlen : values.length = m) :
    addWeights sums channel values =
      .ok ((List.range m).foldl (fun t k => t.modify [channel, k] (· + values.getD k 0)) sums) := by
  have hfold : ∀ (ks : List ℕ) (t : Tensor α), t.shape = [n, m] → (∀ k ∈ ks, k < m) →
      ks.foldl (fun t k => t.modifyAt (channel * m + k) (· + values.getD (k % values.length) 0)) t =
      ks.foldl (fun t k => t.modify [channel, k] (· + values.getD k 0)) t := by
    intro ks
    induction ks with
    | nil => exact fun _ _ _ => rfl
    | cons k ks ih =>
      intro t ht hks
      have hk : k < m := hks k List.mem_cons_self
      have hmod : t.modify [channel, k] (· + values.getD k 0) =
          t.modifyAt (channel * m + k) (· + values.getD (k % values.length) 0) := by
        rw [Tensor.modify, if_pos (by rw [ht]; exact Tensor.within_pair.2 ⟨hch, hk⟩), ht,
          Tensor.offset_pair, hlen, Nat.mod_eq_of_lt hk]
      rw [List.foldl_cons, List.foldl_cons, hmod]
      exact ih _ (by rw [Tensor.shape_modifyAt, ht]) fun k' hk' =>
        hks k' (List.mem_cons_of_mem _ hk')
  have hvolume : volume [m] = m := Nat.mul_one m
  unfold addWeights
  split
  · rename_i n' first rest hs
    rw [hshape] at hs
    cases hs
    rw [if_neg (by omega), if_neg fun h => h.1 hlen, hvolume,
      hfold _ _ hshape fun k hk => List.mem_range.1 hk]
  · rename_i hs
    exact absurd hshape (hs n m [])

/-- A value for each polarisation is added to the sums of its channel. -/
theorem addWeights_ok {sums : Tensor ℝ} {n m : ℕ} (hshape : sums.shape = [n, m]) {channel : ℕ}
    (hch : channel < n) (values : List ℝ) (hlen : values.length = m) :
    ∃ sums', addWeights sums channel values = .ok sums' ∧ sums'.shape = [n, m] ∧
      ∀ ch p, ch < n → (hp : p < values.length) →
        sums'.get [ch, p] = sums.get [ch, p] + if channel = ch then values[p] else 0 := by
  refine ⟨_, addWeights_eq_foldl hshape hch hlen, ?_, ?_⟩
  · rw [Tensor.shape_foldl_modify, hshape]
  · intro ch p hc hp
    have hwithin : Tensor.Within sums.shape [ch, p] := by
      rw [hshape]
      exact Tensor.within_pair.2 ⟨hc, hlen ▸ hp⟩
    have hadd := Tensor.view_foldl_modify id (fun _ _ => rfl) (List.range m)
      (fun k => [channel, k]) (fun k => values.getD k 0) sums hwithin
    simp only [id] at hadd
    rw [hadd, sum_map_range, Finset.sum_eq_single_of_mem p (Finset.mem_range.2 (hlen ▸ hp))]
    · rw [List.getD_eq_getElem _ _ hp]
      simp
    · intro k _ hne
      rw [if_neg]
      simp [hne]

/-! ## One step -/

/-- `d'` is `d` with values added to its cells and to its sums of weights. -/
structure Deposit.Adds (d d' : Deposit ℝ) (cells : ℕ → ℕ → ℕ → ℕ → ℂ) (weights : ℕ → ℕ → ℝ) :
    Prop where
  /-- The grid has the axes that it had, -/
  alike : Alike d.grid d'.grid
  /-- and so have the sums of weights. -/
  shape : d'.sumWeights.shape = d.sumWeights.shape
  /-- Each cell has grown by its value. -/
  cell : ∀ ch p j i, ch < d.grid.nchan → p < d.grid.npol → j < d.grid.ny → i < d.grid.nx →
    (d'.grid.get ch p j i).val = (d.grid.get ch p j i).val + cells ch p j i
  /-- Each sum has grown by its value. -/
  weight : ∀ ch p, ch < d.grid.nchan → p < d.grid.npol →
    d'.sumWeights.get [ch, p] = d.sumWeights.get [ch, p] + weights ch p

section Adds

variable {d d' d'' : Deposit ℝ} {cells cells' : ℕ → ℕ → ℕ → ℕ → ℂ} {weights weights' : ℕ → ℕ → ℝ}

theorem Deposit.Adds.refl (d : Deposit ℝ) : d.Adds d (fun _ _ _ _ => 0) fun _ _ => 0 :=
  ⟨Alike.refl _, rfl, fun _ _ _ _ _ _ _ _ => (add_zero _).symm, fun _ _ _ _ => (add_zero _).symm⟩

theorem Deposit.Adds.trans (h : d.Adds d' cells weights) (h' : d'.Adds d'' cells' weights') :
    d.Adds d'' (fun ch p j i => cells ch p j i + cells' ch p j i)
      fun ch p => weights ch p + weights' ch p where
  alike := h.alike.trans h'.alike
  shape := h'.shape.trans h.shape
  cell ch p j i hch hp hj hi := by
    rw [h'.cell ch p j i (h.alike.nchan ▸ hch) (h.alike.npol ▸ hp) (h.alike.ny ▸ hj)
      (h.alike.nx ▸ hi), h.cell ch p j i hch hp hj hi, add_assoc]
  weight ch p hch hp := by
    rw [h'.weight ch p (h.alike.nchan ▸ hch) (h.alike.npol ▸ hp), h.weight ch p hch hp, add_assoc]

/-- What is added matters on the grid only. -/
theorem Deposit.Adds.congr (h : d.Adds d' cells weights)
    (hcells : ∀ ch p j i, p < d.grid.npol → cells ch p j i = cells' ch p j i)
    (hweights : ∀ ch p, p < d.grid.npol → weights ch p = weights' ch p) :
    d.Adds d' cells' weights' where
  alike := h.alike
  shape := h.shape
  cell ch p j i hch hp hj hi := by rw [h.cell ch p j i hch hp hj hi, hcells ch p j i hp]
  weight ch p hch hp := by rw [h.weight ch p hch hp, hweights ch p hp]

end Adds

/-- What a sample gives to a cell, read from its footprint, if it goes to channel `channel`. -/
noncomputable def cellShare (how : Contribution ℝ) (F : Footprint ℝ) (channel : ℕ)
    (samples : ℕ → Sample ℝ) (ch p j i : ℕ) : ℂ :=
  if channel = ch then (how.cell (F.read j i) (samples p)).val else 0

/-- What a sample gives to a sum of weights: nothing if its footprint is off the grid. -/
noncomputable def weightShare (how : Contribution ℝ) (F : Footprint ℝ) (ny nx channel : ℕ)
    (samples : ℕ → Sample ℝ) (ch p : ℕ) : ℝ :=
  if channel = ch ∧ (F.runs ny nx).flatten ≠ [] then
    how.weight (tapTotal (F.runs ny nx).flatten) (samples p)
  else 0

/-- The sample of a polarisation in a list of them, of weight zero where there is none. -/
noncomputable def sampleOf (samples : List (Sample ℝ)) (p : ℕ) : Sample ℝ :=
  samples.getD p ⟨0, 0, false⟩

section Step

variable {how : Contribution ℝ} {d : Deposit ℝ} {F : Footprint ℝ} {channel : ℕ}
  {samples : List (Sample ℝ)}

theorem addSample_adds (hm : how.Masked) (hs : d.sumWeights.shape = [d.grid.nchan, d.grid.npol])
    (hch : channel < d.grid.nchan) (hlen : samples.length = d.grid.npol) :
    ∃ d', addSample how (F.placement d.grid.ny d.grid.nx channel) samples d = .ok d' ∧
      d.Adds d' (cellShare how F channel (sampleOf samples))
        (weightShare how F d.grid.ny d.grid.nx channel (sampleOf samples)) := by
  by_cases hempty : (F.runs d.grid.ny d.grid.nx).flatten = []
  · -- off the grid: the taps add nothing, and so do the cells that the footprint reads as zero
    have houtside : F.placement d.grid.ny d.grid.nx channel = .outside := by
      rw [Footprint.placement, if_pos (by rw [hempty]; rfl)]
    rw [houtside]
    refine ⟨_, rfl, Alike.refl _, rfl, ?_, ?_⟩
    · intro ch p j i hc hp hj hi
      have hcell := val_get_addTaps hm channel F samples d.grid hc hp (hlen ▸ hp) hj hi
      rw [hempty, addTaps_nil] at hcell
      rw [cellShare, sampleOf, List.getD_eq_getElem _ _ (hlen ▸ hp)]
      exact hcell
    · intro ch p _ _
      rw [weightShare, if_neg fun h => h.2 hempty, add_zero]
  · have hinside : F.placement d.grid.ny d.grid.nx channel =
        .inside channel (F.runs d.grid.ny d.grid.nx) := by
      rw [Footprint.placement, if_neg (by rwa [List.isEmpty_iff])]
    obtain ⟨sums, hsums, hshape, hget⟩ := addWeights_ok hs hch (samples.map
      (how.weight (tapTotal (F.runs d.grid.ny d.grid.nx).flatten))) (by rw [List.length_map, hlen])
    rw [hinside]
    simp only [addSample, hsums]
    refine ⟨_, rfl, alike_addTaps _ _ _ _ _, hshape.trans hs.symm, ?_, ?_⟩
    · intro ch p j i hc hp hj hi
      rw [cellShare, sampleOf, List.getD_eq_getElem _ _ (hlen ▸ hp)]
      exact val_get_addTaps hm channel F samples d.grid hc hp (hlen ▸ hp) hj hi
    · intro ch p hc hp
      have hp' : p < samples.length := hlen ▸ hp
      rw [hget ch p hc (by rwa [List.length_map]), weightShare, sampleOf,
        List.getD_eq_getElem _ _ hp', List.getElem_map]
      simp [hempty]

/-- A step adds the share of its sample, or nothing where all polarisations are flagged. -/
theorem step_adds (hm : how.Masked) (hs : d.sumWeights.shape = [d.grid.nchan, d.grid.npol])
    (hch : channel < d.grid.nchan) (hnpol : npol = d.grid.npol) (f : Frame ℝ) (k b : ℕ)
    (r : Row ℝ nchan npol) (ps : Vector (Sample ℝ) npol)
    (hplace : f.place k r b = .ok (F.placement d.grid.ny d.grid.nx channel)) :
    ∃ d', step how f d (k, r, b, ps) = .ok d' ∧
      d.Adds d' (cellShare how F channel (sampleOf ps.toList))
        (weightShare how F d.grid.ny d.grid.nx channel (sampleOf ps.toList)) := by
  have hlen : ps.toList.length = d.grid.npol := by rw [Vector.length_toList, hnpol]
  by_cases hall : Row.channelFlagged ps = true
  · have hflagged : ∀ p, p < d.grid.npol → (sampleOf ps.toList p).flagged = true := by
      intro p hp
      rw [sampleOf, List.getD_eq_getElem _ _ (hlen ▸ hp)]
      exact List.all_eq_true.1 hall _ (List.getElem_mem _)
    refine ⟨d, by simp [step, hall], (Deposit.Adds.refl d).congr ?_ ?_⟩
    · intro ch p j i hp
      rw [cellShare, hm.cell_flagged _ _ (hflagged p hp), Cplx.val_zero, ite_self]
    · intro ch p hp
      rw [weightShare, hm.weight_flagged _ _ (hflagged p hp), ite_self]
  · obtain ⟨d', hd', hadds⟩ := addSample_adds (F := F) hm hs hch hlen
    exact ⟨d', by simp [step, hall, hplace, hd'], hadds⟩

end Step

/-! ## A run -/

/-- A run over samples adds their shares. -/
theorem foldlM_adds {how : Contribution ℝ} (hm : how.Masked) (f : Frame ℝ)
    (F : ℕ → ℕ → Footprint ℝ) (channel : ℕ → ℕ)
    (xs : List (ℕ × Row ℝ nchan npol × ℕ × Vector (Sample ℝ) npol)) (d : Deposit ℝ)
    (hs : d.sumWeights.shape = [d.grid.nchan, d.grid.npol]) (hnpol : npol = d.grid.npol)
    (hplace : ∀ k r b ps, (k, r, b, ps) ∈ xs → channel b < d.grid.nchan ∧
      f.place k r b = .ok ((F k b).placement d.grid.ny d.grid.nx (channel b))) :
    ∃ d', xs.foldlM (step how f) d = .ok d' ∧
      d.Adds d'
        (fun ch p j i => (xs.map fun x =>
          cellShare how (F x.1 x.2.2.1) (channel x.2.2.1) (sampleOf x.2.2.2.toList) ch p j i).sum)
        fun ch p => (xs.map fun x => weightShare how (F x.1 x.2.2.1) d.grid.ny d.grid.nx
          (channel x.2.2.1) (sampleOf x.2.2.2.toList) ch p).sum := by
  induction xs generalizing d with
  | nil => exact ⟨d, rfl, Deposit.Adds.refl d⟩
  | cons x xs ih =>
    obtain ⟨k, r, b, ps⟩ := x
    obtain ⟨hch, hhere⟩ := hplace k r b ps List.mem_cons_self
    obtain ⟨d₁, hd₁, hadds₁⟩ := step_adds hm hs hch hnpol f k b r ps hhere
    have halike := hadds₁.alike
    obtain ⟨d₂, hd₂, hadds₂⟩ := ih d₁
      (by rw [hadds₁.shape, hs, halike.nchan, halike.npol])
      (by rw [halike.npol, hnpol])
      (fun k r b ps hx => by
        rw [halike.nchan, halike.ny, halike.nx]
        exact hplace k r b ps (List.mem_cons_of_mem _ hx))
    refine ⟨d₂, by rw [List.foldlM_cons, hd₁]; exact hd₂, ?_⟩
    rw [halike.ny, halike.nx] at hadds₂
    exact hadds₁.trans hadds₂

section Counters

variable {α : Type} [Scalar α] {how : Contribution α} {vis : Visibility α nchan npol}
  {d d' : Deposit α}

/-- A row and channel is passed over if all its polarisations are flagged; else it counts as outside
    and changes nothing, or it counts as gridded. -/
theorem step_cases {f : Frame α} {k b : ℕ} {r : Row α nchan npol} {ps : Vector (Sample α) npol}
    (h : step how f d (k, r, b, ps) = .ok d') :
    (Row.channelFlagged ps = true ∧ d' = d) ∨
    (Row.channelFlagged ps = false ∧ f.place k r b = .ok .outside ∧
      d' = { d with statistics := { d.statistics with outside := d.statistics.outside + 1 } }) ∨
    (Row.channelFlagged ps = false ∧ (∃ channel runs, f.place k r b = .ok (.inside channel runs)) ∧
      d'.statistics = { d.statistics with gridded := d.statistics.gridded + 1 }) := by
  unfold step at h
  dsimp only at h
  split at h
  · rename_i hflagged
    cases h
    exact .inl ⟨hflagged, rfl⟩
  rename_i hflagged
  rw [Bool.not_eq_true] at hflagged
  split at h
  · rename_i placement hplace
    cases placement with
    | outside =>
      cases h
      exact .inr (.inl ⟨hflagged, hplace, rfl⟩)
    | inside channel runs =>
      simp only [addSample] at h
      split at h
      · cases h
        exact .inr (.inr ⟨hflagged, ⟨channel, runs, hplace⟩, rfl⟩)
      · cases h
  · cases h

/-- One row and channel counts as gridded or as outside, and as nothing else. -/
theorem step_counters {f : Frame α} {sample : ℕ × Row α nchan npol × ℕ × Vector (Sample α) npol}
    (h : step how f d sample = .ok d') :
    d'.statistics.flagged = d.statistics.flagged ∧
    d'.statistics.clamped = d.statistics.clamped := by
  obtain ⟨-, rfl⟩ | ⟨-, -, rfl⟩ | ⟨-, -, hcounts⟩ := step_cases h
  · exact ⟨rfl, rfl⟩
  · exact ⟨rfl, rfl⟩
  · rw [hcounts]
    exact ⟨rfl, rfl⟩

/-- Rows without a sample and samples moved to the first or last plane are counted by the
    visibilities and by the plane map. -/
theorem deposit_counters {g : Grid α} {c : Cache α} {map : PlaneMap} {sums : Option (Tensor α)}
    {interpolation : Interpolation} (h : deposit how vis g c map sums interpolation = .ok d) :
    d.statistics.flagged = flaggedRows vis ∧ d.statistics.clamped = map.clamped := by
  unfold deposit at h
  dsimp only at h
  split at h
  · cases h
  split at h
  · cases h
  · rename_i f _
    exact of_foldlM (P := fun d : Deposit α =>
        d.statistics.flagged = flaggedRows vis ∧ d.statistics.clamped = map.clamped)
      (fun x _ d d' hd hstep =>
        ⟨(step_counters hstep).1.trans hd.1, (step_counters hstep).2.trans hd.2⟩)
      ⟨rfl, rfl⟩ h

end Counters

section Visibilities

variable {vis : Visibility ℝ nchan npol} {g : Grid ℝ} {c : Cache ℝ} {map : PlaneMap} {l : Lattice ℝ}

/-- A sum over the samples of visibilities is a sum over rows and channels. -/
theorem sum_samplesOf {M : Type} [AddCommMonoid M] (vis : Visibility ℝ nchan npol)
    (G : ℕ → ℕ → (ℕ → Sample ℝ) → M)
    (hG : ∀ k b s s', (∀ p, p < npol → s p = s' p) → G k b s = G k b s') :
    ((samplesOf vis).map fun x => G x.1 x.2.2.1 (sampleOf x.2.2.2.toList)).sum =
      ∑ k ∈ Finset.range vis.rowCount, ∑ b ∈ Finset.range nchan, G k b (vis.sampleAt k b) := by
  unfold samplesOf
  rw [sum_map_flatMap]
  refine sum_map_zipIdx vis.rows _ (fun k => ∑ b ∈ Finset.range nchan, G k b (vis.sampleAt k b)) ?_
  intro k hk
  simp only [List.map_map, Function.comp_def]
  have hlen : vis.rows[k].samples.toList.length = nchan := Vector.length_toList
  refine (sum_map_zipIdx _ _ (fun b => G k b (vis.sampleAt k b)) fun b hb => ?_).trans
    (by rw [hlen])
  have hb' : b < nchan := hlen ▸ hb
  refine hG k b _ _ fun p hp => ?_
  rw [Visibility.sampleAt, dif_pos ⟨hk, hb', hp⟩, sampleOf,
    List.getD_eq_getElem _ _ (by rwa [Vector.length_toList])]
  simp

/-- A sample that is taken is that of its row and channel. -/
theorem getElem_of_mem_samplesOf {α : Type} {vis : Visibility α nchan npol} {k b : ℕ}
    {r : Row α nchan npol} {ps : Vector (Sample α) npol} (h : (k, r, b, ps) ∈ samplesOf vis) :
    ∃ (hk : k < vis.rows.length) (hb : b < nchan), r = vis.rows[k] ∧
      ps = vis.rows[k].samples[b] := by
  obtain ⟨⟨r', k'⟩, hrow, hsample⟩ := List.mem_flatMap.1 h
  obtain ⟨⟨ps', b'⟩, hchannel, heq⟩ := List.mem_map.1 hsample
  cases heq
  obtain ⟨hk, rfl⟩ := List.getElem?_eq_some_iff.1 (List.mk_mem_zipIdx_iff_getElem?.1 hrow)
  obtain ⟨hb, rfl⟩ := List.getElem?_eq_some_iff.1 (List.mk_mem_zipIdx_iff_getElem?.1 hchannel)
  rw [Vector.length_toList] at hb
  exact ⟨hk, hb, rfl, Vector.getElem_toList _⟩

theorem mem_samplesOf {α : Type} {vis : Visibility α nchan npol} {k b : ℕ} {r : Row α nchan npol}
    {ps : Vector (Sample α) npol} (h : (k, r, b, ps) ∈ samplesOf vis) :
    ∃ hk : k < vis.rows.length, r = vis.rows[k] ∧ b < nchan := by
  obtain ⟨hk, hb, hr, -⟩ := getElem_of_mem_samplesOf h
  exact ⟨hk, hr, hb⟩

/-- Visibilities that fit are deposited without a fault: there is a footprint for each row and
    channel that reads as the kernel, and the shares of all rows and channels are added. -/
theorem deposit_adds (h : Fit vis g c map l) {how : Contribution ℝ} (hm : how.Masked)
    (interpolation : Interpolation) (sums : Option (Tensor ℝ))
    (hs : ∀ t ∈ sums, t.shape = [g.nchan, g.npol]) :
    ∃ F : ℕ → ℕ → Footprint ℝ,
      (∀ k < vis.rowCount, ∀ b < nchan,
        sampleFootprint vis c map l interpolation k b = .ok (F k b) ∧
        ∀ j i : ℤ, ((F k b).read j i).val = sampleKernel vis c map l interpolation k b j i) ∧
      ∃ d, deposit how vis g c map sums interpolation = .ok d ∧
        Deposit.Adds ⟨g, sums.getD (Tensor.fill [g.nchan, g.npol] 0),
            { flagged := flaggedRows vis, clamped := map.clamped }⟩ d
          (fun ch p j i => ∑ k ∈ Finset.range vis.rowCount, ∑ b ∈ Finset.range nchan,
            cellShare how (F k b) (g.channelAt (vis.frequency.getD b 0))
              (vis.sampleAt k b) ch p j i)
          (fun ch p => ∑ k ∈ Finset.range vis.rowCount, ∑ b ∈ Finset.range nchan,
            weightShare how (F k b) g.ny g.nx (g.channelAt (vis.frequency.getD b 0))
              (vis.sampleAt k b) ch p) := by
  obtain ⟨f, F, hframe, hF⟩ := h.exists_footprints interpolation
  refine ⟨F, fun k hk b hb => (hF k hk b hb).2, ?_⟩
  have hshape : (sums.getD (Tensor.fill [g.nchan, g.npol] 0)).shape = [g.nchan, g.npol] := by
    cases sums with
    | none => rfl
    | some t => exact hs t rfl
  obtain ⟨d, hd, hadds⟩ := foldlM_adds hm f F (fun b => g.channelAt (vis.frequency.getD b 0))
    (samplesOf vis) ⟨g, sums.getD (Tensor.fill [g.nchan, g.npol] 0),
      { flagged := flaggedRows vis, clamped := map.clamped }⟩ hshape h.npol_eq
    (fun k r b ps hx => by
      obtain ⟨hk, rfl, hb⟩ := mem_samplesOf hx
      exact ⟨h.channelAt_lt _, (hF k hk b hb).1⟩)
  refine ⟨d, ?_, hadds.congr ?_ ?_⟩
  · unfold deposit
    simp only [h.checked, hframe, hd]
  · intro ch p j i hp
    refine sum_samplesOf vis (fun k b samples =>
      cellShare how (F k b) (g.channelAt (vis.frequency.getD b 0)) samples ch p j i)
      fun k b s s' hss => ?_
    simp only [cellShare, hss p (h.npol_eq ▸ hp)]
  · intro ch p hp
    refine sum_samplesOf vis (fun k b samples =>
      weightShare how (F k b) g.ny g.nx (g.channelAt (vis.frequency.getD b 0)) samples ch p)
      fun k b s s' hss => ?_
    simp only [weightShare, hss p (h.npol_eq ▸ hp)]

end Visibilities

end Grid

end ApertureSynthesis
