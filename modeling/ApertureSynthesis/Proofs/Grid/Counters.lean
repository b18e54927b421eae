/-
  The counters of a pass account for every sample, in any arithmetic.

  A step counts its sample as outside, and leaves grid and sums of weights as they are, if the
  sample does not touch the grid; else it counts it as gridded (`step_cases`). So a run counts each
  row and channel that is not flagged once (`foldlM_counts`), and what stands at samples outside
  makes no difference to its grid and its sums (`foldlM_resampled`). A prediction counts flagged
  samples too, and predicts zero for those outside (`value_of_outside`).
-/
import Mathlib
import ApertureSynthesis.Proofs.Grid.Flagged
import ApertureSynthesis.Proofs.Grid.Gridding
import ApertureSynthesis.Proofs.Grid.Prediction
import ApertureSynthesis.Proofs.Grid.Reach
import ApertureSynthesis.Proofs.Grid.Rows
import ApertureSynthesis.Proofs.Grid.Safety

namespace ApertureSynthesis

variable {α : Type} {nchan npol : ℕ}

/-! ## Flags and numbers of samples -/

/-- Every sample of a row is flagged. -/
def Row.AllFlagged (r : Row α nchan npol) : Prop :=
  ∀ b (hb : b < nchan) p (hp : p < npol), r.samples[b][p].flagged = true

theorem Row.channelFlagged_iff {ps : Vector (Sample α) npol} :
    Row.channelFlagged ps = true ↔ ∀ p (hp : p < npol), ps[p].flagged = true := by
  rw [channelFlagged, List.all_eq_true]
  simp only [List.forall_mem_iff_forall_getElem, Vector.length_toList, Vector.getElem_toList]

theorem Row.flagged_iff {r : Row α nchan npol} : r.flagged = true ↔ r.AllFlagged := by
  rw [flagged, List.all_eq_true]
  simp only [List.forall_mem_iff_forall_getElem, Vector.length_toList, Vector.getElem_toList,
    channelFlagged_iff]
  rfl

instance (r : Row α nchan npol) : Decidable r.AllFlagged := decidable_of_iff _ Row.flagged_iff

namespace Visibility

/-- A row and channel has a polarisation that is not flagged. -/
def Unflagged (vis : Visibility α nchan npol) (k b : ℕ) : Prop :=
  ∃ (hk : k < vis.rows.length) (hb : b < nchan), ∃ p, ∃ hp : p < npol,
    vis.rows[k].samples[b][p].flagged = false

open scoped Classical in
/-- The number of rows and channels with a property. -/
noncomputable def count (vis : Visibility α nchan npol) (P : ℕ → ℕ → Prop) : ℕ :=
  ((Finset.range vis.rowCount ×ˢ Finset.range nchan).filter fun x => P x.1 x.2).card

/-- Visibilities with other samples, by row, channel and polarisation. -/
def resampled (vis : Visibility α nchan npol) (change : ℕ → ℕ → ℕ → Sample α → Sample α) :
    Visibility α nchan npol :=
  { vis with rows := vis.rows.mapIdx fun k r => r.mapSamples (change k) }

end Visibility

namespace Grid

variable [Scalar α]

/-! ## Counting rows and channels -/

section Numbers

variable {vis : Visibility α nchan npol}

theorem map_snd_zipIdx {β : Type} (xs : List β) :
    xs.zipIdx.map Prod.snd = List.range xs.length := by
  rw [List.zipIdx_map_snd, List.range_eq_range']

omit [Scalar α] in
/-- The numbers of rows and channels, in the order in which samples are taken. -/
theorem numbers_samplesOf : (samplesOf vis).map (fun x => (x.1, x.2.2.1)) =
    List.range vis.rowCount ×ˢ List.range nchan := by
  have hrow : ∀ x : Row α nchan npol × ℕ,
      (x.1.samples.toList.zipIdx.map fun y => (x.2, x.1, y.2, y.1)).map (fun x => (x.1, x.2.2.1)) =
        (List.range nchan).map (Prod.mk x.2) := by
    intro x
    have hchannels : x.1.samples.toList.zipIdx.map Prod.snd = List.range nchan := by
      rw [map_snd_zipIdx, Vector.length_toList]
    rw [List.map_map, ← hchannels, List.map_map]
    rfl
  show (vis.rows.zipIdx.flatMap _).map _ = (List.range vis.rows.length).flatMap _
  rw [List.map_flatMap, ← map_snd_zipIdx, List.flatMap_map]
  exact List.flatMap_congr fun x _ => hrow x

omit [Scalar α] in
/-- Rows and channels are counted by going through their numbers. -/
theorem countP_numbers (P : ℕ → ℕ → Prop) {p : ℕ × ℕ → Bool} (hp : ∀ x, p x = true ↔ P x.1 x.2) :
    (List.range vis.rowCount ×ˢ List.range nchan).countP p = vis.count P := by
  classical
  obtain rfl : p = fun x => decide (P x.1 x.2) :=
    funext fun x => Bool.eq_iff_iff.2 ((hp x).trans decide_eq_true_iff.symm)
  rw [Visibility.count, Finset.card_def, Finset.filter_val, ← Multiset.countP_eq_card_filter]
  show _ =
      Multiset.countP _ ((List.range vis.rowCount : Multiset ℕ) ×ˢ (List.range nchan : Multiset ℕ))
  rw [Multiset.coe_product, Multiset.coe_countP]

omit [Scalar α] in
/-- The samples that are used are those of rows and channels with a polarisation that is not
    flagged. -/
theorem channelFlagged_eq_false_iff {k b : ℕ} {r : Row α nchan npol} {ps : Vector (Sample α) npol}
    (h : (k, r, b, ps) ∈ samplesOf vis) : Row.channelFlagged ps = false ↔ vis.Unflagged k b := by
  obtain ⟨hk, hb, -, rfl⟩ := getElem_of_mem_samplesOf h
  rw [← Bool.not_eq_true, Row.channelFlagged_iff]
  simp only [not_forall, Bool.not_eq_true]
  exact ⟨fun ⟨p, hp, hflag⟩ => ⟨hk, hb, p, hp, hflag⟩, fun ⟨_, _, p, hp, hflag⟩ => ⟨p, hp, hflag⟩⟩

omit [Scalar α] in
/-- Of the samples that are used, those with a property of their row and channel. -/
theorem countP_samplesOf (P : ℕ → ℕ → Prop)
    {p : ℕ × Row α nchan npol × ℕ × Vector (Sample α) npol → Bool}
    (hp : ∀ x, p x = true ↔ Row.channelFlagged x.2.2.2 = false ∧ P x.1 x.2.2.1) :
    (samplesOf vis).countP p = vis.count fun k b => vis.Unflagged k b ∧ P k b := by
  classical
  rw [← countP_numbers _ fun x => decide_eq_true_iff, ← numbers_samplesOf, List.countP_map]
  refine List.countP_congr fun x hx => ?_
  rw [hp, Function.comp_apply, decide_eq_true_iff, channelFlagged_eq_false_iff hx]

omit [Scalar α] in
/-- Rows and channels with a property either have another one or not. -/
theorem count_and_add_count_and_not (vis : Visibility α nchan npol) (P Q : ℕ → ℕ → Prop) :
    vis.count (fun k b => P k b ∧ Q k b) + vis.count (fun k b => P k b ∧ ¬ Q k b) =
      vis.count P := by
  classical
  have hsplit := Finset.card_filter_add_card_filter_not
    (s := (Finset.range vis.rowCount ×ˢ Finset.range nchan).filter fun x => P x.1 x.2)
    fun x => Q x.1 x.2
  rw [Finset.filter_filter, Finset.filter_filter] at hsplit
  unfold Visibility.count
  convert hsplit

omit [Scalar α] in
theorem count_add_count_not (vis : Visibility α nchan npol) (Q : ℕ → ℕ → Prop) :
    vis.count Q + vis.count (fun k b => ¬ Q k b) = vis.rowCount * nchan := by
  classical
  unfold Visibility.count
  rw [Finset.card_filter_add_card_filter_not, Finset.card_product, Finset.card_range,
    Finset.card_range]

end Numbers

/-! ## Gridding -/

section Gridding

variable {vis : Visibility α nchan npol} {g : Grid α} {c : Cache α} {map : PlaneMap}
  {interpolation : Interpolation} {f : Frame α} {how : Contribution α} {sums : Option (Tensor α)}
  {xs : List (ℕ × Row α nchan npol × ℕ × Vector (Sample α) npol)} {touches : ℕ → ℕ → Prop}

/-- Samples are placed outside where `touches` does not hold. -/
def OutsideUnless (f : Frame α) (touches : ℕ → ℕ → Prop)
    (xs : List (ℕ × Row α nchan npol × ℕ × Vector (Sample α) npol)) : Prop :=
  ∀ x ∈ xs, ∀ placement, f.place x.1 x.2.1 x.2.2.1 = .ok placement →
    (placement = .outside ↔ ¬ touches x.1 x.2.2.1)

theorem outsideUnless_samplesOf (hc : c.WellFormed)
    (hframe : frame vis g c map interpolation = .ok f) :
    OutsideUnless f (Touches vis g c map interpolation) (samplesOf vis) := by
  rintro ⟨k, r, b, ps⟩ hx placement hplace
  obtain ⟨hk, -, rfl, -⟩ := getElem_of_mem_samplesOf hx
  exact outside_iff hc hframe (List.getElem?_eq_getElem hk) hplace

open scoped Classical in
/-- A run counts each sample that is used, as gridded if it touches the grid and else as outside. -/
theorem foldlM_counts {d d' : Deposit α} (hplaced : OutsideUnless f touches xs)
    (h : xs.foldlM (step how f) d = .ok d') :
    d'.statistics.gridded = d.statistics.gridded +
        xs.countP (fun x => decide (Row.channelFlagged x.2.2.2 = false ∧ touches x.1 x.2.2.1)) ∧
      d'.statistics.outside = d.statistics.outside +
        xs.countP
          (fun x => decide (Row.channelFlagged x.2.2.2 = false ∧ ¬ touches x.1 x.2.2.1)) := by
  induction xs generalizing d with
  | nil =>
    cases h
    simp
  | cons x xs ih =>
    obtain ⟨k, r, b, ps⟩ := x
    rw [List.foldlM_cons] at h
    obtain ⟨d₁, hstep, hrest⟩ := exists_of_bind h
    obtain ⟨hgridded, houtside⟩ := ih (fun x hx => hplaced x (List.mem_cons_of_mem _ hx)) hrest
    have hhere := hplaced _ List.mem_cons_self
    rw [hgridded, houtside, List.countP_cons, List.countP_cons]
    obtain ⟨hflagged, rfl⟩ | ⟨hused, hplace, rfl⟩ | ⟨hused, ⟨channel, runs, hplace⟩, hcounts⟩ :=
      step_cases hstep
    · simp [hflagged]
    · have htouches : ¬ touches k b := (hhere _ hplace).1 rfl
      simp [hused, htouches]
      omega
    · have htouches : touches k b := by
        by_contra hnot
        cases (hhere _ hplace).2 hnot
      simp [hcounts, hused, htouches]
      omega

/-- Two states of a pass with the same grid and sums of weights. -/
def SameSums (d e : Deposit α) : Prop := e.grid = d.grid ∧ e.sumWeights = d.sumWeights

omit [Scalar α] in
theorem SameSums.exists_counting {d e : Deposit α} (h : SameSums d e) : ∃ t, e = d.counting t := by
  obtain ⟨grid, sums, counts⟩ := d
  obtain ⟨grid', sums', counts'⟩ := e
  obtain ⟨rfl, rfl⟩ := h
  refine ⟨⟨counts'.gridded - counts.gridded, counts'.flagged - counts.flagged,
    counts'.outside - counts.outside, counts'.clamped - counts.clamped⟩, ?_⟩
  unfold Deposit.counting
  congr 1
  apply Statistics.ext <;> simp

/-- A sample that is used keeps two runs together, however its row is told apart. -/
theorem SameSums.step {k b : ℕ} {r q : Row α nchan npol} {ps : Vector (Sample α) npol}
    {d d' e e' : Deposit α} (h : SameSums d e) (hu : q.u = r.u) (hv : q.v = r.v)
    (hd : Grid.step how f d (k, r, b, ps) = .ok d')
    (he : Grid.step how f e (k, q, b, ps) = .ok e') :
    SameSums d' e' := by
  obtain ⟨t, rfl⟩ := h.exists_counting
  have hrecounted : Recounted t (Grid.step how f d (k, r, b, ps))
      (Grid.step how f (d.counting t) (k, r, b, ps)) := step_counting f d t _
  have hplace : Grid.step how f (d.counting t) (k, q, b, ps) =
      Grid.step how f (d.counting t) (k, r, b, ps) := by
    simp only [Grid.step, place_congr f k b hu hv]
  rw [← hplace, hd, he] at hrecounted
  cases hrecounted
  exact ⟨rfl, rfl⟩

/-- A sample outside leaves grid and sums of weights as they are. -/
theorem sameSums_of_outside {k b : ℕ} {r : Row α nchan npol} {ps : Vector (Sample α) npol}
    {d d' : Deposit α} (hplaced : ∀ placement, f.place k r b = .ok placement → placement = .outside)
    (h : step how f d (k, r, b, ps) = .ok d') : SameSums d d' := by
  obtain ⟨-, rfl⟩ | ⟨-, -, rfl⟩ | ⟨-, ⟨channel, runs, hplace⟩, -⟩ := step_cases h
  · exact ⟨rfl, rfl⟩
  · exact ⟨rfl, rfl⟩
  · cases hplaced _ hplace

omit [Scalar α] in
/-- The samples of rows and channels, changed one by one. -/
theorem samplesOf_resampled (change : ℕ → ℕ → ℕ → Sample α → Sample α) :
    samplesOf (vis.resampled change) = (samplesOf vis).map fun x =>
      (x.1, x.2.1.mapSamples (change x.1), x.2.2.1, x.2.2.2.mapIdx (change x.1 x.2.2.1)) := by
  have hnumbers : ∀ {β γ : Type} (f : ℕ → β → γ) (ys : List β),
      (ys.mapIdx f).zipIdx = ys.zipIdx.map fun y => (f y.2 y.1, y.2) := by
    intro β γ f ys
    exact List.ext_getElem (by simp) (by simp)
  unfold samplesOf Visibility.resampled
  dsimp only
  rw [hnumbers, List.flatMap_map, List.map_flatMap]
  refine List.flatMap_congr fun x _ => ?_
  unfold Row.mapSamples
  rw [Vector.toList_mapIdx, hnumbers, List.map_map, List.map_map]
  rfl

/-- What stands at samples that do not touch the grid makes no difference to grid and sums of
    weights. -/
theorem foldlM_resampled {change : ℕ → ℕ → ℕ → Sample α → Sample α}
    (hplaced : OutsideUnless f touches xs) (hsame : ∀ k b, touches k b → ∀ p s, change k b p s = s)
    {d e d' e' : Deposit α} (h : SameSums d e) (hd : xs.foldlM (step how f) d = .ok d')
    (he : (xs.map fun x => (x.1, x.2.1.mapSamples (change x.1), x.2.2.1,
      x.2.2.2.mapIdx (change x.1 x.2.2.1))).foldlM (step how f) e = .ok e') : SameSums d' e' := by
  induction xs generalizing d e with
  | nil =>
    cases hd
    cases he
    exact h
  | cons x xs ih =>
    obtain ⟨k, r, b, ps⟩ := x
    rw [List.foldlM_cons] at hd
    rw [List.map_cons, List.foldlM_cons] at he
    obtain ⟨d₁, hd₁, hd⟩ := exists_of_bind hd
    obtain ⟨e₁, he₁, he⟩ := exists_of_bind he
    refine ih (fun x hx => hplaced x (List.mem_cons_of_mem _ hx)) ?_ hd he
    dsimp only at he₁
    by_cases htouches : touches k b
    · have hps : ps.mapIdx (change k b) = ps := by
        refine Vector.ext fun p hp => ?_
        rw [Vector.getElem_mapIdx, hsame k b htouches]
      rw [hps] at he₁
      exact h.step rfl rfl hd₁ he₁
    · -- neither run adds anything here
      have hout : ∀ placement, f.place k r b = .ok placement → placement = .outside :=
        fun placement hplace => (hplaced _ List.mem_cons_self placement hplace).2 htouches
      obtain ⟨hgrid, hsums⟩ := sameSums_of_outside hout hd₁
      obtain ⟨hgrid', hsums'⟩ :=
        sameSums_of_outside (k := k) (r := r.mapSamples (change k)) (b := b) hout he₁
      exact ⟨by rw [hgrid', h.1, hgrid], by rw [hsums', h.2, hsums]⟩

end Gridding

/-! ## Prediction -/

section Prediction

variable {vis vis' : Visibility α nchan npol} {g : Grid α} {c : Cache α} {map : PlaneMap}
  {interpolation : Interpolation} {f : Frame α} {counts : Statistics}

open scoped Classical in
omit [Scalar α] in
/-- Placements are counted as gridded where they touch the grid and else as outside. -/
theorem foldl_countPlacement {β : Type} {touches : β → Prop} {ys : List β}
    {placements : List (Placement α)}
    (h : List.Forall₂ (fun y placement => placement = .outside ↔ ¬ touches y) ys placements)
    (s : Statistics) : placements.foldl countPlacement s =
      { s with
        gridded := s.gridded + ys.countP fun y => decide (touches y)
        outside := s.outside + ys.countP fun y => decide (¬ touches y) } := by
  induction h generalizing s with
  | nil => simp
  | @cons y placement ys placements hhere _ ih =>
    rw [List.foldl_cons, ih, List.countP_cons, List.countP_cons]
    cases placement with
    | outside =>
      have htouches : ¬ touches y := hhere.1 rfl
      simp [countPlacement, htouches]
      omega
    | inside channel runs =>
      have htouches : touches y := by
        by_contra hnot
        cases hhere.2 hnot
      simp [countPlacement, htouches]
      omega

/-- What the prediction of a row is made of. -/
theorem exists_of_predictRow {r : Row α nchan npol} {k : ℕ}
    {predicted : Row α nchan npol × List (Placement α)}
    (h : predictRow f g (r, k) = .ok predicted) :
    List.Forall₂ (fun b placement => f.place k r b = .ok placement) (List.range nchan) predicted.2 ∧
      predicted.1 = r.mapSamples fun b p s =>
        { s with value := predictAt g p (predicted.2.toArray.getD b .outside) } := by
  unfold predictRow at h
  obtain ⟨placements, hplacements, h⟩ := exists_of_bind h
  cases h
  exact ⟨mapM_eq_ok_iff.1 hplacements, rfl⟩

/-- A prediction goes through the rows by their numbers. -/
theorem exists_of_predict (h : predict vis g c map interpolation = .ok (vis', counts)) :
    ∃ f rows, frame vis g c map interpolation = .ok f ∧
      List.Forall₂ (fun x y => vis.rows[x.2]? = some x.1 ∧ predictRow f g x = .ok y)
        vis.rows.zipIdx rows ∧
      vis' = { vis with rows := rows.map Prod.fst } ∧
      counts = (rows.flatMap Prod.snd).foldl countPlacement { clamped := map.clamped } := by
  obtain ⟨-, f, hframe, rows, hrows, heq⟩ := predict_eq_ok.1 h
  cases heq
  exact ⟨f, rows, hframe, (List.forall₂_and_left _ _).2
    ⟨fun x hx => List.mem_zipIdx_iff_getElem?.1 hx, mapM_eq_ok_iff.1 hrows⟩, rfl, rfl⟩

/-- Each row is predicted by its number. -/
theorem getElem_of_predict {rows : List (Row α nchan npol × List (Placement α))}
    (h : List.Forall₂ (fun x y => vis.rows[x.2]? = some x.1 ∧ predictRow f g x = .ok y)
      vis.rows.zipIdx rows)
    {k : ℕ} (hk : k < rows.length) :
    ∃ hk' : k < vis.rows.length, predictRow f g (vis.rows[k], k) = .ok rows[k] := by
  have hzip : k < vis.rows.zipIdx.length := h.length_eq ▸ hk
  have hrow := (h.get hzip hk).2
  rw [List.get_eq_getElem, List.getElem_zipIdx, Nat.zero_add] at hrow
  exact ⟨by simpa using hzip, hrow⟩

/-- A row and channel that is placed outside is predicted as zero. -/
theorem value_of_outside {r : Row α nchan npol} {k b p : ℕ}
    {predicted : Row α nchan npol × List (Placement α)} (h : predictRow f g (r, k) = .ok predicted)
    (hb : b < nchan) (hp : p < npol)
    (hout : ∀ placement, f.place k r b = .ok placement → placement = .outside) :
    predicted.1.samples[b][p].value = 0 := by
  obtain ⟨hplacements, hpredicted⟩ := exists_of_predictRow h
  have hlt : b < predicted.2.length := by rwa [← hplacements.length_eq, List.length_range]
  have hplace := hplacements.get (by rwa [List.length_range]) hlt
  rw [List.get_eq_getElem, List.getElem_range] at hplace
  have houtside : predicted.2.toArray.getD b .outside = .outside := by
    rw [Array.getD_eq_getD_getElem?, List.getElem?_toArray, List.getElem?_eq_getElem hlt,
      Option.getD_some]
    exact hout _ hplace
  rw [hpredicted]
  simp only [Row.mapSamples, Vector.getElem_mapIdx, houtside]
  rfl

/-- The placements of a prediction, by the numbers of rows and channels. -/
theorem placements_of_predict (hc : c.WellFormed) (hframe : frame vis g c map interpolation = .ok f)
    {rows : List (Row α nchan npol × List (Placement α))}
    (h : List.Forall₂ (fun x y => vis.rows[x.2]? = some x.1 ∧ predictRow f g x = .ok y)
      vis.rows.zipIdx rows) :
    List.Forall₂
      (fun y placement => placement = .outside ↔ ¬ Touches vis g c map interpolation y.1 y.2)
      (List.range vis.rowCount ×ˢ List.range nchan) (rows.flatMap Prod.snd) := by
  have hnumbers : List.range vis.rowCount ×ˢ List.range nchan =
      vis.rows.zipIdx.flatMap fun x => (List.range nchan).map (Prod.mk x.2) := by
    show (List.range vis.rows.length).flatMap _ = _
    rw [← map_snd_zipIdx, List.flatMap_map]
  rw [hnumbers]
  refine List.rel_flatMap h ?_
  rintro ⟨r, k⟩ y ⟨hr, hrow⟩
  rw [List.forall₂_map_left_iff]
  exact (exists_of_predictRow hrow).1.imp fun b placement hplace => outside_iff hc hframe hr hplace

end Prediction

/-! ## The account -/

section Account

variable {vis : Visibility α nchan npol} {g : Grid α} {c : Cache α} {map : PlaneMap}
  {interpolation : Interpolation}

/-- What a pass that has ended has counted and what it has left as it was. -/
structure DepositAccount (how : Contribution α) (vis : Visibility α nchan npol) (g : Grid α)
    (c : Cache α) (map : PlaneMap) (sums : Option (Tensor α)) (interpolation : Interpolation)
    (d : Deposit α) : Prop where
  /-- Each row and channel with a polarisation that is not flagged is counted once, -/
  total : d.statistics.gridded + d.statistics.outside = vis.count vis.Unflagged
  /-- as outside if none of its taps is on the grid. -/
  outside : d.statistics.outside =
    vis.count fun k b => vis.Unflagged k b ∧ ¬ Touches vis g c map interpolation k b
  /-- Rows with every sample flagged are counted beside. -/
  flagged : d.statistics.flagged = vis.rows.countP fun r => decide r.AllFlagged
  /-- Whatever values, weights and flags stand at rows and channels without a tap on the grid, grid
      and sums of weights end the same. -/
  inert : ∀ change : ℕ → ℕ → ℕ → Sample α → Sample α,
    (∀ k b, Touches vis g c map interpolation k b → ∀ p s, change k b p s = s) →
    ∀ d', deposit how (vis.resampled change) g c map sums interpolation = .ok d' →
      d'.grid = d.grid ∧ d'.sumWeights = d.sumWeights

/-- What a prediction has counted, and what it has predicted for samples outside. -/
structure PredictionAccount (vis : Visibility α nchan npol) (g : Grid α) (c : Cache α)
    (map : PlaneMap) (interpolation : Interpolation) (vis' : Visibility α nchan npol)
    (counts : Statistics) : Prop where
  /-- Each row and channel is counted once, -/
  total : counts.gridded + counts.outside = vis.rowCount * nchan
  /-- as outside if none of its taps is on the grid. -/
  outside : counts.outside = vis.count fun k b => ¬ Touches vis g c map interpolation k b
  /-- No row counts as flagged. -/
  flagged : counts.flagged = 0
  /-- There are as many rows as before, -/
  length_rows : vis'.rows.length = vis.rows.length
  /-- and a row and channel without a tap on the grid is predicted as zero. -/
  zero : ∀ k (hk : k < vis'.rows.length) b (hb : b < nchan) p (hp : p < npol),
    ¬ Touches vis g c map interpolation k b → vis'.rows[k].samples[b][p].value = 0

theorem depositAccount_of_ok (hc : c.WellFormed) {how : Contribution α} {sums : Option (Tensor α)}
    {d : Deposit α} (h : deposit how vis g c map sums interpolation = .ok d) :
    DepositAccount how vis g c map sums interpolation d := by
  classical
  obtain ⟨-, f, hframe, hrun⟩ := deposit_eq_ok.1 h
  have hplaced := outsideUnless_samplesOf hc hframe
  obtain ⟨hgridded, houtside⟩ := foldlM_counts hplaced hrun
  rw [countP_samplesOf (Touches vis g c map interpolation) fun _ => decide_eq_true_iff] at hgridded
  rw [countP_samplesOf (fun k b => ¬ Touches vis g c map interpolation k b) fun _ =>
    decide_eq_true_iff] at houtside
  have hopened : (opened vis g map sums).statistics.gridded = 0 ∧
      (opened vis g map sums).statistics.outside = 0 := ⟨rfl, rfl⟩
  have htotal := count_and_add_count_and_not vis vis.Unflagged (Touches vis g c map interpolation)
  refine ⟨by omega, by omega, ?_, fun change hsame d' h' => ?_⟩
  · rw [(deposit_counters h).1, flaggedRows]
    exact congrArg _ (List.countP_congr fun r _ => by rw [decide_eq_true_eq, Row.flagged_iff])
  · obtain ⟨-, f', hframe', hrun'⟩ := deposit_eq_ok.1 h'
    obtain rfl : f = f' := Except.ok.inj (hframe.symm.trans hframe')
    rw [samplesOf_resampled] at hrun'
    have hstart : SameSums (opened vis g map sums) (opened (vis.resampled change) g map sums) :=
      ⟨rfl, rfl⟩
    exact foldlM_resampled hplaced hsame hstart hrun hrun'

theorem predictionAccount_of_ok (hc : c.WellFormed) {vis' : Visibility α nchan npol}
    {counts : Statistics} (h : predict vis g c map interpolation = .ok (vis', counts)) :
    PredictionAccount vis g c map interpolation vis' counts := by
  classical
  obtain ⟨f, rows, hframe, hrows, rfl, rfl⟩ := exists_of_predict h
  have hplaced := placements_of_predict hc hframe hrows
  rw [foldl_countPlacement hplaced, countP_numbers (Touches vis g c map interpolation) fun _ =>
    decide_eq_true_iff, countP_numbers (fun k b => ¬ Touches vis g c map interpolation k b) fun _ =>
    decide_eq_true_iff]
  have hlength : rows.length = vis.rows.length := by rw [← hrows.length_eq, List.length_zipIdx]
  refine ⟨?_, ?_, rfl, by rw [List.length_map, hlength], fun k hk b hb p hp hout => ?_⟩
  · dsimp only
    rw [zero_add, zero_add, ← Nat.cast_add, ← Nat.cast_mul, count_add_count_not]
  · exact zero_add _
  · have hk' : k < rows.length := by simpa using hk
    obtain ⟨hr, hrow⟩ := getElem_of_predict hrows hk'
    rw [List.getElem_map]
    refine value_of_outside hrow hb hp fun placement hplace => ?_
    exact (outside_iff hc hframe (List.getElem?_eq_getElem hr) hplace).2 hout

/-- Other samples in the same rows and channels pass the checks as well. -/
theorem Ready.resampled (h : Ready vis g c map) (change : ℕ → ℕ → ℕ → Sample α → Sample α) :
    Ready (vis.resampled change) g c map := by
  have hcount : (vis.resampled change).rowCount = vis.rowCount := List.length_mapIdx
  exact ⟨h.cache, (checkFit_congr hcount g c map).trans h.checked, h.listed, h.length_frequency,
    h.nchan_pos, h.tuned, h.sized⟩

/-- The counters account for every sample, whether visibilities are gridded, their weights, or
    visibilities predicted. What passes the checks is gridded and predicted, whatever its samples,
    so that there is something to count; and the lattice points that a sample uses are, in exact
    arithmetic, those with a weight other than zero. -/
theorem counters_account (vis : Visibility α nchan npol) (g : Grid α) (c : Cache α) (map : PlaneMap)
    (interpolation : Interpolation) (hc : c.WellFormed) :
    (∀ how sums d, deposit how vis g c map sums interpolation = .ok d →
      DepositAccount how vis g c map sums interpolation d) ∧
    (∀ vis' counts, predict vis g c map interpolation = .ok (vis', counts) →
      PredictionAccount vis g c map interpolation vis' counts) ∧
    (Ready vis g c map →
      (∀ how sums, (∀ t ∈ sums, t.shape = [g.nchan, g.npol]) →
        (∃ d, deposit how vis g c map sums interpolation = .ok d) ∧
        ∀ change, ∃ d, deposit how (vis.resampled change) g c map sums interpolation = .ok d) ∧
      ∃ vis' counts, predict vis g c map interpolation = .ok (vis', counts)) ∧
    ∀ oversample, 0 < oversample → ∀ (x : ℝ) q, Uses interpolation oversample x q ↔
      ∃ w, (q, w) ∈ usedPoints interpolation oversample x ∧ w ≠ 0 := by
  refine ⟨fun _ _ _ => depositAccount_of_ok hc, fun _ _ => predictionAccount_of_ok hc,
    fun h => ⟨?_, ?_⟩, fun _ hos => uses_iff_weight_ne_zero interpolation hos⟩
  · refine fun how sums hsums => ⟨?_, fun change => ?_⟩
    · obtain ⟨d, hd, -⟩ := h.exists_deposit how interpolation hsums
      exact ⟨d, hd⟩
    · obtain ⟨d, hd, -⟩ := (h.resampled change).exists_deposit how interpolation hsums
      exact ⟨d, hd⟩
  · obtain ⟨⟨vis', counts⟩, hpredict⟩ := h.exists_predict interpolation
    exact ⟨vis', counts, hpredict⟩

end Account

/-! ## Three rows -/

/-- A row on the grid, one that is flagged and one far off the grid. -/
noncomputable def scatteredVisibility : Visibility ℝ 1 1 :=
  { quarterVisibility with rows := quarterVisibility.rows ++
    [⟨60, 0, 0, #v[#v[⟨⟨0, 1⟩, 1, false⟩]]⟩] }

theorem ready_scatteredVisibility :
    Ready scatteredVisibility smallGrid twoPhases (PlaneMap.single scatteredVisibility) where
  cache := fit_quarterVisibility.cache
  checked := by
    simp [checkFit, scatteredVisibility, quarterVisibility, smallGrid, empty, twoPhases,
      PlaneMap.single, Visibility.rowCount, Cache.planeCount, CellSize.agree?,
      CellSize.values, CellSize.close]
  listed := rfl
  length_frequency := rfl
  nchan_pos := by decide
  tuned := .inl rfl
  sized := ⟨1, 1, rfl⟩

/-- Of the rows the first two have taps on the grid. -/
theorem touches_scatteredVisibility :
    Touches scatteredVisibility smallGrid twoPhases
      (PlaneMap.single scatteredVisibility) .linear 0 0 ∧
    Touches scatteredVisibility smallGrid twoPhases
      (PlaneMap.single scatteredVisibility) .linear 1 0 ∧
    ¬ Touches scatteredVisibility smallGrid twoPhases (PlaneMap.single scatteredVisibility)
      .linear 2 0 := by
  have hlattice : smallGrid.lattice twoPhases = .ok ⟨1, 1, 3, 3, 2⟩ := rfl
  have hsupport : ∀ k,
      twoPhases.supports[((PlaneMap.single scatteredVisibility).plane k 0).toNat]? =
      some 0 := by
    intro k
    rw [plane_single]
    rfl
  have hpositionV : Lattice.positionV (⟨1, 1, 3, 3, 2⟩ : Lattice ℝ) 0 = 2 := by
    norm_num [Lattice.positionV]
  have hpositionU : ∀ u : ℝ, Lattice.positionU (⟨1, 1, 3, 3, 2⟩ : Lattice ℝ) u = (u + 1) * 2 := by
    intro u
    norm_num [Lattice.positionU]
  have hnear : ⌊((1 / 4 + 1) * 2 : ℝ)⌋ = 2 := by norm_num
  have hfar : ⌊((60 + 1) * 2 : ℝ)⌋ = 122 := by norm_num
  have htouch : ∀ k r, scatteredVisibility.rows[k]? = some r → r.u = 1 / 4 → r.v = 0 →
      Touches scatteredVisibility smallGrid twoPhases (PlaneMap.single scatteredVisibility)
        .linear k 0 := by
    intro k r hr hu hv
    refine ⟨_, r, 299792458, 0, hlattice, hr, rfl, hsupport k,
      ⟨2, .inl ?_, 1, by decide, by decide⟩, 2, .inl ?_, 1, by decide, by decide⟩
    · rw [hv, wavelengths_quarterVisibility, hpositionV]
      show _ = (lowerPoint .linear 2 (2 : ℝ)).1
      rw [lowerPoint_linear_two]
      norm_num
    · rw [hu, wavelengths_quarterVisibility, hpositionU]
      show _ = (lowerPoint .linear 2 _).1
      rw [lowerPoint_linear_two, hnear]
  refine ⟨htouch 0 _ rfl rfl rfl, htouch 1 _ rfl rfl rfl, ?_⟩
  rintro ⟨l, r, hertz, s, hl, hr, hhertz, hs, -, q, hq, i, hi, hreach⟩
  cases hl
  cases hr
  cases hhertz
  rw [hsupport] at hs
  cases hs
  rw [wavelengths_quarterVisibility] at hq
  have hpoint : q = 122 ∨ q = 123 := by
    have huses : Uses .linear 2 (Lattice.positionU (⟨1, 1, 3, 3, 2⟩ : Lattice ℝ) 60) q := hq
    rw [hpositionU, Uses, lowerPoint_linear_two, hfar] at huses
    omega
  have hcolumns : i < 3 := hi
  have hcell : cellOf 2 q ≤ i := by
    have hlow : cellOf 2 q - 0 ≤ i := hreach.1
    omega
  unfold cellOf at hcell
  omega

open scoped Classical in
theorem count_scatteredVisibility (P : ℕ → ℕ → Prop) :
    scatteredVisibility.count P =
      (if P 0 0 then 1 else 0) + (if P 1 0 then 1 else 0) + if P 2 0 then 1 else 0 := by
  have hrows : scatteredVisibility.rowCount = 3 := rfl
  rw [Visibility.count, hrows, Finset.card_filter, Finset.sum_product]
  simp only [Finset.sum_range_succ, Finset.sum_range_zero, zero_add]

theorem unflagged_scatteredVisibility : scatteredVisibility.Unflagged 0 0 ∧
    ¬ scatteredVisibility.Unflagged 1 0 ∧ scatteredVisibility.Unflagged 2 0 := by
  refine ⟨⟨by decide, by decide, 0, by decide, rfl⟩, ?_, ⟨by decide, by decide, 0, by decide, rfl⟩⟩
  rintro ⟨hk, hb, p, hp, hflag⟩
  obtain rfl : p = 0 := Nat.lt_one_iff.1 hp
  cases hflag

theorem counters_account_scattered : twoPhases.WellFormed ∧ ∃ d vis' counts,
    deposit .visibilities scatteredVisibility smallGrid twoPhases
      (PlaneMap.single scatteredVisibility) none
      .linear = .ok d ∧
    d.statistics.gridded = 1 ∧ d.statistics.outside = 1 ∧ d.statistics.flagged = 1 ∧
    predict scatteredVisibility smallGrid twoPhases (PlaneMap.single scatteredVisibility) .linear =
      .ok (vis', counts) ∧
    counts.gridded = 2 ∧ counts.outside = 1 ∧ counts.flagged = 0 := by
  classical
  have hready := ready_scatteredVisibility
  obtain ⟨hgridding, hprediction, hends, -⟩ :=
    counters_account scatteredVisibility smallGrid twoPhases
      (PlaneMap.single scatteredVisibility) .linear hready.cache
  obtain ⟨hdeposit, vis', counts, hpredict⟩ := hends hready
  obtain ⟨⟨d, hd⟩, -⟩ := hdeposit .visibilities none fun t ht => by cases ht
  have haccount := hgridding _ _ d hd
  have hpredicted := hprediction _ _ hpredict
  obtain ⟨hfirst, hsecond, hthird⟩ := touches_scatteredVisibility
  obtain ⟨hused, hflagged, hused'⟩ := unflagged_scatteredVisibility
  have htotal := haccount.total
  have houtside := haccount.outside
  have htotal' := hpredicted.total
  have houtside' := hpredicted.outside
  rw [count_scatteredVisibility] at htotal houtside houtside'
  simp only [hfirst, hsecond, hthird, hused, hused', hflagged, not_true, not_false_iff, and_true,
    and_false, if_true, if_false] at htotal houtside houtside'
  have hrows : scatteredVisibility.rowCount = 3 := rfl
  rw [hrows] at htotal'
  exact ⟨hready.cache, d, vis', counts, hd, by omega, by omega, haccount.flagged.trans rfl,
    hpredict, by omega, by omega, hpredicted.flagged⟩

end Grid

end ApertureSynthesis
