/-
  Flagged samples: what their values can change in a pass.

  Two runs over visibilities that agree except at flagged samples are compared. The mask of a flag
  is a factor zero, so a flagged value enters the sums as a product with zero wherever another
  polarisation of its row and channel is used. One step keeps the two runs together (`step_same`),
  and so do all of them (`foldlM_same`): whatever stands at flagged samples, both runs end with the
  same counters, or break off for the same reason. Grids and sums of weights are the same if what
  stands there are numbers (`deposits_same`); a value that is no number spoils them
  (`deposits_spoiled`).
-/
import Mathlib
import ApertureSynthesis.Proofs.Extended
import ApertureSynthesis.Proofs.Tensor
import ApertureSynthesis.Grid.Deposit

namespace ApertureSynthesis

variable {α : Type} {nchan npol : ℕ}

/-! ## Visibilities that agree except at flagged samples -/

/-- The flag is the same, and so is the sample if it is not set. -/
structure Sample.SameUnlessFlagged (s t : Sample α) : Prop where
  /-- The flag is the same. -/
  flagged : t.flagged = s.flagged
  /-- A sample that is not flagged is the same. -/
  eq : s.flagged = false → t = s

/-- Rows in one place whose samples agree unless they are flagged. -/
structure Row.SameUnlessFlagged (r q : Row α nchan npol) : Prop where
  /-- The coordinates are the same in u, -/
  u : q.u = r.u
  /-- in v -/
  v : q.v = r.v
  /-- and in w. -/
  w : q.w = r.w
  /-- Samples agree. -/
  samples : ∀ b (hb : b < nchan) p (hp : p < npol),
    r.samples[b][p].SameUnlessFlagged q.samples[b][p]

/-- Visibilities whose samples agree unless they are flagged. -/
structure Visibility.SameUnlessFlagged (vis vis' : Visibility α nchan npol) : Prop where
  /-- The frequencies are the same, -/
  frequency : vis'.frequency = vis.frequency
  /-- given in the same way. -/
  bare : vis'.bare = vis.bare
  /-- Rows agree. -/
  rows : List.Forall₂ Row.SameUnlessFlagged vis.rows vis'.rows

/-! ## Two runs -/

namespace Grid

/-- Two states of a pass with the same counters, and equal under condition `P`. -/
structure Same (P : Prop) (d d' : Deposit α) : Prop where
  /-- The same samples were counted. -/
  statistics : d'.statistics = d.statistics
  /-- The sums of weights have the same axes. -/
  shape : d'.sumWeights.shape = d.sumWeights.shape
  /-- Under the condition there is no difference. -/
  eq : P → d' = d

theorem Same.refl (P : Prop) (d : Deposit α) : Same P d d := ⟨rfl, rfl, fun _ => rfl⟩

/-- Two passes that ended both, or were broken off both for the same reason, in states with the same
    counters that are equal under condition `P`. -/
inductive SameOutcome (P : Prop) :
    Except (Interrupted α) (Deposit α) → Except (Interrupted α) (Deposit α) → Prop where
  /-- Both ended. -/
  | ok {d d' : Deposit α} (h : Same P d d') : SameOutcome P (.ok d) (.ok d')
  /-- Both were broken off. -/
  | error (fault : Fault α) {d d' : Deposit α} (h : Same P d d') :
      SameOutcome P (.error ⟨fault, d⟩) (.error ⟨fault, d'⟩)

section Outcome

variable {P : Prop}

theorem SameOutcome.eq {x y : Except (Interrupted α) (Deposit α)} (h : SameOutcome P x y) (hP : P) :
    y = x := by
  cases h with
  | ok h => rw [h.eq hP]
  | error fault h => rw [h.eq hP]

theorem SameOutcome.bind {x y : Except (Interrupted α) (Deposit α)} (h : SameOutcome P x y)
    {f f' : Deposit α → Except (Interrupted α) (Deposit α)}
    (hf : ∀ d d', Same P d d' → SameOutcome P (f d) (f' d')) :
    SameOutcome P (x >>= f) (y >>= f') := by
  cases h with
  | ok h => exact hf _ _ h
  | error fault h => exact .error fault h

end Outcome

end Grid

variable [Scalar α]

/-! ## Samples that match -/

/-- What a pass takes from two samples is the same. -/
def Sample.SameMasked (s t : Sample α) : Prop :=
  t.flaggedWeight = s.flaggedWeight ∧ t.weightedValue = s.weightedValue

/-- Samples of a row and channel with the same flags; what a pass takes from them is the same under
    condition `P`, if it takes any. -/
def SamplesMatch (P : Prop) (ps qs : Vector (Sample α) npol) : Prop :=
  List.Forall₂ (fun s t => t.flagged = s.flagged ∧
    (P → Row.channelFlagged ps = false → s.SameMasked t)) ps.toList qs.toList

/-- Rows in one place on the grid whose samples match channel by channel. -/
structure RowsMatch (P : Prop) (r q : Row α nchan npol) : Prop where
  /-- The coordinates are the same in u -/
  u : q.u = r.u
  /-- and in v. -/
  v : q.v = r.v
  /-- Samples match. -/
  samples : List.Forall₂ (SamplesMatch P) r.samples.toList q.samples.toList

section Matching

variable {P : Prop}

theorem map_eq_of_forall₂ {β γ : Type} {R : β → β → Prop} {f : β → γ} {xs ys : List β}
    (h : List.Forall₂ R xs ys) (hf : ∀ x y, R x y → f y = f x) : ys.map f = xs.map f := by
  induction h with
  | nil => rfl
  | cons hxy _ ih => rw [List.map_cons, List.map_cons, hf _ _ hxy, ih]

theorem all_eq_of_forall₂ {β : Type} {R : β → β → Prop} {p : β → Bool} {xs ys : List β}
    (h : List.Forall₂ R xs ys) (hp : ∀ x y, R x y → p y = p x) : ys.all p = xs.all p := by
  have hall : (ys.map p).all id = (xs.map p).all id := by rw [map_eq_of_forall₂ h hp]
  rwa [List.all_map, List.all_map] at hall

theorem SamplesMatch.channelFlagged {ps qs : Vector (Sample α) npol} (h : SamplesMatch P ps qs) :
    Row.channelFlagged qs = Row.channelFlagged ps := all_eq_of_forall₂ h fun _ _ hst => hst.1

theorem RowsMatch.flagged {r q : Row α nchan npol} (h : RowsMatch P r q) : q.flagged = r.flagged :=
  all_eq_of_forall₂ h.samples fun _ _ hst => hst.channelFlagged

/-- Entries with one number in lists that match. -/
theorem forall₂_zipIdx {β γ : Type} {R : β → γ → Prop} {xs : List β} {ys : List γ}
    (h : List.Forall₂ R xs ys) (n : ℕ) :
    List.Forall₂ (fun x y => R x.1 y.1 ∧ y.2 = x.2) (xs.zipIdx n) (ys.zipIdx n) := by
  induction h generalizing n with
  | nil => exact List.Forall₂.nil
  | cons hxy _ ih =>
    rw [List.zipIdx_cons, List.zipIdx_cons]
    exact List.Forall₂.cons ⟨hxy, rfl⟩ (ih (n + 1))

end Matching

namespace Grid

/-! ## Steps and runs -/

section Runs

variable {P : Prop} {how : Contribution α}

/-- A contribution takes from a sample only what its flag leaves. -/
structure Contribution.ByMask (how : Contribution α) : Prop where
  /-- Cells -/
  cell : ∀ s t : Sample α, s.SameMasked t → ∀ tap, how.cell tap t = how.cell tap s
  /-- and sums of weights. -/
  weight : ∀ s t : Sample α, s.SameMasked t → ∀ total, how.weight total t = how.weight total s

theorem byMask_visibilities : (Contribution.visibilities : Contribution α).ByMask where
  cell s t h tap := by
    show tap.conj * t.weightedValue = tap.conj * s.weightedValue
    rw [h.2]
  weight s t h total := by
    show t.flaggedWeight * _ = s.flaggedWeight * _
    rw [h.1]

theorem byMask_weights : (Contribution.weights : Contribution α).ByMask where
  cell s t h tap := by
    show Cplx.ofReal (tap.re * t.flaggedWeight) = Cplx.ofReal (tap.re * s.flaggedWeight)
    rw [h.1]
  weight _ _ h _ := h.1

/-- Taps are added for what a contribution makes of each sample. -/
theorem addTaps_eq_of_map (channel : ℕ) (taps : List (Tap α)) (samples : List (Sample α))
    (g : Grid α) :
    addTaps how channel taps samples g =
      (samples.map fun s tap => how.cell tap s).zipIdx.foldl
        (fun g x => taps.foldl (fun g t => g.addAt channel x.2 t.j t.i (x.1 t.value)) g) g := by
  rw [List.zipIdx_map, List.foldl_map]
  rfl

/-- The sums grow by lists of values of one length: the same fault, or sums with the axes that they
    had. -/
theorem addWeights_same {sums sums' : Tensor α} (hshape : sums'.shape = sums.shape) (channel : ℕ)
    (values values' : List α) (hlen : values'.length = values.length) :
    (∃ fault, addWeights sums channel values = .error fault ∧
      addWeights sums' channel values' = .error fault) ∨
    ∃ t t', addWeights sums channel values = .ok t ∧ addWeights sums' channel values' = .ok t' ∧
      t'.shape = t.shape := by
  unfold addWeights
  rw [hshape, hlen]
  split
  · dsimp only
    split_ifs
    · exact .inl ⟨_, rfl, rfl⟩
    · exact .inl ⟨_, rfl, rfl⟩
    · refine .inr ⟨_, _, rfl, rfl, ?_⟩
      rw [Tensor.shape_foldl fun t _ => Tensor.shape_modifyAt t _ _,
        Tensor.shape_foldl fun t _ => Tensor.shape_modifyAt t _ _, hshape]
  · exact .inl ⟨_, rfl, rfl⟩

theorem addSample_same (hm : how.ByMask) (placement : Placement α) {ss ts : List (Sample α)}
    (hlen : ts.length = ss.length) (h : P → List.Forall₂ Sample.SameMasked ss ts) {d d' : Deposit α}
    (hd : Same P d d') :
    SameOutcome P (addSample how placement ss d) (addSample how placement ts d') := by
  cases placement with
  | outside =>
    refine .ok ⟨?_, hd.shape, fun hP => by rw [hd.eq hP]⟩
    rw [hd.statistics]
  | inside channel runs =>
    have hequal : P → addSample how (.inside channel runs) ts d' =
        addSample how (.inside channel runs) ss d := by
      intro hP
      have hcells : (ts.map fun s tap => how.cell tap s) = ss.map fun s tap => how.cell tap s :=
        map_eq_of_forall₂ (h hP) fun s t hst => funext fun tap => hm.cell s t hst tap
      have hweights : ts.map (how.weight (tapTotal runs.flatten)) =
          ss.map (how.weight (tapTotal runs.flatten)) :=
        map_eq_of_forall₂ (h hP) fun s t hst => hm.weight s t hst _
      simp only [addSample, addTaps_eq_of_map, hd.eq hP, hcells, hweights]
    obtain ⟨fault, hs, hs'⟩ | ⟨t, t', hs, hs', hshape⟩ := addWeights_same hd.shape channel
      (ss.map (how.weight (tapTotal runs.flatten))) (ts.map (how.weight (tapTotal runs.flatten)))
      (by rw [List.length_map, List.length_map, hlen])
    · simp only [addSample, hs, hs'] at hequal ⊢
      refine .error fault ⟨?_, hd.shape, fun hP => ?_⟩
      · dsimp only
        rw [hd.statistics]
      · exact congrArg Interrupted.reached (Except.error.inj (hequal hP))
    · simp only [addSample, hs, hs'] at hequal ⊢
      refine .ok ⟨?_, hshape, fun hP => Except.ok.inj (hequal hP)⟩
      dsimp only
      rw [hd.statistics]

/-- Where a row and channel goes depends on its coordinates only. -/
theorem place_congr (f : Frame α) (k b : ℕ) {r q : Row α nchan npol} (hu : q.u = r.u)
    (hv : q.v = r.v) :
    f.place k q b = f.place k r b := by
  unfold Frame.place
  rw [hu, hv]

/-- A step keeps two runs together. -/
theorem step_same (hm : how.ByMask) (f : Frame α) (k b : ℕ) {r q : Row α nchan npol}
    (hu : q.u = r.u) (hv : q.v = r.v) {ps qs : Vector (Sample α) npol} (h : SamplesMatch P ps qs)
    {d d' : Deposit α} (hd : Same P d d') :
    SameOutcome P (step how f d (k, r, b, ps)) (step how f d' (k, q, b, qs)) := by
  simp only [step, h.channelFlagged, place_congr f k b hu hv]
  by_cases hall : Row.channelFlagged ps = true
  · rw [if_pos hall, if_pos hall]
    exact .ok hd
  · rw [if_neg hall, if_neg hall]
    cases f.place k r b with
    | error fault => exact .error fault hd
    | ok placement =>
      have hnot : Row.channelFlagged ps = false := Bool.not_eq_true _ ▸ hall
      refine addSample_same hm placement (by simp) (fun hP => ?_) hd
      exact List.Forall₂.imp (fun _ _ hst => hst.2 hP hnot) h

/-- Rows that match, one after the other, keep two runs together. -/
theorem foldlM_same (hm : how.ByMask) (f : Frame α)
    {xs ys : List (ℕ × Row α nchan npol × ℕ × Vector (Sample α) npol)}
    (h : List.Forall₂ (fun x y => y.1 = x.1 ∧ y.2.1.u = x.2.1.u ∧ y.2.1.v = x.2.1.v ∧
      y.2.2.1 = x.2.2.1 ∧
      SamplesMatch P x.2.2.2 y.2.2.2) xs ys) {d d' : Deposit α} (hd : Same P d d') :
    SameOutcome P (xs.foldlM (step how f) d) (ys.foldlM (step how f) d') := by
  induction h generalizing d d' with
  | nil => exact .ok hd
  | @cons x y xs ys hxy _ ih =>
    obtain ⟨k, r, b, ps⟩ := x
    obtain ⟨k', q, b', qs⟩ := y
    obtain ⟨rfl, hu, hv, rfl, hmatch⟩ := hxy
    rw [List.foldlM_cons, List.foldlM_cons]
    exact (step_same hm f _ _ hu hv hmatch hd).bind fun _ _ hnext => ih hnext

theorem samplesOf_match {vis vis' : Visibility α nchan npol}
    (h : List.Forall₂ (RowsMatch P) vis.rows vis'.rows) :
    List.Forall₂ (fun x y => y.1 = x.1 ∧ y.2.1.u = x.2.1.u ∧ y.2.1.v = x.2.1.v ∧
      y.2.2.1 = x.2.2.1 ∧ SamplesMatch P x.2.2.2 y.2.2.2) (samplesOf vis) (samplesOf vis') := by
  refine List.rel_flatMap (forall₂_zipIdx h 0) ?_
  rintro ⟨r, k⟩ ⟨q, k'⟩ ⟨hrow, rfl⟩
  refine List.rel_map ?_ (forall₂_zipIdx hrow.samples 0)
  rintro ⟨ps, b⟩ ⟨qs, b'⟩ ⟨hsamples, rfl⟩
  exact ⟨rfl, hrow.u, hrow.v, rfl, hsamples⟩

/-- A pass over visibilities that match. -/
theorem deposit_same (hm : how.ByMask) {vis vis' : Visibility α nchan npol}
    (hfrequency : vis'.frequency = vis.frequency) (hbare : vis'.bare = vis.bare)
    (h : List.Forall₂ (RowsMatch P) vis.rows vis'.rows) (g : Grid α) (c : Cache α) (map : PlaneMap)
    (sums : Option (Tensor α)) (interpolation : Interpolation) :
    SameOutcome P (deposit how vis g c map sums interpolation)
      (deposit how vis' g c map sums interpolation) := by
  have hcount : vis'.rowCount = vis.rowCount := h.length_eq.symm
  have hcheck : checkFit vis' g c map = checkFit vis g c map := by
    unfold checkFit
    rw [hcount]
  have hspectrum : vis'.spectrum = vis.spectrum := by
    unfold Visibility.spectrum
    rw [hbare, hfrequency]
  have hframe : frame vis' g c map interpolation = frame vis g c map interpolation := by
    unfold frame Grid.channelsOf
    rw [hspectrum]
  have hflagged : flaggedRows vis' = flaggedRows vis := by
    have hcounts : (vis'.rows.map Row.flagged).countP id =
        (vis.rows.map Row.flagged).countP id := by
      rw [map_eq_of_forall₂ h fun _ _ hrow => hrow.flagged]
    rwa [List.countP_map, List.countP_map] at hcounts
  simp only [deposit, hcheck, hframe, hflagged]
  cases checkFit vis g c map with
  | error fault => exact .error fault (Same.refl P _)
  | ok _ =>
    cases frame vis g c map interpolation with
    | error fault => exact .error fault (Same.refl P _)
    | ok f => exact foldlM_same hm f (samplesOf_match h) (Same.refl P _)

end Runs

end Grid

/-! ## Numbers and what is none -/

/-- Flagged samples are numbers wherever another polarisation of their row and channel is used. -/
def Visibility.NumbersWhereUsed (vis : Visibility Extended nchan npol) : Prop :=
  ∀ r ∈ vis.rows, ∀ b (hb : b < nchan), Row.channelFlagged r.samples[b] = false →
    ∀ p (hp : p < npol), r.samples[b][p].flagged = true →
      r.samples[b][p].weight.IsNumber ∧ r.samples[b][p].value.re.IsNumber ∧
        r.samples[b][p].value.im.IsNumber

/-- The mask makes zero of a number. -/
theorem Sample.masked_eq_zero {s : Sample Extended} (hflag : s.flagged = true)
    (hweight : s.weight.IsNumber) (hre : s.value.re.IsNumber) (him : s.value.im.IsNumber) :
    s.flaggedWeight = 0 ∧ s.weightedValue = 0 := by
  have hw : s.flaggedWeight = 0 := by
    rw [Sample.flaggedWeight, Sample.mask, if_pos hflag, Extended.mul_zero_of_isNumber hweight]
  refine ⟨hw, ?_⟩
  rw [Sample.weightedValue, hw]
  apply Cplx.ext
  · rw [Cplx.mul_re, Cplx.ofReal_re, Cplx.ofReal_im, Extended.mul_zero_of_isNumber hre,
      Extended.mul_zero_of_isNumber him, Extended.zero_def, Extended.sub_number, sub_zero]
    rfl
  · rw [Cplx.mul_im, Cplx.ofReal_re, Cplx.ofReal_im, Extended.mul_zero_of_isNumber hre,
      Extended.mul_zero_of_isNumber him, Extended.zero_def, Extended.add_number, add_zero]
    rfl

/-- Visibilities that agree except at flagged samples match, where these are numbers. -/
theorem Visibility.SameUnlessFlagged.rowsMatch {vis vis' : Visibility Extended nchan npol}
    (h : vis.SameUnlessFlagged vis') :
    List.Forall₂ (RowsMatch (vis.NumbersWhereUsed ∧ vis'.NumbersWhereUsed)) vis.rows vis'.rows := by
  obtain ⟨hlen, hrows⟩ := List.forall₂_iff_get.1 h.rows
  refine List.forall₂_iff_get.2 ⟨hlen, fun k hk hk' => ⟨(hrows k hk hk').u, (hrows k hk hk').v, ?_⟩⟩
  have hsame := (hrows k hk hk').samples
  have hr := List.get_mem vis.rows ⟨k, hk⟩
  have hq := List.get_mem vis'.rows ⟨k, hk'⟩
  generalize vis.rows.get ⟨k, hk⟩ = r at hsame hr ⊢
  generalize vis'.rows.get ⟨k, hk'⟩ = q at hsame hq ⊢
  refine List.forall₂_iff_get.2 ⟨by simp, fun b hb _ => ?_⟩
  have hb' : b < nchan := by simpa using hb
  have hflags : Row.channelFlagged q.samples[b] = Row.channelFlagged r.samples[b] := by
    have hmatch : SamplesMatch False r.samples[b] q.samples[b] :=
      List.forall₂_iff_get.2 ⟨by simp, fun p hp _ =>
        ⟨by simpa using (hsame b hb' p (by simpa using hp)).flagged, False.elim⟩⟩
    exact hmatch.channelFlagged
  refine List.forall₂_iff_get.2 ⟨by simp, fun p hp _ => ?_⟩
  have hp' : p < npol := by simpa using hp
  have hsample := hsame b hb' p hp'
  simp only [List.get_eq_getElem, Vector.getElem_toList]
  refine ⟨hsample.flagged, fun ⟨hnumbers, hnumbers'⟩ hused => ?_⟩
  by_cases hflag : r.samples[b][p].flagged = true
  · -- flagged, but numbers: the mask makes zero of both
    have hused' : Row.channelFlagged q.samples[b] = false := hflags.trans hused
    have hflag' : q.samples[b][p].flagged = true := hsample.flagged.trans hflag
    obtain ⟨hw, hre, him⟩ := hnumbers r hr b hb' hused p hp' hflag
    obtain ⟨hw', hre', him'⟩ := hnumbers' q hq b hb' hused' p hp' hflag'
    obtain ⟨hweight, hvalue⟩ := Sample.masked_eq_zero hflag hw hre him
    obtain ⟨hweight', hvalue'⟩ := Sample.masked_eq_zero hflag' hw' hre' him'
    exact ⟨hweight'.trans hweight.symm, hvalue'.trans hvalue.symm⟩
  · have heq := hsample.eq (Bool.not_eq_true _ ▸ hflag)
    rw [heq]
    exact ⟨rfl, rfl⟩

namespace Grid

/-- Whatever stands at flagged samples, passes over visibilities and over their weights end with the
    same counters, or break off for the same reason; and nothing at all depends on it, if what
    stands at flagged samples are numbers wherever another polarisation is used. -/
theorem deposits_same {vis vis' : Visibility Extended nchan npol} (h : vis.SameUnlessFlagged vis')
    (g : Grid Extended) (c : Cache Extended) (map : PlaneMap) (sums : Option (Tensor Extended))
    (interpolation : Interpolation) :
    SameOutcome (vis.NumbersWhereUsed ∧ vis'.NumbersWhereUsed)
        (addVisibilities vis g c map sums interpolation)
        (addVisibilities vis' g c map sums interpolation) ∧
      SameOutcome (vis.NumbersWhereUsed ∧ vis'.NumbersWhereUsed)
        (addWeightsOf vis g c map sums interpolation)
        (addWeightsOf vis' g c map sums interpolation) :=
  ⟨deposit_same byMask_visibilities h.frequency h.bare h.rowsMatch g c map sums interpolation,
    deposit_same byMask_weights h.frequency h.bare h.rowsMatch g c map sums interpolation⟩

/-! ## A flagged polarisation beside one that is used -/

/-- A row at the centre with two polarisations of weight one and `weight`, the second one
    flagged. -/
noncomputable def pairVisibility (weight : Extended) : Visibility Extended 1 2 where
  rows := [⟨0, 0, 0, #v[#v[⟨1, 1, false⟩, ⟨1, weight, true⟩]]⟩]
  frequency := [1]
  bare := false
  phaseCentre := none

/-- One cell of one wavelength for each polarisation. -/
noncomputable def pairGrid : Grid Extended := empty 1 2 1 1 (.single 1) none

/-- One plane of one tap. -/
noncomputable def oneTap : Cache Extended where
  planes := [Tensor.fill [1, 1, 1, 1] 1]
  supports := [0]
  planeValues := [0]
  oversample := 1
  cutoff := 1
  zeroW := Tensor.fill [1, 1, 1, 1] 1
  cellSize := .single 1
  name := "box"

/-- The only plane for its row. -/
noncomputable def onePlane : PlaneMap := PlaneMap.single (pairVisibility 0)

theorem sameUnlessFlagged_pairVisibility (x y : Extended) :
    (pairVisibility x).SameUnlessFlagged (pairVisibility y) where
  frequency := rfl
  bare := rfl
  rows := by
    refine List.Forall₂.cons ⟨rfl, rfl, rfl, fun b hb p hp => ?_⟩ List.Forall₂.nil
    obtain rfl : b = 0 := by omega
    interval_cases p
    · exact ⟨rfl, fun _ => rfl⟩
    · exact ⟨rfl, fun hflag => by cases hflag⟩

theorem numbersWhereUsed_pairVisibility (x : ℝ) :
    (pairVisibility (.number x)).NumbersWhereUsed := by
  intro r hr b hb _ p hp hflag
  obtain rfl := List.mem_singleton.1 hr
  obtain rfl : b = 0 := by omega
  interval_cases p
  · cases hflag
  · exact ⟨⟨x, rfl⟩, ⟨1, rfl⟩, ⟨0, rfl⟩⟩

theorem deposits_same_pairVisibility :
    (pairVisibility 0).SameUnlessFlagged (pairVisibility (.number 5)) ∧
    addVisibilities (pairVisibility (.number 5)) pairGrid oneTap onePlane none .linear =
      addVisibilities (pairVisibility 0) pairGrid oneTap onePlane none .linear ∧
    addWeightsOf (pairVisibility (.number 5)) pairGrid oneTap onePlane none .linear =
      addWeightsOf (pairVisibility 0) pairGrid oneTap onePlane none .linear := by
  have hsame := sameUnlessFlagged_pairVisibility 0 (.number 5)
  have hnumbers := And.intro (numbersWhereUsed_pairVisibility 0) (numbersWhereUsed_pairVisibility 5)
  obtain ⟨hvisibilities, hweights⟩ := deposits_same hsame pairGrid oneTap onePlane none .linear
  exact ⟨hsame, hvisibilities.eq hnumbers, hweights.eq hnumbers⟩

theorem wavelengths_zero_one : Visibility.wavelengths (0 : Extended) 1 = 0 := by
  have hlight : (299792458.0 : Extended) = .number 299792458.0 := rfl
  unfold Visibility.wavelengths Scalar.lightSpeed
  rw [hlight, Extended.zero_def, Extended.one_def, Extended.div_number _ (by norm_num),
    Extended.mul_number, zero_mul]

theorem roundInt_zero : Scalar.roundInt (0 : Extended) = 0 := by
  have hfloor : Scalar.floor (0 : Extended) = 0 := by
    rw [Extended.zero_def, Extended.floor_number, Int.floor_zero, Int.cast_zero]
  have hrest : (0 : Extended) - 0 < 0.5 := by
    have hhalf : (0.5 : Extended) = .number 0.5 := rfl
    rw [hhalf, Extended.zero_def, Extended.sub_number, Extended.lt_number]
    norm_num
  have hround : Scalar.round (0 : Extended) = 0 := by
    unfold Scalar.round
    simp only [hfloor]
    rw [if_pos hrest]
  rw [Scalar.roundInt, hround]
  exact Int.floor_zero

theorem axisPoints_zero : axisPoints .linear 1 (0 : Extended) = (⟨0, 0, 1⟩, []) := by
  unfold axisPoints lowerPoint
  rw [if_pos (.inr rfl), roundInt_zero]
  dsimp only
  rw [if_pos (by rw [Extended.zero_def, Extended.beq_number, beq_self_eq_true])]
  rfl

/-- The lattice of one cell. -/
noncomputable def oneCell : Lattice Extended := ⟨1, 1, 1, 1, 1⟩

theorem position_zero : oneCell.positionU 0 = 0 ∧ oneCell.positionV 0 = 0 := by
  have hposition : ((0 : Extended) / 1 + ((1 / 2 : ℕ) : Extended)) * ((1 : ℕ) : Extended) = 0 := by
    rw [Extended.natCast_def, Extended.natCast_def, Extended.zero_def, Extended.one_def,
      Extended.div_number _ one_ne_zero, Extended.add_number, Extended.mul_number]
    norm_num
  exact ⟨hposition, hposition⟩

theorem checkFit_pairVisibility (x : Extended) :
    checkFit (pairVisibility x) pairGrid oneTap onePlane = .ok () := by
  have hclose : CellSize.close (1 : Extended) 1 = true := by
    rw [CellSize.close, Extended.one_def, Extended.beq_number, beq_self_eq_true, Bool.or_true]
  have hagree : pairGrid.cellSize.agree? oneTap.cellSize = some true := by
    show some ([1].all (CellSize.close (1 : Extended))) = some true
    rw [List.all_cons, hclose]
    rfl
  unfold checkFit
  rw [hagree]
  rfl

theorem frame_pairVisibility (x : Extended) :
    frame (pairVisibility x) pairGrid oneTap onePlane .linear =
      .ok ⟨oneTap, onePlane, .linear, oneCell, 1, [1], [0]⟩ := rfl

/-- The samples of its row. -/
noncomputable def pairSamples (weight : Extended) : Vector (Sample Extended) 2 :=
  #v[⟨1, 1, false⟩, ⟨1, weight, true⟩]

theorem samplesOf_pairVisibility (x : Extended) :
    samplesOf (pairVisibility x) = [(0, ⟨0, 0, 0, #v[pairSamples x]⟩, 0, pairSamples x)] := rfl

/-- The only tap goes to the only cell. -/
theorem place_pairVisibility (x : Extended) :
    (⟨oneTap, onePlane, .linear, oneCell, 1, [1], [0]⟩ : Frame Extended).place 0
      (⟨0, 0, 0, #v[pairSamples x]⟩ : Row Extended 1 2) 0 = .ok (.inside 0 [[⟨0, 0, 1⟩]]) := by
  have hplane : (onePlane.plane 0 0).toNat = 0 := rfl
  have htable : oneTap.planes[0]? = some (Tensor.fill [1, 1, 1, 1] 1) := rfl
  have hsupport : oneTap.supports[0]? = some 0 := rfl
  have hphases : oneCell.oversample = 1 := rfl
  unfold Frame.place
  simp only [hplane, htable, hsupport, hphases, List.getElem?_cons_zero, wavelengths_zero_one,
    position_zero, axisPoints_zero]
  rfl

/-- The flagged polarisation gives its cell and its sum of weights what the contribution makes of
    it. -/
theorem deposit_pairVisibility (how : Contribution Extended) (x : Extended) :
    ∃ d, deposit how (pairVisibility x) pairGrid oneTap onePlane none .linear = .ok d ∧
      d.grid.get 0 1 0 0 = 0 + how.cell 1 ⟨1, x, true⟩ ∧
      d.sumWeights.get [0, 1] = 0 + how.weight (0 + 1) ⟨1, x, true⟩ := by
  unfold deposit
  simp only [checkFit_pairVisibility, frame_pairVisibility, samplesOf_pairVisibility,
    List.foldlM_cons, List.foldlM_nil, step, place_pairVisibility]
  exact ⟨_, rfl, rfl, rfl⟩

/-- A flagged weight that is not a number spoils the sums of its polarisation, in a pass over
    visibilities and in one over weights. -/
theorem deposits_spoiled :
    (pairVisibility 0).SameUnlessFlagged (pairVisibility .nan) ∧
    (∃ d d', addVisibilities (pairVisibility 0) pairGrid oneTap onePlane none .linear = .ok d ∧
      addVisibilities (pairVisibility .nan) pairGrid oneTap onePlane none .linear = .ok d' ∧
      (d.grid.get 0 1 0 0).re = 0 ∧ (d'.grid.get 0 1 0 0).re = .nan ∧
      d.sumWeights.get [0, 1] = 0 ∧ d'.sumWeights.get [0, 1] = .nan) ∧
    ∃ d d', addWeightsOf (pairVisibility 0) pairGrid oneTap onePlane none .linear = .ok d ∧
      addWeightsOf (pairVisibility .nan) pairGrid oneTap onePlane none .linear = .ok d' ∧
      (d.grid.get 0 1 0 0).re = 0 ∧ (d'.grid.get 0 1 0 0).re = .nan ∧
      d.sumWeights.get [0, 1] = 0 ∧ d'.sumWeights.get [0, 1] = .nan := by
  obtain ⟨d₁, hd₁, hcell₁, hsum₁⟩ := deposit_pairVisibility .visibilities 0
  obtain ⟨d₂, hd₂, hcell₂, hsum₂⟩ := deposit_pairVisibility .visibilities .nan
  obtain ⟨d₃, hd₃, hcell₃, hsum₃⟩ := deposit_pairVisibility .weights 0
  obtain ⟨d₄, hd₄, hcell₄, hsum₄⟩ := deposit_pairVisibility .weights .nan
  refine ⟨sameUnlessFlagged_pairVisibility 0 .nan, ⟨d₁, d₂, hd₁, hd₂, ?_, ?_, ?_, ?_⟩,
    d₃, d₄, hd₃, hd₄, ?_, ?_, ?_, ?_⟩
  · rw [hcell₁]
    simp [Contribution.visibilities, Sample.weightedValue, Sample.flaggedWeight, Sample.mask,
      Extended.zero_def, Extended.one_def]
  · rw [hcell₂]
    rfl
  · rw [hsum₁]
    show Extended.number (0 + 0 * 0 * _) = .number 0
    rw [zero_mul, zero_mul, add_zero]
  · rw [hsum₂]
    rfl
  · rw [hcell₃]
    simp [Contribution.weights, Sample.flaggedWeight, Sample.mask, Extended.zero_def,
      Extended.one_def]
  · rw [hcell₄]
    rfl
  · rw [hsum₃]
    simp [Contribution.weights, Sample.flaggedWeight, Sample.mask, Extended.zero_def]
  · rw [hsum₄]
    rfl

end Grid

end ApertureSynthesis
