/-
  What gridding that is refused leaves of the grid and of the sums of weights.

  The checks come before the first sample, so a refusal by one of them leaves everything as it was.
  A fault at a later sample would leave what the samples before it had added. `Trusted` collects
  what the checks do not look at and what a sample can fail by: the tables of the cache, a frequency
  for each channel, no more frequencies of the grid than it has channels, and sums of weights that
  serve its channels and polarisations. Where these hold, no sample fails (`Trusted.exists_run`), so
  that a refusal leaves grid and sums untouched, in any arithmetic and for any spelling of the
  interpolation (`refused_untouched`). Where they do not, gridding is broken off halfway
  (`broken_off_pairVisibility`).
-/
import Mathlib
import ApertureSynthesis.Proofs.Grid.Flagged
import ApertureSynthesis.Proofs.Grid.Gridding
import ApertureSynthesis.Proofs.Grid.Safety
import ApertureSynthesis.Proofs.Kernel.Variant
import ApertureSynthesis.Session.Gridding

namespace ApertureSynthesis.Grid

variable {α : Type} [Scalar α] {nchan npol : ℕ} {vis : Visibility α nchan npol} {g : Grid α}
  {c : Cache α} {map : PlaneMap} {sums : Option (Tensor α)} {interpolation : Interpolation}

/-! ## What is not checked -/

/-- What gridding relies on and does not check before the first sample. -/
structure Trusted (vis : Visibility α nchan npol) (g : Grid α) (c : Cache α)
    (sums : Option (Tensor α)) :
    Prop where
  /-- The tables of the cache have their shapes. -/
  cache : c.WellFormed
  /-- The visibilities have a frequency for each channel. -/
  tuned : nchan ≤ vis.frequency.length
  /-- The grid has a channel for each of its frequencies. -/
  channels : g.nchan = 1 ∨ ∀ fs ∈ g.frequency, fs.length ≤ g.nchan
  /-- The sums of weights, if they are given, serve the grid. -/
  sums : ∀ t ∈ sums, Serves t g.nchan g.npol

namespace Trusted

/-- Each channel of the visibilities has a channel of the grid, one that there is. -/
theorem channelsOf_lt (h : Trusted vis g c sums) {channels : List ℕ}
    (hchannels : g.channelsOf vis = .ok channels) :
    nchan ≤ channels.length ∧ ∀ channel ∈ channels, channel < g.nchan := by
  unfold channelsOf at hchannels
  by_cases hone : g.nchan = 1
  · rw [if_pos hone] at hchannels
    cases hchannels
    refine ⟨List.length_replicate.ge, fun channel hmem => ?_⟩
    rw [List.eq_of_mem_replicate hmem, hone]
    exact Nat.one_pos
  · have hlength := h.channels.resolve_left hone
    rw [if_neg hone, Visibility.spectrum] at hchannels
    split at hchannels
    · cases hchannels
    · cases hfs : g.frequency with
      | none =>
        rw [hfs] at hchannels
        cases hchannels
      | some fs =>
        rw [hfs] at hchannels
        cases fs with
        | nil => cases hchannels
        | cons f rest =>
          cases hchannels
          refine ⟨by rw [List.length_map]; exact h.tuned, fun channel hmem => ?_⟩
          obtain ⟨hertz, -, rfl⟩ := List.mem_map.1 hmem
          exact (nearest?_lt (List.cons_ne_nil f rest) hertz).trans_le (hlength _ hfs)

/-- Past the checks every row and channel is placed. -/
theorem exists_placed (h : Trusted vis g c sums) (hcheck : checkFit vis g c map = .ok ())
    {f : Frame α} (hframe : frame vis g c map interpolation = .ok f) {k b : ℕ}
    (hk : k < vis.rows.length) (hb : b < nchan) :
    ∃ hertz channel plane s F, f.Placed k vis.rows[k] b hertz channel plane s F ∧
      channel < g.nchan := by
  obtain ⟨lattice, channels, hlattice, hchannels, rfl⟩ := exists_of_frame hframe
  obtain ⟨hlength, hlt⟩ := h.channelsOf_lt hchannels
  obtain ⟨-, hplanes, hcount⟩ := matches_of_checkFit hcheck
  have hos := (axes_of_lattice hlattice).2.2
  have hwithin := PlaneMap.plane_within hplanes hk hb
  rw [hcount] at hwithin
  obtain ⟨plane, s, hplane, hs, hshape⟩ := h.cache.exists_plane hwithin
  rw [← hos] at hshape
  have hfrequency : b < vis.frequency.length := hb.trans_le h.tuned
  have hchannel : b < channels.length := hb.trans_le hlength
  have hchannel' := hlt _ (List.getElem_mem hchannel)
  exact ⟨_, _, plane, s, _, Frame.placed_of_found vis.rows[k] (List.getElem?_eq_getElem hfrequency)
    (List.getElem?_eq_getElem hchannel) hchannel' hwithin hplane hs
    (hos ▸ h.cache.1) hshape, hchannel'⟩

/-- Past the checks no sample fails. -/
theorem exists_run (h : Trusted vis g c sums) (how : Contribution α)
    (hcheck : checkFit vis g c map = .ok ()) {f : Frame α}
    (hframe : frame vis g c map interpolation = .ok f) (start : Deposit α)
    (hstart : Serves start.sumWeights g.nchan g.npol) :
    ∃ d, (samplesOf vis).foldlM (step how f) start = .ok d := by
  have hnpol := (matches_of_checkFit hcheck).1
  -- each sample keeps the shape of the sums, and they go on serving the grid
  suffices hrun : ∃ d, (samplesOf vis).foldlM (step how f) start = .ok d ∧
      Serves d.sumWeights g.nchan g.npol by
    obtain ⟨d, hd, -⟩ := hrun
    exact ⟨d, hd⟩
  refine exists_foldlM (P := fun d : Deposit α => Serves d.sumWeights g.nchan g.npol) ?_ hstart
  rintro ⟨k, r, b, ps⟩ hsample d hserves
  obtain ⟨hk, rfl, hb⟩ := mem_samplesOf hsample
  simp only [step]
  split
  · exact ⟨d, rfl, hserves⟩
  · obtain ⟨hertz, channel, plane, s, F, hF, hchannel⟩ := h.exists_placed hcheck hframe hk hb
    have hlen : ps.toList.length = g.npol := by rw [Vector.length_toList, hnpol]
    rw [← hlen] at hserves
    obtain ⟨d', hd', -, hshape⟩ := exists_addSample how hserves F hchannel f.lattice.ny f.lattice.nx
    rw [hlen] at hserves
    obtain ⟨n, first, rest, hsums, hrest⟩ := hserves
    rw [hF.place]
    exact ⟨d', hd', n, first, rest, hshape.trans hsums, hrest⟩

end Trusted

/-! ## Refusals -/

/-- Gridding that is refused leaves the grid and the sums as they were. -/
theorem Trusted.reached_eq (h : Trusted vis g c sums) {how : Contribution α} {e : Interrupted α}
    (herror : deposit how vis g c map sums interpolation = .error e) :
    e.reached.grid = g ∧ e.reached.sumWeights = sums.getD (Tensor.fill [g.nchan, g.npol] 0) := by
  have hstart : Serves (sums.getD (Tensor.fill [g.nchan, g.npol] 0)) g.nchan g.npol := by
    cases sums with
    | none => exact .of_shape rfl
    | some t => exact h.sums t rfl
  unfold deposit at herror
  dsimp only at herror
  split at herror
  · cases herror
    exact ⟨rfl, rfl⟩
  · rename_i hcheck
    split at herror
    · cases herror
      exact ⟨rfl, rfl⟩
    · rename_i f hframe
      obtain ⟨d, hd⟩ := h.exists_run how hcheck hframe
        ⟨g, sums.getD (Tensor.fill [g.nchan, g.npol] 0),
          { flagged := flaggedRows vis, clamped := map.clamped }⟩
        hstart
      rw [hd] at herror
      cases herror

/-- A session in which gridding is refused is left as it was. -/
theorem Trusted.snd_deposit {s : Session.Gridding nchan npol}
    (h : Trusted s.vis s.grid s.cache s.sums) {how : Contribution Float} {fault : Fault Float}
    (herror : (s.deposit how).1 = .error fault) :
    (s.deposit how).2 = s := by
  unfold Session.Gridding.deposit at herror ⊢
  cases hready : s.ready with
  | error fault => rfl
  | ok ready =>
    rw [hready] at herror
    obtain ⟨vis, cache, planes, interpolation, grid, sums⟩ := s
    cases hdeposit : Grid.deposit how vis grid cache ready.1 sums ready.2 with
    | ok d =>
      simp only [hdeposit] at herror
      cases herror
    | error e =>
      obtain ⟨hgrid, hsums⟩ := h.reached_eq hdeposit
      simp only [hdeposit, hgrid]
      cases sums with
      | none => rfl
      | some t => simp only [hsums, Option.getD_some, Option.isSome_some, if_true]

/-- Gridding of visibilities or of their weights that is refused leaves grid and sums untouched,
    where what it relies on holds: in any arithmetic, and in a session with a plane map and an
    interpolation as they are given. -/
theorem refused_untouched {nchan npol : ℕ} :
    (∀ {α : Type} [Scalar α] (how : Contribution α) (vis : Visibility α nchan npol) (g : Grid α)
      (c : Cache α) (map : PlaneMap) (sums : Option (Tensor α)) (interpolation : Interpolation)
      (e : Interrupted α),
        Trusted vis g c sums → deposit how vis g c map sums interpolation = .error e →
        e.reached.grid = g ∧ e.reached.sumWeights = sums.getD (Tensor.fill [g.nchan, g.npol] 0)) ∧
    ∀ (how : Contribution Float) (s : Session.Gridding nchan npol) (fault : Fault Float),
      Trusted s.vis s.grid s.cache s.sums → (s.deposit how).1 = .error fault →
      (s.deposit how).2 = s :=
  ⟨fun _ _ _ _ _ _ _ _ h herror => h.reached_eq herror, fun _ _ _ h herror => h.snd_deposit herror⟩

/-- A session over one row, with an interpolation that is none. -/
def cubicSession : Session.Gridding 1 1 where
  vis := ⟨[⟨0, 0, 0, #v[#v[⟨1, 1, false⟩]]⟩], [1], false, none⟩
  cache := Kernel.Variant.boxCache (.single 1)
  planes := .ok (PlaneMap.single (⟨[⟨0, 0, 0, #v[#v[⟨1, 1, false⟩]]⟩], [1], false, none⟩ :
    Visibility Float 1 1))
  interpolation := .text "cubic"
  grid := Grid.empty 1 1 2 2 (.single 1) none
  sums := some (Tensor.fill [1, 1] 0)

theorem trusted_cubicSession :
    Trusted cubicSession.vis cubicSession.grid cubicSession.cache cubicSession.sums where
  cache := Kernel.wellFormed_boxCache _
  tuned := le_rfl
  channels := .inl rfl
  sums := by
    intro t ht
    cases ht
    exact .of_shape rfl

/-- An interpolation that is none is refused, if nothing else is. -/
theorem refused_of_interpolation {s : Session.Gridding nchan npol}
    (h : Interpolation.ofSetting? s.interpolation = none) (how : Contribution Float) :
    ∃ fault, (s.deposit how).1 = .error fault := by
  have hready : ∃ fault, s.ready = .error fault := by
    unfold Session.Gridding.ready
    cases s.planes with
    | error fault => exact ⟨fault, rfl⟩
    | ok map =>
      show ∃ fault, (checkFit s.vis s.grid s.cache map >>= fun _ => _) = .error fault
      cases checkFit s.vis s.grid s.cache map with
      | error fault => exact ⟨fault, rfl⟩
      | ok _ =>
        rw [h]
        exact ⟨.interpolation s.interpolation, rfl⟩
  obtain ⟨fault, hready⟩ := hready
  refine ⟨fault, ?_⟩
  rw [Session.Gridding.deposit, hready]

/-- A grid for two polarisations. -/
noncomputable def pairedGrid : Grid ℝ := Grid.empty 1 2 3 3 (.single 1) none

theorem trusted_pairedGrid :
    Trusted quarterVisibility pairedGrid twoPhases (some (Tensor.fill [1, 2] 0)) where
  cache := fit_quarterVisibility.cache
  tuned := le_rfl
  channels := .inl rfl
  sums := by
    intro t ht
    cases ht
    exact .of_shape rfl

/-- One polarisation is refused by a grid of two, and so is an interpolation that is none. -/
theorem refused_untouched_cubicSession :
    (∃ e, addVisibilities quarterVisibility pairedGrid twoPhases (PlaneMap.single quarterVisibility)
        (some (Tensor.fill [1, 2] 0)) .linear = .error e ∧
      e.reached.grid = pairedGrid ∧ e.reached.sumWeights = Tensor.fill [1, 2] 0) ∧
    (∃ fault, (cubicSession.deposit .weights).1 = .error fault) ∧
    (cubicSession.deposit .weights).2 = cubicSession := by
  obtain ⟨e, herror⟩ : ∃ e, addVisibilities quarterVisibility pairedGrid twoPhases
      (PlaneMap.single quarterVisibility) (some (Tensor.fill [1, 2] 0)) .linear =
        .error e := ⟨_, rfl⟩
  obtain ⟨fault, hrefused⟩ := refused_of_interpolation
    (show Interpolation.ofSetting? cubicSession.interpolation = none from rfl) .weights
  exact ⟨⟨e, herror, refused_untouched.1 _ _ _ _ _ _ _ e trusted_pairedGrid herror⟩,
    ⟨fault, hrefused⟩, refused_untouched.2 _ _ fault trusted_cubicSession hrefused⟩

/-! ## Gridding that is broken off -/

/-- Sums of weights with a single axis pass the checks and fail at the first sample, when its value
    is already in its cell. -/
theorem broken_off_pairVisibility :
    ∃ e, addVisibilities (pairVisibility 0) pairGrid oneTap onePlane
        (some (Tensor.fill [2] 0)) .linear =
        .error e ∧ pairGrid.get 0 0 0 0 = 0 ∧ e.reached.grid.get 0 0 0 0 = 1 ∧
        e.reached.grid ≠ pairGrid := by
  have hcell : (addTaps .visibilities 0 [⟨0, 0, 1⟩] (pairSamples 0).toList pairGrid).get 0 0 0 0 =
      0 + Contribution.visibilities.cell 1 ⟨1, 1, false⟩ := rfl
  unfold addVisibilities deposit
  simp only [checkFit_pairVisibility, frame_pairVisibility, samplesOf_pairVisibility,
    List.foldlM_cons, List.foldlM_nil, step, place_pairVisibility]
  have hone :
      (addTaps .visibilities 0 [⟨0, 0, 1⟩] (pairSamples 0).toList pairGrid).get 0 0 0 0 = 1 := by
    rw [hcell]
    apply Cplx.ext <;>
      simp [Contribution.visibilities, Sample.weightedValue, Sample.flaggedWeight, Sample.mask,
        Extended.zero_def, Extended.one_def]
  refine ⟨_, rfl, rfl, hone, fun hsame => ?_⟩
  have hzero : (1 : Cplx Extended) = 0 := hone.symm.trans (congrArg (fun g => g.get 0 0 0 0) hsame)
  exact one_ne_zero (Extended.number.inj (congrArg Cplx.re hzero))

end ApertureSynthesis.Grid
