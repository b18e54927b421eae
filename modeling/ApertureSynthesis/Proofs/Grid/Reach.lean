/-
  Samples that touch the grid, in any arithmetic.

  A sample touches the grid if a tap of a lattice point that it uses falls on a cell (`Touches`).
  The library looks at one rectangle instead, around the taps of all points of the sample.
  Neighbouring points lie in one cell or in neighbouring ones, so the taps leave no gap in the
  rectangle (`exists_reaches_iff`), and a sample is placed outside exactly if it does not touch the
  grid (`outside_iff`).
-/
import Mathlib
import ApertureSynthesis.Proofs.Grid.Placement

namespace ApertureSynthesis.Grid

variable {α : Type} [Scalar α] {nchan npol : ℕ}

/-! ## Samples that touch the grid -/

/-- A position along one axis uses lattice point `q`: the lower one always, the one above it if it
    has a weight. -/
def Uses (interpolation : Interpolation) (oversample : ℕ) (position : α) (q : ℤ) : Prop :=
  q = (lowerPoint interpolation oversample position).1 ∨
    q = (lowerPoint interpolation oversample position).1 + 1 ∧
      ((lowerPoint interpolation oversample position).2 == 0) = false

/-- With half-width `s` the taps around the cell of lattice point `q` include cell `j`. -/
def Reaches (oversample : ℕ) (s q j : ℤ) : Prop :=
  cellOf oversample q - s ≤ j ∧ j ≤ cellOf oversample q + s

instance (oversample : ℕ) (s q j : ℤ) : Decidable (Reaches oversample s q j) :=
  inferInstanceAs (Decidable (_ ∧ _))

/-- A tap of a lattice point that a row and channel uses falls on a cell of the grid. -/
def Touches (vis : Visibility α nchan npol) (g : Grid α) (c : Cache α) (map : PlaneMap)
    (interpolation : Interpolation) (k b : ℕ) : Prop :=
  ∃ l r hertz s, g.lattice c = .ok l ∧ vis.rows[k]? = some r ∧ vis.frequency[b]? = some hertz ∧
    c.supports[(map.plane k b).toNat]? = some s ∧
    (∃ qv, Uses interpolation c.oversample (l.positionV (Visibility.wavelengths r.v hertz)) qv ∧
      ∃ j < g.ny, Reaches c.oversample s qv j) ∧
    ∃ qu, Uses interpolation c.oversample (l.positionU (Visibility.wavelengths r.u hertz)) qu ∧
      ∃ i < g.nx, Reaches c.oversample s qu i

/-- In exact arithmetic the points that are used are those with a weight other than zero. -/
theorem uses_iff_weight_ne_zero (interpolation : Interpolation) {oversample : ℕ}
    (hos : 0 < oversample) (x : ℝ) (q : ℤ) : Uses interpolation oversample x q ↔
      ∃ w, (q, w) ∈ usedPoints interpolation oversample x ∧ w ≠ 0 := by
  rcases lowerPoint_cases interpolation hos x with ⟨hlower, hused⟩ | ⟨hlower, hused⟩
  · simp [Uses, hlower, hused]
  · have hbelow : 1 - Int.fract x ≠ 0 := (sub_pos.2 (Int.fract_lt_one x)).ne'
    rw [Uses, hlower, hused]
    constructor
    · rintro (rfl | ⟨rfl, hw⟩)
      · exact ⟨_, List.mem_cons_self, hbelow⟩
      · exact ⟨_, List.mem_cons_of_mem _ List.mem_cons_self, by simpa using hw⟩
    · rintro ⟨w, hmem, hw⟩
      simp only [List.mem_cons, Prod.mk.injEq, List.not_mem_nil, or_false] at hmem
      rcases hmem with ⟨rfl, rfl⟩ | ⟨rfl, rfl⟩
      · exact .inl rfl
      · exact .inr ⟨rfl, by simpa using hw⟩

/-- The taps of the points of an axis leave no gap: together they are the run of cells from the
    first tap of the first point to the last tap of the last one. -/
theorem exists_reaches_iff (interpolation : Interpolation) {oversample : ℕ} (hos : 0 < oversample)
    (x : α) (s : ℕ) (j : ℤ) : (∃ q, Uses interpolation oversample x q ∧ Reaches oversample s q j) ↔
      (axisPoints interpolation oversample x).1.cell - s ≤ j ∧
        j < lastCell (axisPoints interpolation oversample x).1
          (axisPoints interpolation oversample x).2
          + s + 1 := by
  have hsucc := cellOf_succ hos (lowerPoint interpolation oversample x).1
  unfold Uses Reaches axisPoints
  generalize lowerPoint interpolation oversample x = point at hsucc ⊢
  obtain ⟨lower, w⟩ := point
  dsimp only at hsucc ⊢
  by_cases hw : (w == 0) = true
  · rw [if_pos hw, hw]
    simp only [Bool.true_eq_false, and_false, or_false, exists_eq_left]
    exact and_congr_right fun _ => Int.lt_add_one_iff.symm
  · rw [if_neg hw, Bool.eq_false_iff.2 hw]
    simp only [and_true, or_and_right, exists_or, exists_eq_left, lastCell, List.getLast?_singleton,
      Option.getD_some, AxisPoint.ofLattice]
    omega

/-! ## Where a sample goes -/

/-- A footprint is placed outside if its rectangle has no cell of the grid. -/
theorem placement_eq_outside_iff {F : Footprint α} {ny nx channel : ℕ} :
    F.placement ny nx channel = .outside ↔
      ¬ ((∃ j < ny, F.v ≤ (j : ℤ) ∧ (j : ℤ) < F.v + F.height) ∧
        ∃ i < nx, F.u ≤ (i : ℤ) ∧ (i : ℤ) < F.u + F.width) := by
  have hnone : (F.runs ny nx).flatten = [] ↔
      ∀ j ∈ covered F.v F.height ny, ∀ i, i ∉ covered F.u F.width nx := by
    rw [flatten_runs, List.flatMap_eq_nil_iff]
    exact forall₂_congr fun j _ => List.map_eq_nil_iff.trans List.eq_nil_iff_forall_not_mem
  have hplacement : F.placement ny nx channel = .outside ↔ (F.runs ny nx).flatten = [] := by
    unfold Footprint.placement
    split
    · rename_i hempty
      exact iff_of_true rfl (List.isEmpty_iff.1 hempty)
    · rename_i hempty
      exact iff_of_false (fun h => by cases h) fun h => hempty (List.isEmpty_iff.2 h)
  rw [hplacement, hnone]
  simp only [mem_covered]
  constructor
  · rintro h ⟨⟨j, hj⟩, i, hi⟩
    exact h j hj i hi
  · exact fun h j hj i hi => h ⟨⟨j, hj⟩, i, hi⟩

/-- A row and channel that is placed anywhere has a frequency and a support, and the placement is
    that of the taps around its points. -/
theorem exists_of_place {f : Frame α} {k b : ℕ} {r : Row α nchan npol} {placement : Placement α}
    (hc : f.cache.WellFormed) (hos : f.lattice.oversample = f.cache.oversample)
    (h : f.place k r b = .ok placement) :
    ∃ hertz channel plane, ∃ s : ℕ, f.frequency[b]? = some hertz ∧
      f.cache.supports[(f.map.plane k b).toNat]? = some (s : ℤ) ∧
      placement = (tapsAround plane s (f.pointsV r hertz) (f.pointsU r hertz)).placement
        f.lattice.ny f.lattice.nx channel := by
  unfold Frame.place at h
  dsimp only at h
  split at h
  · rename_i hertz channel plane support hhertz hchannel hplane hs
    obtain ⟨hp, rfl⟩ := List.getElem?_eq_some_iff.1 hplane
    obtain ⟨s, hsupport, hshape⟩ := hc.2.2 _ hp
    obtain rfl : support = s := Option.some.inj (hs.symm.trans hsupport)
    rw [← hos] at hshape
    have hpos : 0 < f.lattice.oversample := hos ▸ hc.1
    refine ⟨hertz, channel, f.cache.planes[(f.map.plane k b).toNat], s, hhertz, hs, ?_⟩
    rw [footprint_axisPoints_eq f.interpolation hpos hshape] at h
    unfold Footprint.placement Frame.pointsV Frame.pointsU
    simp only [bind, Except.bind] at h
    split at h
    · rename_i hempty
      rw [if_pos hempty]
      exact (Except.ok.inj h).symm
    · rename_i hempty
      rw [if_neg hempty]
      split at h
      · exact (Except.ok.inj h).symm
      · cases h
  · cases h

section Outside

variable {vis : Visibility α nchan npol} {g : Grid α} {c : Cache α} {map : PlaneMap}
  {interpolation : Interpolation} {f : Frame α}

/-- A row and channel is placed outside exactly if none of its taps is on the grid. -/
theorem outside_iff (hc : c.WellFormed) (hframe : frame vis g c map interpolation = .ok f) {k b : ℕ}
    {r : Row α nchan npol} (hr : vis.rows[k]? = some r) {placement : Placement α}
    (h : f.place k r b = .ok placement) :
    placement = .outside ↔ ¬ Touches vis g c map interpolation k b := by
  obtain ⟨l, channels, hl, -, rfl⟩ := exists_of_frame hframe
  obtain ⟨hnx, hny, hos⟩ := axes_of_lattice hl
  obtain ⟨hertz, channel, plane, s, hhertz, hs, rfl⟩ := exists_of_place hc hos h
  obtain ⟨⟨hv, hheight⟩, hu, hwidth⟩ := rectangle_tapsAround interpolation hc.1 plane s
    (l.positionV (Visibility.wavelengths r.v hertz))
    (l.positionU (Visibility.wavelengths r.u hertz)) rfl
  unfold Frame.pointsV Frame.pointsU
  dsimp only at hhertz hs ⊢
  rw [hos, placement_eq_outside_iff, hheight, hwidth, hv, hu, hny, hnx, not_iff_not]
  simp only [← exists_reaches_iff interpolation hc.1]
  constructor
  · rintro ⟨⟨j, hj, qv, hqv, hreach⟩, i, hi, qu, hqu, hreach'⟩
    exact ⟨l, r, hertz, s, hl, hr, hhertz, hs, ⟨qv, hqv, j, hj, hreach⟩, qu, hqu, i, hi, hreach'⟩
  · rintro ⟨l', r', hertz', s', hl', hr', hhertz', hs', ⟨qv, hqv, j, hj, hreach⟩, qu,
      hqu, i, hi, hreach'⟩
    obtain rfl : l = l' := Except.ok.inj (hl.symm.trans hl')
    obtain rfl : r = r' := Option.some.inj (hr.symm.trans hr')
    obtain rfl : hertz = hertz' := Option.some.inj (hhertz.symm.trans hhertz')
    obtain rfl : (s : ℤ) = s' := Option.some.inj (hs.symm.trans hs')
    exact ⟨⟨j, hj, qv, hqv, hreach⟩, i, hi, qu, hqu, hreach'⟩

end Outside

end ApertureSynthesis.Grid
