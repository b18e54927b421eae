/-
  What can come of a construction.

  The working grid holds the taps of every phase for every support that is allowed, a kernel that is
  not empty has a support, and the taps of zero w have positive sums. So a construction can only be
  refused by the check of a support, that of zero w or that of a plane (`Refused`); otherwise it
  gives a cache with a plane for each value, whose widths are allowed and fit the grid, and a zero-w
  kernel with taps that sum to one for each phase (`Complete`). `build_complete_or_refused` is this
  for every request of whole half-widths that passes its checks.
-/
import Mathlib
import ApertureSynthesis.Proofs.Kernel.UnitTaps
import ApertureSynthesis.Proofs.Taper

namespace ApertureSynthesis.Kernel

variable {c : Config ℝ} {ny nx : ℤ}

/-! ## Steps that cannot fail -/

theorem exists_supportOf {k : Raster (Cplx ℝ)} (h : 0 < k.data.size) :
    ∃ s, supportOf c k = .ok s := by
  unfold supportOf findSupport? peak?
  rw [dif_pos h]
  cases c.support with
  | none => exact ⟨_, rfl⟩
  | some s => exact ⟨s, rfl⟩

theorem workingSize_pos (c : Config ℝ) : 0 < workingSize c :=
  Nat.mul_pos (by omega) c.oversample_pos

/-- The working grid holds the taps of every phase up to the largest support. -/
theorem holdsSupport_workingSize {s : ℕ} (hs : s ≤ c.maxSupport) :
    holdsSupport (workingSize c) c.oversample s = true := by
  have hpos := c.oversample_pos
  -- half of the grid, in cells, is one more than the support
  obtain ⟨cells, hcells⟩ : ∃ cells, cells = max c.maxSupport antiAliasingSupport + 1 := ⟨_, rfl⟩
  have hmore : s + 1 ≤ cells := by
    rw [hcells]
    exact Nat.succ_le_succ (hs.trans (Nat.le_max_left _ _))
  have hsize : workingSize c = 2 * (cells * c.oversample) := by
    rw [workingSize, hcells, Nat.mul_assoc]
  have hhalf : (s + 1) * c.oversample ≤ cells * c.oversample := Nat.mul_le_mul_right _ hmore
  have hcentre : 2 * (cells * c.oversample) / 2 = cells * c.oversample := by omega
  rw [holdsSupport, decide_eq_true_iff, hsize, samplePosition, samplePosition, hcentre]
  zify at hhalf
  have hfirst : (c.oversample : ℤ) * ((2 * s : ℕ) - (s : ℤ)) = c.oversample * s := by
    push_cast
    ring
  have hlast : (c.oversample : ℤ) * ((0 : ℕ) - (s : ℤ)) = -(c.oversample * s) := by
    push_cast
    ring
  have hproduct : ((s : ℤ) + 1) * c.oversample = c.oversample * s + c.oversample := by ring
  rw [hfirst, hlast]
  rw [hproduct] at hhalf
  constructor
  · push_cast
    omega
  · push_cast
    omega

/-- A raster of the size of the working grid. -/
def OnWorkingGrid (c : Config ℝ) (k : Raster (Cplx ℝ)) : Prop :=
  k.ny = workingSize c ∧ k.nx = workingSize c

theorem onWorkingGrid_zeroWKernel (c : Config ℝ) : OnWorkingGrid c (zeroWKernel c) :=
  ny_zeroWKernel c

theorem onWorkingGrid_planeKernel (c : Config ℝ) (fieldOfView : ℝ × ℝ) (term : PlaneTerm ℝ)
    (taper : Raster (Cplx ℝ)) (value : ℝ) :
    OnWorkingGrid c (planeKernel c fieldOfView term taper value) :=
  ⟨rfl, rfl⟩

theorem OnWorkingGrid.exists_supportOf {k : Raster (Cplx ℝ)} (h : OnWorkingGrid c k) :
    ∃ s, supportOf c k = .ok s := by
  apply Kernel.exists_supportOf
  rw [k.size_data, h.1, h.2]
  exact Nat.mul_pos (workingSize_pos c) (workingSize_pos c)

theorem OnWorkingGrid.exists_tapTable {k : Raster (Cplx ℝ)} (h : OnWorkingGrid c k) {s : ℕ}
    (hs : s ≤ c.maxSupport) : ∃ t, tapTable (α := ℝ) k c.oversample s = .ok t := by
  unfold tapTable
  rw [if_neg c.oversample_pos.ne', h.1, h.2, holdsSupport_workingSize hs]
  exact ⟨_, rfl⟩

/-! ## The check of a support -/

theorem checkSupport_eq_ok {s plane : ℕ} {value : Setting ℝ}
    (h : checkSupport c s plane value ny nx = .ok ()) :
    s ≤ c.maxSupport ∧ 2 * (s : ℤ) + 1 ≤ min ny nx := by
  unfold checkSupport at h
  split at h
  · cases h
  · split at h
    · cases h
    · omega

/-- The faults of the check of a support: it is above the largest, or the kernel is wider than the
    grid. -/
theorem checkSupport_eq_error {s plane : ℕ} {value : Setting ℝ} {fault : Fault ℝ}
    (h : checkSupport c s plane value ny nx = .error fault) :
    fault = .planeSupport s plane value c.maxSupport ∨
      fault = .kernelWidth (2 * s + 1 : ℕ) plane ny nx := by
  unfold checkSupport at h
  split at h
  · cases h
    exact .inl rfl
  · split at h
    · cases h
      exact .inr rfl
    · cases h

/-! ## Planes -/

theorem allowed_of_tabulate {norm : Raster ℝ} {kernel : ℝ → Raster (Cplx ℝ)} {plane : ℕ}
    {values : List (PlaneValue ℝ)} {planes : List (Tensor (Cplx ℝ) × ℕ)}
    (h : tabulate c ny nx norm kernel plane values = .ok planes) :
    ∀ p ∈ planes, p.2 ≤ c.maxSupport ∧ 2 * (p.2 : ℤ) + 1 ≤ min ny nx := by
  induction values generalizing plane planes with
  | nil =>
    cases h
    exact fun p hp => absurd hp List.not_mem_nil
  | cons v rest ih =>
    unfold tabulate at h
    obtain ⟨s, -, h⟩ := exists_of_bind h
    obtain ⟨⟨⟩, hcheck, h⟩ := exists_of_bind h
    obtain ⟨t, -, h⟩ := exists_of_bind h
    obtain ⟨others, hothers, h⟩ := exists_of_bind h
    cases h
    intro p hp
    rcases List.mem_cons.1 hp with rfl | hp
    · exact checkSupport_eq_ok hcheck
    · exact ih hothers p hp

/-- Kernels on the working grid are only refused by the check of the support of one of them. -/
theorem refused_of_tabulate {norm : Raster ℝ} {kernel : ℝ → Raster (Cplx ℝ)}
    (hkernel : ∀ v, OnWorkingGrid c (kernel v)) {plane : ℕ} {values : List (PlaneValue ℝ)}
    {fault : Fault ℝ} (h : tabulate c ny nx norm kernel plane values = .error fault) :
    ∃ k, ∃ (hk : k < values.length), ∃ s, supportOf c (kernel values[k].value) = .ok s ∧
      checkSupport c s (plane + k) values[k].given ny nx = .error fault := by
  induction values generalizing plane with
  | nil => cases h
  | cons v rest ih =>
    obtain ⟨s, hs⟩ := (hkernel v.value).exists_supportOf
    unfold tabulate at h
    rcases error_of_bind h with hfault | ⟨s, hs, h⟩
    · rw [hs] at hfault
      cases hfault
    rcases error_of_bind h with hcheck | ⟨⟨⟩, hcheck, h⟩
    · exact ⟨0, Nat.zero_lt_succ _, s, hs, hcheck⟩
    obtain ⟨t, ht⟩ := (hkernel v.value).exists_tapTable (checkSupport_eq_ok hcheck).1
    rcases error_of_bind h with hfault | ⟨t, -, h⟩
    · rw [ht] at hfault
      cases hfault
    rcases error_of_bind h with hfault | ⟨others, -, h⟩
    · obtain ⟨k, hk, s', hs', hrefused⟩ := ih hfault
      refine ⟨k + 1, Nat.succ_lt_succ hk, s', hs', ?_⟩
      rw [List.getElem_cons_succ, ← Nat.add_assoc, Nat.add_right_comm]
      exact hrefused
    · cases h

/-! ## The whole construction -/

section Build

variable {term : Option (PlaneTerm ℝ)} {values : List (PlaneValue ℝ)} {cellSize : CellSize ℝ}
  {name : String} {cache : Cache ℝ}

/-- A well-formed cache with a plane for each of a number of values, whose widths are allowed and
    fit the grid, and with taps of zero w that sum to one for each phase. -/
structure Complete (c : Config ℝ) (count : ℕ) (ny nx : ℤ) (cache : Cache ℝ) : Prop where
  /-- Planes have tables of phases and taps -/
  wellFormed : cache.WellFormed
  /-- of the oversampling; -/
  oversample : cache.oversample = c.oversample
  /-- there is one for each value, -/
  count : cache.planeCount = count
  /-- with a support that is allowed and a width that fits the grid. -/
  fits : ∀ s ∈ cache.supports, s ≤ c.maxSupport ∧ 2 * s + 1 ≤ min ny nx
  /-- The zero-w kernel fits likewise, and its taps sum to one. -/
  unit : ∃ s : ℕ, cache.UnitTaps s ∧ s ≤ c.maxSupport ∧ 2 * (s : ℤ) + 1 ≤ min ny nx

theorem complete_of_build (h : build c term values cellSize ny nx name = .ok cache) :
    Complete c values.length ny nx cache := by
  obtain ⟨support, table, kernel, planes, hbuilt⟩ := exists_of_build h
  refine ⟨hbuilt.wellFormed, hbuilt.cache_oversample, hbuilt.length_planes, fun s hs => ?_,
    support, hbuilt.unitTaps, checkSupport_eq_ok hbuilt.allowed⟩
  rw [hbuilt.cache_supports] at hs
  obtain ⟨p, hp, rfl⟩ := List.mem_map.1 hs
  obtain ⟨hallowed, hfits⟩ := allowed_of_tabulate hbuilt.tabulated p hp
  exact ⟨Int.ofNat_le.2 hallowed, hfits⟩

/-- A cache that is built has a corrector on the grid that it was built for. -/
theorem exists_corrector_of_build (h : build c term values cellSize ny nx name = .ok cache) :
    ∃ corrector, Corrector.create cache ny nx = .ok corrector := by
  have hcomplete := complete_of_build h
  obtain ⟨s, hunit, -, hwidth⟩ := hcomplete.unit
  exact Corrector.exists_create_of_shape hcomplete.wellFormed.1 hunit.shape hwidth

/-- The kernel of a plane: without a term, that of zero w. -/
noncomputable def kernelOf (c : Config ℝ) (term : Option (PlaneTerm ℝ)) (cellSize : CellSize ℝ)
    (value : ℝ) : Raster (Cplx ℝ) :=
  match term, cellSize.axes? with
  | some t, some (du, dv) =>
    planeKernel c (1.0 / du, 1.0 / dv) t (Fourier.raster .inverse (zeroWKernel c)) value
  | _, _ => zeroWKernel c

theorem kernelOf_of_axes {du dv : ℝ} (h : cellSize.axes? = some (du, dv)) (t : PlaneTerm ℝ) :
    kernelOf c (some t) cellSize =
      planeKernel c (1.0 / du, 1.0 / dv) t (Fourier.raster .inverse (zeroWKernel c)) := by
  funext value
  unfold kernelOf
  rw [h]

theorem onWorkingGrid_kernelOf (c : Config ℝ) (term : Option (PlaneTerm ℝ)) (cellSize : CellSize ℝ)
    (value : ℝ) : OnWorkingGrid c (kernelOf c term cellSize value) := by
  unfold kernelOf
  split
  · exact onWorkingGrid_planeKernel ..
  · exact onWorkingGrid_zeroWKernel c

/-- The check of a support refuses: that of the zero-w kernel, or that of the kernel of a plane. -/
def Refused (c : Config ℝ) (term : Option (PlaneTerm ℝ)) (values : List (PlaneValue ℝ))
    (cellSize : CellSize ℝ) (ny nx : ℤ) (fault : Fault ℝ) : Prop :=
  (∃ s, supportOf c (zeroWKernel c) = .ok s ∧ checkSupport c s 0 (.real 0) ny nx = .error fault) ∨
    ∃ p, ∃ (hp : p < values.length), ∃ s,
      supportOf c (kernelOf c term cellSize values[p].value) = .ok s ∧
        checkSupport c s p values[p].given ny nx = .error fault

/-- A refusal tells of a support above the largest, or of a kernel that is wider than the grid. -/
theorem Refused.cases {fault : Fault ℝ} (h : Refused c term values cellSize ny nx fault) :
    (∃ s plane value, fault = .planeSupport s plane value c.maxSupport) ∨
      ∃ width plane, fault = .kernelWidth width plane ny nx := by
  obtain ⟨s, plane, value, hcheck⟩ : ∃ s plane value, checkSupport c s plane value ny nx =
      .error fault := by
    rcases h with ⟨s, -, hcheck⟩ | ⟨p, hp, s, -, hcheck⟩
    · exact ⟨s, 0, _, hcheck⟩
    · exact ⟨s, p, _, hcheck⟩
  rcases checkSupport_eq_error hcheck with rfl | rfl
  · exact .inl ⟨s, plane, value, rfl⟩
  · exact .inr ⟨_, plane, rfl⟩

/-- A fixed support whose width fits the grid is not refused. -/
theorem not_refused_of_support {s : ℕ} (hs : c.support = some s)
    (hfits : 2 * (s : ℤ) + 1 ≤ min ny nx) (fault : Fault ℝ) :
    ¬Refused c term values cellSize ny nx fault := by
  have hfound : ∀ {k s'}, supportOf c k = .ok s' → s' = s := by
    intro k s' h
    unfold supportOf at h
    rw [hs] at h
    exact (Except.ok.inj h).symm
  have hallowed : ∀ plane value, checkSupport c s plane value ny nx = .ok () := by
    intro plane value
    unfold checkSupport
    rw [if_neg (not_lt.2 (c.support_le s hs)), if_neg (not_lt.2 hfits)]
  rintro (⟨s', hs', hcheck⟩ | ⟨p, hp, s', hs', hcheck⟩)
  · rw [hfound hs', hallowed] at hcheck
    cases hcheck
  · rw [hfound hs', hallowed] at hcheck
    cases hcheck

/-- A cell size that is given stands for both axes. -/
theorem axes_ne_none (h : cellSize.values ≠ []) : cellSize.axes? ≠ none := by
  unfold CellSize.axes?
  split
  · exact Option.some_ne_none _
  · exact Option.some_ne_none _
  · rename_i hnil
    exact absurd hnil h

/-- The last step of a construction is only refused by the check of the support of a plane. -/
theorem refused_of_planes {norm : Raster ℝ} {make : List (Tensor (Cplx ℝ) × ℕ) → Cache ℝ}
    {fault : Fault ℝ} (hvalues : values ≠ [])
    (h : (tabulate c ny nx norm (kernelOf c term cellSize) 0 values >>= fun planes =>
      if planes.isEmpty = true then (throw .mismatch >>= fun _ : PUnit => pure (make planes))
      else pure (make planes)) = .error fault) : Refused c term values cellSize ny nx fault := by
  rcases error_of_bind h with hrefused | ⟨planes, hplanes, h⟩
  · obtain ⟨k, hk, s, hs, hcheck⟩ :=
      refused_of_tabulate (onWorkingGrid_kernelOf c term cellSize) hrefused
    rw [Nat.zero_add] at hcheck
    exact .inr ⟨k, hk, s, hs, hcheck⟩
  · split at h
    · rename_i hempty
      have hlength := (shape_of_tabulate hplanes).1
      rw [List.isEmpty_iff.1 hempty] at hlength
      exact absurd (List.eq_nil_of_length_eq_zero hlength.symm) hvalues
    · cases h

theorem refused_of_build (hterm : ∀ t ∈ term, t.obstacle = none) (hvalues : values ≠ [])
    (hcell : cellSize.values ≠ []) {fault : Fault ℝ}
    (h : build c term values cellSize ny nx name = .error fault) :
    Refused c term values cellSize ny nx fault := by
  have hzeroW := onWorkingGrid_zeroWKernel c
  obtain ⟨s, hs⟩ := hzeroW.exists_supportOf
  unfold build at h
  rcases error_of_bind h with hfault | ⟨s, hs, h⟩
  · rw [hs] at hfault
    cases hfault
  rcases error_of_bind h with hcheck | ⟨⟨⟩, hcheck, h⟩
  · exact .inl ⟨s, hs, hcheck⟩
  obtain ⟨t, ht⟩ := hzeroW.exists_tapTable (checkSupport_eq_ok hcheck).1
  rcases error_of_bind h with hfault | ⟨t, ht, h⟩
  · rw [ht] at hfault
    cases hfault
  dsimp only at h
  split at h
  · -- no tap sum is zero or negative
    rename_i hsums
    simp only [Bool.not_eq_true', Bool.eq_false_iff, ne_eq, Array.all_eq_true, decide_eq_true_iff,
      Scalar.zero_literal] at hsums
    exact absurd (fun k hk => tapSums_pos ht _ (Array.getElem_mem hk)) hsums
  · cases term with
    | none => exact refused_of_planes hvalues h
    | some term =>
      dsimp only at h
      split at h
      · rename_i haxes
        exact absurd haxes (axes_ne_none hcell)
      · rename_i du dv haxes
        split at h
        · rename_i hobstacle
          rw [hterm term rfl, ite_self] at hobstacle
          cases hobstacle
        · rw [← kernelOf_of_axes haxes] at h
          exact refused_of_planes hvalues h

end Build

/-! ## Requests -/

section Request

variable {r : Request ℝ}

theorem whole_of_checkOversample {os : { n : ℕ // 0 < n }} (h : r.checkOversample = .ok os) :
    r.oversample.whole? = some (os.1 : ℤ) := by
  unfold Request.checkOversample at h
  split at h
  · cases h
  · rename_i n hn
    split at h
    · cases h
    · cases h
      rw [hn, Int.toNat_of_nonneg (by omega)]

theorem number_of_checkCutoff {x : { c : ℝ // 0.0 < c ∧ c ≤ 1.0 }} (h : r.checkCutoff = .ok x) :
    r.cutoff.number? = some x.1 := by
  unfold Request.checkCutoff at h
  split at h
  · cases h
  · rename_i c hc
    split at h
    · cases h
      exact hc
    · cases h

theorem eq_of_configure {os : { n : ℕ // 0 < n }} {x : { c : ℝ // 0.0 < c ∧ c ≤ 1.0 }}
    {support : Option ℤ} {m : ℤ} (h : r.configure os x support m = .ok c) :
    c.oversample = os.1 ∧ c.cutoff = x.1 ∧ c.support.map Int.ofNat = support ∧
    (c.maxSupport : ℤ) = m := by
  unfold Request.configure at h
  split at h
  · cases h
  · split at h
    · cases h
      exact ⟨rfl, rfl, rfl, Int.toNat_of_nonneg (by omega)⟩
    · split at h
      · cases h
      · split at h
        · cases h
        · cases h
          refine ⟨rfl, rfl, ?_, Int.toNat_of_nonneg (by omega)⟩
          exact congrArg some (Int.toNat_of_nonneg (by omega))

/-- A request of whole half-widths that passes its checks makes a configuration of its own
    values. -/
theorem fitting_of_check {p : Parameters ℝ} (hwhole : r.wholeWidths? ≠ none) (h : r.check = .ok p) :
    ∃ c, p = .fitting c ∧ r.oversample.whole? = some (c.oversample : ℤ) ∧
      r.cutoff.number? = some c.cutoff ∧
      r.wholeWidths? = some (c.support.map Int.ofNat, (c.maxSupport : ℤ)) := by
  unfold Request.check at h
  obtain ⟨os, hos, h⟩ := exists_of_bind h
  obtain ⟨cutoff, hcutoff, h⟩ := exists_of_bind h
  split at h
  · rename_i support m hwidths
    obtain ⟨c, hc, h⟩ := exists_of_bind h
    cases h
    obtain ⟨hoversample, hcut, hsupport, hmax⟩ := eq_of_configure hc
    refine ⟨c, rfl, ?_, ?_, ?_⟩
    · rw [whole_of_checkOversample hos, hoversample]
    · rw [number_of_checkCutoff hcutoff, hcut]
    · rw [hwidths, hsupport, hmax]
  · rename_i hnone
    exact absurd hnone hwhole

end Request

/-- Whatever the samples per cell, the cutoff and the whole half-widths that pass the checks, and
    whatever the term, the values, the cell size and the grid, a construction gives a complete cache
    or is refused by the check of a support. A kernel never has too few samples, and the sums of its
    zero-w taps are positive. -/
theorem build_complete_or_refused {r : Request ℝ} {p : Parameters ℝ}
    (hwhole : r.wholeWidths? ≠ none) (hcheck : r.check = .ok p) {term : Option (PlaneTerm ℝ)}
    (hterm : ∀ t ∈ term, t.obstacle = none) {values : List (PlaneValue ℝ)} (hvalues : values ≠ [])
    {cellSize : CellSize ℝ} (hcell : cellSize.values ≠ []) (ny nx : ℤ) (name : String) :
    ∃ c, p = .fitting c ∧ r.oversample.whole? = some (c.oversample : ℤ) ∧
      r.cutoff.number? = some c.cutoff ∧
      r.wholeWidths? = some (c.support.map Int.ofNat, (c.maxSupport : ℤ)) ∧
      ((∃ cache, build c term values cellSize ny nx name = .ok cache ∧
          Complete c values.length ny nx cache) ∨
        ∃ fault, build c term values cellSize ny nx name = .error fault ∧
          Refused c term values cellSize ny nx fault) ∧
      (∀ ky kx s, build c term values cellSize ny nx name ≠ .error (.kernelSamples ky kx s)) ∧
      ∀ s, build c term values cellSize ny nx name ≠ .error (.kernelSum s) := by
  obtain ⟨c, hp, hoversample, hcutoff, hwidths⟩ := fitting_of_check hwhole hcheck
  refine ⟨c, hp, hoversample, hcutoff, hwidths, ?_, fun ky kx s hfault => ?_, fun s hfault => ?_⟩
  · cases hbuild : build c term values cellSize ny nx name with
    | ok cache => exact .inl ⟨cache, rfl, complete_of_build hbuild⟩
    | error fault => exact .inr ⟨fault, rfl, refused_of_build hterm hvalues hcell hbuild⟩
  · rcases (refused_of_build hterm hvalues hcell hfault).cases with ⟨_, _, _, h⟩ | ⟨_, _, h⟩
    · cases h
    · cases h
  · rcases (refused_of_build hterm hvalues hcell hfault).cases with ⟨_, _, _, h⟩ | ⟨_, _, h⟩
    · cases h
    · cases h

/-- Two samples per cell, a half-width of one cell out of three. -/
noncomputable def narrowRequest : Request ℝ where
  oversample := .whole 2
  cutoff := .real 1
  support := .whole 1
  maxSupport := .whole 3

theorem exists_check_narrowRequest : ∃ p, narrowRequest.check = .ok p := by
  have hcutoff : (0.0 : ℝ) < 1 ∧ (1 : ℝ) ≤ 1.0 := by norm_num
  refine ⟨.fitting ⟨2, 1, some 1, 3, by decide, hcutoff.1, hcutoff.2, by decide, by decide⟩, ?_⟩
  have hcheck : narrowRequest.checkCutoff = .ok ⟨1, hcutoff⟩ := dif_pos hcutoff
  rw [Request.check, hcheck]
  rfl

/-- A cache with this half-width is built for any term, values and cells, on every grid that is as
    wide. -/
theorem exists_build_narrow {term : Option (PlaneTerm ℝ)} (hterm : ∀ t ∈ term, t.obstacle = none)
    {values : List (PlaneValue ℝ)} (hvalues : values ≠ []) {cellSize : CellSize ℝ}
    (hcell : cellSize.values ≠ []) {ny nx : ℤ} (hfits : 3 ≤ min ny nx) (name : String) :
    ∃ c cache, narrowRequest.check = .ok (.fitting c) ∧
      build c term values cellSize ny nx name = .ok cache := by
  obtain ⟨p, hp⟩ := exists_check_narrowRequest
  obtain ⟨c, rfl, -, -, hwidths⟩ := fitting_of_check (by decide) hp
  obtain ⟨s, hs, hone⟩ := Option.map_eq_some_iff.1 (Prod.ext_iff.1 (Option.some.inj hwidths)).1.symm
  obtain rfl : s = 1 := Int.ofNat.inj hone
  cases hbuild : build c term values cellSize ny nx name with
  | error fault =>
    exact absurd (refused_of_build hterm hvalues hcell hbuild)
      (not_refused_of_support hs hfits fault)
  | ok cache => exact ⟨c, cache, hp, hbuild⟩

/-- One plane with a term of one, on a grid that is just as wide as the kernel. -/
theorem build_complete_narrow :
    ∃ c cache, narrowRequest.check = .ok (.fitting c) ∧ c.oversample = 2 ∧
      build c (some ⟨fun _ _ _ => 1, none⟩) [.ofScalar 0] (.single 1) 3 3 "" = .ok cache ∧
      Complete c 1 3 3 cache := by
  obtain ⟨p, hp⟩ := exists_check_narrowRequest
  have hterm : ∀ t ∈ (some ⟨fun _ _ _ => 1, none⟩ : Option (PlaneTerm ℝ)), t.obstacle = none := by
    rintro t ⟨⟩
    rfl
  have hvalues : [PlaneValue.ofScalar (0 : ℝ)] ≠ [] := List.cons_ne_nil _ _
  have hcell : (CellSize.single (1 : ℝ)).values ≠ [] := List.cons_ne_nil _ _
  obtain ⟨c, rfl, hoversample, -, hwidths, hcases, -, -⟩ :=
    build_complete_or_refused (by decide) hp hterm hvalues hcell 3 3 ""
  have htwo : c.oversample = 2 := by exact_mod_cast (Option.some.inj hoversample).symm
  obtain ⟨s, hs, hone⟩ := Option.map_eq_some_iff.1 (Prod.ext_iff.1 (Option.some.inj hwidths)).1.symm
  obtain rfl : s = 1 := Int.ofNat.inj hone
  rcases hcases with ⟨cache, hcache, hcomplete⟩ | ⟨fault, -, hrefused⟩
  · exact ⟨c, cache, hp, htwo, hcache, hcomplete⟩
  · exact absurd hrefused (not_refused_of_support hs (by decide) fault)

end ApertureSynthesis.Kernel
