/-
  Caches that are built are well formed.

  `exists_of_build` says everything that a finished construction has gone through: the support of
  the zero-w kernel, its table of taps, positive tap sums, and the planes. From it follow the shapes
  of all tables and that there is one plane for each value; `wellFormed_of_buildCache` is this for
  each kind of convolution function.
-/
import Mathlib
import ApertureSynthesis.Proofs.Outcome
import ApertureSynthesis.Proofs.Exact
import ApertureSynthesis.Proofs.Tensor
import ApertureSynthesis.Kernel.Variant

namespace ApertureSynthesis.Kernel

variable {α : Type} [Scalar α]

/-! ## Tables -/

omit [Scalar α] in
theorem shape_of_tapTable {β : Type} [Zero β] {kernel : Raster β} {oversample support : ℕ}
    {t : Tensor β} (h : tapTable (α := α) kernel oversample support = .ok t) :
    t.shape = [oversample, oversample, 2 * support + 1, 2 * support + 1] := by
  unfold tapTable at h
  split at h
  · cases h
  · split at h
    · cases h
      rfl
    · cases h

/-- Planes that were tabulated: one for each value, each with the shape of its support. -/
theorem shape_of_tabulate {c : Config α} {ny nx : ℤ} {norm : Raster α}
    {kernel : α → Raster (Cplx α)} {plane : ℕ} {values : List (PlaneValue α)}
    {planes : List (Tensor (Cplx α) × ℕ)}
    (h : tabulate c ny nx norm kernel plane values = .ok planes) :
    planes.length = values.length ∧ ∀ p ∈ planes,
      p.1.shape = [c.oversample, c.oversample, 2 * p.2 + 1, 2 * p.2 + 1] := by
  induction values generalizing plane planes with
  | nil =>
    cases h
    exact ⟨rfl, fun p hp => absurd hp List.not_mem_nil⟩
  | cons v rest ih =>
    unfold tabulate at h
    obtain ⟨support, -, h⟩ := exists_of_bind h
    obtain ⟨-, -, h⟩ := exists_of_bind h
    obtain ⟨t, htable, h⟩ := exists_of_bind h
    obtain ⟨others, hothers, h⟩ := exists_of_bind h
    cases h
    obtain ⟨hlen, hshape⟩ := ih hothers
    refine ⟨by rw [List.length_cons, List.length_cons, hlen], fun p hp => ?_⟩
    rcases List.mem_cons.1 hp with rfl | hp
    · exact (shape_of_tapTable htable : t.shape = _)
    · exact hshape p hp

/-! ## Construction -/

/-- What a finished construction has gone through: a zero-w kernel of some support with its table of
    taps, and kernels whose tables, divided by its tap sums, are the planes. -/
structure Built (c : Config α) (term : Option (PlaneTerm α)) (values : List (PlaneValue α))
    (cellSize : CellSize α) (ny nx : ℤ) (cache : Cache α) (support : ℕ) (table : Tensor (Cplx α))
    (kernel : α → Raster (Cplx α)) (planes : List (Tensor (Cplx α) × ℕ)) : Prop where
  /-- The support of the zero-w kernel -/
  found : supportOf c (zeroWKernel c) = .ok support
  /-- is allowed, -/
  allowed : checkSupport c support 0 (.real 0) ny nx = .ok ()
  /-- the kernel holds its taps, -/
  tapped : tapTable (α := α) (zeroWKernel c) c.oversample support = .ok table
  /-- and they have positive sums. -/
  sums_pos : ∀ x ∈ (tapSums table c.oversample (2 * support + 1)).data, 0.0 < x
  /-- Without a term every kernel is that of zero w, -/
  kernel_eq : term = none → kernel = fun _ => zeroWKernel c
  /-- and with one the kernels are made from the taper. -/
  kernel_term : ∀ t ∈ term, ∃ du dv, cellSize.axes? = some (du, dv) ∧
    kernel = planeKernel c (1.0 / du, 1.0 / dv) t (Fourier.raster .inverse (zeroWKernel c))
  /-- The planes are the tables of the kernels; -/
  tabulated :
    tabulate c ny nx (tapSums table c.oversample (2 * support + 1)) kernel 0 values = .ok planes
  /-- there are some. -/
  planes_ne : planes ≠ []
  /-- They make the cache, -/
  cache_planes : cache.planes = planes.map Prod.fst
  /-- with their supports, -/
  cache_supports : cache.supports = planes.map fun p => (p.2 : ℤ)
  /-- a value for each, -/
  cache_values : cache.planeValues = values.map PlaneValue.value
  /-- the samples per cell, -/
  cache_oversample : cache.oversample = c.oversample
  /-- the taps of zero w -/
  cache_zeroW : cache.zeroW = normalise table (tapSums table c.oversample (2 * support + 1))
  /-- and a cell size that was given for both axes. -/
  cache_cellSize : ∀ du dv, cellSize = .perAxis [du, dv] → cache.cellSize = .perAxis [du, dv]

omit [Scalar α] in
/-- The last step of a construction: there are planes, and they make the cache. -/
theorem exists_planes {x : Except (Fault α) (List (Tensor (Cplx α) × ℕ))}
    {make : List (Tensor (Cplx α) × ℕ) → Cache α} {cache : Cache α}
    (h : (x >>= fun planes => if planes.isEmpty = true then
        (throw .mismatch >>= fun _ : PUnit => pure (make planes))
      else pure (make planes)) = .ok cache) :
    ∃ planes, x = .ok planes ∧ planes ≠ [] ∧ cache = make planes := by
  obtain ⟨planes, hplanes, h⟩ := exists_of_bind h
  split at h
  · cases h
  · rename_i hne
    cases h
    exact ⟨planes, hplanes, fun hnil => hne (by rw [hnil]; rfl), rfl⟩

theorem exists_of_build {c : Config α} {term : Option (PlaneTerm α)} {values : List (PlaneValue α)}
    {cellSize : CellSize α} {ny nx : ℤ} {name : String} {cache : Cache α}
    (h : build c term values cellSize ny nx name = .ok cache) :
    ∃ support table kernel planes,
      Built c term values cellSize ny nx cache support table kernel planes := by
  unfold build at h
  obtain ⟨support, hsupport, h⟩ := exists_of_bind h
  obtain ⟨⟨⟩, hallowed, h⟩ := exists_of_bind h
  obtain ⟨table, htable, h⟩ := exists_of_bind h
  dsimp only at h
  split at h
  · cases h
  · rename_i hsums
    have hpos : ∀ x ∈ (tapSums table c.oversample (2 * support + 1)).data, 0.0 < x := by
      intro x hx
      obtain ⟨i, hi, rfl⟩ := Array.mem_iff_getElem.1 hx
      simp only [Bool.not_eq_true', Bool.not_eq_false, Array.all_eq_true,
        decide_eq_true_eq] at hsums
      exact hsums i hi
    cases term with
    | none =>
      obtain ⟨planes, hplanes, hne, rfl⟩ := exists_planes h
      exact ⟨support, table, _, planes, hsupport, hallowed, htable, hpos, fun _ => rfl,
        fun t ht => absurd ht (Option.not_mem_none t), hplanes, hne, rfl, rfl, rfl, rfl, rfl,
        fun du dv hcell => by rw [hcell]; rfl⟩
    | some term =>
      dsimp only at h
      split at h
      · cases h
      · rename_i du dv haxes
        split at h
        · cases h
        · obtain ⟨planes, hplanes, hne, rfl⟩ := exists_planes h
          refine ⟨support, table, _, planes, hsupport, hallowed, htable, hpos,
            (fun h => by cases h), ?_, hplanes, hne, rfl, rfl, rfl, rfl, rfl, fun du dv hcell => by
            rw [hcell]; rfl⟩
          rintro t ⟨⟩
          exact ⟨du, dv, haxes, rfl⟩

section Built

variable {c : Config α} {term : Option (PlaneTerm α)} {values : List (PlaneValue α)}
  {cellSize : CellSize α} {ny nx : ℤ} {cache : Cache α} {support : ℕ} {table : Tensor (Cplx α)}
  {kernel : α → Raster (Cplx α)} {planes : List (Tensor (Cplx α) × ℕ)}

theorem Built.wellFormed
    (h : Built c term values cellSize ny nx cache support table kernel planes) :
    cache.WellFormed := by
  obtain ⟨-, hshape⟩ := shape_of_tabulate h.tabulated
  refine ⟨?_, ?_, fun p hp => ?_⟩
  · rw [h.cache_oversample]
    exact c.oversample_pos
  · rw [h.cache_planes, h.cache_supports, List.length_map, List.length_map]
  · have hp' : p < planes.length := by
      rw [h.cache_planes, List.length_map] at hp
      exact hp
    refine ⟨planes[p].2, ?_, ?_⟩
    · simp [h.cache_supports, hp']
    · simp only [h.cache_planes, h.cache_oversample, List.getElem_map]
      exact hshape _ (List.getElem_mem hp')

theorem Built.length_planes
    (h : Built c term values cellSize ny nx cache support table kernel planes) :
    cache.planeCount = values.length := by
  rw [Cache.planeCount, h.cache_planes, List.length_map, (shape_of_tabulate h.tabulated).1]

theorem Built.values_ne (h : Built c term values cellSize ny nx cache support table kernel planes) :
    values ≠ [] := by
  rintro rfl
  exact h.planes_ne (List.eq_nil_of_length_eq_zero (shape_of_tabulate h.tabulated).1)

end Built

end ApertureSynthesis.Kernel
