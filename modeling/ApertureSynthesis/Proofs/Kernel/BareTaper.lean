/-
  A plane of zero w is the bare taper.

  At zero w the chirp is one, so that the taper is transformed as it is, and the transform of the
  taper is the zero-w kernel (`planeKernel_zero`). The support that is found and the table of taps
  depend on the kernel only, and all planes are divided by the same sums. So a single plane, which
  stands at zero, makes w projection build what the anti-aliasing function builds with the same
  parameters, under another name (`buildCache_single`), and every sample goes to that plane,
  whatever its w (`map_single`).
-/
import Mathlib
import ApertureSynthesis.Proofs.Fourier.Inversion
import ApertureSynthesis.Proofs.Kernel.Construction

namespace ApertureSynthesis

/-- A cache under another name. -/
def Cache.named {α : Type} (c : Cache α) (name : String) : Cache α := { c with name := name }

/-- A plane of a cache is the zero-w kernel. -/
structure Cache.IsZeroW {α : Type} (c : Cache α) (k : ℕ) : Prop where
  /-- It has the taps of the zero-w kernel, -/
  taps : c.planes[k]? = some c.zeroW
  /-- and its half-width. -/
  support : ∃ s : ℕ, c.supports[k]? = some (s : ℤ) ∧
    c.zeroW.shape = [c.oversample, c.oversample, 2 * s + 1, 2 * s + 1]

namespace Kernel

/-! ## The kernel of zero w -/

theorem factor_chirpTerm_zero (l m : ℝ) : Variant.chirpTerm.factor 0 l m = 1 := by
  show fresnelChirp l m 0 = 1
  apply Cplx.val_injective
  rw [fresnelChirp, Cplx.val_cis, mul_zero, zero_mul, Complex.ofReal_zero, zero_mul,
    Complex.exp_zero, Cplx.val_one]

/-- At zero w the taper is transformed to the kernel that it came from. -/
theorem planeKernel_zero (c : Config ℝ) (fieldOfView : ℝ × ℝ) :
    planeKernel c fieldOfView Variant.chirpTerm (Fourier.raster .inverse (zeroWKernel c)) 0 =
      zeroWKernel c := by
  obtain ⟨hny, hnx⟩ := ny_zeroWKernel c
  refine (congrArg (Fourier.raster .forward) ?_).trans
    (Fourier.raster_raster .inverse (zeroWKernel c))
  refine Raster.ext_get hny.symm hnx.symm
    fun j i (hj : j < workingSize c) (hi : i < workingSize c) => ?_
  rw [Raster.get_ofFn _ hj hi]
  dsimp only
  rw [factor_chirpTerm_zero]
  apply Cplx.val_injective
  rw [Cplx.val_mul, Cplx.val_one, mul_one]

/-! ## Planes of kernels -/

section Tabulate

variable {α : Type} [Scalar α] {c : Config α} {ny nx : ℤ} {norm : Raster α}
  {kernel kernel' : α → Raster (Cplx α)} {plane : ℕ} {values : List (PlaneValue α)}

/-- Kernels that agree on the values make the same planes. -/
theorem tabulate_congr (h : ∀ v ∈ values, kernel v.value = kernel' v.value) :
    tabulate c ny nx norm kernel plane values = tabulate c ny nx norm kernel' plane values := by
  induction values generalizing plane with
  | nil => rfl
  | cons v rest ih =>
    unfold tabulate
    rw [h v List.mem_cons_self, ih fun v' hv' => h v' (List.mem_cons_of_mem v hv')]

/-- The plane of a value is the table of its kernel, divided by the sums. -/
theorem getElem_of_tabulate {planes : List (Tensor (Cplx α) × ℕ)}
    (h : tabulate c ny nx norm kernel plane values = .ok planes) {k : ℕ} {v : PlaneValue α}
    (hv : values[k]? = some v) :
    ∃ s t, supportOf c (kernel v.value) = .ok s ∧
      tapTable (α := α) (kernel v.value) c.oversample s = .ok t ∧
        planes[k]? = some (normalise t norm, s) := by
  induction values generalizing plane planes k with
  | nil => cases hv
  | cons first rest ih =>
    unfold tabulate at h
    obtain ⟨s, hs, h⟩ := exists_of_bind h
    obtain ⟨-, -, h⟩ := exists_of_bind h
    obtain ⟨t, ht, h⟩ := exists_of_bind h
    obtain ⟨others, hothers, h⟩ := exists_of_bind h
    cases h
    cases k with
    | zero =>
      cases hv
      exact ⟨s, t, hs, ht, rfl⟩
    | succ k => exact ih hothers hv

/-- Where the kernels of a term are that of zero w, there might as well be no term. -/
theorem build_eq_map_named {term : PlaneTerm α} (hobstacle : term.obstacle = none)
    {cellSize : CellSize α} {du dv : α} (haxes : cellSize.axes? = some (du, dv))
    (hkernel : ∀ v ∈ values, planeKernel c (1.0 / du, 1.0 / dv) term
      (Fourier.raster .inverse (zeroWKernel c)) v.value = zeroWKernel c) (name name' : String) :
    build c (some term) values cellSize ny nx name =
      (build c none values cellSize ny nx name').map (·.named name) := by
  have hplanes : ∀ norm, tabulate c ny nx norm (planeKernel c (1.0 / du, 1.0 / dv) term
      (Fourier.raster .inverse (zeroWKernel c))) 0 values =
        tabulate c ny nx norm (fun _ => zeroWKernel c) 0 values :=
          fun norm => tabulate_congr hkernel
  simp only [build, haxes, hobstacle, ite_self, hplanes]
  -- every step is the same, up to the name at the end
  rw [map_bind_eq]
  refine bind_congr fun support => ?_
  rw [map_bind_eq]
  refine bind_congr fun _ => ?_
  rw [map_bind_eq]
  refine bind_congr fun table => ?_
  split
  · rfl
  · rw [map_bind_eq]
    refine bind_congr fun planes => ?_
    cases planes with
    | nil => rfl
    | cons plane planes => rfl

end Tabulate

/-! ## W projection -/

/-- Every plane of zero w is the zero-w kernel. -/
theorem Built.isZeroW {c : Config ℝ} {values : List (PlaneValue ℝ)} {cellSize : CellSize ℝ}
    {ny nx : ℤ} {cache : Cache ℝ} {support : ℕ} {table : Tensor (Cplx ℝ)}
    {kernel : ℝ → Raster (Cplx ℝ)} {planes : List (Tensor (Cplx ℝ) × ℕ)}
    (h : Built c (some Variant.chirpTerm) values cellSize ny nx cache support table kernel planes)
    {k : ℕ} (hk : cache.planeValues[k]? = some 0) : cache.IsZeroW k := by
  obtain ⟨du, dv, -, hkernel⟩ := h.kernel_term _ rfl
  have hzero : kernel 0 = zeroWKernel c := by rw [hkernel, planeKernel_zero]
  rw [h.cache_values, List.getElem?_map] at hk
  obtain ⟨v, hv, hvalue⟩ := Option.map_eq_some_iff.1 hk
  obtain ⟨s, t, hs, ht, hplane⟩ := getElem_of_tabulate h.tabulated hv
  -- the same support and the same taps are found once more
  rw [hvalue, hzero] at hs ht
  obtain rfl : s = support := Except.ok.inj (hs.symm.trans h.found)
  obtain rfl : t = table := Except.ok.inj (ht.symm.trans h.tapped)
  constructor
  · rw [h.cache_planes, List.getElem?_map, hplane, h.cache_zeroW]
    rfl
  · refine ⟨s, ?_, ?_⟩
    · rw [h.cache_supports, List.getElem?_map, hplane]
      rfl
    · have hshape := shape_of_tapTable ht
      rw [h.cache_zeroW, h.cache_oversample]
      exact hshape

/-- In every cache of w projection that is built, the planes of zero w are the zero-w kernel. -/
theorem isZeroW_of_buildCache {m : Plane.Mapper ℝ} {p : Parameters ℝ} {cellSize : CellSize ℝ}
    {shape : List ℤ} {frequency : Setting ℝ} {cache : Cache ℝ}
    (h : (Variant.wprojection m p).buildCache cellSize shape frequency = .ok cache) {k : ℕ}
    (hk : cache.planeValues[k]? = some 0) : cache.IsZeroW k := by
  unfold Variant.buildCache at h
  generalize shape.reverse = lengths at h
  rcases lengths with _ | ⟨nx, _ | ⟨ny, rest⟩⟩
  · cases h
  · cases h
  · obtain ⟨c, -, h⟩ := exists_of_bind h
    obtain ⟨support, table, kernel, planes, hbuilt⟩ := exists_of_build h
    exact hbuilt.isZeroW hk

section Single

variable {m : Plane.Mapper ℝ}

/-- A single plane makes what the anti-aliasing function makes, or is refused as it is. -/
theorem buildCache_single (hm : m.count = 1) (p : Parameters ℝ) {cellSize : CellSize ℝ}
    (hcell : cellSize.values ≠ []) (shape : List ℤ) (frequency : Setting ℝ) :
    (Variant.wprojection m p).buildCache cellSize shape frequency =
      ((Variant.spheroidal p).buildCache cellSize shape frequency).map (·.named "wprojection") := by
  obtain ⟨⟨du, dv⟩, haxes⟩ := Option.ne_none_iff_exists'.1 (axes_ne_none hcell)
  have hvalues : m.planeValues.map PlaneValue.ofScalar = [.ofScalar 0] := by
    rw [Plane.Mapper.planeValues, Plane.values, if_pos hm]
    rfl
  have hkernel : ∀ c : Config ℝ, ∀ v ∈ [PlaneValue.ofScalar (0 : ℝ)],
      planeKernel c (1.0 / du, 1.0 / dv)
      Variant.chirpTerm (Fourier.raster .inverse (zeroWKernel c)) v.value = zeroWKernel c := by
    intro c v hv
    obtain rfl := List.mem_singleton.1 hv
    exact planeKernel_zero c _
  unfold Variant.buildCache
  rcases shape.reverse with _ | ⟨nx, _ | ⟨ny, rest⟩⟩
  · rfl
  · rfl
  · dsimp only
    rw [hvalues, map_bind_eq]
    exact bind_congr fun c => build_eq_map_named rfl haxes (hkernel c) _ _

/-- A single plane takes all samples, whatever their w. -/
theorem map_single (hm : m.count = 1) {nchan npol : ℕ} {vis : Visibility ℝ nchan npol}
    (hlisted : vis.bare = false) (hlength : vis.frequency.length = nchan) :
    m.map vis = .ok (PlaneMap.single vis) := by
  obtain ⟨wmax, count, spacing⟩ := m
  obtain rfl : count = 1 := hm
  have hindex : Plane.index spacing wmax 1 = fun _ : ℝ => 0 := rfl
  have hsize : (Plane.Mapper.wavelengths vis).length = volume [vis.rowCount, nchan] := by
    simp [Plane.Mapper.wavelengths, volume, Visibility.rowCount, List.length_flatMap,
      List.map_const', hlength]
  have hdata : ((Plane.Mapper.wavelengths vis).map (Plane.index spacing wmax 1)).toArray =
      Array.replicate (volume [vis.rowCount, nchan]) 0 := by
    rw [hindex, List.map_const', hsize, List.toArray_replicate]
  have hwithin := (PlaneMap.single vis).within
  unfold Plane.Mapper.map
  rw [Visibility.spectrum, hlisted]
  show PlaneMap.of? ⟨[vis.rowCount, vis.frequency.length], _, _⟩ 1 0 = _
  simp only [hdata, hlength]
  show PlaneMap.of? (PlaneMap.single vis).planes 1 0 = _
  unfold PlaneMap.of?
  rw [dif_pos fun p hp => (hwithin p hp).1, dif_pos ⟨Int.one_pos, fun p hp => (hwithin p hp).2⟩]
  rfl

/-- With a positive greatest w and a positive number of planes, w projection checks the shared
    parameters. -/
theorem wprojection_eq {wmax planes spacing : Setting ℝ} {greatest : ℝ} {n : ℤ}
    {kind : Plane.Spacing} (hplanes : planes.whole? = some n) (hn : 0 < n)
    (hwmax : wmax.number? = some greatest) (hpos : 0 < greatest)
    (hspacing : Plane.Spacing.check spacing = .ok kind) (request : Request ℝ) :
    Variant.wprojection? wmax planes spacing request =
      request.check.map (.wprojection ⟨greatest, n, kind⟩) := by
  have hrefused : ¬greatest ≤ 0.0 := by rwa [Scalar.zero_literal, not_le]
  unfold Variant.wprojection?
  rw [hplanes]
  dsimp only
  rw [if_neg (not_le.2 hn), pure_bind]
  split
  · cases hwmax
  · rw [hwmax]
    dsimp only
    rw [if_neg hrefused, pure_bind, hspacing]
    cases request.check with
    | error fault => rfl
    | ok p => rfl

/-- The constructors check the same parameters. -/
theorem wprojection_single {wmax planes spacing : Setting ℝ} {greatest : ℝ} {kind : Plane.Spacing}
    (hplanes : planes.whole? = some 1) (hwmax : wmax.number? = some greatest) (hpos : 0 < greatest)
    (hspacing : Plane.Spacing.check spacing = .ok kind) (args : Arguments ℝ) :
    Variant.wprojection? wmax planes spacing args.request =
      args.request.check.map (.wprojection ⟨greatest, 1, kind⟩) :=
  wprojection_eq hplanes Int.one_pos hwmax hpos hspacing args.request

end Single

end Kernel

end ApertureSynthesis
