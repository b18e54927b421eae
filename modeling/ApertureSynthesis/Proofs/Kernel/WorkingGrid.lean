/-
  The gridding function alone does not depend on the size of its working grid.

  The largest support sets the working grid, into the middle of which the gridding function is
  padded. Every working grid reaches more than three cells to either side of its centre, and beyond
  three cells there are zeros only, so neither the peak (`isGreatest_peak_zeroWKernel`) nor the
  distance of the farthest sample above a threshold (`extent_zeroWKernel_le_iff`) tells one grid
  from another. So supports agree, and are at most three if they are searched for; taps are counted
  from the centre and agree as well. Of a request only the largest support goes into the size
  (`fields_of_check`), hence `spheroidal_cache_eq`.
-/
import Mathlib
import ApertureSynthesis.Proofs.Kernel.Construction
import ApertureSynthesis.Proofs.Kernel.Support

namespace ApertureSynthesis.Kernel

/-! ## Samples of the zero-w kernel -/

section Samples

variable (c : Config ℝ)

theorem abs_zeroWKernel (j i : ℕ) :
    ((zeroWKernel c).get j i).abs = profile c.oversample (j - (workingSize c / 2 : ℕ)) *
      profile c.oversample (i - (workingSize c / 2 : ℕ)) := by
  rw [get_zeroWKernel, Cplx.abs_val, Cplx.val_ofReal, Complex.norm_real,
    Real.norm_of_nonneg (mul_nonneg (profile_nonneg _ _) (profile_nonneg _ _))]

theorem abs_le_of_profile_pos {oversample : ℕ} {d : ℤ} (h : 0 < profile oversample d) :
    |d| ≤ 3 * oversample := by
  by_contra hfar
  rw [profile, if_neg hfar] at h
  exact lt_irrefl 0 h

/-- The working grid has a sample at every distance from its centre that the gridding function
    reaches. -/
theorem exists_sample {d : ℤ} (hd : |d| ≤ 3 * c.oversample) :
    ∃ k < workingSize c, (k : ℤ) - (workingSize c / 2 : ℕ) = d := by
  obtain ⟨cells, hcells⟩ : ∃ cells, cells = max c.maxSupport antiAliasingSupport + 1 := ⟨_, rfl⟩
  have hfour : 4 ≤ cells := by
    have hthree : 3 ≤ max c.maxSupport antiAliasingSupport := Nat.le_max_right _ _
    omega
  have hsize : workingSize c = 2 * (cells * c.oversample) := by
    rw [workingSize, hcells, Nat.mul_assoc]
  have hreach : 4 * c.oversample ≤ cells * c.oversample := Nat.mul_le_mul_right _ hfour
  have hpos := c.oversample_pos
  rw [abs_le] at hd
  refine ⟨(d + (workingSize c / 2 : ℕ)).toNat, by omega, by omega⟩

theorem size_zeroWKernel_pos : 0 < (zeroWKernel c).data.size := by
  obtain ⟨hny, hnx⟩ := ny_zeroWKernel c
  rw [(zeroWKernel c).size_data, hny, hnx]
  exact Nat.mul_pos (workingSize_pos c) (workingSize_pos c)

/-- The peak is the greatest product of two samples of the gridding function at any distances. -/
theorem isGreatest_peak_zeroWKernel {peak : ℝ} (h : peak? (zeroWKernel c) = some peak) :
    IsGreatest {a | ∃ dy dx : ℤ, profile c.oversample dy * profile c.oversample dx = a} peak := by
  obtain ⟨⟨z, hz, hpeak⟩, hle⟩ := isGreatest_peak h
  obtain ⟨hny, hnx⟩ := ny_zeroWKernel c
  constructor
  · obtain ⟨j, i, -, -, rfl⟩ := Raster.mem_data_iff.1 hz
    rw [abs_zeroWKernel] at hpeak
    exact ⟨_, _, hpeak⟩
  · rintro a ⟨dy, dx, rfl⟩
    by_cases hnear : |dy| ≤ 3 * c.oversample ∧ |dx| ≤ 3 * c.oversample
    · obtain ⟨j, hj, rfl⟩ := exists_sample c hnear.1
      obtain ⟨i, hi, rfl⟩ := exists_sample c hnear.2
      rw [← abs_zeroWKernel]
      exact hle ⟨_, Raster.mem_data_iff.2 ⟨j, i, hny ▸ hj, hnx ▸ hi, rfl⟩, rfl⟩
    · -- beyond three cells there are zeros
      have hzero : profile c.oversample dy * profile c.oversample dx = 0 := by
        rcases not_and_or.1 hnear with hfar | hfar
        · rw [profile, if_neg hfar, zero_mul]
        · rw [profile, profile, if_neg hfar, mul_zero]
      rw [hzero]
      exact peak_nonneg h

theorem distance_le_iff (a b e : ℕ) : distance a b ≤ e ↔ |(a : ℤ) - b| ≤ e := by
  unfold distance
  rw [abs_le]
  split
  · omega
  · omega

/-- The extent is the greatest distance at which the gridding function is above a threshold. -/
theorem extent_zeroWKernel_le_iff {threshold : ℝ} (h : 0 ≤ threshold) (e : ℕ) :
    extent (zeroWKernel c) threshold ≤ e ↔
      ∀ d : ℤ, threshold < profile c.oversample 0 * profile c.oversample d → |d| ≤ e := by
  obtain ⟨hny, hnx⟩ := ny_zeroWKernel c
  have hpos := workingSize_pos c
  have hhalf : workingSize c / 2 < workingSize c := Nat.div_lt_self hpos one_lt_two
  rw [extent_le_iff (hny ▸ hpos) (hnx ▸ hpos)]
  constructor
  · intro hextent d hloud
    have hprofile : 0 < profile c.oversample d :=
      pos_of_mul_pos_right (h.trans_lt hloud) (profile_nonneg _ _)
    obtain ⟨k, hk, rfl⟩ := exists_sample c (abs_le_of_profile_pos hprofile)
    have hcross : OnCross (zeroWKernel c) (workingSize c / 2) k :=
      ⟨hny ▸ hhalf, hnx ▸ hk, .inl (by rw [hny])⟩
    have hrow := hextent _ k hcross (by rwa [abs_zeroWKernel, sub_self])
    rwa [← hny, apart_row, hnx, distance_le_iff] at hrow
  · rintro hdistance j i ⟨hj, hi, rfl | rfl⟩ hloud
    · rw [abs_zeroWKernel, hny, sub_self] at hloud
      rw [apart_row, hnx, distance_le_iff]
      exact hdistance _ hloud
    · rw [abs_zeroWKernel, hnx, sub_self, mul_comm] at hloud
      rw [apart_column, hny, distance_le_iff]
      exact hdistance _ hloud

end Samples

/-! ## Two working grids -/

section Grids

variable {c c' : Config ℝ}

theorem extent_zeroWKernel_congr (hoversample : c.oversample = c'.oversample) {threshold : ℝ}
    (h : 0 ≤ threshold) : extent (zeroWKernel c) threshold = extent (zeroWKernel c') threshold := by
  refine eq_of_forall_ge_iff fun e => ?_
  rw [extent_zeroWKernel_le_iff c h, extent_zeroWKernel_le_iff c' h, hoversample]

/-- Supports agree if everything but the largest one does. -/
theorem supportOf_zeroWKernel_congr (hoversample : c.oversample = c'.oversample)
    (hcutoff : c.cutoff = c'.cutoff) (hsupport : c.support = c'.support) :
    supportOf c (zeroWKernel c) = supportOf c' (zeroWKernel c') := by
  obtain ⟨peak, hpeak⟩ := exists_peak (size_zeroWKernel_pos c)
  obtain ⟨peak', hpeak'⟩ := exists_peak (size_zeroWKernel_pos c')
  have hgreatest := isGreatest_peak_zeroWKernel c hpeak
  rw [hoversample] at hgreatest
  obtain rfl : peak = peak' := hgreatest.unique (isGreatest_peak_zeroWKernel c' hpeak')
  have hcutoff_pos : 0 < c'.cutoff := Scalar.zero_literal ▸ c'.cutoff_pos
  have hthreshold : 0 ≤ c'.cutoff * peak := mul_nonneg hcutoff_pos.le (peak_nonneg hpeak)
  unfold supportOf
  rw [hsupport, findSupport?_eq hpeak c.oversample_pos, findSupport?_eq hpeak' c'.oversample_pos,
    hoversample, hcutoff, extent_zeroWKernel_congr hoversample hthreshold]

/-- A support that is searched for is not above that of the gridding function. -/
theorem support_le_three {s : ℕ} (hnone : c.support = none)
    (h : supportOf c (zeroWKernel c) = .ok s) :
    s ≤ 3 := by
  obtain ⟨peak, hpeak⟩ := exists_peak (size_zeroWKernel_pos c)
  have hcutoff_pos : 0 < c.cutoff := Scalar.zero_literal ▸ c.cutoff_pos
  have hthreshold : 0 ≤ c.cutoff * peak := mul_nonneg hcutoff_pos.le (peak_nonneg hpeak)
  have hextent : extent (zeroWKernel c) (c.cutoff * peak) ≤ 3 * c.oversample := by
    rw [extent_zeroWKernel_le_iff c hthreshold]
    intro d hloud
    have hreach := abs_le_of_profile_pos
      (pos_of_mul_pos_right (hthreshold.trans_lt hloud) (profile_nonneg _ _))
    exact_mod_cast hreach
  have hpos : (0 : ℝ) < c.oversample := Nat.cast_pos.2 c.oversample_pos
  unfold supportOf at h
  rw [hnone, findSupport?_eq hpeak c.oversample_pos] at h
  cases h
  rw [Nat.ceil_le, div_le_iff₀ hpos]
  exact_mod_cast hextent

/-- The taps of a half-width agree. -/
theorem tapTable_zeroWKernel_congr (hoversample : c.oversample = c'.oversample) {s : ℕ}
    {t t' : Tensor (Cplx ℝ)} (h : tapTable (α := ℝ) (zeroWKernel c) c.oversample s = .ok t)
    (h' : tapTable (α := ℝ) (zeroWKernel c') c'.oversample s = .ok t') : t = t' := by
  have hshape := shape_of_tapTable h
  have hshape' := shape_of_tapTable h'
  refine Tensor.ext_get (by rw [hshape, hshape', hoversample]) fun index hindex => ?_
  rw [hshape] at hindex
  obtain ⟨phases, v, u, rfl, hphases, hv, hu⟩ := Tensor.exists_of_within_raster
    (show Tensor.Within ([c.oversample, c.oversample] ++ [2 * s + 1, 2 * s + 1]) index from hindex)
  obtain ⟨front, dv, du, rfl, hfront, hdv, hdu⟩ := Tensor.exists_of_within_raster
    (show Tensor.Within ([] ++ [c.oversample, c.oversample]) phases from hphases)
  obtain rfl : front = [] := List.eq_nil_of_length_eq_zero (Tensor.length_of_within hfront)
  have hget := get_tapTable h hdv hdu (Nat.le_of_lt_succ hv) (Nat.le_of_lt_succ hu)
  have hget' := get_tapTable h' (hoversample ▸ hdv) (hoversample ▸ hdu) (Nat.le_of_lt_succ hv)
    (Nat.le_of_lt_succ hu)
  rw [hoversample] at hget
  exact hget.trans hget'.symm

end Grids

/-! ## Requests that differ in the largest support -/

theorem support_of_wholeWidths {r : Request ℝ} {support : Option ℤ} {m : ℤ}
    (h : r.wholeWidths? = some (support, m)) : support = r.support.whole? := by
  unfold Request.wholeWidths? at h
  split at h
  · cases h
  · rename_i habsent
    cases h
    rw [habsent]
    rfl
  · obtain ⟨s, hs, hpair⟩ := Option.map_eq_some_iff.1 h
    cases hpair
    exact hs.symm

/-- Half-widths with a point make a configuration only if the support that is fixed is whole. -/
theorem support_of_checkFractions {r : Request ℝ} {os : { n : ℕ // 0 < n }}
    {x : { c : ℝ // 0.0 < c ∧ c ≤ 1.0 }} {c : Config ℝ}
    (h : r.checkFractions os x = .ok (.fitting c)) :
    ∃ m, r.configure os x r.support.whole? m = .ok c := by
  unfold Request.checkFractions at h
  obtain ⟨m, -, h⟩ := exists_of_bind h
  dsimp only at h
  split at h
  · cases h
  · rename_i n hcells habsent
    obtain ⟨c, hc, h⟩ := exists_of_bind h
    cases h
    rw [habsent]
    exact ⟨n, hc⟩
  · rename_i n hgiven hcells
    split at h
    · rename_i s hs
      obtain ⟨c, hc, h⟩ := exists_of_bind h
      cases h
      rw [hs]
      exact ⟨n, hc⟩
    · obtain ⟨y, -, h⟩ := exists_of_bind h
      cases h

/-- A configuration has the samples per cell, the cutoff and the support of its request. -/
theorem fields_of_check {r : Request ℝ} {c : Config ℝ} (h : r.check = .ok (.fitting c)) :
    r.oversample.whole? = some (c.oversample : ℤ) ∧ r.cutoff.number? = some c.cutoff ∧
      c.support.map Int.ofNat = r.support.whole? := by
  unfold Request.check at h
  obtain ⟨os, hos, h⟩ := exists_of_bind h
  obtain ⟨x, hx, h⟩ := exists_of_bind h
  have hconfigure : ∃ m, r.configure os x r.support.whole? m = .ok c := by
    split at h
    · rename_i support m hwidths
      obtain ⟨c, hc, h⟩ := exists_of_bind h
      cases h
      rw [← support_of_wholeWidths hwidths]
      exact ⟨m, hc⟩
    · exact support_of_checkFractions h
  obtain ⟨m, hc⟩ := hconfigure
  obtain ⟨hoversample, hcutoff, hsupport, -⟩ := eq_of_configure hc
  refine ⟨?_, ?_, hsupport⟩
  · rw [whole_of_checkOversample hos, hoversample]
  · rw [number_of_checkCutoff hx, hcutoff]

/-- A cache of the anti-aliasing function has gone through a construction with the parameters. -/
theorem exists_built_of_spheroidal {p : Parameters ℝ} {cellSize : CellSize ℝ} {shape : List ℤ}
    {frequency : Setting ℝ} {cache : Cache ℝ}
    (h : (Variant.spheroidal p).buildCache cellSize shape frequency = .ok cache) :
    ∃ c ny nx support table kernel planes, p = .fitting c ∧
      Built c none [.ofScalar 0] cellSize ny nx cache support table kernel planes := by
  unfold Variant.buildCache at h
  generalize shape.reverse = lengths at h
  rcases lengths with _ | ⟨nx, _ | ⟨ny, rest⟩⟩
  · cases h
  · cases h
  · obtain ⟨c, hc, h⟩ := exists_of_bind h
    obtain ⟨support, table, kernel, planes, hbuilt⟩ := exists_of_build h
    refine ⟨c, ny, nx, support, table, kernel, planes, ?_, hbuilt⟩
    unfold Parameters.forGrid at hc
    split at hc
    · cases hc
      rfl
    · cases hc

/-- Whatever the samples per cell, the cutoff, the support and the cell size, and whatever the
    largest supports and the grids for which caches of the anti-aliasing function are built, the
    caches have the same supports, the same planes and the same zero-w kernel. Without a fixed
    support none is above three. -/
theorem spheroidal_cache_eq {r : Request ℝ} {maximum maximum' : Setting ℝ} {p p' : Parameters ℝ}
    (hp : { r with maxSupport := maximum }.check = .ok p)
    (hp' : { r with maxSupport := maximum' }.check = .ok p') {cellSize : CellSize ℝ}
    {shape shape' : List ℤ} {frequency frequency' : Setting ℝ} {cache cache' : Cache ℝ}
    (h : (Variant.spheroidal p).buildCache cellSize shape frequency = .ok cache)
    (h' : (Variant.spheroidal p').buildCache cellSize shape' frequency' = .ok cache') :
    cache.supports = cache'.supports ∧ cache.planes = cache'.planes ∧ cache.zeroW = cache'.zeroW ∧
      (r.support = .absent → ∀ s ∈ cache.supports, s ≤ 3) := by
  obtain ⟨c, ny, nx, support, table, kernel, planes, rfl, hbuilt⟩ := exists_built_of_spheroidal h
  obtain ⟨c', ny', nx', support', table', kernel', planes', rfl, hbuilt'⟩ :=
    exists_built_of_spheroidal h'
  obtain ⟨hos, hcutoff, hsupport⟩ := fields_of_check hp
  obtain ⟨hos', hcutoff', hsupport'⟩ := fields_of_check hp'
  have hoversample : c.oversample = c'.oversample :=
    Int.ofNat_inj.1 (Option.some.inj (hos.symm.trans hos'))
  have hfixed : c.support = c'.support :=
    Option.map_injective (fun _ _ => Int.ofNat.inj) (hsupport.trans hsupport'.symm)
  obtain rfl : support = support' := by
    have hfound := hbuilt.found
    rw [supportOf_zeroWKernel_congr hoversample
      (Option.some.inj (hcutoff.symm.trans hcutoff')) hfixed, hbuilt'.found] at hfound
    exact (Except.ok.inj hfound).symm
  obtain rfl : table = table' := tapTable_zeroWKernel_congr hoversample hbuilt.tapped hbuilt'.tapped
  have hzeroW : cache.zeroW = cache'.zeroW := by
    rw [hbuilt.cache_zeroW, hbuilt'.cache_zeroW, hoversample]
  refine ⟨?_, ?_, hzeroW, fun habsent s hs => ?_⟩
  · rw [hbuilt.cache_supports, hbuilt'.cache_supports, hbuilt.planes_eq, hbuilt'.planes_eq, hzeroW]
  · rw [hbuilt.cache_planes, hbuilt'.cache_planes, hbuilt.planes_eq, hbuilt'.planes_eq, hzeroW]
  · rw [hbuilt.cache_supports, hbuilt.planes_eq] at hs
    obtain rfl := List.mem_singleton.1 hs
    have hnone : c.support = none := by
      rw [show ({ r with maxSupport := maximum } : Request ℝ).support = r.support from rfl,
        habsent] at hsupport
      exact Option.map_eq_none_iff.1 hsupport
    exact Int.ofNat_le.2 (support_le_three hnone hbuilt.found)

/-- With a cutoff of one nothing is above the peak, so that a single tap remains. -/
theorem supportOf_of_cutoff_one {c : Config ℝ} (hnone : c.support = none) (hone : c.cutoff = 1) :
    supportOf c (zeroWKernel c) = .ok 0 := by
  obtain ⟨peak, hpeak⟩ := exists_peak (size_zeroWKernel_pos c)
  have hextent : extent (zeroWKernel c) (1 * peak) = 0 := by
    refine Nat.le_zero.1 ((extent_zeroWKernel_le_iff c (by linarith [peak_nonneg hpeak]) 0).2 ?_)
    intro d hloud
    rw [one_mul] at hloud
    exact absurd ((isGreatest_peak_zeroWKernel c hpeak).2 ⟨0, d, rfl⟩) (not_le.2 hloud)
  unfold supportOf
  rw [hnone, findSupport?_eq hpeak c.oversample_pos, hone, hextent, Nat.cast_zero,
    zero_div, Nat.ceil_zero]

/-- A single tap fits every grid with a cell. -/
theorem exists_spheroidal_of_cutoff_one {c : Config ℝ} (hnone : c.support = none)
    (hone : c.cutoff = 1) {cellSize : CellSize ℝ} (hcell : cellSize.values ≠ []) {ny nx : ℤ}
    (hfits : 1 ≤ min ny nx) :
    ∃ cache, (Variant.spheroidal (.fitting c)).buildCache cellSize
      [1, 1, ny, nx] .absent = .ok cache := by
  have hallowed : ∀ s plane value, supportOf c (zeroWKernel c) = .ok s →
      checkSupport c s plane value ny nx = .ok () := by
    intro s plane value hs
    rw [supportOf_of_cutoff_one hnone hone] at hs
    cases hs
    unfold checkSupport
    rw [if_neg (Nat.not_lt_zero _), if_neg (by omega)]
  cases hbuild : build c none [.ofScalar 0] cellSize ny nx "spheroidal" with
  | ok cache => exact ⟨cache, hbuild⟩
  | error fault =>
    have hterm : ∀ t ∈ (none : Option (PlaneTerm ℝ)), t.obstacle = none := fun t ht => nomatch ht
    rcases refused_of_build hterm (List.cons_ne_nil _ _) hcell hbuild with
      ⟨s, hs, hcheck⟩ | ⟨k, hk, s, hs, hcheck⟩
    · rw [hallowed s _ _ hs] at hcheck
      cases hcheck
    · rw [hallowed s _ _ hs] at hcheck
      cases hcheck

theorem exists_cache_of_cutoff_one {c : Config ℝ} (hnone : c.support = none) (hone : c.cutoff = 1)
    {ny nx : ℤ} (hfits : 1 ≤ min ny nx) :
    ∃ cache, (Variant.spheroidal (.fitting c)).buildCache (.single 1)
      [1, 1, ny, nx] .absent = .ok cache :=
  exists_spheroidal_of_cutoff_one hnone hone
    (show (CellSize.single (1 : ℝ)).values ≠ [] from List.cons_ne_nil _ _) hfits

/-- Two samples per cell and a search that leaves a single tap. -/
noncomputable def searchedRequest : Request ℝ where
  oversample := .whole 2
  cutoff := .real 1

/-- Its parameters for a largest support. -/
noncomputable def searchedConfig (n : ℕ) (hn : 0 < n) : Config ℝ :=
  ⟨2, 1, none, n, by decide, by norm_num, by norm_num, hn, by simp⟩

/-- A largest support of one on a grid of a single cell, and one of nine on a larger grid. -/
theorem spheroidal_cache_eq_searched :
    ∃ p p' cache cache', { searchedRequest with maxSupport := .whole 1 }.check = .ok p ∧
      { searchedRequest with maxSupport := .whole 9 }.check = .ok p' ∧
      (Variant.spheroidal p).buildCache (.single 1) [1, 1, 1, 1] .absent = .ok cache ∧
      (Variant.spheroidal p').buildCache (.single 1) [1, 1, 5, 9] .absent = .ok cache' ∧
      cache.planes = cache'.planes ∧ cache.zeroW = cache'.zeroW ∧ ∀ s ∈ cache'.supports, s ≤ 3 := by
  have hcutoff : (0.0 : ℝ) < 1 ∧ (1 : ℝ) ≤ 1.0 := by norm_num
  have hcheck : ∀ maximum,
      ({ searchedRequest with maxSupport := maximum } : Request ℝ).checkCutoff =
      .ok ⟨1, hcutoff⟩ := fun _ => dif_pos hcutoff
  have hp : ({ searchedRequest with maxSupport := .whole 1 } : Request ℝ).check =
      .ok (.fitting (searchedConfig 1 (by decide))) := by
    rw [Request.check, hcheck]
    rfl
  have hp' : ({ searchedRequest with maxSupport := .whole 9 } : Request ℝ).check =
      .ok (.fitting (searchedConfig 9 (by decide))) := by
    rw [Request.check, hcheck]
    rfl
  obtain ⟨cache, hcache⟩ := exists_cache_of_cutoff_one (c := searchedConfig 1 (by decide)) rfl rfl
    (show 1 ≤ min (1 : ℤ) 1 by decide)
  obtain ⟨cache', hcache'⟩ := exists_cache_of_cutoff_one (c := searchedConfig 9 (by decide)) rfl rfl
    (show 1 ≤ min (5 : ℤ) 9 by decide)
  obtain ⟨hsupports, hplanes, hzeroW, hthree⟩ := spheroidal_cache_eq hp hp' hcache hcache'
  exact ⟨_, _, cache, cache', hp, hp', hcache, hcache', hplanes, hzeroW, hsupports ▸ hthree rfl⟩

end ApertureSynthesis.Kernel
