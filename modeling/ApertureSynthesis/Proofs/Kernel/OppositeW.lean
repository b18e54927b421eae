/-
  Planes of opposite w are conjugate.

  The zero-w kernel is real and agrees with its mirror image, so its transform, the taper, is real
  and does so as well; the chirp of the opposite w is the conjugate chirp, and depends on squares of
  the direction cosines only, whatever the cell sizes along the two axes. So the image of a plane is
  even, and its transform for the opposite w is the conjugate (`planeKernel_neg`). Conjugate kernels
  have the same amplitudes, hence the same support, and conjugate tables of taps. `opposite_planes`
  puts this together for every cache of w projection that is built: the w of the planes are
  themselves antisymmetric.
-/
import Mathlib
import ApertureSynthesis.Proofs.Fourier.Symmetry
import ApertureSynthesis.Proofs.Kernel.BareTaper
import ApertureSynthesis.Proofs.Plane.Spacing

namespace ApertureSynthesis

namespace Cplx

theorem conj_zero : conj (0 : Cplx ℝ) = 0 := val_injective (by simp)

theorem abs_conj (z : Cplx ℝ) : (conj z).abs = z.abs := by
  rw [abs_val, abs_val, val_conj, Complex.norm_conj]

theorem divReal_conj (z : Cplx ℝ) (x : ℝ) : (conj z).divReal x = conj (z.divReal x) := by
  apply val_injective
  rw [val_divReal, val_conj, val_conj, val_divReal, map_div₀, Complex.conj_ofReal]

end Cplx

theorem Tensor.map_ofFn {β γ : Type} (g : β → γ) (shape : List ℕ) (f : List ℕ → β) :
    (ofFn shape f).map g = ofFn shape fun index => g (f index) := by
  refine ext_data rfl ?_
  simp only [map, ofFn, Array.map_ofFn]
  rfl

/-- Two planes of a cache are conjugate: their values are opposite, they have one half-width, and
    the taps of one are the conjugate taps of the other. -/
structure Cache.Conjugate (cache : Cache ℝ) (p q : ℕ) : Prop where
  /-- The planes have taps that are conjugate, -/
  taps : ∃ t, cache.planes[p]? = some t ∧ cache.planes[q]? = some (t.map Cplx.conj)
  /-- the same half-width -/
  support : ∃ s : ℤ, cache.supports[p]? = some s ∧ cache.supports[q]? = some s
  /-- and opposite values. -/
  value : ∃ w, cache.planeValues[p]? = some w ∧ cache.planeValues[q]? = some (-w)

namespace Kernel

open Cplx (conj_zero abs_conj divReal_conj)

/-! ## Conjugate kernels -/

section Conjugates

theorem peak_map_conj (k : Raster (Cplx ℝ)) : peak? (k.map Cplx.conj) = peak? k := by
  have hdata : (k.map Cplx.conj).data = k.data.map Cplx.conj := rfl
  unfold peak?
  by_cases hpos : 0 < k.data.size
  · rw [dif_pos (by rwa [hdata, Array.size_map]), dif_pos hpos]
    simp only [hdata, Array.foldl_map, Array.getElem_map, abs_conj]
  · rw [dif_neg (by rwa [hdata, Array.size_map]), dif_neg hpos]

theorem extent_map_conj (k : Raster (Cplx ℝ)) (threshold : ℝ) :
    extent (k.map Cplx.conj) threshold = extent k threshold := by
  unfold extent
  simp only [Raster.get_map_conj, abs_conj]
  rfl

/-- Conjugate kernels have the same support. -/
theorem supportOf_map_conj (c : Config ℝ) (k : Raster (Cplx ℝ)) :
    supportOf c (k.map Cplx.conj) = supportOf c k := by
  unfold supportOf findSupport?
  simp only [peak_map_conj, extent_map_conj]

theorem getInt_map_conj (k : Raster (Cplx ℝ)) (j i : ℤ) :
    (k.map Cplx.conj).getInt j i = Cplx.conj (k.getInt j i) := by
  unfold Raster.getInt
  split
  · exact k.get_map_conj _ _
  · exact conj_zero.symm

/-- The taps of conjugate kernels are conjugate. -/
theorem tapTable_map_conj {k : Raster (Cplx ℝ)} {oversample support : ℕ} {t : Tensor (Cplx ℝ)}
    (h : tapTable (α := ℝ) k oversample support = .ok t) :
    tapTable (α := ℝ) (k.map Cplx.conj) oversample support = .ok (t.map Cplx.conj) := by
  unfold tapTable at h ⊢
  rw [Raster.ny_map, Raster.nx_map]
  split at h
  · cases h
  · rename_i hos
    split at h
    · rename_i hholds
      cases h
      rw [if_neg hos, if_pos hholds, Tensor.map_ofFn]
      refine congrArg (fun f => Except.ok (Tensor.ofFn _ f)) (funext fun index => ?_)
      split
      · exact getInt_map_conj k _ _
      · exact conj_zero.symm
    · cases h

/-- Conjugate tables, divided by the same sums, are conjugate. -/
theorem normalise_map_conj (t : Tensor (Cplx ℝ)) (norm : Raster ℝ) :
    normalise (t.map Cplx.conj) norm = (normalise t norm).map Cplx.conj := by
  have hget : ∀ index, (t.map Cplx.conj).get index = Cplx.conj (t.get index) := by
    intro index
    by_cases hin : Tensor.Within t.shape index
    · exact Tensor.get_map Cplx.conj hin
    · rw [Tensor.get_eq_zero hin, conj_zero]
      exact Tensor.get_eq_zero hin
  unfold normalise
  rw [Tensor.map_ofFn]
  refine congrArg (Tensor.ofFn t.shape) (funext fun index => ?_)
  split
  · rw [hget, divReal_conj]
  · exact conj_zero.symm

end Conjugates

/-! ## The image of a plane -/

section Image

variable (c : Config ℝ)

theorem two_dvd_workingSize : 2 ∣ workingSize c := by
  rw [workingSize, Nat.mul_assoc]
  exact Nat.dvd_mul_right 2 _

/-- The zero-w kernel agrees with its mirror image. -/
theorem isEven_zeroWKernel : Fourier.IsEven (zeroWKernel c) := by
  have heven := two_dvd_workingSize c
  obtain ⟨hny, hnx⟩ := ny_zeroWKernel c
  refine ⟨by rw [hny, hnx]; exact ⟨heven, heven⟩, ?_⟩
  rw [hny, hnx]
  intro j i hj hi
  have hprofile := profile_neg c.oversample
  rw [get_zeroWKernel, get_zeroWKernel, Fourier.apply_mirror hprofile heven hj,
    Fourier.apply_mirror hprofile heven hi]

theorem map_conj_zeroWKernel : (zeroWKernel c).map Cplx.conj = zeroWKernel c := by
  refine Raster.ext_get rfl rfl fun j i _ _ => ?_
  rw [Raster.get_map_conj, get_zeroWKernel]
  exact Cplx.val_injective (by rw [Cplx.val_conj, Cplx.val_ofReal, Complex.conj_ofReal])

/-- The taper on the working grid. -/
noncomputable def taperImage : Raster (Cplx ℝ) := Fourier.raster .inverse (zeroWKernel c)

theorem isEven_taperImage : Fourier.IsEven (taperImage c) :=
  Fourier.isEven_raster (isEven_zeroWKernel c) .inverse

/-- The taper is real. -/
theorem map_conj_taperImage : (taperImage c).map Cplx.conj = taperImage c := by
  rw [taperImage, ← Fourier.raster_map_conj (isEven_zeroWKernel c), map_conj_zeroWKernel]

theorem fresnelChirp_neg (l m w : ℝ) : fresnelChirp l m (-w) = Cplx.conj (fresnelChirp l m w) := by
  apply Cplx.val_injective
  rw [Cplx.val_conj, fresnelChirp, fresnelChirp, Cplx.val_cis, Cplx.val_cis, ← Complex.exp_conj,
    map_mul, Complex.conj_I, Complex.conj_ofReal]
  congr 1
  push_cast
  ring

/-- The taper times the chirp of a w, for fields of view along the two axes. -/
noncomputable def chirpedImage (fieldOfView : ℝ × ℝ) (w : ℝ) : Raster (Cplx ℝ) :=
  Raster.ofFn (workingSize c) (workingSize c) fun j i =>
    (taperImage c).get j i * fresnelChirp
      (Fourier.coordinate (workingSize c) i * (c.oversample : ℝ) * fieldOfView.1)
      (Fourier.coordinate (workingSize c) j * (c.oversample : ℝ) * fieldOfView.2) w

theorem planeKernel_eq (fieldOfView : ℝ × ℝ) (w : ℝ) :
    planeKernel c fieldOfView Variant.chirpTerm (Fourier.raster .inverse (zeroWKernel c)) w =
      Fourier.raster .forward (chirpedImage c fieldOfView w) := rfl

/-- The image of a plane agrees with its mirror image: the chirp takes squares of the direction
    cosines. -/
theorem isEven_chirpedImage (fieldOfView : ℝ × ℝ) (w : ℝ) :
    Fourier.IsEven (chirpedImage c fieldOfView w) := by
  have heven := two_dvd_workingSize c
  refine ⟨⟨heven, heven⟩, fun j i hj hi => ?_⟩
  have hj : j < workingSize c := hj
  have hi : i < workingSize c := hi
  have hpos : 0 < workingSize c := by omega
  have hsquare : ∀ (field : ℝ) {k : ℕ}, k < workingSize c →
      Fourier.coordinate (workingSize c) (Fourier.mirror (workingSize c) k) *
        (c.oversample : ℝ) * field *
        (Fourier.coordinate (workingSize c) (Fourier.mirror (workingSize c) k) *
          (c.oversample : ℝ) * field) =
      Fourier.coordinate (workingSize c) k * (c.oversample : ℝ) * field *
        (Fourier.coordinate (workingSize c) k * (c.oversample : ℝ) * field) := by
    intro field k hk
    refine Fourier.apply_mirror
      (f := fun d : ℤ => (d : ℝ) / (workingSize c : ℝ) * (c.oversample : ℝ) * field *
      ((d : ℝ) / (workingSize c : ℝ) * (c.oversample : ℝ) * field)) ?_ heven hk
    intro d
    push_cast
    ring
  have htaper : (taperImage c).get (Fourier.mirror (workingSize c) j)
      (Fourier.mirror (workingSize c) i) = (taperImage c).get j i := by
    have hget := (isEven_taperImage c).get_mirror j i
    have hny : (taperImage c).ny = workingSize c := (ny_zeroWKernel c).1
    have hnx : (taperImage c).nx = workingSize c := (ny_zeroWKernel c).2
    rw [hny, hnx] at hget
    exact hget hj hi
  show (chirpedImage c fieldOfView w).get (Fourier.mirror (workingSize c) j)
    (Fourier.mirror (workingSize c) i) = (chirpedImage c fieldOfView w).get j i
  rw [chirpedImage, Raster.get_ofFn _ (Fourier.mirror_lt hpos j) (Fourier.mirror_lt hpos i),
    Raster.get_ofFn _ hj hi, htaper, fresnelChirp, fresnelChirp, hsquare _ hj, hsquare _ hi]

/-- The image for the opposite w is the conjugate image. -/
theorem chirpedImage_neg (fieldOfView : ℝ × ℝ) (w : ℝ) :
    chirpedImage c fieldOfView (-w) = (chirpedImage c fieldOfView w).map Cplx.conj := by
  refine Raster.ext_get rfl rfl fun j i hj hi => ?_
  have hj : j < workingSize c := hj
  have hi : i < workingSize c := hi
  have hreal : Cplx.conj ((taperImage c).get j i) = (taperImage c).get j i := by
    conv_rhs => rw [← map_conj_taperImage, Raster.get_map_conj]
  rw [Raster.get_map_conj, chirpedImage, chirpedImage, Raster.get_ofFn _ hj hi,
    Raster.get_ofFn _ hj hi, fresnelChirp_neg]
  apply Cplx.val_injective
  rw [Cplx.val_mul, Cplx.val_conj, Cplx.val_conj, Cplx.val_mul, map_mul,
    ← Cplx.val_conj ((taperImage c).get j i), hreal]

/-- The kernel for the opposite w is the conjugate kernel. -/
theorem planeKernel_neg (fieldOfView : ℝ × ℝ) (w : ℝ) :
    planeKernel c fieldOfView Variant.chirpTerm (Fourier.raster .inverse (zeroWKernel c)) (-w) =
      (planeKernel c fieldOfView Variant.chirpTerm (Fourier.raster .inverse (zeroWKernel c)) w).map
        Cplx.conj := by
  rw [planeKernel_eq, planeKernel_eq, chirpedImage_neg,
    Fourier.raster_map_conj (isEven_chirpedImage c fieldOfView w)]

end Image

/-! ## Planes -/

/-- Planes of opposite values are conjugate. -/
theorem Built.conjugate {c : Config ℝ} {values : List (PlaneValue ℝ)} {cellSize : CellSize ℝ}
    {ny nx : ℤ} {cache : Cache ℝ} {support : ℕ} {table : Tensor (Cplx ℝ)}
    {kernel : ℝ → Raster (Cplx ℝ)} {planes : List (Tensor (Cplx ℝ) × ℕ)}
    (h : Built c (some Variant.chirpTerm) values cellSize ny nx cache support table kernel planes)
    {p q : ℕ} {w : ℝ} (hp : cache.planeValues[p]? = some w)
    (hq : cache.planeValues[q]? = some (-w)) :
    cache.Conjugate p q := by
  obtain ⟨du, dv, -, hkernel⟩ := h.kernel_term _ rfl
  have hopposite : kernel (-w) = (kernel w).map Cplx.conj := by rw [hkernel, planeKernel_neg]
  have hentry : ∀ {k : ℕ} {x : ℝ}, cache.planeValues[k]? = some x →
      ∃ s t, supportOf c (kernel x) = .ok s ∧ tapTable (α := ℝ) (kernel x) c.oversample s = .ok t ∧
        cache.planes[k]? = some (normalise t (tapSums table c.oversample (2 * support + 1))) ∧
          cache.supports[k]? = some (s : ℤ) := by
    intro k x hx
    rw [h.cache_values, List.getElem?_map] at hx
    obtain ⟨v, hv, rfl⟩ := Option.map_eq_some_iff.1 hx
    obtain ⟨s, t, hs, ht, hplane⟩ := getElem_of_tabulate h.tabulated hv
    refine ⟨s, t, hs, ht, ?_, ?_⟩
    · rw [h.cache_planes, List.getElem?_map, hplane]
      rfl
    · rw [h.cache_supports, List.getElem?_map, hplane]
      rfl
  obtain ⟨s, t, hs, ht, htaps, hsupport⟩ := hentry hp
  obtain ⟨s', t', hs', ht', htaps', hsupport'⟩ := hentry hq
  -- the conjugate kernel has the same support and the conjugate table
  rw [hopposite, supportOf_map_conj, hs] at hs'
  obtain rfl : s = s' := Except.ok.inj hs'
  rw [hopposite, tapTable_map_conj ht] at ht'
  obtain rfl : t.map Cplx.conj = t' := Except.ok.inj ht'
  rw [normalise_map_conj] at htaps'
  exact ⟨⟨_, htaps, htaps'⟩, ⟨_, hsupport, hsupport'⟩, w, hp, hq⟩

/-- What the constructor of w projection makes has the number of planes that it was given. -/
theorem exists_of_wprojection {wmax planes spacing : Setting ℝ} {request : Request ℝ}
    {variant : Variant ℝ} (h : Variant.wprojection? wmax planes spacing request = .ok variant) :
    ∃ (m : Plane.Mapper ℝ) (p : Parameters ℝ), variant = .wprojection m p ∧
      planes.whole? = some m.count := by
  have hlast : ∀ {greatest : ℝ} {n : ℤ}, planes.whole? = some n →
      (request.check >>= fun p => Plane.Spacing.check spacing >>= fun kind =>
        pure (Variant.wprojection ⟨greatest, n, kind⟩ p)) = Except.ok variant →
      ∃ (m : Plane.Mapper ℝ) (p : Parameters ℝ), variant = .wprojection m p ∧
        planes.whole? = some m.count := by
    intro greatest n hn hrest
    obtain ⟨p, -, hrest⟩ := exists_of_bind hrest
    obtain ⟨kind, -, hrest⟩ := exists_of_bind hrest
    cases hrest
    exact ⟨_, p, rfl, hn⟩
  unfold Variant.wprojection? at h
  dsimp only at h
  split at h
  · rename_i n hn
    split at h
    · cases h
    · rw [pure_bind] at h
      split at h
      · cases h
      · split at h
        · cases h
        · split at h
          · cases h
          · exact hlast hn h
  · cases h

/-- In every cache of w projection that is built, whatever the greatest w, the number of planes, the
    spacing, the shared parameters, the shape and the cell sizes along the two axes, the planes at
    the same distance from both ends have opposite w, one half-width and conjugate taps. -/
theorem opposite_planes {wmax planes spacing : Setting ℝ} {request : Request ℝ}
    {variant : Variant ℝ} (hvariant : Variant.wprojection? wmax planes spacing request =
      .ok variant) {cellSize : CellSize ℝ}
    {shape : List ℤ} {frequency : Setting ℝ} {cache : Cache ℝ}
    (hcache : variant.buildCache cellSize shape frequency = .ok cache) :
    ∃ n : ℕ, planes.whole? = some (n : ℤ) ∧ 0 < n ∧ cache.planeCount = n ∧
      cache.supports.length = n ∧
      cache.planeValues.length = n ∧ ∀ p < n, cache.Conjugate p (n - 1 - p) := by
  obtain ⟨m, parameters, rfl, hplanes⟩ := exists_of_wprojection hvariant
  unfold Variant.buildCache at hcache
  generalize shape.reverse = lengths at hcache
  rcases lengths with _ | ⟨nx, _ | ⟨ny, rest⟩⟩
  · cases hcache
  · cases hcache
  · obtain ⟨c, -, hcache⟩ := exists_of_bind hcache
    obtain ⟨support, table, kernel, tables, hbuilt⟩ := exists_of_build hcache
    have hvalues : cache.planeValues = m.planeValues := by
      rw [hbuilt.cache_values, List.map_map]
      exact List.map_id _
    have hne : m.planeValues ≠ [] := fun hnil => hbuilt.values_ne (by rw [hnil]; rfl)
    obtain ⟨hcount, hlength⟩ := length_values m.spacing m.wmax hne
    have hn : (m.count.toNat : ℤ) = m.count := Int.toNat_of_nonneg hcount.le
    have hlength : m.planeValues.length = m.count.toNat := Int.ofNat.inj (hlength.trans hn.symm)
    have hplaneCount : cache.planeCount = m.count.toNat := by
      rw [hbuilt.length_planes, List.length_map, hlength]
    refine ⟨m.count.toNat, by rw [hn, hplanes], by omega, hplaneCount,
      hbuilt.wellFormed.2.1.trans hplaneCount, by rw [hvalues, hlength], ?_⟩
    intro p hp
    obtain ⟨w, hw, hopposite⟩ := Plane.exists_opposite m.spacing m.wmax hcount hp
    exact hbuilt.conjugate (by rw [hvalues]; exact hw) (by rw [hvalues]; exact hopposite)

/-- Three planes, with different cell sizes along the two axes. -/
theorem opposite_planes_narrow :
    ∃ variant cache,
        Variant.wprojection? (.real 1000) (.whole 3) (.text "quadratic") narrowRequest =
        .ok variant ∧
      variant.buildCache (.perAxis [1 / 4, 1 / 3]) [1, 1, 3, 4] .absent = .ok cache ∧
      cache.planeCount = 3 ∧ cache.Conjugate 0 2 ∧ cache.Conjugate 1 1 := by
  have hterm : ∀ t ∈ some (Variant.chirpTerm (α := ℝ)), t.obstacle = none := by
    intro t ht
    obtain rfl := Option.some.inj ht
    rfl
  have hvalues : (Plane.values .quadratic (1000 : ℝ) 3).map PlaneValue.ofScalar ≠ [] :=
    List.cons_ne_nil _ _
  have hcell : (CellSize.perAxis [(1 / 4 : ℝ), 1 / 3]).values ≠ [] := List.cons_ne_nil _ _
  obtain ⟨c, cache, hc, hbuild⟩ :=
    exists_build_narrow hterm hvalues hcell (show 3 ≤ min (3 : ℤ) 4 by decide) "wprojection"
  have hvariant : Variant.wprojection? (.real 1000) (.whole 3) (.text "quadratic") narrowRequest =
      .ok (.wprojection ⟨1000, 3, .quadratic⟩ (.fitting c)) := by
    rw [wprojection_eq (n := 3) rfl (by decide) rfl (by norm_num) rfl, hc]
    rfl
  have hcache : (Variant.wprojection ⟨1000, 3, .quadratic⟩ (.fitting c)).buildCache
      (.perAxis [1 / 4, 1 / 3]) [1, 1, 3, 4] .absent = .ok cache := hbuild
  obtain ⟨n, hplanes, -, hcount, -, -, hconjugate⟩ := opposite_planes hvariant hcache
  obtain rfl : n = 3 := by exact_mod_cast (Option.some.inj hplanes).symm
  exact ⟨_, cache, hvariant, hcache, hcount, hconjugate 0 (by decide), hconjugate 1 (by decide)⟩

end Kernel

end ApertureSynthesis
