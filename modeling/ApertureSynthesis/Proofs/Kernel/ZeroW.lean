/-
  The kernel of zero w is real and symmetric about its centre.

  The anti-aliasing function is sampled at distances from the centre, padding keeps the centre at
  the centre, so a tap is the product of two samples of that function, one for each axis
  (`get_tapTable`). At the central phase a tap is a whole number of cells from the centre, so the
  taps there are real and agree with those on the other side of the middle (`Cache.EvenTaps`),
  whatever the planes are made of. Of the box function and the anti-aliasing function the zero-w
  kernel is the only plane (`Cache.Symmetric`).
-/
import Mathlib
import ApertureSynthesis.Proofs.Fourier.Padding
import ApertureSynthesis.Proofs.Fourier.Transform
import ApertureSynthesis.Proofs.Kernel.Phases
import ApertureSynthesis.Proofs.Kernel.Variant

namespace ApertureSynthesis

namespace Kernel

/-! ## The anti-aliasing function -/

/-- The gridding function at a number of samples from the centre, zero beyond its support. -/
noncomputable def profile (oversample : ℕ) (d : ℤ) : ℝ :=
  if |d| ≤ 3 * oversample then griddingFunction (((|d| : ℤ) : ℝ) / (3 * oversample : ℕ)) else 0

theorem profile_neg (oversample : ℕ) (d : ℤ) : profile oversample (-d) = profile oversample d := by
  rw [profile, profile, abs_neg]

theorem antiAliasingSample_eq {oversample k : ℕ} (hk : k ≤ 6 * oversample) :
    antiAliasingSample (α := ℝ) oversample k = profile oversample ((k : ℤ) - 3 * oversample) := by
  have hd : |(k : ℤ) - 3 * oversample| ≤ 3 * oversample := by
    rw [abs_le]
    omega
  rw [profile, if_pos hd, antiAliasingSample, Scalar.abs_real, Int.cast_abs]
  norm_num

theorem getInt_antiAliasing (oversample : ℕ) (dy dx : ℤ) :
    (antiAliasing (α := ℝ) oversample).getInt (3 * oversample + dy) (3 * oversample + dx) =
      profile oversample dy * profile oversample dx := by
  have hside : (6 * (oversample : ℤ) + 1).toNat = 6 * oversample + 1 := by omega
  have hsample : ∀ d : ℤ, |d| ≤ 3 * oversample →
      (Array.ofFn fun k : Fin (6 * (oversample : ℤ) + 1).toNat =>
        antiAliasingSample (α := ℝ) oversample k.val).getD (3 * oversample + d).toNat 0 =
      profile oversample d := by
    intro d hd
    rw [abs_le] at hd
    have hlt : (3 * (oversample : ℤ) + d).toNat < (6 * (oversample : ℤ) + 1).toNat := by omega
    rw [Fourier.getD_ofFn _ hlt]
    dsimp only
    rw [antiAliasingSample_eq (by omega)]
    congr 1
    omega
  by_cases hin : |dy| ≤ 3 * oversample ∧ |dx| ≤ 3 * oversample
  · have hy := abs_le.1 hin.1
    have hx := abs_le.1 hin.2
    unfold Raster.getInt
    rw [if_pos (by omega), antiAliasing, Raster.get_ofFn _ (by omega) (by omega), hsample dy hin.1,
      hsample dx hin.2]
  · have hzero : profile oversample dy * profile oversample dx = 0 := by
      rcases not_and_or.1 hin with hy | hx
      · rw [profile, if_neg hy, zero_mul]
      · rw [profile, profile, if_neg hx, mul_zero]
    rw [hzero]
    refine Raster.getInt_eq_zero _ ?_
    show ¬((0 ≤ _ ∧ _ < (((6 * (oversample : ℤ) + 1).toNat : ℕ) : ℤ)) ∧
      0 ≤ _ ∧ _ < (((6 * (oversample : ℤ) + 1).toNat : ℕ) : ℤ))
    rw [abs_le, abs_le] at hin
    omega

theorem getInt_map_ofReal (r : Raster ℝ) (j i : ℤ) :
    (r.map Cplx.ofReal).getInt j i = Cplx.ofReal (r.getInt j i) := by
  by_cases hin : (0 ≤ j ∧ j < r.ny) ∧ 0 ≤ i ∧ i < r.nx
  · unfold Raster.getInt
    rw [if_pos (by omega), if_pos (by omega), Raster.get_map _ _ (by omega) (by omega)]
  · rw [r.getInt_eq_zero hin, Raster.getInt_eq_zero _ (by exact hin)]
    rfl

theorem ny_antiAliasing (oversample : ℕ) :
    (antiAliasing (α := ℝ) oversample).ny = 6 * oversample + 1 ∧
      (antiAliasing (α := ℝ) oversample).nx = 6 * oversample + 1 :=
  ⟨Int.toNat_natCast (6 * oversample + 1), Int.toNat_natCast (6 * oversample + 1)⟩

/-- The working grid holds the anti-aliasing kernel. -/
theorem padTo_antiAliasing (c : Config ℝ) :
    Fourier.padTo? ((antiAliasing (α := ℝ) c.oversample).map Cplx.ofReal) (workingSize c) =
      some (zeroWKernel c) := by
  obtain ⟨hny, hnx⟩ := ny_antiAliasing c.oversample
  have hfits : 6 * c.oversample + 1 ≤ workingSize c := by
    have hpos := c.oversample_pos
    have hthree : 3 ≤ max c.maxSupport antiAliasingSupport := Nat.le_max_right _ _
    calc 6 * c.oversample + 1 ≤ 2 * (3 + 1) * c.oversample := by omega
      _ ≤ workingSize c := Nat.mul_le_mul_right _ (by omega)
  obtain ⟨r, hr⟩ :=
    Fourier.padTo_eq_some (a := (antiAliasing (α := ℝ) c.oversample).map Cplx.ofReal)
      (n := workingSize c) (by rw [Raster.ny_map, hny]; exact hfits)
      (by rw [Raster.nx_map, hnx]; exact hfits)
  rw [zeroWKernel, hr, Option.getD_some]

/-- The zero-w kernel about its centre. -/
theorem getInt_zeroWKernel (c : Config ℝ) (dy dx : ℤ) :
    (zeroWKernel c).getInt ((workingSize c / 2 : ℕ) + dy) ((workingSize c / 2 : ℕ) + dx) =
      Cplx.ofReal (profile c.oversample dy * profile c.oversample dx) := by
  obtain ⟨hny, hnx⟩ := ny_antiAliasing c.oversample
  have hcentre : (((6 * c.oversample + 1) / 2 : ℕ) : ℤ) = 3 * c.oversample := by omega
  rw [Fourier.getInt_padTo (padTo_antiAliasing c), Raster.ny_map, Raster.nx_map, hny, hnx, hcentre,
    getInt_map_ofReal, getInt_antiAliasing]

/-- A sample of the zero-w kernel by its distances from the centre. -/
theorem get_zeroWKernel (c : Config ℝ) {j i : ℕ} :
    (zeroWKernel c).get j i = Cplx.ofReal (profile c.oversample (j - (workingSize c / 2 : ℕ)) *
      profile c.oversample (i - (workingSize c / 2 : ℕ))) := by
  have hplace : ∀ k : ℕ, ((workingSize c / 2 : ℕ) : ℤ) + (k - (workingSize c / 2 : ℕ)) = k := by
    intro k
    omega
  rw [← getInt_zeroWKernel, hplace, hplace]
  rfl

/-! ## The zero-w kernel by phase and tap -/

/-- How many samples a tap of a phase is from the centre of the kernel. -/
def tapDistance (oversample support d t : ℕ) : ℤ :=
  ((d : ℤ) - (oversample / 2 : ℕ)) - oversample * ((t : ℤ) - support)

theorem samplePosition_eq_tapDistance (n oversample support d t : ℕ) :
    samplePosition n oversample support d t = ((n / 2 : ℕ) : ℤ) +
      tapDistance oversample support d t := by
  unfold samplePosition tapDistance
  ring

/-- At the central phase a tap is a whole number of cells from the centre. -/
theorem tapDistance_centre (oversample support t : ℕ) :
    tapDistance oversample support (oversample / 2) t = oversample * ((support : ℤ) - t) := by
  unfold tapDistance
  ring

theorem ny_zeroWKernel (c : Config ℝ) :
    (zeroWKernel c).ny = workingSize c ∧ (zeroWKernel c).nx = workingSize c :=
  Fourier.ny_padTo (padTo_antiAliasing c)

/-- A tap is the product of two samples of the gridding function. -/
theorem get_tapTable {c : Config ℝ} {s : ℕ} {t : Tensor (Cplx ℝ)}
    (h : tapTable (α := ℝ) (zeroWKernel c) c.oversample s = .ok t) {dv du v u : ℕ}
    (hdv : dv < c.oversample) (hdu : du < c.oversample) (hv : v ≤ 2 * s) (hu : u ≤ 2 * s) :
    t.get [dv, du, v, u] =
      Cplx.ofReal (profile c.oversample (tapDistance c.oversample s dv v) *
        profile c.oversample (tapDistance c.oversample s du u)) := by
  obtain ⟨-, -, -, -, hget⟩ := exists_of_tapTable h
  obtain ⟨hny, hnx⟩ := ny_zeroWKernel c
  rw [hget dv du v u hdv hdu hv hu, hny, hnx, samplePosition_eq_tapDistance,
    samplePosition_eq_tapDistance, getInt_zeroWKernel]

end Kernel

/-! ## Symmetric caches -/

/-- A real tap of the zero-w kernel at the central phase. -/
noncomputable def Cache.centralTap (c : Cache ℝ) (y x : ℕ) : ℝ :=
  (c.zeroW.get [c.oversample / 2, c.oversample / 2, y, x]).re

/-- The taps of the zero-w kernel at the central phase, of a half-width, are real and agree with
    those on the other side of the middle. -/
structure Cache.EvenTaps (c : Cache ℝ) (s : ℕ) : Prop where
  /-- There is a phase. -/
  oversample_pos : 0 < c.oversample
  /-- The kernel has a table of its half-width. -/
  shape : c.zeroW.shape = [c.oversample, c.oversample, 2 * s + 1, 2 * s + 1]
  /-- Central taps are real -/
  real : ∀ y ≤ 2 * s, ∀ x ≤ 2 * s,
    (c.zeroW.get [c.oversample / 2, c.oversample / 2, y, x]).val = (c.centralTap y x : ℂ)
  /-- and symmetric. -/
  even : ∀ y ≤ 2 * s, ∀ x ≤ 2 * s, c.centralTap (2 * s - y) (2 * s - x) = c.centralTap y x

/-- The only plane is the zero-w kernel, whose central taps are real and symmetric. -/
structure Cache.Symmetric (c : Cache ℝ) (s : ℕ) : Prop extends Cache.EvenTaps c s where
  /-- The only plane is that of zero w. -/
  planes : c.planes = [c.zeroW]
  /-- It has the half-width of its table. -/
  supports : c.supports = [(s : ℤ)]

namespace Kernel

/-- The box function has a single tap of one. -/
theorem get_zeroW_boxCache (cellSize : CellSize ℝ) :
    (Variant.boxCache cellSize).zeroW.get [0, 0, 0, 0] = (1 : Cplx ℝ) :=
  Tensor.get_fill 1 ⟨by decide, by decide, by decide, by decide, trivial⟩

theorem centralTap_boxCache (cellSize : CellSize ℝ) :
    (Variant.boxCache cellSize).centralTap 0 0 = 1 := by
  have hphase : (Variant.boxCache cellSize).oversample = 1 := rfl
  rw [Cache.centralTap, hphase, get_zeroW_boxCache]
  rfl

theorem symmetric_boxCache (cellSize : CellSize ℝ) : (Variant.boxCache cellSize).Symmetric 0 where
  oversample_pos := Nat.one_pos
  planes := rfl
  supports := rfl
  shape := rfl
  real y hy x hx := by
    obtain rfl : y = 0 := by omega
    obtain rfl : x = 0 := by omega
    have hphase : (Variant.boxCache cellSize).oversample = 1 := rfl
    rw [centralTap_boxCache, hphase, get_zeroW_boxCache]
    rfl
  even y hy x hx := by
    obtain rfl : y = 0 := by omega
    obtain rfl : x = 0 := by omega
    rfl

section Built

variable {c : Config ℝ} {term : Option (PlaneTerm ℝ)} {values : List (PlaneValue ℝ)}
  {cellSize : CellSize ℝ} {ny nx : ℤ} {cache : Cache ℝ} {support : ℕ} {table : Tensor (Cplx ℝ)}
  {kernel : ℝ → Raster (Cplx ℝ)} {planes : List (Tensor (Cplx ℝ) × ℕ)}

/-- Without a term, a single value makes the zero-w kernel once more. -/
theorem Built.planes_eq {v : PlaneValue ℝ}
    (h : Built c none [v] cellSize ny nx cache support table kernel planes) :
    planes = [(cache.zeroW, support)] := by
  have htabulated := h.tabulated
  rw [h.kernel_eq rfl] at htabulated
  unfold tabulate at htabulated
  obtain ⟨s, hs, htabulated⟩ := exists_of_bind htabulated
  obtain ⟨-, -, htabulated⟩ := exists_of_bind htabulated
  obtain ⟨t, ht, htabulated⟩ := exists_of_bind htabulated
  obtain ⟨others, hothers, htabulated⟩ := exists_of_bind htabulated
  cases hothers
  rw [h.found] at hs
  cases hs
  rw [h.tapped] at ht
  cases ht
  cases htabulated
  rw [h.cache_zeroW]

/-- The central taps of zero w, divided by their sum. -/
theorem Built.get_zeroW (h : Built c term values cellSize ny nx cache support table kernel planes)
    {y x : ℕ} (hy : y ≤ 2 * support) (hx : x ≤ 2 * support) :
    cache.zeroW.get [cache.oversample / 2, cache.oversample / 2, y, x] =
      Cplx.divReal (.ofReal (profile c.oversample (c.oversample * ((support : ℤ) - y)) *
        profile c.oversample (c.oversample * ((support : ℤ) - x))))
        ((tapSums table c.oversample (2 * support + 1)).get (c.oversample / 2)
          (c.oversample / 2)) := by
  have hphase : c.oversample / 2 < c.oversample := Nat.div_lt_self c.oversample_pos (by decide)
  have hwithin : Tensor.Within table.shape [c.oversample / 2, c.oversample / 2, y, x] := by
    rw [shape_of_tapTable h.tapped]
    exact ⟨hphase, hphase, by omega, by omega, trivial⟩
  rw [h.cache_zeroW, h.cache_oversample, normalise, Tensor.get_ofFn _ hwithin]
  dsimp only
  rw [get_tapTable h.tapped hphase hphase hy hx, tapDistance_centre, tapDistance_centre]

/-- Whatever its planes are, a cache that was built has symmetric central taps. -/
theorem Built.evenTaps (h : Built c term values cellSize ny nx cache support table kernel planes) :
    cache.EvenTaps support := by
  refine ⟨?_, ?_, fun y hy x hx => ?_, fun y hy x hx => ?_⟩
  · rw [h.cache_oversample]
    exact c.oversample_pos
  · have hshape := shape_of_tapTable h.tapped
    rw [h.cache_zeroW, h.cache_oversample]
    exact hshape
  · rw [Cache.centralTap, h.get_zeroW hy hx, Cplx.val_divReal, Cplx.val_ofReal,
      ← Complex.ofReal_div]
    rfl
  · -- on the other side of the middle the distance has the other sign
    have hside : ∀ t ≤ 2 * support, (support : ℤ) - (2 * support - t : ℕ) = -(support - t) := by
      intro t ht
      omega
    rw [Cache.centralTap, Cache.centralTap, h.get_zeroW hy hx,
      h.get_zeroW (y := 2 * support - y) (x := 2 * support - x) (by omega) (by omega),
      hside y hy, hside x hx, mul_neg, mul_neg, profile_neg, profile_neg]

/-- The anti-aliasing function alone makes a symmetric cache. -/
theorem Built.symmetric {v : PlaneValue ℝ}
    (h : Built c none [v] cellSize ny nx cache support table kernel planes) :
    cache.Symmetric support := by
  refine ⟨h.evenTaps, ?_, ?_⟩
  · rw [h.cache_planes, h.planes_eq]
    rfl
  · rw [h.cache_supports, h.planes_eq]
    rfl

end Built

/-- The box function and the anti-aliasing function make symmetric caches. -/
theorem symmetric_of_buildCache {variant : Variant ℝ} {cache : Cache ℝ} {cellSize : CellSize ℝ}
    {shape : List ℤ} {frequency : Setting ℝ}
    (h : variant.buildCache cellSize shape frequency = .ok cache)
    (hkind : variant = .box ∨ ∃ p, variant = .spheroidal p) : ∃ s, cache.Symmetric s := by
  rcases buildCache_cases h with ⟨-, rfl⟩ |
    ⟨c, term, values, ny, nx, support, table, kernel, planes, hbuilt, hvalues⟩
  · exact ⟨0, symmetric_boxCache _⟩
  · rcases hvalues with ⟨p, -, rfl, rfl⟩ | ⟨m, p, rfl, -⟩ | ⟨a, p, given, rfl⟩
    · exact ⟨support, hbuilt.symmetric⟩
    · rcases hkind with hbox | ⟨q, hq⟩
      · cases hbox
      · cases hq
    · rcases hkind with hbox | ⟨q, hq⟩
      · cases hbox
      · cases hq

end Kernel

end ApertureSynthesis
