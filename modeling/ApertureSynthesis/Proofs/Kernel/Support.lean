/-
  The support that is found is the smallest one, and its taps miss nothing.

  The search looks at the central row and the central column of a kernel. `extent` is the greatest
  distance from the centre of a sample above the threshold (`extent_le_iff`), and the support is
  that distance in cells, rounded up (`findSupport_eq`), for oversamplings with and without a point.
  So the support is the least one beyond which all is quiet, and it shrinks as the threshold grows.
  The window of the taps is not symmetric about the centre; it reaches `oversample / 2` further down
  and a whole cell less that much further up than the support, so it holds what is no farther than
  the support on either side (`inWindow_of_distance_le`). `findSupport_isLeast` puts this together.
-/
import Mathlib
import ApertureSynthesis.Proofs.Exact
import ApertureSynthesis.Proofs.Kernel.Phases

namespace ApertureSynthesis

/-- A whole number that a setting is, is the number that it is. -/
theorem Setting.number_of_whole {s : Setting ℝ} {n : ℤ} {x : ℝ} (hn : s.whole? = some n)
    (hx : s.number? = some x) : x = n := by
  cases s with
  | flag b =>
    obtain rfl : (if b then 1 else 0) = n := Option.some.inj hn
    obtain rfl : (if b then 1 else 0) = x := Option.some.inj hx
    cases b
    · exact Int.cast_zero.symm
    · exact Int.cast_one.symm
  | whole m =>
    obtain rfl : m = n := Option.some.inj hn
    exact (Option.some.inj hx).symm
  | absent => exact nomatch hn
  | real y => exact nomatch hn
  | text w => exact nomatch hn
  | several xs => exact nomatch hn
  | named xs => exact nomatch hn

/-- The values of a raster are those of its pixels. -/
theorem Raster.mem_data_iff {β : Type} [Zero β] {r : Raster β} {z : β} :
    z ∈ r.data ↔ ∃ j i, j < r.ny ∧ i < r.nx ∧ r.get j i = z := by
  constructor
  · intro hz
    obtain ⟨k, hk, rfl⟩ := Array.mem_iff_getElem.1 hz
    rw [r.size_data] at hk
    have hnx : 0 < r.nx := Nat.pos_of_ne_zero fun hzero => by
      rw [hzero, Nat.mul_zero] at hk
      exact Nat.not_lt_zero k hk
    have hj : k / r.nx < r.ny := Nat.div_lt_of_lt_mul (by rwa [Nat.mul_comm])
    have hi : k % r.nx < r.nx := Nat.mod_lt k hnx
    refine ⟨k / r.nx, k % r.nx, hj, hi, ?_⟩
    simp only [get, hj, hi, Nat.div_add_mod', and_self, dite_true]
  · rintro ⟨j, i, hj, hi, rfl⟩
    simp only [get, hj, hi, and_self, dite_true]
    exact Array.getElem_mem _

namespace Kernel

/-! ## The greatest amplitude -/

/-- The peak is the amplitude of a sample, and no sample has a greater one. -/
theorem isGreatest_peak {kernel : Raster (Cplx ℝ)} {peak : ℝ} (h : peak? kernel = some peak) :
    IsGreatest {a | ∃ z ∈ kernel.data, z.abs = a} peak := by
  unfold peak? at h
  split at h
  · rename_i hsize
    rw [Option.some.injEq] at h
    have hmax : (kernel.data[0].abs :: kernel.data.toList.map Cplx.abs).max? = some peak := by
      rw [List.max?_cons', List.foldl_map, Array.foldl_toList, ← h]
      simp only [Scalar.maximum_real]
    obtain ⟨hmem, hle⟩ := List.max?_eq_some_iff.1 hmax
    constructor
    · rcases List.mem_cons.1 hmem with hfirst | hlater
      · exact ⟨_, Array.getElem_mem hsize, hfirst.symm⟩
      · obtain ⟨z, hz, hpeak⟩ := List.mem_map.1 hlater
        exact ⟨z, Array.mem_toList_iff.1 hz, hpeak⟩
    · rintro a ⟨z, hz, rfl⟩
      exact hle _ (List.mem_cons_of_mem _ (List.mem_map_of_mem (Array.mem_toList_iff.2 hz)))
  · cases h

theorem exists_peak {kernel : Raster (Cplx ℝ)} (h : 0 < kernel.data.size) :
    ∃ peak, peak? kernel = some peak := ⟨_, dif_pos h⟩

theorem peak_nonneg {kernel : Raster (Cplx ℝ)} {peak : ℝ} (h : peak? kernel = some peak) :
    0 ≤ peak := by
  obtain ⟨⟨z, -, rfl⟩, -⟩ := isGreatest_peak h
  exact Real.sqrt_nonneg _

/-! ## The extent -/

section Extent

variable {α : Type} [Scalar α]

/-- A sample of the central row or of the central column. -/
def OnCross {β : Type} (kernel : Raster β) (j i : ℕ) : Prop :=
  j < kernel.ny ∧ i < kernel.nx ∧ (j = kernel.ny / 2 ∨ i = kernel.nx / 2)

/-- How far a sample is from the centre along the axis on which it is farther away. -/
def apart {β : Type} (kernel : Raster β) (j i : ℕ) : ℕ :=
  max (distance j (kernel.ny / 2)) (distance i (kernel.nx / 2))

theorem distance_self (a : ℕ) : distance a a = 0 := by
  unfold distance
  rw [if_pos le_rfl, Nat.sub_self]

theorem apart_row {β : Type} (kernel : Raster β) (i : ℕ) :
    apart kernel (kernel.ny / 2) i = distance i (kernel.nx / 2) := by
  rw [apart, distance_self, Nat.zero_max]

theorem apart_column {β : Type} (kernel : Raster β) (j : ℕ) :
    apart kernel j (kernel.nx / 2) = distance j (kernel.ny / 2) := by
  rw [apart, distance_self, Nat.max_zero]

theorem foldl_max_le_iff (xs : List ℕ) (m e : ℕ) :
    xs.foldl max m ≤ e ↔ m ≤ e ∧ ∀ x ∈ xs, x ≤ e := by
  have hmax : (m :: xs).max? = some (xs.foldl max m) := List.max?_cons'
  rw [List.max?_le_iff hmax, List.forall_mem_cons]

/-- The extent is the least bound for the distances of the samples above the threshold. -/
theorem extent_le_iff {kernel : Raster (Cplx α)} (hny : 0 < kernel.ny) (hnx : 0 < kernel.nx)
    (threshold : α) (e : ℕ) :
    extent kernel threshold ≤ e ↔
      ∀ j i, OnCross kernel j i → threshold < (kernel.get j i).abs → apart kernel j i ≤ e := by
  have hcy : kernel.ny / 2 < kernel.ny := Nat.div_lt_self hny one_lt_two
  have hcx : kernel.nx / 2 < kernel.nx := Nat.div_lt_self hnx one_lt_two
  -- a sample that is not above the threshold counts as one at the centre
  have hcount : ∀ (z : Cplx α) (d : ℕ),
      (if threshold < z.abs then d else 0) ≤ e ↔ (threshold < z.abs → d ≤ e) := by
    intro z d
    by_cases hloud : threshold < z.abs
    · simp only [hloud, if_true, forall_const]
    · simp only [hloud, if_false, Nat.zero_le, false_imp_iff]
  unfold extent
  simp only [foldl_max_le_iff, Nat.zero_le, true_and, List.forall_mem_append, List.forall_mem_map,
    List.mem_range, hcount]
  constructor
  · rintro ⟨hrows, hcolumns⟩ j i ⟨hj, hi, rfl | rfl⟩ hloud
    · rw [apart_row]
      exact hrows i hi hloud
    · rw [apart_column]
      exact hcolumns j hj hloud
  · intro h
    constructor
    · intro i hi hloud
      rw [← apart_row]
      exact h _ i ⟨hcy, hi, .inl rfl⟩ hloud
    · intro j hj hloud
      rw [← apart_column]
      exact h j _ ⟨hj, hcx, .inr rfl⟩ hloud

end Extent

section Quiet

variable {kernel : Raster (Cplx ℝ)}

/-- No sample of the central row and column that is farther than `reach` from the centre is above
    the threshold. -/
def QuietBeyond (kernel : Raster (Cplx ℝ)) (threshold reach : ℝ) : Prop :=
  ∀ j i, OnCross kernel j i → reach < apart kernel j i → (kernel.get j i).abs ≤ threshold

theorem extent_le_iff_quietBeyond (hny : 0 < kernel.ny) (hnx : 0 < kernel.nx) (threshold : ℝ)
    {reach : ℝ} (hreach : 0 ≤ reach) :
    (extent kernel threshold : ℝ) ≤ reach ↔ QuietBeyond kernel threshold reach := by
  rw [← Nat.le_floor_iff hreach, extent_le_iff hny hnx]
  refine forall₂_congr fun j i => forall_congr' fun _ => ?_
  rw [Nat.le_floor_iff hreach, ← not_lt, ← not_lt, imp_not_comm]

/-- Above a higher threshold there are no more samples than above a lower one. -/
theorem extent_antitone (hny : 0 < kernel.ny) (hnx : 0 < kernel.nx) {low high : ℝ}
    (h : low ≤ high) :
    extent kernel high ≤ extent kernel low :=
  (extent_le_iff hny hnx _ _).2 fun j i hcross hloud =>
    (extent_le_iff hny hnx _ _).1 le_rfl j i hcross (h.trans_lt hloud)

end Quiet

/-! ## The support -/

/-- Division of the negative, rounded down, is division rounded up. -/
theorem neg_fdiv_neg (e : ℕ) {n : ℤ} (hn : 0 < n) : -Int.fdiv (-(e : ℤ)) n = ⌈(e : ℝ) / n⌉ := by
  have hpos : (0 : ℝ) < n := Int.cast_pos.2 hn
  refine eq_of_forall_ge_iff fun c => ?_
  rw [Int.fdiv_eq_ediv_of_nonneg _ hn.le, neg_le, Int.le_ediv_iff_mul_le hn, neg_mul,
    neg_le_neg_iff, Int.ceil_le, div_le_iff₀ hpos]
  exact_mod_cast Iff.rfl

/-- The support is the extent in cells, rounded up. -/
theorem findSupport_eq {kernel : Raster (Cplx ℝ)} {peak : ℝ} (hpeak : peak? kernel = some peak)
    {oversample : Setting ℝ} {os : ℝ} (hos : oversample.number? = some os) (hone : 1 ≤ os)
    (cutoff : ℝ) :
    findSupport kernel oversample cutoff =
      .ok ((⌈(extent kernel (cutoff * peak) : ℝ) / os⌉₊ : ℕ) : ℤ) := by
  have hpos : 0 < os := lt_of_lt_of_le one_pos hone
  rw [Int.natCast_ceil_eq_ceil (div_nonneg (Nat.cast_nonneg _) hpos.le)]
  have hquotient : ∀ e : ℕ, findSupport.quotient e os = .ok ⌈(e : ℝ) / os⌉ := by
    intro e
    unfold findSupport.quotient
    have hzero : (os == 0) = false := beq_eq_false_iff_ne.2 hpos.ne'
    simp only [hzero, Scalar.isNaN_real, Scalar.isFinite_real, Scalar.ceilInt_real,
      Bool.false_eq_true, if_false, if_true]
  unfold findSupport
  rw [hpeak, hos]
  cases hwhole : oversample.whole? with
  | none => exact hquotient _
  | some n =>
    obtain rfl : os = n := Setting.number_of_whole hwhole hos
    have hn : 0 < n := Int.cast_pos.1 hpos
    dsimp only
    rw [if_pos hn.ne', neg_fdiv_neg _ hn]

/-- For whole oversamplings the support is found by whole numbers alone. -/
theorem findSupport?_eq {kernel : Raster (Cplx ℝ)} {peak : ℝ} (hpeak : peak? kernel = some peak)
    {n : ℕ} (hn : 0 < n) (cutoff : ℝ) :
    findSupport? kernel n cutoff = some ⌈(extent kernel (cutoff * peak) : ℝ) / (n : ℝ)⌉₊ := by
  have hpos : (0 : ℝ) < n := Nat.cast_pos.2 hn
  unfold findSupport?
  rw [hpeak, Option.map_some]
  refine congrArg some (eq_of_forall_ge_iff fun c => ?_)
  rw [← Nat.ceilDiv_eq_add_pred_div, ceilDiv_le_iff_le_mul hn, Nat.ceil_le, div_le_iff₀ hpos,
    Nat.mul_comm]
  exact_mod_cast Iff.rfl

/-! ## The window of the taps -/

/-- What is no farther from the centre than the support is in the window. -/
theorem inWindow_of_distance_le {n oversample support y : ℕ} (hos : 0 < oversample)
    (h : distance y (n / 2) ≤ support * oversample) : InWindow n oversample support y := by
  have hhalf : oversample / 2 < oversample := Nat.div_lt_self hos one_lt_two
  rw [Nat.mul_comm] at h
  unfold distance at h
  unfold InWindow
  rw [mul_add, mul_one, ← Nat.cast_mul]
  constructor
  · split at h <;> omega
  · split at h <;> omega

/-! ## The main statement -/

/-- An empty kernel has no support. Any other has one for every oversampling from one on and every
    cutoff: it is the smallest number of cells beyond which no sample of the central row and column
    is above the cutoff times the peak. It is the one that constructions use, it never grows with
    the cutoff, and if the kernel holds its taps, they have every sample of the central row and
    column above the threshold. -/
theorem findSupport_isLeast (kernel : Raster (Cplx ℝ)) {oversample : Setting ℝ} {os : ℝ}
    (hos : oversample.number? = some os) (hone : 1 ≤ os) (cutoff : ℝ) :
    (kernel.data.size = 0 → findSupport kernel oversample cutoff = .error .mismatch) ∧
    (0 < kernel.data.size → ∃ (peak : ℝ) (s : ℕ),
      IsGreatest {a | ∃ z ∈ kernel.data, z.abs = a} peak ∧
      findSupport kernel oversample cutoff = .ok (s : ℤ) ∧
      IsLeast {c : ℕ | QuietBeyond kernel (cutoff * peak) (c * os)} s ∧
      (∀ n : ℕ, os = n → findSupport? kernel n cutoff = some s) ∧
      (∀ higher s', cutoff ≤ higher → findSupport kernel oversample higher = .ok s' → s' ≤ s) ∧
      ∀ t, givenTapTable kernel oversample (.whole s) = .ok t →
        ∀ j i, OnCross kernel j i → cutoff * peak < (kernel.get j i).abs →
          ∃ n dv du v u : ℕ, os = n ∧ IsEntry n s (dv, du, v, u) ∧
            samplePlace kernel.ny kernel.nx n s (dv, du, v, u) = ((j : ℤ), (i : ℤ)) ∧
            t.get [dv, du, v, u] = kernel.get j i) := by
  constructor
  · intro hempty
    have hnone : peak? kernel = none := dif_neg (by omega)
    unfold findSupport
    rw [hnone]
  intro hsize
  obtain ⟨peak, hpeak⟩ := exists_peak hsize
  have hny : 0 < kernel.ny := Nat.pos_of_ne_zero fun hzero => by
    rw [kernel.size_data, hzero, Nat.zero_mul] at hsize
    exact Nat.not_lt_zero 0 hsize
  have hnx : 0 < kernel.nx := Nat.pos_of_ne_zero fun hzero => by
    rw [kernel.size_data, hzero, Nat.mul_zero] at hsize
    exact Nat.not_lt_zero 0 hsize
  have hpos : 0 < os := lt_of_lt_of_le one_pos hone
  -- a number of cells covers the extent if and only if all is quiet beyond it
  have hle : ∀ c : ℕ, ⌈(extent kernel (cutoff * peak) : ℝ) / os⌉₊ ≤ c ↔
      QuietBeyond kernel (cutoff * peak) (c * os) := by
    intro c
    rw [Nat.ceil_le, div_le_iff₀ hpos,
      extent_le_iff_quietBeyond hny hnx _ (mul_nonneg (Nat.cast_nonneg c) hpos.le)]
  refine ⟨peak, ⌈(extent kernel (cutoff * peak) : ℝ) / os⌉₊, isGreatest_peak hpeak,
    findSupport_eq hpeak hos hone cutoff, ⟨(hle _).1 le_rfl, fun c hc => (hle c).2 hc⟩, ?_, ?_, ?_⟩
  · rintro n rfl
    exact findSupport?_eq hpeak (Nat.cast_pos.1 hpos) cutoff
  · intro higher s' hcutoff hs'
    rw [findSupport_eq hpeak hos hone, Except.ok.injEq] at hs'
    have hthreshold := mul_le_mul_of_nonneg_right hcutoff (peak_nonneg hpeak)
    have hextent : (extent kernel (higher * peak) : ℝ) ≤ extent kernel (cutoff * peak) :=
      Nat.cast_le.2 (extent_antitone hny hnx hthreshold)
    rw [← hs']
    exact Int.ofNat_le.2 (Nat.ceil_mono (div_le_div_of_nonneg_right hextent hpos.le))
  · intro t ht j i hcross hloud
    obtain ⟨n, s, hn, hs, -, -, -, hentries, hplaces⟩ := givenTapTable_samples ht
    obtain rfl : os = (n : ℤ) := Setting.number_of_whole hn hos
    rw [Int.cast_natCast] at hpos hle hs
    obtain rfl : ⌈(extent kernel (cutoff * peak) : ℝ) / (n : ℝ)⌉₊ = s :=
      Int.ofNat_inj.1 (Option.some.inj hs)
    have hnear : apart kernel j i ≤ ⌈(extent kernel (cutoff * peak) : ℝ) / (n : ℝ)⌉₊ * n := by
      by_contra hfar
      have hfar' := Nat.cast_lt (α := ℝ).2 (not_le.1 hfar)
      rw [Nat.cast_mul] at hfar'
      exact absurd hloud (not_lt.2 ((hle _).1 le_rfl j i hcross hfar'))
    have hn' : 0 < n := Nat.cast_pos.1 hpos
    obtain ⟨⟨dv, du, v, u⟩, ⟨hentry, hplace⟩, -⟩ := hplaces j i
      (inWindow_of_distance_le hn' ((Nat.le_max_left _ _).trans hnear))
      (inWindow_of_distance_le hn' ((Nat.le_max_right _ _).trans hnear))
    obtain ⟨-, -, hget⟩ := hentries dv du v u hentry
    refine ⟨n, dv, du, v, u, Int.cast_natCast n, hentry, hplace, ?_⟩
    rw [hget, hplace]
    rfl

/-- Six rows and columns: one at the centre, and a half at the last sample of the central row. -/
noncomputable def lopsidedKernel : Raster (Cplx ℝ) :=
  Raster.ofFn 6 6 fun j i => if j = 3 ∧ i = 3 then 1 else if j = 3 ∧
    i = 5 then Cplx.ofReal 0.5 else 0

theorem abs_lopsidedKernel {j i : ℕ} (hj : j < 6) (hi : i < 6) : (lopsidedKernel.get j i).abs =
    if j = 3 ∧ i = 3 then 1 else if j = 3 ∧ i = 5 then 1 / 2 else 0 := by
  rw [lopsidedKernel, Raster.get_ofFn _ hj hi, Cplx.abs_val]
  split
  · rw [Cplx.val_one, norm_one]
  · split
    · rw [Cplx.val_ofReal, Complex.norm_real, Real.norm_of_nonneg (by norm_num)]
      norm_num
    · rw [Cplx.val_zero, norm_zero]

theorem peak_lopsidedKernel {peak : ℝ}
    (h : IsGreatest {a | ∃ z ∈ lopsidedKernel.data, z.abs = a} peak) : peak = 1 := by
  refine le_antisymm ?_ (h.2 ?_)
  · obtain ⟨z, hz, rfl⟩ := h.1
    obtain ⟨j, i, hj, hi, rfl⟩ := Raster.mem_data_iff.1 hz
    rw [abs_lopsidedKernel hj hi]
    split
    · exact le_rfl
    · split
      · norm_num
      · exact zero_le_one
  · exact ⟨lopsidedKernel.get 3 3, Raster.mem_data_iff.2 ⟨3, 3, by decide, by decide, rfl⟩,
      abs_lopsidedKernel (by decide) (by decide)⟩

/-- With two samples per cell the half is as far out as one cell, and is found among the taps. -/
theorem findSupport_lopsidedKernel :
    findSupport lopsidedKernel (.whole 2) (1 / 4) = .ok 1 ∧
      ∃ t, givenTapTable (α := ℝ) lopsidedKernel (.whole 2) (.whole 1) = .ok t ∧
        ∃ dv du v u, IsEntry 2 1 (dv, du, v, u) ∧
          t.get [dv, du, v, u] = lopsidedKernel.get 3 5 := by
  have hsize : lopsidedKernel.data.size = 36 := lopsidedKernel.size_data
  have hnumber : (Setting.whole 2 : Setting ℝ).number? = some ((2 : ℤ) : ℝ) := rfl
  obtain ⟨-, h⟩ := findSupport_isLeast lopsidedKernel hnumber (by norm_num) (1 / 4)
  obtain ⟨peak, s, hpeak, hs, hleast, -, -, htaps⟩ := h (by omega)
  obtain rfl := peak_lopsidedKernel hpeak
  have hone : s = 1 := by
    refine hleast.unique ⟨?_, ?_⟩
    · -- what is more than two samples from the centre is zero
      rintro j i ⟨hj, hi, -⟩ hfar
      have hj : j < 6 := hj
      have hi : i < 6 := hi
      have hfar : 2 < max (distance j 3) (distance i 3) := by exact_mod_cast hfar
      have hedge : j = 0 ∨ i = 0 := by
        unfold distance at hfar
        split at hfar <;> split at hfar <;> omega
      rw [abs_lopsidedKernel hj hi, if_neg (by omega), if_neg (by omega)]
      norm_num
    · intro c hc
      by_contra hzero
      obtain rfl : c = 0 := by omega
      have hquiet :=
        hc 3 5 ⟨by decide, by decide, .inl rfl⟩ (by norm_num [apart, distance, lopsidedKernel])
      rw [abs_lopsidedKernel (by decide) (by decide)] at hquiet
      norm_num at hquiet
  subst hone
  obtain ⟨t, ht⟩ : ∃ t, givenTapTable (α := ℝ) lopsidedKernel (.whole 2) (.whole 1) =
    .ok t := ⟨_, rfl⟩
  have hloud : 1 / 4 * 1 < (lopsidedKernel.get 3 5).abs := by
    rw [abs_lopsidedKernel (by decide) (by decide)]
    norm_num
  obtain ⟨n, dv, du, v, u, hn, hentry, -, hget⟩ :=
    htaps t ht 3 5 ⟨by decide, by decide, .inl rfl⟩ hloud
  obtain rfl : 2 = n := by exact_mod_cast hn
  exact ⟨hs, t, ht, dv, du, v, u, hentry, hget⟩

end Kernel

end ApertureSynthesis
