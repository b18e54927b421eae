/-
  Tap tables sample the kernel at the right places.

  A lattice point of the grid splits into a cell and a phase, and a tap table into phases and taps.
  The two conventions belong together: the tap of a lattice point `q` for a grid cell `j` is the
  sample of the kernel that stands `q - oversample · j` from its centre
  (`samplePosition_of_lattice`). Along an axis, phases and taps number the samples of a window about
  the centre, each of them once (`existsUnique_samplePosition`), by division with remainder.
  `givenTapTable_samples` puts both axes together.
-/
import Mathlib
import ApertureSynthesis.Proofs.Grid.Lattice
import ApertureSynthesis.Proofs.Outcome
import ApertureSynthesis.Proofs.Tensor
import ApertureSynthesis.Kernel.Phases

namespace ApertureSynthesis.Kernel

open Grid (cellOf phaseOf phaseOf_nonneg phaseOf_lt)

/-! ## One axis -/

/-- The central window of an axis of `n` samples: `oversample` samples for each of `2 · support + 1`
    cells, where the centre of the axis has the place of phase `oversample / 2` in the middle
    cell. -/
def InWindow (n oversample support : ℕ) (y : ℤ) : Prop :=
  ((n / 2 : ℕ) : ℤ) - (oversample / 2 : ℕ) - oversample * support ≤ y ∧
    y < ((n / 2 : ℕ) : ℤ) - (oversample / 2 : ℕ) + oversample * (support + 1)

section Axis

variable {n oversample support : ℕ}

/-- Phases and taps are the digits of a sample's place in the window, taps counted from the far
    end. -/
theorem samplePosition_eq (d t : ℕ) :
    samplePosition n oversample support d t =
      ((n / 2 : ℕ) : ℤ) - (oversample / 2 : ℕ) - oversample * support +
        (oversample * (2 * support - t) + d) := by
  unfold samplePosition
  ring

theorem inWindow_samplePosition {d t : ℕ} (hd : d < oversample) (ht : t ≤ 2 * support) :
    InWindow n oversample support (samplePosition n oversample support d t) := by
  have hlow : 0 ≤ (oversample : ℤ) * (2 * support - t) := by
    refine mul_nonneg (by omega) ?_
    have : (t : ℤ) ≤ 2 * support := by exact_mod_cast ht
    linarith
  have hhigh : (oversample : ℤ) * (2 * support - t) ≤ oversample * (2 * support) := by
    refine mul_le_mul_of_nonneg_left ?_ (by omega)
    have : (0 : ℤ) ≤ t := Int.natCast_nonneg t
    linarith
  have hlt : (d : ℤ) < oversample := by exact_mod_cast hd
  have hd0 : (0 : ℤ) ≤ d := Int.natCast_nonneg d
  rw [samplePosition_eq]
  constructor
  · linarith
  · linarith

/-- Every sample of the window has one phase and one tap. -/
theorem existsUnique_samplePosition (hos : 0 < oversample) {y : ℤ}
    (hy : InWindow n oversample support y) :
    ∃! p : ℕ × ℕ, p.1 < oversample ∧ p.2 ≤ 2 * support ∧
      samplePosition n oversample support p.1 p.2 = y := by
  have hpos : (0 : ℤ) < oversample := by exact_mod_cast hos
  -- the place of the sample in the window, which lies below the length of the window
  obtain ⟨r, hr⟩ : ∃ r : ℤ, y = ((n / 2 : ℕ) : ℤ) - (oversample / 2 : ℕ) -
    oversample * support + r :=
    ⟨y - (((n / 2 : ℕ) : ℤ) - (oversample / 2 : ℕ) - oversample * support), by ring⟩
  have hr0 : 0 ≤ r := by linarith [hy.1]
  have hrlt : r < oversample * (2 * support + 1) := by linarith [hy.2]
  have hdivmod := Int.emod_add_mul_ediv r oversample
  have hmod0 := Int.emod_nonneg r hpos.ne'
  have hmodlt := Int.emod_lt_of_pos r hpos
  have hdiv0 : 0 ≤ r / oversample := Int.ediv_nonneg hr0 hpos.le
  have hdivlt : r / oversample < 2 * support + 1 := Int.ediv_lt_of_lt_mul hpos (by linarith)
  refine ⟨((r % oversample).toNat, (2 * support - r / oversample).toNat), ⟨?_, ?_, ?_⟩, ?_⟩
  · dsimp only
    omega
  · dsimp only
    omega
  · have hphase : ((r % oversample).toNat : ℤ) = r % oversample := Int.toNat_of_nonneg hmod0
    have htap : ((2 * support - r / oversample).toNat : ℤ) = 2 * support - r / oversample :=
      Int.toNat_of_nonneg (by omega)
    rw [samplePosition_eq, hphase, htap, hr, sub_sub_cancel]
    linarith
  · rintro ⟨d, t⟩ ⟨hd, ht, hposition⟩
    dsimp only at hd ht hposition
    rw [samplePosition_eq, hr] at hposition
    have hplace : (d : ℤ) + oversample * (2 * support - t) = r := by linarith
    have hd' : (d : ℤ) < oversample := by exact_mod_cast hd
    have hphase : r % oversample = d := by
      rw [← hplace, Int.add_mul_emod_self_left, Int.emod_eq_of_lt (by omega) hd']
    have htap : r / oversample = 2 * support - t := by
      rw [← hplace, Int.add_mul_ediv_left _ _ hpos.ne',
        Int.ediv_eq_zero_of_lt (by omega) hd', zero_add]
    rw [hphase, htap, sub_sub_cancel, Int.toNat_natCast, Int.toNat_natCast]

/-- The tap of a lattice point for a cell stands as far from the centre of the kernel as the lattice
    point from the cell. -/
theorem samplePosition_of_lattice (hos : 0 < oversample) {q j : ℤ}
    (hj : |j - cellOf oversample q| ≤ support) :
    samplePosition n oversample support (phaseOf oversample q).toNat
      (j - cellOf oversample q + support).toNat = ((n / 2 : ℕ) : ℤ) + q - oversample * j := by
  have hnear := abs_le.1 hj
  have hphase : ((phaseOf oversample q).toNat : ℤ) = phaseOf oversample q :=
    Int.toNat_of_nonneg (phaseOf_nonneg hos q)
  have htap : ((j - cellOf oversample q + support).toNat : ℤ) = j - cellOf oversample q + support :=
    Int.toNat_of_nonneg (by omega)
  unfold samplePosition
  rw [hphase, htap, phaseOf]
  ring

/-- An axis that holds the outermost taps holds the window. -/
theorem lt_of_holdsSupport (hos : 0 < oversample) (h : holdsSupport n oversample support = true)
    {y : ℤ} (hy : InWindow n oversample support y) : 0 ≤ y ∧ y < n := by
  obtain ⟨hfirst, hlast⟩ := of_decide_eq_true h
  rw [samplePosition_eq] at hfirst hlast
  have hcast : ((oversample - 1 : ℕ) : ℤ) = oversample - 1 := by omega
  obtain ⟨hlow, hhigh⟩ := hy
  rw [Nat.cast_mul, Nat.cast_ofNat, Nat.cast_zero] at hfirst
  rw [Nat.cast_zero, hcast] at hlast
  constructor
  · linarith
  · linarith

end Axis

/-! ## Tap tables -/

variable {α : Type} {β : Type} [Zero β]

/-- A table of taps that was made: there are phases, the kernel holds the window, and each entry is
    the sample at the position of its phases and taps. -/
theorem exists_of_tapTable {kernel : Raster β} {oversample support : ℕ} {t : Tensor β}
    (h : tapTable (α := α) kernel oversample support = .ok t) :
    0 < oversample ∧ holdsSupport kernel.ny oversample support = true ∧
      holdsSupport kernel.nx oversample support = true ∧
      t.shape = [oversample, oversample, 2 * support + 1, 2 * support + 1] ∧
      ∀ dv du v u, dv < oversample → du < oversample → v ≤ 2 * support → u ≤ 2 * support →
        t.get [dv, du, v, u] = kernel.getInt (samplePosition kernel.ny oversample support dv v)
          (samplePosition kernel.nx oversample support du u) := by
  unfold tapTable at h
  split at h
  · cases h
  · rename_i hos
    split at h
    · rename_i hholds
      obtain ⟨hrows, hcolumns⟩ := Bool.and_eq_true_iff.1 hholds
      cases h
      refine ⟨Nat.pos_of_ne_zero hos, hrows, hcolumns, rfl, fun dv du v u hdv hdu hv hu => ?_⟩
      have hwithin : Tensor.Within [oversample, oversample, 2 * support + 1, 2 * support + 1]
          [dv, du, v, u] := ⟨hdv, hdu, by omega, by omega, trivial⟩
      rw [Tensor.get_ofFn _ hwithin]
    · cases h

/-- Only whole numbers of samples and cells make a table. -/
theorem exists_of_givenTapTable [Scalar α] {kernel : Raster β} {oversample support : Setting α}
    {t : Tensor β} (h : givenTapTable kernel oversample support = .ok t) :
    ∃ os s : ℕ, oversample.whole? = some (os : ℤ) ∧ support.whole? = some (s : ℤ) ∧
      tapTable (α := α) kernel os s = .ok t := by
  unfold givenTapTable at h
  split at h
  · rename_i os s hos hs
    split at h
    · cases h
    · obtain ⟨hpos, -⟩ := exists_of_tapTable h
      refine ⟨os.toNat, s.toNat, ?_, ?_, h⟩
      · rw [hos, Int.toNat_of_nonneg (by omega)]
      · rw [hs, Int.toNat_of_nonneg (by omega)]
  · obtain ⟨os, -, h⟩ := exists_of_bind h
    obtain ⟨s, -, h⟩ := exists_of_bind h
    split at h
    · split at h
      · cases h
      · cases h
    · cases h

/-- Phases in v and u and taps in v and u that a table has. -/
def IsEntry (oversample support : ℕ) (index : ℕ × ℕ × ℕ × ℕ) : Prop :=
  index.1 < oversample ∧ index.2.1 < oversample ∧ index.2.2.1 ≤ 2 * support ∧
    index.2.2.2 ≤ 2 * support

/-- Row and column of the sample that a table of a kernel of `ny` by `nx` samples has there. -/
def samplePlace (ny nx oversample support : ℕ) (index : ℕ × ℕ × ℕ × ℕ) : ℤ × ℤ :=
  (samplePosition ny oversample support index.1 index.2.2.1,
    samplePosition nx oversample support index.2.1 index.2.2.2)

/-- Every sample of the window of both axes has one entry. -/
theorem existsUnique_samplePlace {ny nx oversample support : ℕ} (hos : 0 < oversample) {y x : ℤ}
    (hy : InWindow ny oversample support y) (hx : InWindow nx oversample support x) :
    ∃! index, IsEntry oversample support index ∧
      samplePlace ny nx oversample support index = (y, x) := by
  obtain ⟨⟨dv, v⟩, ⟨hdv, hv, hposv⟩, huniquev⟩ := existsUnique_samplePosition hos hy
  obtain ⟨⟨du, u⟩, ⟨hdu, hu, hposu⟩, huniqueu⟩ := existsUnique_samplePosition hos hx
  refine ⟨(dv, du, v, u), ⟨⟨hdv, hdu, hv, hu⟩, Prod.ext hposv hposu⟩, ?_⟩
  rintro ⟨dv', du', v', u'⟩ ⟨⟨hdv', hdu', hv', hu'⟩, hplace⟩
  obtain ⟨hposv', hposu'⟩ := Prod.ext_iff.1 hplace
  have hrow : (dv', v') = (dv, v) := huniquev _ ⟨hdv', hv', hposv'⟩
  have hcolumn : (du', u') = (du, u) := huniqueu _ ⟨hdu', hu', hposu'⟩
  cases hrow
  cases hcolumn
  rfl

/-- Every lattice point, positive or negative, is one cell and one phase, and for each grid cell
    that its taps reach the table has the sample of the kernel at that distance. Over all phases and
    taps every sample of the central window is read once. -/
theorem givenTapTable_samples [Scalar α] {kernel : Raster β} {oversample support : Setting α}
    {t : Tensor β} (h : givenTapTable kernel oversample support = .ok t) :
    ∃ os s : ℕ, oversample.whole? = some (os : ℤ) ∧ support.whole? = some (s : ℤ) ∧
      t.shape = [os, os, 2 * s + 1, 2 * s + 1] ∧
      (∀ q, 0 ≤ phaseOf os q ∧ phaseOf os q < os ∧
        os * cellOf os q + phaseOf os q - (os / 2 : ℕ) = q) ∧
      (∀ qv qu j i : ℤ, |j - cellOf os qv| ≤ s → |i - cellOf os qu| ≤ s →
        (0 ≤ (kernel.ny / 2 : ℕ) + qv - os * j ∧ (kernel.ny / 2 : ℕ) + qv - os * j < kernel.ny) ∧
        (0 ≤ (kernel.nx / 2 : ℕ) + qu - os * i ∧ (kernel.nx / 2 : ℕ) + qu - os * i < kernel.nx) ∧
        t.get [(phaseOf os qv).toNat, (phaseOf os qu).toNat, (j - cellOf os qv + s).toNat,
            (i - cellOf os qu + s).toNat] =
          kernel.getInt ((kernel.ny / 2 : ℕ) + qv - os * j) ((kernel.nx / 2 : ℕ) + qu - os * i)) ∧
      (∀ dv du v u, IsEntry os s (dv, du, v, u) →
        InWindow kernel.ny os s (samplePlace kernel.ny kernel.nx os s (dv, du, v, u)).1 ∧
        InWindow kernel.nx os s (samplePlace kernel.ny kernel.nx os s (dv, du, v, u)).2 ∧
        t.get [dv, du, v, u] =
          kernel.getInt (samplePlace kernel.ny kernel.nx os s (dv, du, v, u)).1
            (samplePlace kernel.ny kernel.nx os s (dv, du, v, u)).2) ∧
      ∀ y x, InWindow kernel.ny os s y → InWindow kernel.nx os s x →
        ∃! index, IsEntry os s index ∧ samplePlace kernel.ny kernel.nx os s index = (y, x) := by
  obtain ⟨os, s, hos, hs, htable⟩ := exists_of_givenTapTable h
  obtain ⟨hpos, hrows, hcolumns, hshape, hget⟩ := exists_of_tapTable htable
  refine ⟨os, s, hos, hs, hshape, fun q => ⟨phaseOf_nonneg hpos q, phaseOf_lt hpos q, ?_⟩, ?_, ?_,
    fun y x hy hx => existsUnique_samplePlace hpos hy hx⟩
  · unfold phaseOf
    ring
  · intro qv qu j i hj hi
    have htap : ∀ {k c : ℤ}, |k - c| ≤ s → (k - c + s).toNat ≤ 2 * s := by
      intro k c hk
      have := abs_le.1 hk
      omega
    have hphase : ∀ q, (phaseOf os q).toNat < os := by
      intro q
      have := phaseOf_lt hpos q
      omega
    -- the place in the table is an entry, so its sample is in the window, which the kernel holds
    have hv := inWindow_samplePosition (n := kernel.ny) (hphase qv) (htap hj)
    have hu := inWindow_samplePosition (n := kernel.nx) (hphase qu) (htap hi)
    have hentry := hget _ _ _ _ (hphase qv) (hphase qu) (htap hj) (htap hi)
    rw [samplePosition_of_lattice hpos hj] at hv hentry
    rw [samplePosition_of_lattice hpos hi] at hu hentry
    exact ⟨lt_of_holdsSupport hpos hrows hv, lt_of_holdsSupport hpos hcolumns hu, hentry⟩
  · rintro dv du v u ⟨hdv, hdu, hv, hu⟩
    exact ⟨inWindow_samplePosition hdv hv, inWindow_samplePosition hdu hu,
      hget dv du v u hdv hdu hv hu⟩

/-- Ten rows of nine samples, each with its row and column as digits. -/
def digitKernel : Raster ℕ := Raster.ofFn 10 9 fun j i => 10 * j + i

/-- Three samples per cell and one cell on each side. The lattice point five samples below the
    origin is in the cell below, a third of a cell off its middle; its tap for that cell is the
    sample one before the centre. -/
theorem givenTapTable_digitKernel :
    ∃ t, givenTapTable (α := ℝ) digitKernel (.whole 3) (.whole 1) = .ok t ∧
      cellOf 3 (-5) = -2 ∧ phaseOf 3 (-5) = 2 ∧ t.get [2, 1, 1, 0] = 67 := by
  obtain ⟨t, ht⟩ : ∃ t, givenTapTable (α := ℝ) digitKernel (.whole 3) (.whole 1) = .ok t := ⟨_, rfl⟩
  obtain ⟨os, s, hos, hs, -, hlattice, htaps, -, -⟩ := givenTapTable_samples ht
  obtain rfl : os = 3 := by exact_mod_cast (Option.some.inj hos).symm
  obtain rfl : s = 1 := by exact_mod_cast (Option.some.inj hs).symm
  obtain ⟨-, -, htap⟩ := htaps (-5) 0 (-2) (-1) (by decide) (by decide)
  exact ⟨t, ht, by decide, by decide, htap.trans (by decide)⟩

end ApertureSynthesis.Kernel
