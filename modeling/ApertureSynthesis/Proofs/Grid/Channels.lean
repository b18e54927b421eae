/-
  Which grid channel the channels of visibilities go to, on the axes of a square image.

  World coordinates have a linear spectral axis, with the distance of the first two channels as its
  increment. So the axes of an image of several channels have the frequencies `evenly f`, which are
  those that were asked for if and only if these are equally spaced. Then each channel is nearest to
  itself (`nearest?_getElem`), and gridding adds the samples of a channel to that channel of the
  grid and to no other (`square_axes_channels`). Otherwise channels can meet in one channel of the
  grid and leave another one empty (`channels_mixed`).
-/
import Mathlib
import ApertureSynthesis.Proofs.Grid.Gridding
import ApertureSynthesis.Proofs.Grid.Image

namespace ApertureSynthesis

/-! ## The nearest number -/

theorem improves_real (x best : ℝ) : improves x best = decide (x < best) := by
  unfold improves
  rw [Scalar.isNaN_real, Scalar.isNaN_real, Bool.not_false, Bool.true_and, Bool.false_or]

theorem leastFrom_of_le {best : ℝ} {xs : List ℝ} (h : ∀ x ∈ xs, best ≤ x) (found next : ℕ) :
    leastFrom best found next xs = found := by
  induction xs generalizing next with
  | nil => rfl
  | cons x xs ih =>
    have hle := h x List.mem_cons_self
    rw [leastFrom, improves_real, decide_eq_false (not_lt.2 hle)]
    exact ih (fun y hy => h y (List.mem_cons_of_mem x hy)) _

/-- A number below all that come before it, and not above any that comes after it, is found. -/
theorem leastFrom_append {best y : ℝ} {before after : List ℝ} (hbest : y < best)
    (hbefore : ∀ x ∈ before, y < x) (hafter : ∀ x ∈ after, y ≤ x) (found next : ℕ) :
    leastFrom best found next (before ++ y :: after) = next + before.length := by
  induction before generalizing best found next with
  | nil =>
    rw [List.nil_append, leastFrom, improves_real, decide_eq_true hbest]
    exact leastFrom_of_le hafter _ _
  | cons x before ih =>
    have hrest : ∀ z ∈ before, y < z := fun z hz => hbefore z (List.mem_cons_of_mem x hz)
    rw [List.cons_append, leastFrom, List.length_cons]
    split
    · rw [ih (hbefore x List.mem_cons_self) hrest]
      omega
    · rw [ih hbest hrest]
      omega

theorem least?_append {y : ℝ} {before after : List ℝ} (hbefore : ∀ x ∈ before, y < x)
    (hafter : ∀ x ∈ after, y ≤ x) : least? (before ++ y :: after) = some before.length := by
  cases before with
  | nil => exact congrArg some (leastFrom_of_le hafter 0 1)
  | cons x before =>
    have hfound := leastFrom_append (hbefore x List.mem_cons_self)
      (fun z hz => hbefore z (List.mem_cons_of_mem x hz)) hafter 0 1
    rw [List.cons_append, least?, hfound, List.length_cons, Nat.add_comm]

/-- Of distinct numbers each is nearest to itself. -/
theorem nearest?_getElem {f : List ℝ} (hf : f.Nodup) {i : ℕ} (hi : i < f.length) :
    nearest? f f[i] = some i := by
  have hsplit : f = f.take i ++ f[i] :: f.drop (i + 1) := by
    rw [List.cons_getElem_drop_succ, List.take_append_drop]
  have hself : Scalar.abs (f[i] - f[i]) = 0 := by rw [sub_self, Scalar.abs_real, abs_zero]
  have hmap : f.map (fun y => Scalar.abs (f[i] - y)) =
      (f.take i).map (fun y => Scalar.abs (f[i] - y)) ++
        0 :: (f.drop (i + 1)).map fun y => Scalar.abs (f[i] - y) := by
    rw [← hself, ← List.map_cons (f := fun y => Scalar.abs (f[i] - y)), ← List.map_append, ← hsplit]
  have hbefore : ∀ d ∈ (f.take i).map (fun y => Scalar.abs (f[i] - y)), 0 < d := by
    intro d hd
    obtain ⟨y, hy, rfl⟩ := List.mem_map.1 hd
    rw [Scalar.abs_real, abs_pos, sub_ne_zero]
    rintro rfl
    rw [hsplit] at hf
    exact (List.nodup_append.1 hf).2.2 _ hy _ List.mem_cons_self rfl
  have hafter : ∀ d ∈ (f.drop (i + 1)).map (fun y => Scalar.abs (f[i] - y)), 0 ≤ d := by
    intro d hd
    obtain ⟨y, -, rfl⟩ := List.mem_map.1 hd
    rw [Scalar.abs_real]
    exact abs_nonneg _
  rw [nearest?, hmap, least?_append hbefore hafter, List.length_map, List.length_take,
    Nat.min_eq_left hi.le]

/-! ## Frequencies of square images -/

/-- As many frequencies as there are, the first two of them and others at the same distance. -/
noncomputable def evenly (f : List ℝ) : List ℝ :=
  (List.range f.length).map fun i : ℕ => f.getD 0 0 + (i : ℝ) * (f.getD 1 0 - f.getD 0 0)

/-- Each frequency is as many times the distance of the first two from the first as it has channels
    before it. -/
def EquallySpaced (f : List ℝ) : Prop :=
  ∀ i, (hi : i < f.length) → f[i] = f.getD 0 0 + i * (f.getD 1 0 - f.getD 0 0)

theorem length_evenly (f : List ℝ) : (evenly f).length = f.length := by
  rw [evenly, List.length_map, List.length_range]

theorem evenly_eq_iff (f : List ℝ) : evenly f = f ↔ EquallySpaced f := by
  have hlength := length_evenly f
  have hget : ∀ i (hi : i < (evenly f).length),
      (evenly f)[i] = f.getD 0 0 + i * (f.getD 1 0 - f.getD 0 0) := by
    intro i hi
    simp only [evenly, List.getElem_map, List.getElem_range]
  constructor
  · intro heq i hi
    rw [← hget i (hlength ▸ hi)]
    simp only [heq]
  · intro hspaced
    refine List.ext_getElem hlength fun i hi hi' => ?_
    rw [hget, hspaced i hi']

/-- The world coordinates of several frequencies start at the first one and go on in steps of the
    distance to the second one. -/
theorem spectral_of_create {n : ℕ} {pixel : ℝ} {f widths : List ℝ}
    {centre : Option (SkyDirection ℝ)} {c : WorldCoordinates ℝ} (hlen : 2 ≤ f.length)
    (h : WorldCoordinates.create n pixel f widths centre = .ok c) :
    c.spectral.value = f.getD 0 0 ∧ c.spectral.step = f.getD 1 0 - f.getD 0 0 := by
  match f, hlen with
  | first :: second :: rest, _ =>
    cases h
    exact ⟨rfl, rfl⟩

/-- An image that is asked for by its frequencies has a channel for each of them. -/
theorem Image.exists_of_create {size pixel npol frequency : Setting ℝ} {widths : List (Setting ℝ)}
    {f : List ℝ} {im : Image ℝ} (hf : frequency.numbers = .ok f) (hlen : 2 ≤ f.length)
    (h : Image.create { size, pixel, npol, frequency, widths := .several widths } = .ok im) :
    ∃ c npol ny nx, im.coordinates = some c ∧ im.shape = [f.length, npol, ny, nx] ∧
      c.spectral.value = f.getD 0 0 ∧ c.spectral.step = f.getD 1 0 - f.getD 0 0 := by
  unfold Image.create at h
  rw [hf] at h
  obtain ⟨f', hf', h⟩ := exists_of_bind h
  cases hf'
  obtain ⟨widths, -, h⟩ := exists_of_bind h
  dsimp only at h
  rw [if_neg (by omega)] at h
  obtain ⟨angle, -, h⟩ := exists_of_bind h
  obtain ⟨_, -, h⟩ := exists_of_bind h
  obtain ⟨c, hc, h⟩ := exists_of_bind h
  obtain ⟨side, -, h⟩ := exists_of_bind h
  obtain ⟨nchan, hlength, h⟩ := exists_of_bind h
  cases hlength
  obtain ⟨npol, -, h⟩ := exists_of_bind h
  obtain ⟨kind, -, h⟩ := exists_of_bind h
  obtain ⟨shape, hshape, h⟩ := exists_of_bind h
  obtain ⟨_, -, h⟩ := exists_of_bind h
  obtain ⟨hvalue, hstep⟩ := spectral_of_create hlen hc
  match shape, mapM_eq_ok_iff.1 hshape with
  | [_, npol, ny, nx], .cons hfirst (.cons _ (.cons _ (.cons _ .nil))) =>
    obtain ⟨-, rfl⟩ := axisLength_eq_ok.1 hfirst
    cases h
    refine ⟨c, npol, ny, nx, rfl, ?_, hvalue, hstep⟩
    cases hk : kind.complex <;> rfl

/-- Pixels that are no points and two channels that differ have world coordinates with
    increments. -/
theorem WorldCoordinates.exists_create {pixel : ℝ} {f : List ℝ} (hpixel : pixel ≠ 0)
    (hlen : 2 ≤ f.length) (hstep : f.getD 1 0 ≠ f.getD 0 0) (n : ℕ) (widths : List ℝ)
    (centre : Option (SkyDirection ℝ)) :
    ∃ c, create n pixel f widths centre = .ok c ∧ c.checkSteps = .ok () ∧
      c.pixelSize = (|pixel|, |pixel|) := by
  match f, hlen with
  | first :: second :: rest, _ =>
    have hdegrees : toDegrees pixel ≠ 0 :=
      mul_ne_zero hpixel (div_ne_zero (by norm_num) Real.pi_ne_zero)
    have hspectral : second - first ≠ 0 := sub_ne_zero.2 hstep
    have hback : toRadians (toDegrees pixel) = pixel := by
      have hpi : (Scalar.pi : ℝ) ≠ 0 := Real.pi_ne_zero
      unfold toRadians toDegrees
      field_simp
    refine ⟨_, rfl, ?_, ?_⟩
    · unfold checkSteps axes
      rw [if_neg]
      simp [hdegrees, hspectral]
    · unfold WorldCoordinates.pixelSize
      simp only [hback, Scalar.abs_real]

/-- Square images of any size can be made, if the first two channels have different frequencies. -/
theorem Image.exists_create {n npol : ℤ} {pixel : ℝ} {frequency : Setting ℝ} {f : List ℝ}
    (hn : 0 ≤ n ∧ n < 2 ^ 63) (hnpol : 0 ≤ npol ∧ npol < 2 ^ 63) (hpixel : pixel ≠ 0)
    (hf : frequency.numbers = .ok f) (hlen : 2 ≤ f.length ∧ f.length < 2 ^ 63)
    (hstep : f.getD 1 0 ≠ f.getD 0 0) :
    ∃ im c,
      Image.create { size := .whole n, pixel := .real pixel, npol := .whole npol,
                     frequency := frequency, widths := .several [.real 1e6] } = .ok im ∧
      im.coordinates = some c ∧ im.shape = [f.length, npol.toNat, n.toNat, n.toNat] ∧
      c.pixelSize = (|pixel|, |pixel|) := by
  obtain ⟨c, hc, hsteps, hsize⟩ :=
    WorldCoordinates.exists_create hpixel hlen.1 hstep n.toNat [1e6] none
  have hshape : [(f.length : ℤ), npol, n, n].mapM (axisLength (α := ℝ)) =
      .ok [f.length, npol.toNat, n.toNat, n.toNat] := by
    refine mapM_eq_ok_iff.2 (.cons ?_ (.cons ?_ (.cons ?_ (.cons ?_ .nil))))
    · exact axisLength_eq_ok.2 ⟨by omega, rfl⟩
    · exact axisLength_eq_ok.2 ⟨hnpol, rfl⟩
    · exact axisLength_eq_ok.2 ⟨hn, rfl⟩
    · exact axisLength_eq_ok.2 ⟨hn, rfl⟩
  refine ⟨⟨.real (Tensor.fill [f.length, npol.toNat, n.toNat, n.toNat] 0), some c, .double⟩, c, ?_,
    rfl, rfl, hsize⟩
  unfold Image.create
  refine bind_eq_ok.2 ⟨f, hf, bind_eq_ok.2 ⟨[1e6], rfl, ?_⟩⟩
  dsimp only
  rw [if_neg (by omega)]
  refine bind_eq_ok.2
    ⟨pixel, rfl, bind_eq_ok.2 ⟨n, rfl, bind_eq_ok.2 ⟨c, hc, bind_eq_ok.2 ⟨n, rfl, ?_⟩⟩⟩⟩
  refine bind_eq_ok.2 ⟨f.length, rfl, bind_eq_ok.2 ⟨npol, rfl, bind_eq_ok.2 ⟨.double, rfl, ?_⟩⟩⟩
  exact bind_eq_ok.2 ⟨_, hshape, bind_eq_ok.2 ⟨(), hsteps, rfl⟩⟩

/-- An image of four axes with world coordinates has axes, with the frequencies of these. -/
theorem Axes.exists_ofImage {im : Image ℝ} {c : WorldCoordinates ℝ} {nchan npol ny nx : ℕ}
    (hc : im.coordinates = some c) (hshape : im.shape = [nchan, npol, ny, nx]) :
    ∃ axes, Axes.ofImage im = .ok axes ∧ axes.shape = [(nchan : ℤ), npol, ny, nx] ∧
      axes.pixelSize = sizes [c.pixelSize.1, c.pixelSize.2] ∧
      axes.frequency = (List.range nchan).map c.channelFrequency := by
  have hlocated : im.located = .ok c := by rw [Image.located, hc]
  have hfrequency : im.frequency = .ok ((List.range nchan).map c.channelFrequency) := by
    rw [Image.frequency, hlocated, hshape]
    rfl
  have hlength : ((List.range nchan).map c.channelFrequency).length = nchan := by
    rw [List.length_map, List.length_range]
  refine ⟨⟨nchan, npol, ny, nx, sizes [c.pixelSize.1, c.pixelSize.2],
    (List.range nchan).map c.channelFrequency, some c, hlength⟩, ?_, rfl, rfl, rfl⟩
  unfold Axes.ofImage
  rw [hlocated, hfrequency, hshape]
  exact dif_pos (congrArg Nat.cast hlength)

/-- There are axes of square images of any size. -/
theorem Axes.exists_ofSquare {n npol : ℤ} {pixel : ℝ} {frequency : Setting ℝ} {f : List ℝ}
    (hn : 0 ≤ n ∧ n < 2 ^ 63) (hnpol : 0 ≤ npol ∧ npol < 2 ^ 63) (hpixel : pixel ≠ 0)
    (hf : frequency.numbers = .ok f) (hlen : 2 ≤ f.length ∧ f.length < 2 ^ 63)
    (hdistinct : f.Nodup) :
    ∃ im axes, Axes.ofSquare (.whole n) (.real pixel) (.whole npol) frequency = .ok (im, axes) ∧
      axes.shape = [(f.length : ℤ), npol, n, n] ∧ axes.pixelSize = [|pixel|, |pixel|] ∧
      ∀ k ∈ [axes.npol, axes.ny, axes.nx], 0 ≤ k ∧ k < 2 ^ 63 := by
  have hstep : f.getD 1 0 ≠ f.getD 0 0 := by
    rw [List.getD_eq_getElem _ _ hlen.1, List.getD_eq_getElem _ _ (by omega), Ne,
      hdistinct.getElem_inj_iff]
    decide
  obtain ⟨im, c, him, hc, hshape, hpixels⟩ := Image.exists_create hn hnpol hpixel hf hlen hstep
  obtain ⟨axes, haxes, haxesShape, hsize, -⟩ := Axes.exists_ofImage hc hshape
  rw [Int.toNat_of_nonneg hn.1, Int.toNat_of_nonneg hnpol.1] at haxesShape
  refine ⟨im, axes, bind_eq_ok.2 ⟨im, him, bind_eq_ok.2 ⟨axes, haxes, rfl⟩⟩, haxesShape, ?_, ?_⟩
  · rw [hsize, hpixels]
    simp only [sizes, List.map_cons, List.map_nil, Scalar.abs_real, abs_abs]
  · have htail := congrArg List.tail haxesShape
    rw [show [axes.npol, axes.ny, axes.nx] = [npol, n, n] from htail]
    simp only [List.forall_mem_cons, List.not_mem_nil, false_imp_iff, forall_const]
    exact ⟨hnpol, hn, hn, trivial⟩

/-- Axes with two pixel sizes have a grid, if an array can have their lengths. -/
theorem Axes.exists_ofAxes {axes : Axes ℝ} {x y : ℝ} (hsize : axes.pixelSize = [x, y])
    (hlengths : ∀ n ∈ [axes.npol, axes.ny, axes.nx], 0 ≤ n ∧ n < 2 ^ 63) :
    ∃ own, Grid.ofAxes axes = .ok own ∧ own.nchan = axes.nchan ∧
      own.frequency = some axes.frequency := by
  have hcell : ∃ cell, axes.cellSize = .ok cell := by
    unfold Axes.cellSize Axes.cellSize? Axes.fieldOfView?
    rw [hsize]
    exact ⟨_, rfl⟩
  obtain ⟨cell, hcell⟩ := hcell
  exact ⟨_, Grid.ofAxes_eq_ok.2 ⟨hlengths, cell, hcell, rfl⟩, rfl, rfl⟩

/-- The axes of a square image of several channels have a channel for each of them, the frequencies
    of which are evenly spaced. -/
theorem Axes.frequency_ofSquare {n pixel npol frequency : Setting ℝ} {f : List ℝ} {im : Image ℝ}
    {axes : Axes ℝ} (hf : frequency.numbers = .ok f) (hlen : 2 ≤ f.length)
    (h : Axes.ofSquare n pixel npol frequency = .ok (im, axes)) :
    axes.nchan = f.length ∧ axes.frequency = evenly f := by
  obtain ⟨im', him, h⟩ := exists_of_bind h
  obtain ⟨axes', haxes, h⟩ := exists_of_bind h
  cases h
  obtain ⟨c, npol, ny, nx, hc, hshape, hvalue, hstep⟩ := Image.exists_of_create hf hlen him
  obtain ⟨axes', haxes', -, -, hfrequency⟩ := Axes.exists_ofImage hc hshape
  cases haxes.symm.trans haxes'
  have heq : axes.frequency = evenly f := by
    rw [hfrequency, evenly, ← hstep, ← hvalue]
    rfl
  refine ⟨?_, heq⟩
  rw [← axes.length_frequency, heq, length_evenly]

/-! ## Channels of visibilities on a grid -/

namespace Grid

open ComplexConjugate

/-- Visibilities of frequencies `f` are gridded channel by channel: the samples of a channel go to
    that channel of the grid, and to no other. -/
structure Separates (g : Grid ℝ) (f : List ℝ) : Prop where
  /-- There is a channel for each frequency. -/
  nchan : g.nchan = f.length
  /-- Each channel goes to the one of its number. -/
  channelsOf : ∀ {nchan npol : ℕ} (vis : Visibility ℝ nchan npol), vis.spectrum = .ok f →
    g.channelsOf vis = .ok (List.range f.length)
  /-- What a channel of the grid and its sums of weights get is the direct sum over the samples of
      that channel. -/
  gridded :
    ∀ {nchan npol : ℕ} {vis : Visibility ℝ nchan npol} {c : Cache ℝ} {map : PlaneMap}
      {l : Lattice ℝ}, Fit vis g c map l → vis.frequency = f →
      ∀ (interpolation : Interpolation) (sums : Option (Tensor ℝ)),
        (∀ t ∈ sums, t.shape = [g.nchan, g.npol]) →
      ∃ d, addVisibilities vis g c map sums interpolation = .ok d ∧
        (∀ ch p j i, ch < g.nchan → p < g.npol → j < g.ny → i < g.nx →
          (d.grid.get ch p j i).val = (g.get ch p j i).val +
            ∑ k ∈ Finset.range vis.rowCount, if (vis.sampleAt k ch p).flagged = false then
              ((vis.sampleAt k ch p).weight : ℂ) * (vis.sampleAt k ch p).value.val *
                conj (sampleKernel vis c map l interpolation k ch j i)
            else 0) ∧
        ∀ ch p, ch < g.nchan → p < g.npol →
          d.sumWeights.get [ch, p] = (sums.getD (Tensor.fill [g.nchan, g.npol] 0)).get [ch, p] +
            ∑ k ∈ Finset.range vis.rowCount, if (vis.sampleAt k ch p).flagged = false then
              (vis.sampleAt k ch p).weight *
                ‖∑ j ∈ Finset.range g.ny, ∑ i ∈ Finset.range g.nx,
                  sampleKernel vis c map l interpolation k ch j i‖ ^ 2
            else 0

/-- A grid of several distinct frequencies has its own channel for each of them. -/
theorem channelAt_getElem {g : Grid ℝ} {f : List ℝ} (hnchan : g.nchan ≠ 1)
    (hfrequency : g.frequency = some f) (hf : f.Nodup) {b : ℕ} (hb : b < f.length) :
    g.channelAt f[b] = b := by
  rw [channelAt, if_neg hnchan, hfrequency, Option.bind_some, nearest?_getElem hf hb,
    Option.getD_some]

/-- Of the terms of all channels those of one are left. -/
theorem sum_channel {M : Type} [AddCommMonoid M] {nchan ch : ℕ} (hch : ch < nchan) {channel : ℕ → ℕ}
    (hchannel : ∀ b < nchan, channel b = b) (P : ℕ → Prop) [DecidablePred P] (term : ℕ → M) :
    ∑ b ∈ Finset.range nchan, (if P b ∧ channel b = ch then term b else 0) =
      if P ch then term ch else 0 := by
  refine (Finset.sum_eq_single_of_mem ch (Finset.mem_range.2 hch) fun b hb hne => ?_).trans ?_
  · rw [if_neg]
    rintro ⟨-, heq⟩
    exact hne ((hchannel b (Finset.mem_range.1 hb)).symm.trans heq)
  · simp only [hchannel ch hch, and_true]

/-- A grid with a channel for each of several distinct frequencies separates them. -/
theorem separates_of_frequency {g : Grid ℝ} {f : List ℝ} (hnchan : g.nchan = f.length)
    (hlen : 2 ≤ f.length) (hfrequency : g.frequency = some f) (hf : f.Nodup) : Separates g f := by
  have hone : g.nchan ≠ 1 := by omega
  refine ⟨hnchan, fun vis hvis => ?_,
    fun {nchan npol vis c map l} h hvis interpolation sums hs => ?_⟩
  · unfold Grid.channelsOf
    rw [if_neg hone, hvis, hfrequency]
    match f, hlen with
    | first :: rest, _ =>
      refine congrArg Except.ok (List.ext_getElem ?_ fun i hi hi' => ?_)
      · rw [List.length_map, List.length_range]
      · rw [List.getElem_map, List.getElem_range, nearest?_getElem hf, Option.getD_some]
  · have hcount : nchan = f.length := by rw [← h.length_frequency, hvis]
    have hchannel : ∀ b < nchan, g.channelAt (vis.frequency.getD b 0) = b := by
      intro b hb
      rw [hvis, List.getD_eq_getElem _ _ (hcount ▸ hb), channelAt_getElem hone hfrequency hf]
    obtain ⟨d, hd, hadds⟩ := addVisibilities_adds h interpolation sums hs
    refine ⟨d, hd, fun ch p j i hch hp hj hi => ?_, fun ch p hch hp => ?_⟩
    · rw [hadds.cell ch p j i hch hp hj hi, directSum]
      refine congrArg _ (Finset.sum_congr rfl fun k _ => ?_)
      exact sum_channel (by omega) hchannel (fun b => (vis.sampleAt k b p).flagged = false) _
    · rw [hadds.weight ch p hch hp, directWeight]
      refine congrArg _ (Finset.sum_congr rfl fun k _ => ?_)
      exact sum_channel (by omega) hchannel (fun b => (vis.sampleAt k b p).flagged = false) _

end Grid

open Grid

/-- The axes of a square image of several distinct frequencies carry these frequencies if and only
    if they are equally spaced, and then the grids of the axes separate them. -/
theorem square_axes_channels {frequency : Setting ℝ} {f : List ℝ} (hf : frequency.numbers = .ok f)
    (hlen : 2 ≤ f.length) (hdistinct : f.Nodup) :
    (∀ (n npol : ℤ) (pixel : ℝ), (0 ≤ n ∧ n < 2 ^ 63) → (0 ≤ npol ∧ npol < 2 ^ 63) → pixel ≠ 0 →
      f.length < 2 ^ 63 →
      ∃ im axes own, Axes.ofSquare (.whole n) (.real pixel) (.whole npol) frequency =
        .ok (im, axes) ∧ Grid.ofAxes axes = .ok own) ∧
    ∀ n pixel npol im axes, Axes.ofSquare n pixel npol frequency = .ok (im, axes) →
      axes.frequency = evenly f ∧ (axes.frequency = f ↔ EquallySpaced f) ∧
      (EquallySpaced f → ∀ own g, Grid.ofAxes axes = .ok own → Alike own g → Separates g f) := by
  refine ⟨fun n npol pixel hn hnpol hpixel hcount => ?_, fun n pixel npol im axes h => ?_⟩
  · obtain ⟨im, axes, haxes, -, hsize, hlengths⟩ :=
      Axes.exists_ofSquare hn hnpol hpixel hf ⟨hlen, hcount⟩ hdistinct
    obtain ⟨own, hown, -⟩ := Axes.exists_ofAxes hsize hlengths
    exact ⟨im, axes, own, haxes, hown⟩
  · obtain ⟨hnchan, hfrequency⟩ := Axes.frequency_ofSquare hf hlen h
    refine ⟨hfrequency, by rw [hfrequency, evenly_eq_iff], fun hspaced own g hown halike => ?_⟩
    obtain ⟨-, cell, -, rfl⟩ := ofAxes_eq_ok.1 hown
    refine separates_of_frequency (halike.nchan.trans hnchan) hlen
      (halike.frequency.trans ?_) hdistinct
    exact congrArg some (hfrequency.trans ((evenly_eq_iff f).2 hspaced))

/-! ## Three channels -/

/-- Three frequencies at the same distance, the highest one first. -/
noncomputable def descending : List ℝ := [3e8, 2e8, 1e8]

/-- One row at the centre of the uv plane, the last channel flagged. -/
noncomputable def threeChannels : Visibility ℝ 3 1 where
  rows := [⟨0, 0, 0, #v[#v[⟨⟨1, 0⟩, 0.5, false⟩], #v[⟨⟨0, -1⟩, 1, false⟩], #v[⟨⟨1, 1⟩, 1, true⟩]]⟩]
  frequency := descending
  bare := false
  phaseCentre := none

/-- Three by three cells of one wavelength for each of them. -/
noncomputable def threeChannelGrid : Grid ℝ := empty 3 1 3 3 (.perAxis [1, 1]) (some descending)

theorem nodup_descending : descending.Nodup := by
  norm_num [descending]

theorem equallySpaced_descending : EquallySpaced descending := by
  intro i hi
  match i, hi with
  | 0, _ => norm_num [descending]
  | 1, _ => norm_num [descending]
  | 2, _ => norm_num [descending]

theorem fit_threeChannels :
    Fit threeChannels threeChannelGrid twoPhases (PlaneMap.single threeChannels)
      ⟨1, 1, 3, 3, 2⟩ where
  cache := fit_quarterVisibility.cache
  checked := by
    simp [checkFit, threeChannels, threeChannelGrid, empty, twoPhases, PlaneMap.single,
      Visibility.rowCount, Cache.planeCount, CellSize.agree?, CellSize.values, CellSize.close]
  listed := rfl
  length_frequency := rfl
  nchan_pos := by decide
  tuned := .inr ⟨descending, rfl, rfl⟩
  lattice := rfl

/-- The row lies on the middle of the grid. -/
theorem sampleKernel_threeChannels {b : ℕ} (hb : b < 3) :
    sampleKernel threeChannels twoPhases (PlaneMap.single threeChannels) ⟨1, 1, 3, 3, 2⟩ .linear
      0 b 1 1 = 1 := by
  have hplane := plane_single threeChannels 0 b
  have hhertz : threeChannels.frequency[b]? = some descending[b] := List.getElem?_eq_getElem hb
  have hzero : Visibility.wavelengths (0 : ℝ) descending[b] = 0 := zero_mul _
  have hposition : (0 / 1 + ((3 / 2 : ℕ) : ℝ)) * ((2 : ℕ) : ℝ) =
      ((1 * (2 : ℕ) : ℤ) : ℝ) := by norm_num
  rw [sampleKernel_eq _ _ (show threeChannels.rows[0]? = some threeChannels.rows[0] from rfl) hhertz
    (by rw [hplane]; rfl) (s := 0) (by rw [hplane]; rfl)]
  show kernelAt (Tensor.fill [2, 2, 1, 1] 1) 0 .linear 2
    (Lattice.positionV ⟨1, 1, 3, 3, 2⟩ (Visibility.wavelengths 0 descending[b]))
    (Lattice.positionU ⟨1, 1, 3, 3, 2⟩ (Visibility.wavelengths 0 descending[b])) 1 1 = 1
  rw [hzero, Lattice.positionV, Lattice.positionU, hposition, kernelAt_of_cell (by decide), tapAt,
    if_pos (by decide), Tensor.get_fill]
  · rfl
  · decide

/-- A square image of three channels takes each channel of the row to its own. -/
theorem square_axes_descending : ∃ frequency : Setting ℝ, frequency.numbers = .ok descending ∧
    2 ≤ descending.length ∧ descending.Nodup ∧ ∃ im axes,
      Axes.ofSquare (.whole 3) (.real (1 / 3)) (.whole 1) frequency = .ok (im, axes) ∧
      axes.frequency = descending ∧ Grid.ofAxes axes = .ok threeChannelGrid ∧
      ∃ d, addVisibilities threeChannels threeChannelGrid twoPhases
          (PlaneMap.single threeChannels) none .linear = .ok d ∧
        (d.grid.get 0 0 1 1).val = 1 / 2 ∧ (d.grid.get 1 0 1 1).val = -Complex.I ∧
        (d.grid.get 2 0 1 1).val = 0 := by
  have hnumbers : (Setting.several [.real 3e8, .real 2e8, .real 1e8] : Setting ℝ).numbers =
      .ok descending := rfl
  have hlen : 2 ≤ descending.length ∧ descending.length < 2 ^ 63 := ⟨by decide, by decide⟩
  obtain ⟨im, axes, h, hshape, hsize, -⟩ :=
    Axes.exists_ofSquare (show 0 ≤ (3 : ℤ) ∧ 3 < 2 ^ 63 by decide)
      (show 0 ≤ (1 : ℤ) ∧ 1 < 2 ^ 63 by decide) (show (1 / 3 : ℝ) ≠ 0 by norm_num) hnumbers hlen
      nodup_descending
  obtain ⟨-, hall⟩ := square_axes_channels hnumbers hlen.1 nodup_descending
  obtain ⟨-, hiff, hgrids⟩ := hall _ _ _ _ _ h
  have hfrequency := hiff.2 equallySpaced_descending
  obtain ⟨hcount, hnpol, hny, hnx⟩ : (axes.nchan : ℤ) = 3 ∧ axes.npol = 1 ∧ axes.ny = 3 ∧
    axes.nx = 3 := by
    simpa [Axes.shape, descending] using hshape
  have hnchan : axes.nchan = 3 := by omega
  have hcell : axes.cellSize = .ok (.perAxis [1, 1]) := by
    unfold Axes.cellSize Axes.cellSize? Axes.fieldOfView?
    rw [hsize, hnx, hny]
    norm_num
  have hown : Grid.ofAxes axes = .ok threeChannelGrid := by
    refine ofAxes_eq_ok.2 ⟨?_, _, hcell, ?_⟩
    · rw [hnpol, hny, hnx]
      decide
    · rw [hnchan, hnpol, hny, hnx, hfrequency]
      rfl
  have hseparates := hgrids equallySpaced_descending _ _ hown (Alike.refl _)
  obtain ⟨d, hd, hcells, -⟩ :=
    hseparates.gridded fit_threeChannels rfl .linear none fun t ht => by cases ht
  have hget : ∀ ch < 3, (d.grid.get ch 0 1 1).val =
      if (threeChannels.sampleAt 0 ch 0).flagged = false then
        ((threeChannels.sampleAt 0 ch 0).weight : ℂ) * (threeChannels.sampleAt 0 ch 0).value.val
      else 0 := by
    intro ch hch
    have hempty : (threeChannelGrid.get ch 0 1 1).val = 0 := by
      rw [Grid.get, threeChannelGrid, empty, Tensor.get_fill_zero, Cplx.val_zero]
    have hone : Finset.range threeChannels.rowCount = {0} := rfl
    rw [hcells ch 0 1 1 hch (by decide) (by decide) (by decide), hempty, hone, Finset.sum_singleton]
    simp only [Nat.cast_one, sampleKernel_threeChannels hch, map_one, mul_one, zero_add]
  refine ⟨_, hnumbers, hlen.1, nodup_descending, im, axes, h, hfrequency, hown, d, hd, ?_, ?_, ?_⟩
  · rw [hget 0 (by decide)]
    show (if false = false then ((0.5 : ℝ) : ℂ) * (⟨1, 0⟩ : Cplx ℝ).val else 0) = _
    apply Complex.ext <;> norm_num
  · rw [hget 1 (by decide)]
    show (if false = false then ((1 : ℝ) : ℂ) * (⟨0, -1⟩ : Cplx ℝ).val else 0) = _
    apply Complex.ext <;> norm_num
  · exact hget 2 (by decide)

/-! ## Uneven channels -/

/-- Frequencies at different distances. -/
noncomputable def uneven : List ℝ := [1e8, 1.1e8, 2e8, 3e8]

theorem evenly_uneven : evenly uneven = [1e8, 1.1e8, 1.2e8, 1.3e8] := by
  have hrange : List.range uneven.length = [0, 1, 2, 3] := rfl
  rw [evenly, hrange]
  norm_num [uneven]

/-- On the axes of a square image of uneven channels the third channel of visibilities goes to the
    fourth one of the grid, together with the fourth channel, and nothing goes to the third one. -/
theorem channels_mixed :
    ∃ frequency : Setting ℝ, frequency.numbers = .ok uneven ∧ 2 ≤ uneven.length ∧
    uneven.Nodup ∧ ∃ im axes own,
      Axes.ofSquare (.whole 4) (.real 0.25) (.whole 1) frequency = .ok (im, axes) ∧
      axes.frequency ≠ uneven ∧
      Grid.ofAxes axes = .ok own ∧ ∀ {nchan npol : ℕ} (vis : Visibility ℝ nchan npol),
        vis.spectrum = .ok uneven → own.channelsOf vis = .ok [0, 1, 3, 3] := by
  have hnumbers :
    (Setting.several [.real 1e8, .real 1.1e8, .real 2e8, .real 3e8] : Setting ℝ).numbers =
    .ok uneven := rfl
  have hlen : 2 ≤ uneven.length ∧ uneven.length < 2 ^ 63 := ⟨by decide, by decide⟩
  have hdistinct : uneven.Nodup := by norm_num [uneven]
  have heven : ([1e8, 1.1e8, 1.2e8, 1.3e8] : List ℝ).Nodup := by norm_num
  obtain ⟨im, axes, h, -, hsize, hlengths⟩ :=
    Axes.exists_ofSquare (show 0 ≤ (4 : ℤ) ∧ 4 < 2 ^ 63 by decide)
      (show 0 ≤ (1 : ℤ) ∧ 1 < 2 ^ 63 by decide) (show (0.25 : ℝ) ≠ 0 by norm_num)
      hnumbers hlen hdistinct
  obtain ⟨hnchan, hfrequency⟩ := Axes.frequency_ofSquare hnumbers hlen.1 h
  obtain ⟨own, hown, hcount, hchannels⟩ := Axes.exists_ofAxes hsize hlengths
  rw [evenly_uneven] at hfrequency
  -- the last one is nearest to all that are above it
  have hlast : ∀ x : ℝ, 1.3e8 < x → nearest? [1e8, 1.1e8, 1.2e8, 1.3e8] x = some 3 := by
    intro x hx
    have hdistance : ∀ y : ℝ, y ≤ 1.3e8 → Scalar.abs (x - y) = x - y := by
      intro y hy
      rw [Scalar.abs_real, abs_of_nonneg (by linarith)]
    have hmap : ([1e8, 1.1e8, 1.2e8, 1.3e8] : List ℝ).map (fun y => Scalar.abs (x - y)) =
        [x - 1e8, x - 1.1e8, x - 1.2e8] ++ (x - 1.3e8) :: [] := by
      simp only [List.map_cons, List.map_nil, List.cons_append, List.nil_append]
      rw [hdistance _ (by norm_num), hdistance _ (by norm_num), hdistance _ (by norm_num),
        hdistance _ le_rfl]
    rw [nearest?, hmap, least?_append _ fun y hy => by cases hy]
    · rfl
    · simp only [List.forall_mem_cons, List.not_mem_nil, false_imp_iff, forall_const]
      norm_num
  refine ⟨_, hnumbers, hlen.1, hdistinct, im, axes, own, h, ?_, hown, fun vis hvis => ?_⟩
  · rw [hfrequency]
    norm_num [uneven]
  · have hone : own.nchan ≠ 1 := by
      rw [hcount, hnchan]
      decide
    unfold Grid.channelsOf
    rw [if_neg hone, hvis, hchannels, hfrequency]
    show Except.ok (uneven.map fun x => (nearest? [1e8, 1.1e8, 1.2e8, 1.3e8] x).getD 0) = _
    have hfirst := nearest?_getElem heven (i := 0) (by decide)
    have hsecond := nearest?_getElem heven (i := 1) (by decide)
    simp only [List.getElem_cons_zero, List.getElem_cons_succ] at hfirst hsecond
    simp only [uneven, List.map_cons, List.map_nil, hfirst, hsecond, hlast 2e8 (by norm_num),
      hlast 3e8 (by norm_num), Option.getD_some]

end ApertureSynthesis
