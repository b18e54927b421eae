/-
  The taper of symmetric taps is their transform.

  A corrector places the central taps in the middle of an image, transforms them, and keeps the real
  part. `response` is the sum over the taps that the transform is at one pixel. Taps on opposite
  sides have conjugate waves, so where they agree the sum is real, and dropping the imaginary part
  loses nothing.
-/
import Mathlib
import ApertureSynthesis.Proofs.Corrector
import ApertureSynthesis.Proofs.Fourier.Centred
import ApertureSynthesis.Proofs.Kernel.ZeroW
import ApertureSynthesis.Proofs.Sums

namespace ApertureSynthesis

open ComplexConjugate Finset

/-! ## Tensors stretched to their own shape -/

namespace Tensor

variable {β : Type}

theorem commonShape?_self (shape : List ℕ) : commonShape? shape shape = some shape := by
  have hreversed : ∀ s : List ℕ, commonReversed? s s = some s := by
    intro s
    induction s with
    | nil => rfl
    | cons n s ih => rw [commonReversed?, if_pos (.inl rfl), ih, Option.map_some]
  rw [commonShape?, hreversed, Option.map_some, List.reverse_reverse]

theorem projectIndex_of_within {shape index : List ℕ} (h : Within shape index) :
    projectIndex shape index = index := by
  have hzip : index.length = shape.length ∧
      ((shape.zip index).map fun p => if p.1 = 1 then 0 else p.2) = index := by
    induction shape generalizing index with
    | nil =>
      cases index with
      | nil => exact ⟨rfl, rfl⟩
      | cons i index => exact h.elim
    | cons n shape ih =>
      cases index with
      | nil => exact h.elim
      | cons i index =>
        obtain ⟨hlen, hrest⟩ := ih h.2
        have hi := h.1
        refine ⟨by rw [List.length_cons, List.length_cons, hlen], ?_⟩
        rw [List.zip_cons_cons, List.map_cons, hrest]
        congr 1
        dsimp only
        split
        · omega
        · rfl
  rw [projectIndex, hzip.1, Nat.sub_self, List.drop_zero, hzip.2]

theorem dropLeading_of_le {rank : ℕ} {t : Tensor β} (h : t.shape.length ≤ rank) :
    t.dropLeading rank = t := by
  simp [dropLeading, Nat.sub_eq_zero_of_le h]

theorem exists_stretch_self [Zero β] (t : Tensor β) :
    ∃ r, t.stretch? t.shape = some r ∧ ∀ index, Within t.shape index →
      r.get index = t.get index := by
  refine ⟨_, if_pos (commonShape?_self t.shape), fun index h => ?_⟩
  rw [get_ofFn _ h, projectIndex_of_within h]

end Tensor

/-! ## The response to the central taps -/

namespace Corrector

/-- The sum over the central taps, each with the wave of its place relative to the middle. -/
noncomputable def response (c : Cache ℝ) (s ny nx j i : ℕ) : ℂ :=
  ∑ y ∈ range (2 * s + 1), ∑ x ∈ range (2 * s + 1), (c.centralTap y x : ℂ) *
    (Fourier.unitRoot .forward ny ^ (((y : ℤ) - s) * ((j : ℤ) - (ny / 2 : ℕ))) *
      Fourier.unitRoot .forward nx ^ (((x : ℤ) - s) * ((i : ℤ) - (nx / 2 : ℕ))))

variable {c : Cache ℝ} {s : ℕ}

theorem conj_unitRoot_zpow (n : ℕ) (m : ℤ) :
    conj (Fourier.unitRoot .forward n ^ m) = Fourier.unitRoot .forward n ^ (-m) := by
  rw [map_zpow₀, zpow_neg, ← inv_zpow]
  congr 1
  rw [Fourier.unitRoot, ← Complex.exp_conj, ← Complex.exp_neg, map_mul, Complex.conj_I,
    Complex.conj_ofReal, mul_neg]

/-- Symmetric taps have a real response. -/
theorem conj_response (hc : c.EvenTaps s) (ny nx j i : ℕ) :
    conj (response c s ny nx j i) = response c s ny nx j i := by
  have hside : ∀ t ∈ range (2 * s + 1), ∀ d : ℤ,
      -(((2 * s + 1 - 1 - t : ℕ) : ℤ) - s) * d = ((t : ℤ) - s) * d := by
    intro t ht d
    have := mem_range.1 ht
    congr 1
    omega
  unfold response
  simp only [map_sum, map_mul, Complex.conj_ofReal, conj_unitRoot_zpow]
  rw [← sum_range_reflect]
  refine sum_congr rfl fun y hy => ?_
  rw [← sum_range_reflect]
  refine sum_congr rfl fun x hx => ?_
  rw [← neg_mul, ← neg_mul, hside y hy, hside x hx, Nat.add_sub_cancel,
    hc.even y (by have := mem_range.1 hy; omega) x (by have := mem_range.1 hx; omega)]

/-! ## The taper -/

/-- The central phase of a table of taps. -/
theorem centralPhase_eq {α : Type} [Scalar α] {c : Cache α} {s : ℕ} (hos : 0 < c.oversample)
    (hshape : c.zeroW.shape = [c.oversample, c.oversample, 2 * s + 1, 2 * s + 1]) :
    centralPhase c = .ok (Tensor.ofFn [2 * s + 1, 2 * s + 1] fun index =>
      (c.zeroW.get (c.oversample / 2 :: c.oversample / 2 :: index)).re) := by
  have hphase : c.oversample / 2 < c.oversample := Nat.div_lt_self hos (by decide)
  unfold centralPhase
  rw [hshape]
  dsimp only
  rw [if_neg (by omega)]

/-- The central phase of the table holds the central taps. -/
theorem exists_centralPhase (hc : c.EvenTaps s) :
    ∃ phase, centralPhase c = .ok phase ∧ phase.shape = [2 * s + 1, 2 * s + 1] ∧
      ∀ y ≤ 2 * s, ∀ x ≤ 2 * s, phase.get [y, x] = c.centralTap y x := by
  refine ⟨_, centralPhase_eq hc.oversample_pos hc.shape, rfl, fun y hy x hx => ?_⟩
  rw [Tensor.get_ofFn _ (Tensor.within_pair.2 ⟨by omega, by omega⟩)]
  rfl

/-- The half-width of the central phase is that of the cache, and its taps need no stretching. -/
theorem exists_stretch_centralPhase {β : Type} [Zero β] {phase : Tensor β}
    (hshape : phase.shape = [2 * s + 1, 2 * s + 1]) :
    phase.shape.getLast?.getD 0 / 2 = s ∧
      ∃ taps, (phase.dropLeading 2).stretch? [2 * s + 1, 2 * s + 1] = some taps ∧
        ∀ y ≤ 2 * s, ∀ x ≤ 2 * s, taps.get [y, x] = phase.get [y, x] := by
  obtain ⟨taps, htaps, hsame⟩ := Tensor.exists_stretch_self phase
  refine ⟨?_, taps, ?_, fun y hy x hx => hsame _ ?_⟩
  · rw [hshape]
    show (2 * s + 1) / 2 = s
    omega
  · rw [Tensor.dropLeading_of_le (by rw [hshape]; exact le_refl 2), ← hshape, htaps]
  · rw [hshape]
    exact Tensor.within_pair.2 ⟨by omega, by omega⟩

/-- A table of taps has a corrector for every image that holds them. -/
theorem exists_create_of_shape {α : Type} [Scalar α] {c : Cache α} {s : ℕ} (hos : 0 < c.oversample)
    (hshape : c.zeroW.shape = [c.oversample, c.oversample, 2 * s + 1, 2 * s + 1]) {ny nx : ℤ}
    (hwidth : 2 * (s : ℤ) + 1 ≤ min ny nx) : ∃ k, create c ny nx = .ok k := by
  obtain ⟨phase, hphase, hsquare⟩ : ∃ phase, centralPhase c = .ok phase ∧
      phase.shape = [2 * s + 1, 2 * s + 1] := ⟨_, centralPhase_eq hos hshape, rfl⟩
  obtain ⟨hsupport, taps, htaps, -⟩ := exists_stretch_centralPhase hsquare
  have hholds : ¬ min ny nx < ((2 * s + 1 : ℕ) : ℤ) := by
    push_cast
    omega
  unfold create
  rw [hphase]
  simp only [bind, Except.bind, pure, Except.pure, hsupport, htaps, if_neg hholds]
  exact ⟨_, rfl⟩

/-- A corrector has an image that holds the taps, and transforms the central taps in its middle. -/
theorem exists_taps {ny nx : ℤ} {k : Corrector ℝ} (h : create c ny nx = .ok k) (hc : c.EvenTaps s) :
    ∃ taps : Tensor ℝ, 2 * s + 1 ≤ ny.toNat ∧ 2 * s + 1 ≤ nx.toNat ∧
      k.taper = (Fourier.raster .forward (placed taps s ny.toNat nx.toNat)).map Cplx.re ∧
      ∀ y ≤ 2 * s, ∀ x ≤ 2 * s, taps.get [y, x] = c.centralTap y x := by
  obtain ⟨phase, taps, hphase, hwidth, hstretch, htaper⟩ := exists_of_create h
  obtain ⟨central, hcentral, hshape, hget⟩ := exists_centralPhase hc
  rw [hphase] at hcentral
  cases hcentral
  obtain ⟨hsupport, central, hcentral, hsame⟩ := exists_stretch_centralPhase hshape
  rw [hsupport, hcentral] at hstretch
  cases hstretch
  rw [hsupport] at hwidth htaper
  refine ⟨taps, by omega, by omega, htaper, fun y hy x hx => ?_⟩
  rw [hsame y hy x hx, hget y hy x hx]

theorem val_placed {taps : Tensor ℝ} {ny nx : ℕ}
    (htaps : ∀ y ≤ 2 * s, ∀ x ≤ 2 * s, taps.get [y, x] = c.centralTap y x) {k q : ℕ} (hk : k < ny)
    (hq : q < nx) :
    ((placed taps s ny nx).get k q).val =
      if ny / 2 - s ≤ k ∧ k < ny / 2 - s + (2 * s + 1) ∧ nx / 2 - s ≤ q ∧
        q < nx / 2 - s + (2 * s + 1) then
        (c.centralTap (k - (ny / 2 - s)) (q - (nx / 2 - s)) : ℂ) else 0 := by
  rw [placed, Raster.get_ofFn _ hk hq]
  split
  · rw [Cplx.val_ofReal, htaps _ (by omega) _ (by omega)]
  · rfl

/-- The wave of a place in a window about the middle. -/
theorem wave_window {n a b : ℕ} (hn : 2 * s + 1 ≤ n) :
    Fourier.wave .forward n a (n / 2 - s + b) =
      Fourier.unitRoot .forward n ^ (((b : ℤ) - s) * ((a : ℤ) - (n / 2 : ℕ))) := by
  rw [← Fourier.unitRoot_zpow, mul_comm]
  congr 2
  omega

/-- The transform of taps in the middle of an image is the response to them. -/
theorem val_raster_placed {taps : Tensor ℝ} {n m : ℕ} (hn : 2 * s + 1 ≤ n) (hm : 2 * s + 1 ≤ m)
    (htaps : ∀ y ≤ 2 * s, ∀ x ≤ 2 * s, taps.get [y, x] = c.centralTap y x) {j i : ℕ} (hj : j < n)
    (hi : i < m) :
    ((Fourier.raster .forward (placed taps s n m)).get j i).val = response c s n m j i := by
  rw [Fourier.val_raster .forward _ hj hi, Fourier.Direction.factor, one_mul]
  calc ∑ k ∈ range n, ∑ q ∈ range m, ((placed taps s n m).get k q).val *
        (Fourier.wave .forward n j k * Fourier.wave .forward m i q)
      = ∑ k ∈ range n, ∑ q ∈ range m,
        if n / 2 - s ≤ k ∧ k < n / 2 - s + (2 * s + 1) ∧ m / 2 - s ≤ q ∧
          q < m / 2 - s + (2 * s + 1) then
          (c.centralTap (k - (n / 2 - s)) (q - (m / 2 - s)) : ℂ) *
            (Fourier.wave .forward n j k * Fourier.wave .forward m i q) else 0 := by
        refine sum_congr rfl fun k hk => sum_congr rfl fun q hq => ?_
        rw [val_placed htaps (mem_range.1 hk) (mem_range.1 hq), ite_mul, zero_mul]
    _ = response c s n m j i := by
        rw [sum_square (by omega) (by omega) fun k q y x => (c.centralTap y x : ℂ) *
          (Fourier.wave .forward n j k * Fourier.wave .forward m i q)]
        refine sum_congr rfl fun y _ => sum_congr rfl fun x _ => ?_
        rw [wave_window hn, wave_window hm]

/-- The taper is the response to the central taps. -/
theorem taper_eq_response {ny nx : ℤ} {k : Corrector ℝ} (h : create c ny nx = .ok k)
    (hc : c.EvenTaps s) {j i : ℕ} (hj : j < ny.toNat) (hi : i < nx.toNat) :
    (k.taper.get j i : ℂ) = response c s ny.toNat nx.toNat j i := by
  obtain ⟨taps, hy, hx, htaper, htaps⟩ := exists_taps h hc
  generalize ny.toNat = n at *
  generalize nx.toNat = m at *
  have hreal : (response c s n m j i).re = ((k.taper.get j i : ℝ)) := by
    rw [← val_raster_placed hy hx htaps hj hi, htaper, Raster.get_map _ _ hj hi]
    rfl
  rw [← hreal]
  exact Complex.conj_eq_iff_re.1 (conj_response hc n m j i)

end Corrector

end ApertureSynthesis
