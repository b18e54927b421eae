/-
  The transform by prime factors computes the defining sum.

  `transform_eq_sum` is by strong induction on the length: the values with one remainder modulo the
  least prime factor make a shorter sequence, whose transform has the period of its length, and the
  sums over remainders and over the places within each make the sum over all values. The table of
  roots is only known to hold the powers of a number whose power of the table's size is one.
-/
import Mathlib
import ApertureSynthesis.Proofs.Exact
import ApertureSynthesis.Fourier.Transform

namespace ApertureSynthesis.Fourier

/-! ## Sums and powers -/

/-- Terms added one after the other add up. -/
theorem val_sumFrom (re im : ℝ) (f : ℕ → Cplx ℝ) (k n : ℕ) :
    (sumFrom re im f k n).val = (⟨re, im⟩ : Cplx ℝ).val +
      ∑ r ∈ Finset.range n, (f (k + r)).val := by
  induction n generalizing re im k with
  | zero => rw [Finset.sum_range_zero, add_zero]; rfl
  | succ n ih =>
    have hstep : (⟨re + (f k).re, im + (f k).im⟩ : Cplx ℝ) = ⟨re, im⟩ + f k := rfl
    rw [sumFrom, ih, hstep, Cplx.val_add, Finset.sum_range_succ', add_assoc, add_comm (f k).val]
    simp only [Nat.add_assoc, Nat.add_comm 1, Nat.add_zero]

/-- An array of a function holds its values. -/
theorem getD_ofFn {β : Type} {n : ℕ} (f : Fin n → β) {k : ℕ} (hk : k < n) (d : β) :
    (Array.ofFn f).getD k d = f ⟨k, hk⟩ := by
  simp [hk]

/-- A sum over a product of lengths, by remainder and quotient of the place. -/
theorem sum_range_mul {M : Type} [AddCommMonoid M] (p m : ℕ) (f : ℕ → M) :
    ∑ r ∈ Finset.range p, ∑ t ∈ Finset.range m, f (r + p * t) =
      ∑ j ∈ Finset.range (p * m), f j := by
  rw [Finset.sum_comm]
  induction m with
  | zero => simp
  | succ m ih =>
    rw [Finset.sum_range_succ, ih, Nat.mul_succ, Finset.sum_range_add]
    simp only [Nat.add_comm (p * m)]

/-- A root of unity takes exponents modulo its order. -/
theorem pow_mod_of_pow_eq_one {ζ : ℂ} {n : ℕ} (hζ : ζ ^ n = 1) (k : ℕ) : ζ ^ (k % n) = ζ ^ k := by
  conv_rhs => rw [← Nat.mod_add_div k n, pow_add, pow_mul, hζ, one_pow, mul_one]

/-- The sums over the values of each remainder, combined: the shorter sums have the period `m` of
    their length. -/
theorem sum_split {ζ : ℂ} {p m step : ℕ} (hζ : ζ ^ (p * m * step) = 1) (x : ℕ → ℂ) (k : ℕ) :
    ∑ r ∈ Finset.range p, (∑ t ∈ Finset.range m, x (r + p * t) * ζ ^ (step * p * (k % m) * t)) *
        ζ ^ (step * k * r) =
      ∑ j ∈ Finset.range (p * m), x j * ζ ^ (step * k * j) := by
  have hperiod : ∀ t, ζ ^ (step * p * (k % m) * t) = ζ ^ (step * p * k * t) := by
    intro t
    have hsplit : step * p * k * t = step * p * (k % m) * t + p * m * step * (k / m * t) := by
      conv_lhs => rw [← Nat.mod_add_div k m]
      ring
    rw [hsplit, pow_add, pow_mul ζ (p * m * step), hζ, one_pow, mul_one]
  rw [← sum_range_mul]
  refine Finset.sum_congr rfl fun r _ => ?_
  rw [Finset.sum_mul]
  refine Finset.sum_congr rfl fun t _ => ?_
  rw [hperiod, mul_assoc, ← pow_add]
  congr 2
  ring

/-! ## The transform -/

/-- A table holds the powers of a number. -/
structure Powers (ζ : ℂ) (root : Array (Cplx ℝ)) : Prop where
  /-- There is a power. -/
  pos : 0 < root.size
  /-- The power of the table's size is one. -/
  one : ζ ^ root.size = 1
  /-- The table holds all powers below. -/
  get : ∀ k < root.size, (root.getD k 0).val = ζ ^ k

section Transform

variable {ζ : ℂ} {root : Array (Cplx ℝ)}

theorem Powers.get_mod (h : Powers ζ root) (k : ℕ) :
    (root.getD (k % root.size) 0).val = ζ ^ k := by
  rw [h.get _ (Nat.mod_lt _ h.pos), pow_mod_of_pow_eq_one h.one]

/-- The transform of a sequence is its defining sum. -/
theorem transform_eq_sum (h : Powers ζ root) {n step : ℕ} (hsize : root.size = n * step)
    (x : ℕ → Cplx ℝ) {k : ℕ} (hk : k < n) :
    ((transform root n step x).getD k 0).val =
      ∑ j ∈ Finset.range n, (x j).val * ζ ^ (step * k * j) := by
  induction n using Nat.strong_induction_on generalizing step x k with
  | _ n ih =>
    unfold transform
    split
    · -- a single value is its own transform
      obtain rfl : n = 1 := by omega
      obtain rfl : k = 0 := by omega
      simp
    · rename_i htwo
      have hfactor := two_le_leastFactor (n := n) (by omega)
      have hless := div_leastFactor_lt (n := n) (by omega)
      have hn : leastFactor n * (n / leastFactor n) = n := Nat.mul_div_cancel' (leastFactor_dvd n)
      dsimp only
      rw [getD_ofFn _ hk, val_sumFrom]
      generalize leastFactor n = p at *
      generalize n / p = m at *
      have hm : 0 < m := by
        rcases Nat.eq_zero_or_pos m with rfl | hm
        · omega
        · exact hm
      have hpart : ∀ r, ((transform root m (step * p) fun t => x (r + p * t)).getD (k % m) 0).val =
          ∑ t ∈ Finset.range m, (x (r + p * t)).val * ζ ^ (step * p * (k % m) * t) := fun r =>
        ih m hless (by rw [hsize, ← hn]; ring) _ (Nat.mod_lt k hm)
      have hone : ζ ^ (p * m * step) = 1 := by rw [hn, ← hsize, h.one]
      have hzero : (⟨0, 0⟩ : Cplx ℝ).val = 0 := rfl
      have hsplit := sum_split hone (fun j => (x j).val) k
      rw [hn] at hsplit
      rw [hzero, zero_add, ← hsplit]
      refine Finset.sum_congr rfl fun r hr => ?_
      rw [Nat.zero_add, Cplx.val_mul, h.get_mod, getD_ofFn _ (Finset.mem_range.1 hr), hpart]

end Transform

end ApertureSynthesis.Fourier
