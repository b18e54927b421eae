/-
  The discrete Fourier transform of a sequence, by splitting its length into prime factors. The
  roots of unity are given as a table of `n` values, `root k = e ^ (± 2 π i k / n)`.
-/
import ApertureSynthesis.Cplx

namespace ApertureSynthesis.Fourier

variable {α : Type} [Scalar α]

/-- The least factor of `n` above one that is at least `p`, or `n` itself. -/
def factorFrom (n p : Nat) : Nat → Nat
  | 0 => n
  | fuel + 1 => if n < p * p then n else if n % p = 0 then p else factorFrom n (p + 1) fuel

/-- The least prime factor of `n`; `n` itself below two. -/
def leastFactor (n : Nat) : Nat := factorFrom n 2 n

theorem factorFrom_dvd (n p fuel : Nat) : factorFrom n p fuel ∣ n := by
  induction fuel generalizing p with
  | zero => exact Nat.dvd_refl n
  | succ fuel ih =>
    unfold factorFrom
    split
    · exact Nat.dvd_refl n
    · split
      · exact Nat.dvd_of_mod_eq_zero ‹_›
      · exact ih (p + 1)

theorem leastFactor_dvd (n : Nat) : leastFactor n ∣ n := factorFrom_dvd n 2 n

theorem two_le_factorFrom {n p fuel : Nat} (hn : 2 ≤ n) (hp : 2 ≤ p) :
    2 ≤ factorFrom n p fuel := by
  induction fuel generalizing p with
  | zero => exact hn
  | succ fuel ih =>
    unfold factorFrom
    split
    · exact hn
    · split
      · exact hp
      · exact ih (by omega)

theorem two_le_leastFactor {n : Nat} (hn : 2 ≤ n) : 2 ≤ leastFactor n :=
  two_le_factorFrom hn (Nat.le_refl 2)

theorem div_leastFactor_lt {n : Nat} (hn : 2 ≤ n) : n / leastFactor n < n :=
  Nat.div_lt_self (by omega) (two_le_leastFactor hn)

/-- The roots of unity `e ^ (s · 2 π i k / n)` for `k < n`, where the sign `s` is `1` or `-1`. -/
@[specialize] def roots (sign : α) (n : Nat) : Array (Cplx α) :=
  Array.ofFn fun k : Fin n => Cplx.cis (sign * (2 : Nat) * Scalar.pi * (k.val : α) / (n : α))

/-- The `n` terms `f k, f (k + 1), …` added from the left to a number with parts `re` and `im`. -/
@[specialize] def sumFrom (re im : α) (f : Nat → Cplx α) (k : Nat) : Nat → Cplx α
  | 0 => ⟨re, im⟩
  | n + 1 =>
    let z := f k
    sumFrom (re + z.re) (im + z.im) f (k + 1) n

/-- The transform of the `n` values `x 0, …, x (n - 1)`. The table `root` holds the roots of unity
    of order `n · step`. With `p` the least prime factor of `n`, the values whose index has
    remainder `r` modulo `p` are transformed for each `r`, and the results are combined. -/
@[specialize] def transform (root : Array (Cplx α)) (n step : Nat) (x : Nat → Cplx α) :
    Array (Cplx α) :=
  if h : n < 2 then Array.ofFn fun k : Fin n => x k.val
  else
    let p := leastFactor n
    let m := n / p
    have : m < n := div_leastFactor_lt (by omega)
    let parts := Array.ofFn fun r : Fin p =>
      transform root m (step * p) fun t => x (r.val + p * t)
    Array.ofFn fun k : Fin n =>
      sumFrom 0 0 (fun r =>
        (parts.getD r #[]).getD (k.val % m) 0 * root.getD (step * k.val * r % root.size) 0) 0 p
termination_by n

end ApertureSynthesis.Fourier
