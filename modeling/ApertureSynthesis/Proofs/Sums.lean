/-
  Sums over lists as sums over ranges of numbers. Programs run through lists, of rows, of channels,
  of the cells that a footprint covers; statements sum over row, channel and cell numbers.
-/
import Mathlib
import ApertureSynthesis.Grid.Footprint

namespace ApertureSynthesis

variable {β M : Type} [AddCommMonoid M]

theorem sum_map_range (n : ℕ) (f : ℕ → M) :
    ((List.range n).map f).sum = ∑ k ∈ Finset.range n, f k := by
  induction n with
  | zero => rfl
  | succ n ih =>
    rw [List.range_succ, List.map_append, List.sum_append, ih, Finset.sum_range_succ,
      List.map_singleton, List.sum_singleton]

theorem sum_map_range' (low n : ℕ) (f : ℕ → M) :
    ((List.range' low n).map f).sum = ∑ k ∈ Finset.Ico low (low + n), f k := by
  rw [Finset.sum_Ico_eq_sum_range, Nat.add_sub_cancel_left, ← sum_map_range,
    List.range'_eq_map_range, List.map_map]
  rfl

theorem sum_map_flatMap {γ : Type} (xs : List β) (f : β → List γ) (g : γ → M) :
    ((xs.flatMap f).map g).sum = (xs.map fun x => ((f x).map g).sum).sum := by
  induction xs with
  | nil => rfl
  | cons x xs ih =>
    rw [List.flatMap_cons, List.map_append, List.sum_append, ih, List.map_cons, List.sum_cons]

/-- A sum over a numbered list, where `g` gives the term of each number. -/
theorem sum_map_zipIdx (xs : List β) (f : β × ℕ → M) (g : ℕ → M)
    (h : ∀ k (hk : k < xs.length), f (xs[k], k) = g k) :
    (xs.zipIdx.map f).sum = ∑ k ∈ Finset.range xs.length, g k := by
  have hmap : xs.zipIdx.map f = (List.range xs.length).map g := by
    apply List.ext_getElem
    · simp
    · intro k hk hk'
      have hlen : k < xs.length := by simpa using hk
      simpa using h k hlen
  rw [hmap, sum_map_range]

/-! ## Double sums -/

/-- Two double sums, exchanged. -/
theorem sum_raster_comm (s t u v : Finset ℕ) (f : ℕ → ℕ → ℕ → ℕ → M) :
    ∑ k ∈ s, ∑ q ∈ t, ∑ j ∈ u, ∑ i ∈ v, f k q j i =
      ∑ j ∈ u, ∑ i ∈ v, ∑ k ∈ s, ∑ q ∈ t, f k q j i := by
  rw [Finset.sum_congr rfl fun k _ => Finset.sum_comm, Finset.sum_comm]
  refine Finset.sum_congr rfl fun j _ => ?_
  rw [Finset.sum_congr rfl fun k _ => Finset.sum_comm, Finset.sum_comm]

/-- A window of an axis, counted from where it starts. -/
theorem sum_window {top width n : ℕ} (h : top + width ≤ n) (f : ℕ → ℕ → M) :
    (∑ k ∈ Finset.range n, if top ≤ k ∧ k < top + width then f k (k - top) else 0) =
      ∑ y ∈ Finset.range width, f (top + y) y := by
  have hset : (Finset.range n).filter (fun k => top ≤ k ∧ k < top + width) =
      Finset.Ico top (top + width) := by
    ext k
    simp only [Finset.mem_Ico, Finset.mem_filter, Finset.mem_range]
    omega
  rw [← Finset.sum_filter, hset, Finset.sum_Ico_eq_sum_range, Nat.add_sub_cancel_left]
  refine Finset.sum_congr rfl fun y _ => ?_
  rw [Nat.add_sub_cancel_left]

/-- A square window of two axes. -/
theorem sum_square {top left width ny nx : ℕ} (hy : top + width ≤ ny) (hx : left + width ≤ nx)
    (f : ℕ → ℕ → ℕ → ℕ → M) :
    (∑ k ∈ Finset.range ny, ∑ q ∈ Finset.range nx,
        if top ≤ k ∧ k < top + width ∧ left ≤ q ∧ q < left + width then f k q (k - top) (q - left)
        else 0) =
      ∑ y ∈ Finset.range width, ∑ x ∈ Finset.range width, f (top + y) (left + x) y x := by
  rw [← sum_window hy fun k y => ∑ x ∈ Finset.range width, f k (left + x) y x]
  refine Finset.sum_congr rfl fun k _ => ?_
  by_cases hk : top ≤ k ∧ k < top + width
  · rw [if_pos hk, ← sum_window hx fun q x => f k q (k - top) x]
    refine Finset.sum_congr rfl fun q _ => ?_
    simp only [hk, true_and]
  · rw [if_neg hk]
    refine Finset.sum_eq_zero fun q _ => ?_
    rw [if_neg fun hin => hk ⟨hin.1, hin.2.1⟩]

namespace Grid

/-- The cells of an axis that a run covers, as a condition on all cells. -/
theorem sum_map_covered (start : ℤ) (width n : ℕ) (f : ℕ → M) :
    ((covered start width n).map f).sum =
      ∑ k ∈ Finset.range n, if start ≤ k ∧ (k : ℤ) < start + width then f k else 0 := by
  have hset : Finset.Ico (max start 0).toNat
      ((max start 0).toNat + ((min (start + width) n).toNat - (max start 0).toNat)) =
      (Finset.range n).filter fun k : ℕ => start ≤ k ∧ (k : ℤ) < start + width := by
    ext k
    simp only [Finset.mem_Ico, Finset.mem_filter, Finset.mem_range]
    omega
  unfold covered
  rw [sum_map_range', hset, Finset.sum_filter]

end Grid

end ApertureSynthesis
