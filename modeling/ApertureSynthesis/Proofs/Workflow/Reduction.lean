/-
  Sums of deposits, in exact arithmetic.

  Deposits of one shape are added cell by cell, weight by weight and counter by counter, so their
  sum does not depend on how it is bracketed: the sum as a tree is the sum from the left
  (`tree_eq_sum`), and a list can be summed in two parts (`sum_append`). Each cell, each weight and
  each counter of the sum is the sum of those of the deposits (`isSum_of_sum`). Deposits on the same
  grid can be summed in any order (`sum_perm`). The grid of a sum is that of its first deposit, so
  the order matters where cell sizes or frequencies differ.
-/
import Mathlib
import ApertureSynthesis.Proofs.Exact
import ApertureSynthesis.Proofs.Tensor
import ApertureSynthesis.Proofs.Grid.Deposit
import ApertureSynthesis.Workflow.Reduction

namespace ApertureSynthesis

namespace Grid

/-! ## Deposits that can be added -/

/-- The shapes of the grid of a deposit and of its sums of weights. -/
structure Deposit.Shaped (cells weights : List ℕ) (d : Deposit ℝ) : Prop where
  /-- The shape of the grid. -/
  cells : d.grid.cells.shape = cells
  /-- The shape of the sums of weights. -/
  weights : d.sumWeights.shape = weights

/-- A deposit on a grid that differs from `g` in its cells only. -/
structure Deposit.On (g : Grid ℝ) (d : Deposit ℝ) : Prop where
  /-- The grid is like `g`. -/
  alike : Alike g d.grid
  /-- There is a sum of weights for each channel and polarisation. -/
  weights : d.sumWeights.shape = [g.nchan, g.npol]

theorem Deposit.On.shaped {g : Grid ℝ} {d : Deposit ℝ} (h : d.On g) :
    d.Shaped g.cells.shape [g.nchan, g.npol] := ⟨h.alike.shape_cells, h.weights⟩

end Grid

namespace Workflow

open Grid (Deposit)

variable {cells weights : List ℕ} {a b c : Deposit ℝ} {g : Grid ℝ}

/-- Deposits with the same parts. -/
theorem deposit_eq {a b : Deposit ℝ} (hgrid : Grid.Alike a.grid b.grid)
    (hcells : b.grid.cells = a.grid.cells) (hweights : b.sumWeights = a.sumWeights)
    (hstatistics : b.statistics = a.statistics) : b = a := by
  obtain ⟨grid, sums, statistics⟩ := a
  obtain ⟨grid', sums', statistics'⟩ := b
  obtain rfl : grid' = grid := hgrid.eq_of_cells hcells
  obtain rfl : sums' = sums := hweights
  obtain rfl : statistics' = statistics := hstatistics
  rfl

theorem alike_add (a b : Deposit ℝ) : Grid.Alike a.grid (add a b).grid :=
  ⟨rfl, rfl, rfl, rfl, rfl, rfl⟩

theorem shaped_add (ha : a.Shaped cells weights) (b : Deposit ℝ) : (add a b).Shaped cells weights :=
  ⟨ha.cells, ha.weights⟩

theorem on_add (ha : a.On g) (b : Deposit ℝ) : (add a b).On g :=
  ⟨ha.alike.trans (alike_add a b), ha.weights⟩

theorem add_assoc (ha : a.Shaped cells weights) (hb : b.Shaped cells weights)
    (hc : c.Shaped cells weights) : add (add a b) c = add a (add b c) := by
  refine deposit_eq ((alike_add a (add b c)).symm.trans
    ((alike_add a b).trans (alike_add (add a b) c))) ?_ ?_ ?_
  · exact Tensor.zipWith_assoc (hb.cells.trans ha.cells.symm) (hc.cells.trans hb.cells.symm)
  · exact Tensor.zipWith_assoc (hb.weights.trans ha.weights.symm) (hc.weights.trans hb.weights.symm)
  · exact Statistics.add_assoc _ _ _

theorem add_comm (ha : a.On g) (hb : b.On g) : add a b = add b a := by
  have hab : Grid.Alike b.grid a.grid := hb.alike.symm.trans ha.alike
  refine deposit_eq ((alike_add b a).symm.trans (hab.trans (alike_add a b))) ?_ ?_ ?_
  · exact Tensor.zipWith_comm hab.symm.shape_cells
  · exact Tensor.zipWith_comm (hb.weights.trans ha.weights.symm)
  · exact Statistics.add_comm _ _

/-! ## Sums from the left -/

section Left

variable {xs ys : List (Deposit ℝ)}

theorem foldl_add (ha : a.Shaped cells weights) (hb : b.Shaped cells weights)
    (hxs : ∀ d ∈ xs, Deposit.Shaped cells weights d) :
    xs.foldl add (add a b) = add a (xs.foldl add b) := by
  induction xs generalizing b with
  | nil => rfl
  | cons x xs ih =>
    have hx := hxs x List.mem_cons_self
    rw [List.foldl_cons, List.foldl_cons, add_assoc ha hb hx,
      ih (shaped_add hb x) fun d hd => hxs d (List.mem_cons_of_mem _ hd)]

theorem sum_eq_ok (hne : xs ≠ []) : ∃ d, sum xs = .ok d := by
  cases xs with
  | nil => exact absurd rfl hne
  | cons x xs => exact ⟨_, rfl⟩

theorem shaped_foldl (ha : a.Shaped cells weights) : (xs.foldl add a).Shaped cells weights := by
  induction xs generalizing a with
  | nil => exact ha
  | cons x xs ih => exact ih (shaped_add ha x)

theorem shaped_sum (hxs : ∀ d ∈ xs, Deposit.Shaped cells weights d) {d : Deposit ℝ}
    (h : sum xs = .ok d) : d.Shaped cells weights := by
  cases xs with
  | nil => cases h
  | cons x xs =>
    cases h
    exact shaped_foldl (hxs x List.mem_cons_self)

/-- A list is summed in two parts. -/
theorem sum_append (hxs : ∀ d ∈ xs, Deposit.Shaped cells weights d)
    (hys : ∀ d ∈ ys, Deposit.Shaped cells weights d) (hx : sum xs = .ok a) (hy : sum ys = .ok b) :
    sum (xs ++ ys) = .ok (add a b) := by
  have ha := shaped_sum hxs hx
  cases xs with
  | nil => cases hx
  | cons x xs =>
    cases ys with
    | nil => cases hy
    | cons y ys =>
      cases hx
      cases hy
      have hsum := foldl_add ha (hys y List.mem_cons_self) fun d hd =>
        hys d (List.mem_cons_of_mem _ hd)
      rw [List.cons_append, sum, List.foldl_append, List.foldl_cons, hsum]

/-- A list of two deposits or more is its first one and the sum of the others. -/
theorem sum_cons (hx : a.Shaped cells weights) (hxs : ∀ d ∈ xs, Deposit.Shaped cells weights d)
    (h : sum xs = .ok b) : sum (a :: xs) = .ok (add a b) := by
  have hone : ∀ d ∈ [a], Deposit.Shaped cells weights d := fun d hd => List.mem_singleton.1 hd ▸ hx
  exact sum_append hone hxs rfl h

/-- The order of the deposits after the first one, on one grid. -/
theorem foldl_add_perm (h : xs.Perm ys) (hxs : ∀ d ∈ xs, Deposit.On g d) (ha : a.On g) :
    xs.foldl add a = ys.foldl add a := by
  induction h generalizing a with
  | nil => rfl
  | cons x _ ih => exact ih (fun d hd => hxs d (List.mem_cons_of_mem _ hd)) (on_add ha x)
  | swap x y l =>
    have hy := hxs y List.mem_cons_self
    have hx := hxs x (List.mem_cons_of_mem _ List.mem_cons_self)
    rw [List.foldl_cons, List.foldl_cons, List.foldl_cons, List.foldl_cons,
      add_assoc ha.shaped hy.shaped hx.shaped, add_comm hy hx,
      ← add_assoc ha.shaped hx.shaped hy.shaped]
  | trans hfirst _ ih ih' =>
    exact (ih hxs ha).trans (ih' (fun d hd => hxs d (hfirst.mem_iff.2 hd)) ha)

/-- Deposits on one grid can be summed in any order. -/
theorem sum_perm (h : xs.Perm ys) (hxs : ∀ d ∈ xs, Deposit.On g d) : sum xs = sum ys := by
  induction h with
  | nil => rfl
  | cons x hrest _ =>
    exact congrArg Except.ok (foldl_add_perm hrest (fun d hd => hxs d (List.mem_cons_of_mem _ hd))
      (hxs x List.mem_cons_self))
  | swap x y l =>
    have hy := hxs y List.mem_cons_self
    have hx := hxs x (List.mem_cons_of_mem _ List.mem_cons_self)
    rw [sum, sum, List.foldl_cons, List.foldl_cons, add_comm hy hx]
  | trans hfirst _ ih ih' => exact (ih hxs).trans (ih' fun d hd => hxs d (hfirst.mem_iff.2 hd))

end Left

/-! ## Sums part by part -/

/-- Each part of a deposit is the sum of those of a list. Cell size and frequencies are not
    summed. -/
structure IsSum (xs : List (Deposit ℝ)) (d : Deposit ℝ) : Prop where
  /-- Cells are summed, -/
  cells : ∀ index, (d.grid.cells.get index).val = (xs.map fun x => (x.grid.cells.get index).val).sum
  /-- and sums of weights, -/
  weights : ∀ index, d.sumWeights.get index = (xs.map fun x => x.sumWeights.get index).sum
  /-- and counters. -/
  statistics : d.statistics = Statistics.total (xs.map fun x => x.statistics)
  /-- Cell size and frequencies are those of the first of the list. -/
  first : ∃ x, xs.head? = some x ∧ d.grid.cellSize = x.grid.cellSize ∧
    d.grid.frequency = x.grid.frequency

section PartByPart

variable {xs ys : List (Deposit ℝ)}

theorem isSum_singleton (a : Deposit ℝ) : IsSum [a] a where
  cells index := by rw [List.map_singleton, List.sum_singleton]
  weights index := by rw [List.map_singleton, List.sum_singleton]
  statistics := (Statistics.zero_add a.statistics).symm
  first := ⟨a, rfl, rfl, rfl⟩

theorem isSum_add (h : IsSum xs a) (ha : a.Shaped cells weights) (hb : b.Shaped cells weights) :
    IsSum (xs ++ [b]) (add a b) where
  cells index := by
    rw [List.map_append, List.sum_append, List.map_singleton, List.sum_singleton, ← h.cells]
    exact Tensor.view_zipWith_add Cplx.val rfl Cplx.val_add (hb.cells.trans ha.cells.symm) index
  weights index := by
    rw [List.map_append, List.sum_append, List.map_singleton, List.sum_singleton, ← h.weights]
    exact Tensor.view_zipWith_add id rfl (fun _ _ => rfl) (hb.weights.trans ha.weights.symm) index
  statistics := by
    rw [List.map_append, Statistics.total, List.foldl_append, ← Statistics.total, ← h.statistics]
    rfl
  first := by
    obtain ⟨x, hx, hcellSize, hfrequency⟩ := h.first
    exact ⟨x, by rw [List.head?_append, hx, Option.some_or], hcellSize, hfrequency⟩

theorem isSum_foldl (h : IsSum xs a) (ha : a.Shaped cells weights)
    (hys : ∀ d ∈ ys, Deposit.Shaped cells weights d) : IsSum (xs ++ ys) (ys.foldl add a) := by
  induction ys generalizing a xs with
  | nil => rwa [List.append_nil]
  | cons y ys ih =>
    have hy := hys y List.mem_cons_self
    have hstep := ih (isSum_add h ha hy) (shaped_add ha y) fun d hd =>
      hys d (List.mem_cons_of_mem _ hd)
    rwa [List.append_assoc, List.singleton_append] at hstep

/-- The sum from the left, part by part. -/
theorem isSum_of_sum (hxs : ∀ d ∈ xs, Deposit.Shaped cells weights d) (h : sum xs = .ok a) :
    IsSum xs a := by
  cases xs with
  | nil => cases h
  | cons x xs =>
    cases h
    exact isSum_foldl (isSum_singleton x) (hxs x List.mem_cons_self)
      fun d hd => hxs d (List.mem_cons_of_mem _ hd)

end PartByPart

/-! ## Sums as a tree -/

/-- A cut takes something off the front, and leaves something. -/
theorem cut_ne_nil {β : Type} {split : ℕ} (hsplit : 2 ≤ split) {xs : List β}
    (hlong : split < xs.length) :
    xs.take (xs.length / split) ≠ [] ∧ xs.drop (xs.length / split) ≠ [] := by
  have hpos : 0 < xs.length / split := Nat.div_pos hlong.le (by omega)
  have hlt : xs.length / split < xs.length := Nat.div_lt_self (by omega) (by omega)
  constructor
  · exact List.ne_nil_of_length_pos (by rw [List.length_take]; omega)
  · exact List.ne_nil_of_length_pos (by rw [List.length_drop]; omega)

/-- The sum as a tree is the sum from the left. -/
theorem tree_eq_sum {split : ℕ} (hsplit : 2 ≤ split) (xs : List (Deposit ℝ))
    (hxs : ∀ d ∈ xs, Deposit.Shaped cells weights d) : tree split hsplit xs = sum xs := by
  -- by induction on the length, as the tree is built: both parts of a list that is cut are shorter
  unfold tree
  induction xs using treeBy.induct split hsplit with
  | case1 xs hlong centre hpos hlt ih ih' =>
    have htake : ∀ d ∈ xs.take centre, Deposit.Shaped cells weights d :=
      fun d hd => hxs d (List.mem_of_mem_take hd)
    have hdrop : ∀ d ∈ xs.drop centre, Deposit.Shaped cells weights d :=
      fun d hd => hxs d (List.mem_of_mem_drop hd)
    obtain ⟨hfront, hback⟩ := cut_ne_nil hsplit hlong
    obtain ⟨left, hleft⟩ := sum_eq_ok hfront
    obtain ⟨right, hright⟩ := sum_eq_ok hback
    calc treeBy sum split hsplit xs
        = (do sum [← treeBy sum split hsplit (xs.take centre),
            ← treeBy sum split hsplit (xs.drop centre)]) := treeBy_of_long sum hsplit hlong
      _ = (do sum [← sum (xs.take centre), ← sum (xs.drop centre)]) := by rw [ih htake, ih' hdrop]
      _ = .ok (add left right) := by rw [hleft, hright]; rfl
      _ = sum (xs.take centre ++ xs.drop centre) := (sum_append htake hdrop hleft hright).symm
      _ = sum xs := by rw [List.take_append_drop]
  | case2 xs hshort => exact treeBy_of_short sum hsplit (not_lt.1 hshort)

end Workflow

end ApertureSynthesis
