/-
  Visibilities cut into slices.

  Slices hold all rows in their order, also when there are more slices than rows (`exists_slices`):
  there are as many as asked for, of nearly equal lengths with the longer ones first, and gathered
  they are the visibilities again (`gather_scatterAs`). So a function of rows that takes two parts,
  one after the other, to a sum of what it gives for each takes all rows to the sum over the slices
  (`mapM_flatten`). What treats rows one by one does to visibilities what it does to their slices,
  gathered (`gather_slices`).
-/
import Mathlib
import ApertureSynthesis.Proofs.Sums
import ApertureSynthesis.Proofs.Workflow.Rows
import ApertureSynthesis.Visibility.Partition

namespace ApertureSynthesis

variable {nchan npol : ℕ}

/-! ## Functions of rows in parts -/

/-- A function of lists that takes two lists, one after the other, to the sum of what it gives for
    each takes a list of lists to the sum of a list, if this is a sum of its first and the sum of
    the others. -/
theorem mapM_flatten {ε ρ δ : Type} (P : List ρ → Except ε δ) (op : δ → δ → δ)
    (total : List δ → Except ε δ)
    (happend : ∀ xs ys d, P (xs ++ ys) = .ok d ↔ ∃ a b, P xs = .ok a ∧ P ys = .ok b ∧ d = op a b)
    (hone : ∀ xs a, P xs = .ok a → total [a] = .ok a)
    (hcons : ∀ xs (yss : List (List ρ)) a bs, P xs = .ok a → yss.mapM P = .ok bs → bs ≠ [] →
      ∃ b, total bs = .ok b ∧ total (a :: bs) = .ok (op a b))
    {xss : List (List ρ)} (hne : xss ≠ []) (d : δ) :
    P xss.flatten = .ok d ↔ ∃ ds, xss.mapM P = .ok ds ∧ total ds = .ok d := by
  induction xss, hne using List.recNeNil generalizing d with
  | singleton xs =>
    rw [List.flatten_cons, List.flatten_nil, List.append_nil]
    constructor
    · intro h
      refine ⟨[d], ?_, hone xs d h⟩
      rw [List.mapM_cons, h]
      rfl
    · rintro ⟨ds, hds, htotal⟩
      obtain ⟨a, rest, ha, hrest, rfl⟩ := List.forall₂_cons_left_iff.1 (mapM_eq_ok_iff.1 hds)
      obtain rfl := List.forall₂_nil_left_iff.1 hrest
      rw [hone xs a ha] at htotal
      exact ha.trans htotal
  | cons xs xss hne ih =>
    rw [List.flatten_cons, happend]
    constructor
    · rintro ⟨a, b, ha, hb, rfl⟩
      obtain ⟨bs, hbs, htotal⟩ := (ih b).1 hb
      have hbsne : bs ≠ [] := by
        rintro rfl
        exact hne (List.forall₂_nil_right_iff.1 (mapM_eq_ok_iff.1 hbs))
      obtain ⟨b', hb', hsum⟩ := hcons xs xss a bs ha hbs hbsne
      obtain rfl : b' = b := Except.ok.inj (hb'.symm.trans htotal)
      exact ⟨a :: bs, by rw [List.mapM_cons, ha, hbs]; rfl, hsum⟩
    · rintro ⟨ds, hds, htotal⟩
      obtain ⟨a, bs, ha, hrest, rfl⟩ := List.forall₂_cons_left_iff.1 (mapM_eq_ok_iff.1 hds)
      have hbs := mapM_eq_ok_iff.2 hrest
      have hbsne : bs ≠ [] := by
        rintro rfl
        exact hne (List.forall₂_nil_right_iff.1 hrest)
      obtain ⟨b, hb, hsum⟩ := hcons xs xss a bs ha hbs hbsne
      exact ⟨a, b, ha, (ih b).2 ⟨bs, hbs, hb⟩, Except.ok.inj (htotal.symm.trans hsum)⟩

/-- A traversal of the members of a list in another order. -/
theorem mapM_perm {ε β γ : Type} {f : β → Except ε γ} {xs ys : List β} {rs : List γ}
    (h : xs.Perm ys) (hxs : xs.mapM f = .ok rs) : ∃ qs, ys.mapM f = .ok qs ∧ rs.Perm qs := by
  obtain ⟨qs, hqs, hperm⟩ := List.perm_comp_forall₂ h.symm (mapM_eq_ok_iff.1 hxs)
  exact ⟨qs, mapM_eq_ok_iff.2 hqs, hperm.symm⟩

/-! ## Slices -/

namespace Visibility

theorem flatten_cut {β : Type} (sizes : List ℕ) (xs : List β) (h : xs.length = sizes.sum) :
    (cut sizes xs).flatten = xs := by
  induction sizes generalizing xs with
  | nil => exact (List.eq_nil_of_length_eq_zero h).symm
  | cons n sizes ih =>
    rw [List.sum_cons] at h
    rw [cut, List.flatten_cons, ih _ (by rw [List.length_drop]; omega), List.take_append_drop]

theorem length_cut {β : Type} (sizes : List ℕ) (xs : List β) :
    (cut sizes xs).length = sizes.length := by
  induction sizes generalizing xs with
  | nil => rfl
  | cons n sizes ih => rw [cut, List.length_cons, List.length_cons, ih]

/-- Sizes of parts add up to the number of rows, also when there are more parts than rows. -/
theorem sum_partSizes (n : ℕ) {parts : ℕ} (hparts : 0 < parts) : (partSizes n parts).sum = n := by
  have hlarger : (Finset.range parts).filter (· < n % parts) = Finset.range (n % parts) := by
    ext k
    have hlt := Nat.mod_lt n hparts
    simp only [Finset.mem_filter, Finset.mem_range]
    omega
  rw [partSizes, sum_map_range, Finset.sum_add_distrib, Finset.sum_const, Finset.card_range,
    Finset.sum_boole, hlarger, Finset.card_range, smul_eq_mul, Nat.cast_id, Nat.div_add_mod]

theorem length_partSizes (n parts : ℕ) : (partSizes n parts).length = parts := by
  rw [partSizes, List.length_map, List.length_range]

/-- No part is longer than one before it, and none is shorter by more than one row. -/
theorem pairwise_partSizes (n parts : ℕ) :
    (partSizes n parts).Pairwise fun before after => after ≤ before ∧ before ≤ after + 1 := by
  refine List.Pairwise.map _ (fun i j hij => ?_) List.pairwise_lt_range
  -- a part that gets one of the rows left over is preceded by such parts only
  have hlonger : j < n % parts → i < n % parts := hij.trans
  split_ifs with hi hj hj <;> omega

example : partSizes 7 5 = [2, 2, 1, 1, 1] := by decide

/-- Parts have the lengths asked for. -/
theorem map_length_cut {β : Type} (sizes : List ℕ) (xs : List β) (h : xs.length = sizes.sum) :
    (cut sizes xs).map List.length = sizes := by
  induction sizes generalizing xs with
  | nil => rfl
  | cons n sizes ih =>
    rw [List.sum_cons] at h
    have hrest : (xs.drop n).length = sizes.sum := by rw [List.length_drop]; omega
    have hfirst : (xs.take n).length = n := by rw [List.length_take]; omega
    rw [cut, List.map_cons, ih _ hrest, hfirst]

section

variable {α : Type} (vis : Visibility α nchan npol)

/-- Visibilities in one slice. -/
theorem scatter_one : vis.scatter 1 = [vis] := by
  have hsize : partSizes vis.rowCount 1 = [vis.rowCount] := by simp [partSizes, Nat.mod_one]
  rw [scatter, hsize, cut, cut, rowCount, List.take_length]
  rfl

theorem partCount?_whole [Scalar α] {n : ℕ} (hn : 1 < n) :
    partCount? (.whole (n : ℤ) : Setting α) = .ok (some n) := by
  have hone : (Setting.whole (n : ℤ) : Setting α).isOne = false := by
    rw [Setting.isOne, beq_eq_false_iff_ne]
    omega
  have hsome : ¬ ((n : ℤ) < 1) := by omega
  simp only [partCount?, hone, Setting.wholePart, Setting.count, Setting.whole?, bind, Except.bind,
    hsome, if_false, Bool.false_eq_true, Int.toNat_natCast]
  rfl

/-- What is not to be cut is in one slice. -/
theorem scatterAs_whole [Scalar α] {n : ℕ} (hn : 1 ≤ n) :
    vis.scatterAs (.whole n) = .ok (vis.scatter n) := by
  rcases Nat.eq_or_lt_of_le hn with rfl | hmany
  · have hcount : partCount? (.whole ((1 : ℕ) : ℤ) : Setting α) = .ok none := rfl
    rw [scatterAs, hcount, scatter_one]
    rfl
  · rw [scatterAs, partCount?_whole hmany]
    rfl

/-- Slices hold the rows in their order. There is always one slice at least. -/
theorem exists_slices [Scalar α] {n : ℕ} (hn : 1 ≤ n) :
    ∃ rowss : List (List (Row α nchan npol)), rowss ≠ [] ∧ rowss.flatten = vis.rows ∧
      vis.scatterAs (.whole n) = .ok (rowss.map vis.withRows) := by
  refine ⟨cut (partSizes vis.rowCount n) vis.rows, ?_, ?_, vis.scatterAs_whole hn⟩
  · refine List.ne_nil_of_length_pos ?_
    rw [length_cut, length_partSizes]
    omega
  · exact flatten_cut _ _ (sum_partSizes _ (by omega)).symm

theorem length_scatter (n : ℕ) : (vis.scatter n).length = n := by
  rw [scatter, List.length_map, length_cut, length_partSizes]

/-- A slice differs from the visibilities in its rows only. -/
theorem eq_of_mem_scatter {n : ℕ} {part : Visibility α nchan npol}
    (h : part ∈ vis.scatter n) : part = { vis with rows := part.rows } := by
  obtain ⟨rows, -, rfl⟩ := List.mem_map.1 h
  rfl

theorem map_rowCount_scatter {n : ℕ} (hn : 1 ≤ n) :
    (vis.scatter n).map rowCount = partSizes vis.rowCount n := by
  rw [scatter, List.map_map]
  exact map_length_cut _ _ (sum_partSizes _ (by omega)).symm

/-- The rows of the slices, one slice after the other, are the rows. -/
theorem flatMap_rows_scatter {n : ℕ} (hn : 1 ≤ n) : (vis.scatter n).flatMap rows = vis.rows := by
  rw [scatter, List.flatMap_map, List.flatMap_id']
  exact flatten_cut _ _ (sum_partSizes _ (by omega)).symm

/-- Slices of the visibilities can be gathered. -/
theorem gather_scatter {n : ℕ} (hn : 1 ≤ n) : vis.gather (vis.scatter n) = .ok vis := by
  have hsome : (vis.scatter n).isEmpty = false := by
    rw [List.isEmpty_eq_false_iff, ← List.length_pos_iff, length_scatter]
    omega
  have hcount : vis.rows.length = vis.rowCount := rfl
  simp only [gather, hsome, vis.flatMap_rows_scatter hn, hcount, Bool.false_eq_true,
    if_false, if_true]

/-- Visibilities cut into slices and gathered are as they were, whatever the number of rows and of
    slices. There are as many slices as asked for. No slice is longer than one before it or shorter
    by more than one row; together they hold each row once and in order; and each has the channels
    and the phase centre of the visibilities. -/
theorem gather_scatterAs [Scalar α] {n : ℕ} (hn : 1 ≤ n) :
    ∃ parts, vis.scatterAs (.whole n) = .ok parts ∧ parts.length = n ∧
      (parts.map rowCount).Pairwise (fun before after => after ≤ before ∧ before ≤ after + 1) ∧
      parts.flatMap rows = vis.rows ∧
      (∀ part ∈ parts, part.frequency = vis.frequency ∧ part.bare = vis.bare ∧
        part.phaseCentre = vis.phaseCentre) ∧
      vis.gather parts = .ok vis := by
  refine ⟨vis.scatter n, vis.scatterAs_whole hn, vis.length_scatter n, ?_,
    vis.flatMap_rows_scatter hn, fun part hpart => ?_, vis.gather_scatter hn⟩
  · rw [vis.map_rowCount_scatter hn]
    exact pairwise_partSizes _ _
  · rw [vis.eq_of_mem_scatter hpart]
    exact ⟨rfl, rfl, rfl⟩

end

/-- Three rows of one channel and one polarisation. -/
noncomputable def threeRows : Visibility ℝ 1 1 where
  rows := [-1, 0, 1].map fun u => ⟨u, 0, 0, #v[#v[⟨⟨u, 0⟩, 1, false⟩]]⟩
  frequency := [1400000000]
  bare := false
  phaseCentre := some ⟨0, -45⟩

/-- Three rows in five slices, of which two are empty. -/
theorem gather_scatterAs_threeRows : 1 ≤ 5 ∧
    ∃ parts, threeRows.scatterAs (.whole (5 : ℕ)) = .ok parts ∧ parts.length = 5 ∧
      (parts.map rowCount).Pairwise (fun before after => after ≤ before ∧ before ≤ after + 1) ∧
      parts.flatMap rows = threeRows.rows ∧
      (∀ part ∈ parts, part.frequency = [1400000000] ∧ part.bare = false ∧
        part.phaseCentre = some ⟨0, -45⟩) ∧
      threeRows.gather parts = .ok threeRows :=
  ⟨by decide, gather_scatterAs threeRows (by decide)⟩

end Visibility

/-! ## Slices treated row by row -/

namespace Workflow

variable {vis : Visibility ℝ nchan npol}
  {P : Visibility ℝ nchan npol → Except (Fault ℝ) (Visibility ℝ nchan npol)}

/-- What treats rows one by one leaves as many of them as the parts had. -/
theorem length_rows_of_parts (hP : RowByRow vis P) {rowss : List (List (Row ℝ nchan npol))}
    {parts : List (Visibility ℝ nchan npol)}
    (h : List.Forall₂ (fun rows part => P (vis.withRows rows) = .ok part) rowss parts) :
    (parts.flatMap Visibility.rows).length = rowss.flatten.length := by
  induction h with
  | nil => rfl
  | cons hpart _ ih =>
    rw [List.flatMap_cons, List.flatten_cons, List.length_append, List.length_append, ih,
      hP.length _ hpart]

/-- What treats rows one by one does to visibilities what it does to their slices, gathered. -/
theorem gather_slices (hP : RowByRow vis P) {rowss : List (List (Row ℝ nchan npol))}
    (hne : rowss ≠ []) (hrows : rowss.flatten = vis.rows) (v : Visibility ℝ nchan npol) :
    P vis = .ok v ↔ ∃ parts, (rowss.map vis.withRows).mapM P = .ok parts ∧
    vis.gather parts = .ok v := by
  have hwhole : vis = vis.withRows rowss.flatten := by rw [hrows]; rfl
  have hflatten := mapM_flatten (fun rows => P (vis.withRows rows))
    (fun a b => vis.withRows (a.rows ++ b.rows))
    (fun parts => .ok (vis.withRows (parts.flatMap Visibility.rows)))
    (fun rows₁ rows₂ _ => hP.append rows₁ rows₂)
    (fun rows a ha => by
      rw [List.flatMap_singleton]
      exact congrArg Except.ok (hP.keeps rows ha).symm)
    (fun _ _ a bs _ _ _ => ⟨_, rfl, by rw [List.flatMap_cons]; rfl⟩) hne v
  rw [← hwhole] at hflatten
  rw [hflatten, List.mapM_map]
  refine exists_congr fun parts => and_congr_right fun hparts => ?_
  -- parts have as many rows as slices, so they can be gathered
  have hcounts := mapM_eq_ok_iff.1 hparts
  have hlength : (parts.flatMap Visibility.rows).length = vis.rowCount := by
    rw [length_rows_of_parts hP hcounts, hrows]
    rfl
  have hsome : parts.isEmpty = false := by
    cases parts with
    | nil => exact absurd (List.forall₂_nil_right_iff.1 hcounts) hne
    | cons => rfl
  simp only [Visibility.gather, hsome, hlength, if_true, Bool.false_eq_true, if_false]
  rfl

end Workflow

end ApertureSynthesis
