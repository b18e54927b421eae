/-
  Sums of stored deposits, accumulated in place.

  Deposits are handed on by the places of their parts in storage. A sum copies the first deposit to
  new storage and adds the others there; what was stored before stays as it was (`Accumulates`),
  also where a deposit is listed twice. A reduction as a tree keeps a record of the lists that it
  sums: none of them is empty or longer than the split, each deposit stands in them once, in the
  order given, and there are less than twice as many lists as deposits (`Records`). What is left in
  storage is what the sum as a tree is of the deposits themselves (`exists_run_treeBy`), hence their
  sum from the left, part by part (`reduction_loses_nothing`). Neither storage nor the depth of a
  reduction is limited here.
-/
import Mathlib
import ApertureSynthesis.Proofs.Workflow.Reduction

namespace ApertureSynthesis

namespace Workflow

open Grid (Deposit)

/-! ## Storage -/

section Storage

variable {α : Type} [Scalar α]

/-- The grids and the sums of weights that there are, in the order in which they were made. -/
structure Memory (α : Type) where
  /-- Grids. -/
  grids : List (Grid α)
  /-- Sums of weights. -/
  sums : List (Tensor α)

/-- A deposit as it is handed on. -/
structure Stored where
  /-- The place of its grid. -/
  grid : ℕ
  /-- The place of its sums of weights. -/
  sums : ℕ
  /-- Its counters, which are no part of storage. -/
  statistics : Statistics

/-- The deposit that is stored at the places given. -/
def Memory.read? (m : Memory α) (r : Stored) : Option (Deposit α) := do
  return ⟨← m.grids[r.grid]?, ← m.sums[r.sums]?, r.statistics⟩

/-- Adds a deposit to the grid and the sums of weights at places of storage. -/
def Memory.addAt (m : Memory α) (total : Stored) (d : Deposit α) : Memory α where
  grids := m.grids.modify total.grid fun g =>
    g.withCells (Tensor.zipWith (· + ·) g.cells d.grid.cells) rfl
  sums := m.sums.modify total.sums fun t => Tensor.zipWith (· + ·) t d.sumWeights

/-- Storage in the course of a reduction, and the lists that were summed. -/
structure Ledger (α : Type) where
  /-- Storage. -/
  memory : Memory α
  /-- The lists, the first one first. -/
  calls : List (List Stored)

/-- Work on storage. -/
abbrev Summing (α : Type) := StateT (Ledger α) (Except (Fault α))

/-- The deposit at places of storage. -/
def fetch (r : Stored) : Summing α (Deposit α) := do
  match (← get).memory.read? r with
  | some d => return d
  | none => throw .index

/-- Keeps a deposit in new storage. -/
def keep (d : Deposit α) : Summing α Stored := do
  let m := (← get).memory
  modify fun l => { l with memory := ⟨m.grids ++ [d.grid], m.sums ++ [d.sumWeights]⟩ }
  return ⟨m.grids.length, m.sums.length, d.statistics⟩

/-- Adds a stored deposit to a total, where that is stored. -/
def addInto (total r : Stored) : Summing α Stored := do
  let d ← fetch r
  modify fun l => { l with memory := l.memory.addAt total d }
  return { total with statistics := total.statistics + d.statistics }

/-- The sum of stored deposits, from the left, in a copy of the first one. -/
def sumStored : List Stored → Summing α Stored
  | [] => throw .index
  | r :: rs => do rs.foldlM addInto (← keep (← fetch r))

/-- The sum of stored deposits, with a record of their list. -/
def summing (rs : List Stored) : Summing α Stored := do
  modify fun l => { l with calls := l.calls ++ [rs] }
  sumStored rs

end Storage

/-! ## Storage that only grows -/

section Prefix

variable {β : Type} {xs ys : List β} {k : ℕ}

/-- An entry of a list stays at its place in a longer one. -/
theorem getElem?_of_isPrefix {x : β} (h : xs <+: ys) (hk : xs[k]? = some x) : ys[k]? = some x := by
  obtain ⟨hlt, rfl⟩ := List.getElem?_eq_some_iff.1 hk
  exact List.prefix_iff_getElem?.1 h k hlt

/-- A change behind the entries of a list leaves them alone. -/
theorem isPrefix_modify (f : β → β) (h : xs <+: ys) (hk : xs.length ≤ k) :
    xs <+: ys.modify k f := by
  rw [List.prefix_iff_eq_take, List.take_modify, ← List.prefix_iff_eq_take.1 h,
    List.modify_eq_self hk]

end Prefix

namespace Memory

variable {m m' m'' : Memory ℝ} {r total : Stored} {d t : Deposit ℝ}

/-- All that was stored still is, at its place. -/
structure Extends (m m' : Memory ℝ) : Prop where
  /-- Grids are only added behind, -/
  grids : m.grids <+: m'.grids
  /-- and so are sums of weights. -/
  sums : m.sums <+: m'.sums

/-- A place is behind all that is stored. -/
structure Before (m : Memory ℝ) (r : Stored) : Prop where
  /-- The grid is behind all grids, -/
  grid : m.grids.length ≤ r.grid
  /-- the sums of weights are behind all sums. -/
  sums : m.sums.length ≤ r.sums

/-- A deposit is stored at a place. -/
def Holds (m : Memory ℝ) (r : Stored) (d : Deposit ℝ) : Prop := m.read? r = some d

theorem Extends.trans (h : m.Extends m') (h' : m'.Extends m'') : m.Extends m'' :=
  ⟨h.grids.trans h'.grids, h.sums.trans h'.sums⟩

theorem Before.of_extends (h : m.Extends m') (hr : m'.Before r) : m.Before r :=
  ⟨h.grids.length_le.trans hr.grid, h.sums.length_le.trans hr.sums⟩

theorem holds_iff : m.Holds r d ↔ m.grids[r.grid]? = some d.grid ∧
    m.sums[r.sums]? = some d.sumWeights ∧ r.statistics = d.statistics := by
  obtain ⟨grid, sums, statistics⟩ := d
  unfold Holds read?
  cases m.grids[r.grid]? with
  | none => simp
  | some g =>
    cases m.sums[r.sums]? with
    | none => simp
    | some t => simp

/-- What is stored is stored in larger storage too. -/
theorem Holds.of_extends (h : m.Extends m') (hr : m.Holds r d) : m'.Holds r d := by
  obtain ⟨hgrid, hsums, hstatistics⟩ := holds_iff.1 hr
  exact holds_iff.2
    ⟨getElem?_of_isPrefix h.grids hgrid, getElem?_of_isPrefix h.sums hsums, hstatistics⟩

theorem lt_of_holds (h : m.Holds r d) : r.grid < m.grids.length := by
  obtain ⟨hgrid, -, -⟩ := holds_iff.1 h
  exact (List.getElem?_eq_some_iff.1 hgrid).1

/-- Adding at a place behind what is stored leaves that alone. -/
theorem extends_addAt (h : m.Extends m') (hbefore : m.Before total) :
    m.Extends (m'.addAt total d) :=
  ⟨isPrefix_modify _ h.grids hbefore.grid, isPrefix_modify _ h.sums hbefore.sums⟩

/-- The place then holds the sum. -/
theorem holds_addAt (h : m.Holds total t) : (m.addAt total d).Holds
    { total with statistics := total.statistics + d.statistics } (add t d) := by
  obtain ⟨hgrid, hsums, hstatistics⟩ := holds_iff.1 h
  refine holds_iff.2 ⟨?_, ?_, ?_⟩
  · rw [addAt, List.getElem?_modify_eq, hgrid]
    rfl
  · rw [addAt, List.getElem?_modify_eq, hsums]
    rfl
  · exact congrArg (· + d.statistics) hstatistics

end Memory

/-! ## Sums in place -/

open Memory (Extends Before Holds)

/-- A total in storage of its own: what was stored before is untouched, the total is stored behind
    it, and so many lists have been summed. -/
structure Accumulates (m : Memory ℝ) (calls : List (List Stored)) (d : Deposit ℝ) (total : Stored)
    (l : Ledger ℝ) : Prop where
  /-- Storage was only added to. -/
  extends_memory : m.Extends l.memory
  /-- The total is new. -/
  before : m.Before total
  /-- It is stored. -/
  holds : l.memory.Holds total d
  /-- The lists that were summed. -/
  calls_eq : l.calls = calls

section InPlace

variable {m : Memory ℝ} {l l' : Ledger ℝ} {calls : List (List Stored)} {r total : Stored}
  {d t : Deposit ℝ} {rs : List Stored} {ds : List (Deposit ℝ)}

theorem run_bind {β γ : Type} {x : Summing ℝ β} {f : β → Summing ℝ γ} {a : β}
    (h : x.run l = .ok (a, l')) : (x >>= f).run l = (f a).run l' := by
  rw [StateT.run_bind, h]
  rfl

theorem run_fetch (h : l.memory.Holds r d) : (fetch r).run l = .ok (d, l) := by
  have hget : (get : Summing ℝ (Ledger ℝ)).run l = .ok (l, l) := rfl
  unfold fetch
  rw [run_bind hget, h]
  rfl

/-- What is kept is stored behind everything else. -/
theorem exists_run_keep (l : Ledger ℝ) (d : Deposit ℝ) :
    ∃ total l', (keep d).run l = .ok (total, l') ∧ Accumulates l.memory l.calls d total l' := by
  refine ⟨⟨l.memory.grids.length, l.memory.sums.length, d.statistics⟩, _, rfl, ?_, ?_, ?_, rfl⟩
  · exact ⟨List.prefix_append _ _, List.prefix_append _ _⟩
  · exact ⟨le_rfl, le_rfl⟩
  · exact Memory.holds_iff.2 ⟨List.getElem?_concat_length, List.getElem?_concat_length, rfl⟩

/-- One more deposit is added to the total and to nothing else. -/
theorem exists_run_addInto (h : Accumulates m calls t total l) (hr : m.Holds r d) :
    ∃ total' l', (addInto total r).run l = .ok (total', l') ∧
      Accumulates m calls (add t d) total' l' := by
  have hfetch := run_fetch (hr.of_extends h.extends_memory)
  refine ⟨_, _, (run_bind hfetch).trans rfl, ?_, ?_, ?_, ?_⟩
  · exact Memory.extends_addAt h.extends_memory h.before
  · exact ⟨h.before.grid, h.before.sums⟩
  · exact Memory.holds_addAt h.holds
  · exact h.calls_eq

/-- Deposits that were stored before are added one after the other. -/
theorem exists_run_foldlM (hrs : List.Forall₂ m.Holds rs ds) (h : Accumulates m calls t total l) :
    ∃ total' l', (rs.foldlM addInto total).run l = .ok (total', l') ∧
      Accumulates m calls (ds.foldl add t) total' l' := by
  induction hrs generalizing t total l with
  | nil => exact ⟨total, l, rfl, h⟩
  | cons hr hrs ih =>
    obtain ⟨total₁, l₁, hstep, hadded⟩ := exists_run_addInto h hr
    obtain ⟨total₂, l₂, hrun, hall⟩ := ih hadded
    refine ⟨total₂, l₂, ?_, hall⟩
    rw [List.foldlM_cons, run_bind hstep, hrun]

/-- A list of stored deposits is summed in new storage. -/
theorem exists_run_summing (hrs : List.Forall₂ l.memory.Holds rs ds) (hne : rs ≠ []) :
    ∃ d total l', sum ds = .ok d ∧ (summing rs).run l = .ok (total, l') ∧
      Accumulates l.memory (l.calls ++ [rs]) d total l' := by
  cases hrs with
  | nil => exact absurd rfl hne
  | @cons r d rs ds hr hrs =>
    -- the list is recorded before the first deposit is copied
    let start : Ledger ℝ := { l with calls := l.calls ++ [r :: rs] }
    obtain ⟨first, l₁, hkeep, hkept⟩ := exists_run_keep start d
    obtain ⟨total, l₂, hfold, hall⟩ := exists_run_foldlM hrs hkept
    refine ⟨ds.foldl add d, total, l₂, rfl, ?_, hall⟩
    have hrecord :
        (modify fun l => { l with calls := l.calls ++ [r :: rs] } : Summing ℝ PUnit).run l =
        .ok (⟨⟩, start) := rfl
    rw [summing, run_bind hrecord, sumStored, run_bind (run_fetch (l := start) hr), run_bind hkeep,
      hfold]

end InPlace

/-! ## The lists that a tree sums -/

/-- The record of a reduction of `rs` whose deposits stand before place `n`, in which later places
    are those of totals. -/
structure Records (split n : ℕ) (rs : List Stored) (calls : List (List Stored)) : Prop where
  /-- No list is empty or longer than the split. -/
  sizes : ∀ call ∈ calls, call ≠ [] ∧ call.length ≤ split
  /-- There are less than twice as many lists as deposits. -/
  count : calls.length < 2 * rs.length
  /-- Each deposit stands in the lists once, in the order given. -/
  once : (calls.flatten.filter fun r => r.grid < n) = rs

section Records

variable {split n : ℕ} {rs rs' : List Stored} {calls calls' : List (List Stored)}

theorem Records.single (hne : rs ≠ []) (hshort : rs.length ≤ split) (hold : ∀ r ∈ rs, r.grid < n) :
    Records split n rs [rs] where
  sizes call hcall := by
    obtain rfl := List.mem_singleton.1 hcall
    exact ⟨hne, hshort⟩
  count := by
    have hpos := List.length_pos_iff.2 hne
    rw [List.length_singleton]
    omega
  once := by
    rw [List.flatten_singleton, List.filter_eq_self]
    intro r hr
    exact decide_eq_true (hold r hr)

/-- The totals of the two parts of a list are summed last. -/
theorem Records.join (hsplit : 2 ≤ split) (h : Records split n rs calls)
    (h' : Records split n rs' calls') {left right : Stored} (hleft : n ≤ left.grid)
    (hright : n ≤ right.grid) :
    Records split n (rs ++ rs') (calls ++ calls' ++ [[left, right]]) where
  sizes call hcall := by
    rcases List.mem_append.1 hcall with hparts | htotals
    · rcases List.mem_append.1 hparts with hfront | hback
      · exact h.sizes call hfront
      · exact h'.sizes call hback
    · obtain rfl := List.mem_singleton.1 htotals
      exact ⟨List.cons_ne_nil _ _, hsplit⟩
  count := by
    have hfront := h.count
    have hback := h'.count
    rw [List.length_append, List.length_append, List.length_append, List.length_singleton]
    omega
  once := by
    have htotals : ([left, right].filter fun r => r.grid < n) = [] := by
      rw [List.filter_eq_nil_iff]
      intro r hr
      rw [decide_eq_true_iff, not_lt]
      rcases List.mem_pair.1 hr with rfl | rfl
      · exact hleft
      · exact hright
    rw [List.flatten_append, List.flatten_append, List.flatten_singleton, List.filter_append,
      List.filter_append, h.once, h'.once, htotals, List.append_nil]

end Records

/-- A reduction in place leaves what the sum as a tree is, and a proper record. -/
theorem exists_run_treeBy {split n : ℕ} (hsplit : 2 ≤ split) {rs : List Stored} (hne : rs ≠ [])
    {l : Ledger ℝ} {ds : List (Deposit ℝ)} (hrs : List.Forall₂ l.memory.Holds rs ds)
    (hn : n ≤ l.memory.grids.length) (hold : ∀ r ∈ rs, r.grid < n) :
    ∃ calls d total l', tree split hsplit ds = .ok d ∧
      (treeBy summing split hsplit rs).run l = .ok (total, l') ∧
      Accumulates l.memory (l.calls ++ calls) d total l' ∧ Records split n rs calls := by
  -- by induction on the length; the right part is reduced in the storage that the left part leaves
  induction rs using treeBy.induct split hsplit generalizing l ds with
  | case1 rs hlong centre hpos hlt ih ih' =>
    obtain ⟨hfront, hback⟩ := cut_ne_nil hsplit hlong
    have hlength := hrs.length_eq
    obtain ⟨calls₁, d₁, left, l₁, htree₁, hrun₁, hleft, hrecords₁⟩ := ih hfront
      (List.forall₂_take centre hrs) hn (fun r hr => hold r (List.mem_of_mem_take hr))
    have hrest : List.Forall₂ l₁.memory.Holds (rs.drop centre) (ds.drop centre) :=
      (List.forall₂_drop centre hrs).imp fun r d hr => hr.of_extends hleft.extends_memory
    have hn₁ : n ≤ l₁.memory.grids.length := hn.trans hleft.extends_memory.grids.length_le
    obtain ⟨calls₂, d₂, right, l₂, htree₂, hrun₂, hright, hrecords₂⟩ := ih' hback hrest hn₁
      (fun r hr => hold r (List.mem_of_mem_drop hr))
    have htotals : List.Forall₂ l₂.memory.Holds [left, right] [d₁, d₂] :=
      .cons (hleft.holds.of_extends hright.extends_memory) (.cons hright.holds .nil)
    obtain ⟨d, total, l₃, hsum, hrun, htotal⟩ := exists_run_summing htotals (List.cons_ne_nil _ _)
    have hextends := hleft.extends_memory.trans hright.extends_memory
    refine ⟨calls₁ ++ calls₂ ++ [[left, right]], d, total, l₃, ?_, ?_, ?_, ?_⟩
    · rw [tree, treeBy_of_long sum hsplit (hlength ▸ hlong), ← hlength, ← tree,
        ← tree, htree₁, htree₂]
      exact hsum
    · rw [treeBy_of_long summing hsplit hlong, run_bind hrun₁, run_bind hrun₂, hrun]
    · refine ⟨hextends.trans htotal.extends_memory, htotal.before.of_extends hextends,
        htotal.holds, ?_⟩
      rw [htotal.calls_eq, hright.calls_eq, hleft.calls_eq]
      simp only [List.append_assoc]
    · have hrecords := hrecords₁.join hsplit hrecords₂ (hn.trans hleft.before.grid)
        (hn₁.trans hright.before.grid)
      rwa [List.take_append_drop] at hrecords
  | case2 rs hshort =>
    obtain ⟨d, total, l', hsum, hrun, htotal⟩ := exists_run_summing hrs hne
    have hlength := hrs.length_eq
    refine ⟨[rs], d, total, l', ?_, ?_, htotal, Records.single hne (not_lt.1 hshort) hold⟩
    · rw [tree, treeBy_of_short sum hsplit (hlength ▸ not_lt.1 hshort), hsum]
    · rw [treeBy_of_short summing hsplit (not_lt.1 hshort), hrun]

variable {cells weights : List ℕ}

theorem givenTreeSum_whole {split : ℕ} (hsplit : 2 ≤ split) (ds : List (Deposit ℝ)) :
    givenTreeSum (.whole split) ds = tree split hsplit ds := by
  have hwhole : (2 : ℤ) ≤ split := by exact_mod_cast hsplit
  have hgiven : givenTreeSum (α := ℝ) (.whole split) ds = treeSum split ds := rfl
  rw [hgiven, treeSum, dif_pos hwhole]
  rfl

/-- A list of stored deposits of one shape, some of which may be the same, is reduced in finitely
    many sums, of lists that are not empty and not longer than the split, in which each deposit
    stands once. What is left is the sum as a tree, which is the sum from the left, part by part,
    with the cell size and the frequencies of the first deposit. What was stored before is
    untouched. -/
theorem reduction_loses_nothing {split : ℕ} (hsplit : 2 ≤ split) {m : Memory ℝ}
    {results : List Stored} {values : List (Deposit ℝ)} (hne : results ≠ [])
    (hstored : List.Forall₂ m.Holds results values)
    (hshape : ∀ d ∈ values, Deposit.Shaped cells weights d) :
    ∃ (total : Stored) (l : Ledger ℝ) (d : Deposit ℝ),
      (treeBy summing split hsplit results).run ⟨m, []⟩ = .ok (total, l) ∧
      l.memory.Holds total d ∧ givenTreeSum (.whole split) values = .ok d ∧
      sum values = .ok d ∧ d.Shaped cells weights ∧ IsSum values d ∧
      Records split m.grids.length results l.calls ∧ m.Extends l.memory := by
  have hboth : List.Forall₂ (fun r d => r.grid < m.grids.length ∧ m.Holds r d) results values :=
    hstored.imp fun r d hr => ⟨Memory.lt_of_holds hr, hr⟩
  obtain ⟨hold, -⟩ := (List.forall₂_and_left _ _).1 hboth
  obtain ⟨calls, d, total, l, htree, hrun, htotal, hrecords⟩ :=
    exists_run_treeBy (l := ⟨m, []⟩) hsplit hne hstored le_rfl hold
  have hsum : sum values = .ok d := by rw [← tree_eq_sum hsplit values hshape, htree]
  have hcalls : l.calls = calls := htotal.calls_eq
  refine ⟨total, l, d, hrun, htotal.holds, ?_, hsum, shaped_sum hshape hsum,
    isSum_of_sum hshape hsum, ?_, htotal.extends_memory⟩
  · rw [givenTreeSum_whole hsplit, htree]
  · rwa [hcalls]

/-- A deposit of a single cell, of one sample. -/
noncomputable def singleCell (x : ℝ) : Deposit ℝ where
  grid := ⟨Tensor.fill [1, 1, 1, 1] (Cplx.ofReal x), 1, 1, 1, 1, .single 1, none, rfl⟩
  sumWeights := Tensor.fill [1, 1] x
  statistics := { gridded := 1 }

theorem get_singleCell (x : ℝ) : ((singleCell x).grid.cells.get [0, 0, 0, 0]).val = (x : ℂ) := by
  have hwithin : Tensor.Within [1, 1, 1, 1] [0, 0, 0, 0] := by decide
  rw [singleCell, Tensor.get_fill _ hwithin, Cplx.val_ofReal]

/-- Two stored deposits, the first of which is listed once more at the end. -/
theorem reduction_loses_nothing_listedTwice :
    ∃ (m : Memory ℝ) (first second total : Stored) (l : Ledger ℝ) (d : Deposit ℝ),
      m.Holds first (singleCell 1) ∧ m.Holds second (singleCell 2) ∧
      (treeBy summing 2 le_rfl [first, second, first]).run ⟨m, []⟩ = .ok (total, l) ∧
      l.memory.Holds total d ∧ (d.grid.cells.get [0, 0, 0, 0]).val = 4 ∧
      d.statistics.gridded = 3 ∧ l.calls.length < 6 ∧
      l.memory.Holds first (singleCell 1) ∧ l.memory.Holds second (singleCell 2) := by
  let m : Memory ℝ := ⟨[(singleCell 1).grid, (singleCell 2).grid],
    [(singleCell 1).sumWeights, (singleCell 2).sumWeights]⟩
  have hfirst : m.Holds ⟨0, 0, { gridded := 1 }⟩ (singleCell 1) := rfl
  have hsecond : m.Holds ⟨1, 1, { gridded := 1 }⟩ (singleCell 2) := rfl
  have hshape : ∀ d ∈ [singleCell 1, singleCell 2, singleCell 1],
      Deposit.Shaped [1, 1, 1, 1] [1, 1] d := by
    intro d hd
    simp only [List.mem_cons, List.not_mem_nil, or_false] at hd
    rcases hd with rfl | rfl | rfl <;> exact ⟨rfl, rfl⟩
  obtain ⟨total, l, d, hrun, hheld, -, -, -, hsum, hrecords, hextends⟩ :=
    reduction_loses_nothing le_rfl (List.cons_ne_nil _ _)
      (.cons hfirst (.cons hsecond (.cons hfirst .nil))) hshape
  refine ⟨m, _, _, total, l, d, hfirst, hsecond, hrun, hheld, ?_, ?_, hrecords.count,
    hfirst.of_extends hextends, hsecond.of_extends hextends⟩
  · rw [hsum.cells]
    simp only [List.map_cons, List.map_nil, List.sum_cons, List.sum_nil, get_singleCell]
    norm_num
  · rw [hsum.statistics]
    rfl

end Workflow

end ApertureSynthesis
