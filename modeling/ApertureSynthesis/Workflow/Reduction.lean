/-
  Summation of the grids of partitions: grids, sums of weights and counters are added up, from the
  left or as a tree. A tree cuts a list that is longer than `split` in two at one part in `split`,
  and adds the sums of both parts.
-/
import ApertureSynthesis.Argument
import ApertureSynthesis.Grid.Deposit

namespace ApertureSynthesis.Workflow

open Grid (Deposit)

variable {α : Type} [Scalar α]

/-- The sum of two grids of one shape, with their sums of weights and counters. -/
def add (a b : Deposit α) : Deposit α where
  grid := a.grid.withCells (Tensor.zipWith (· + ·) a.grid.cells b.grid.cells) rfl
  sumWeights := Tensor.zipWith (· + ·) a.sumWeights b.sumWeights
  statistics := a.statistics + b.statistics

/-- The sum of a list, from the left; there is none of an empty list. -/
def sum : List (Deposit α) → Except (Fault α) (Deposit α)
  | [] => .error .index
  | x :: xs => .ok (xs.foldl add x)

/-- Reduces a list as a tree, for a split of at least two: `reduce` is asked for a list that is
    short enough, and for the results of the two parts of one that is not. -/
def treeBy {m : Type → Type} [Monad m] {β : Type} (reduce : List β → m β) (split : Nat)
    (hsplit : 2 ≤ split) (xs : List β) : m β :=
  if h : split < xs.length then do
    let centre := xs.length / split
    have hpos : 0 < centre := Nat.div_pos (by omega) (by omega)
    have hlt : centre < xs.length := Nat.div_lt_self (by omega) (by omega)
    let left ← treeBy reduce split hsplit (xs.take centre)
    let right ← treeBy reduce split hsplit (xs.drop centre)
    reduce [left, right]
  else reduce xs
termination_by xs.length
decreasing_by
  · simp only [List.length_take]; omega
  · simp only [List.length_drop]; omega

section Steps

variable {m : Type → Type} [Monad m] {β : Type} {split : Nat} {xs : List β}

theorem treeBy_of_long (reduce : List β → m β) (hsplit : 2 ≤ split) (h : split < xs.length) :
    treeBy reduce split hsplit xs = (do
      let left ← treeBy reduce split hsplit (xs.take (xs.length / split))
      let right ← treeBy reduce split hsplit (xs.drop (xs.length / split))
      reduce [left, right]) := by
  rw [treeBy, dif_pos h]

theorem treeBy_of_short (reduce : List β → m β) (hsplit : 2 ≤ split) (h : xs.length ≤ split) :
    treeBy reduce split hsplit xs = reduce xs := by
  rw [treeBy, dif_neg (Nat.not_lt.2 h)]

end Steps

/-- The sum of a list as a tree, for a split of at least two. -/
def tree (split : Nat) (hsplit : 2 ≤ split) (xs : List (Deposit α)) :
    Except (Fault α) (Deposit α) :=
  treeBy sum split hsplit xs

/-- The sum of a list as a tree, for a whole split. A split of zero cannot divide a list, and with a
    negative one, or one of one, cutting does not end, unless the list is short enough to be added
    at once. -/
def treeSum (split : Int) (xs : List (Deposit α)) : Except (Fault α) (Deposit α) :=
  if h : 2 ≤ split then tree split.toNat (by omega) xs
  else if (xs.length : Int) ≤ split then sum xs
  else if split = 0 then .error .division
  else .error .endless

/-- The sum of a list as a tree, for a split as it is given. With a point it can be compared with
    the length of the list, but the list cannot be cut. -/
def givenTreeSum (split : Setting α) (xs : List (Deposit α)) : Except (Fault α) (Deposit α) :=
  match split.whole? with
  | some n => treeSum n xs
  | none => do
    let x ← split.number
    if x < (xs.length : α) then throw (if x == 0 then .division else .unsuitable) else sum xs

end ApertureSynthesis.Workflow
