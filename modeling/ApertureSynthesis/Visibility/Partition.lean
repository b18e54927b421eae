/-
  Partitions of visibilities: a selection of rows, contiguous parts of nearly equal size, and the
  parts put together again.
-/
import ApertureSynthesis.Argument
import ApertureSynthesis.Visibility.Basic

namespace ApertureSynthesis.Visibility

variable {α : Type} {nchan npol : Nat}

/-- The position that a possibly negative row number denotes. -/
def rowNumber? (n : Nat) (k : Int) : Option Nat :=
  if 0 ≤ k ∧ k < n then some k.toNat
  else if -(n : Int) ≤ k ∧ k < 0 then some (k + n).toNat
  else none

/-- The rows of given numbers, in their order. A negative number counts from the end. -/
def selectRows (vis : Visibility α nchan npol) (numbers : List Int) :
    Except (Fault α) (Visibility α nchan npol) := do
  let table := vis.rows.toArray
  let rows ← numbers.mapM fun k =>
    match (rowNumber? vis.rowCount k).bind (table[·]?) with
    | some r => pure r
    | none => throw .index
  return { vis with rows := rows }

/-- The rows whose entry in a mask is set. -/
def maskRows (vis : Visibility α nchan npol) (mask : List Bool) :
    Except (Fault α) (Visibility α nchan npol) :=
  if mask.length = vis.rowCount then
    .ok
      { vis with rows := (vis.rows.zip mask).filterMap fun (r, keep) =>
        if keep then some r else none }
  else .error .index

/-- Sizes of `parts` contiguous parts of `n` rows: they differ by at most one, larger ones first. -/
def partSizes (n parts : Nat) : List Nat :=
  (List.range parts).map fun k => n / parts + if k < n % parts then 1 else 0

/-- A list cut into parts of given sizes. -/
def cut {β : Type} : List Nat → List β → List (List β)
  | [], _ => []
  | n :: sizes, xs => xs.take n :: cut sizes (xs.drop n)

/-- Contiguous parts of the rows. -/
def scatter (vis : Visibility α nchan npol) (parts : Nat) : List (Visibility α nchan npol) :=
  (cut (partSizes vis.rowCount parts) vis.rows).map fun rows => { vis with rows := rows }

/-- The number of parts asked for, of which a fraction does not count; none if nothing is to be cut,
    because exactly one is asked for. -/
def partCount? [Scalar α] (parts : Setting α) : Except (Fault α) (Option Nat) :=
  match parts with
  | .text _ => .error .unsuitable
  | parts =>
    if parts.isOne then .ok none
    else do
      let n ← parts.wholePart
      if n < 1 then throw .mismatch
      return some n.toNat

/-- Visibilities cut into as many parts as asked for, or whole. -/
def scatterAs [Scalar α] (vis : Visibility α nchan npol) (parts : Setting α) :
    Except (Fault α) (List (Visibility α nchan npol)) := do
  match ← partCount? parts with
  | none => return [vis]
  | some n => return vis.scatter n

/-- The rows of all parts, in the layout of a whole. There have to be parts, and as many rows as in
    the whole. -/
def gather (whole : Visibility α nchan npol) (parts : List (Visibility α nchan npol)) :
    Except (Fault α) (Visibility α nchan npol) :=
  let rows := parts.flatMap Visibility.rows
  if parts.isEmpty then .error .mismatch
  else if rows.length = whole.rowCount then .ok { whole with rows := rows }
  else .error (.gathered rows.length whole.rowCount)

end ApertureSynthesis.Visibility
