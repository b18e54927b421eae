/-
  Counters of the samples of a pass. A sample is one row and channel.
-/
import ApertureSynthesis.Text.Table

namespace ApertureSynthesis

/-- What became of the samples of a pass. -/
structure Statistics where
  /-- Samples that touched the grid. -/
  gridded : Int := 0
  /-- Rows with every sample flagged. -/
  flagged : Int := 0
  /-- Samples whose whole footprint was off the grid. -/
  outside : Int := 0
  /-- Samples moved to the first or last plane. -/
  clamped : Int := 0
deriving DecidableEq, Repr

namespace Statistics

/-- Nothing counted. -/
def zero : Statistics := {}

/-- Counter by counter. -/
def add (s t : Statistics) : Statistics :=
  ⟨s.gridded + t.gridded, s.flagged + t.flagged, s.outside + t.outside, s.clamped + t.clamped⟩

instance : Add Statistics := ⟨add⟩

/-- The sum of a list, from nothing. -/
def total (xs : List Statistics) : Statistics := xs.foldl (· + ·) zero

@[simp] theorem add_gridded (s t : Statistics) : (s + t).gridded = s.gridded + t.gridded := rfl
@[simp] theorem add_flagged (s t : Statistics) : (s + t).flagged = s.flagged + t.flagged := rfl
@[simp] theorem add_outside (s t : Statistics) : (s + t).outside = s.outside + t.outside := rfl
@[simp] theorem add_clamped (s t : Statistics) : (s + t).clamped = s.clamped + t.clamped := rfl

/-- A description in five lines. -/
def text (s : Statistics) : String :=
  "Gridding statistics:\n" ++
  s!"\tngridded: {s.gridded}\n" ++
  s!"\tnflagged: {s.flagged}\n" ++
  s!"\tnoutside: {s.outside}\n" ++
  s!"\tnclamped: {s.clamped}\n"

/-- The running sums of a list. -/
def running (xs : List Statistics) : List Statistics := go zero xs
where
  /-- The sums that continue one. -/
  go (s : Statistics) : List Statistics → List Statistics
    | [] => []
    | t :: rest => (s + t) :: go (s + t) rest

/-- A cell of each counter. -/
def cells (s : Statistics) : List String :=
  [s.gridded, s.flagged, s.outside, s.clamped].map toString

/-- A table with a line for each partition and one for their total. -/
def table (xs : List Statistics) : String :=
  let header := ["Partition", "Gridded", "Flagged", "Outside", "Clamped"]
  let lines := xs.zipIdx.map (fun (s, i) => toString i :: s.cells) ++ ["Total" :: (total xs).cells]
  Text.table header lines

end Statistics

end ApertureSynthesis
