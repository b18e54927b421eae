/-
  Plain tables: a header, a line of dashes and the rows, columns two blanks apart. A column is as
  wide as its widest cell, and at least two wider than its header. The first column is aligned to
  the left, the others to the right.
-/
import ApertureSynthesis.Text.Array

namespace ApertureSynthesis.Text

/-- Width of column `c`. -/
def columnWidth (header : List String) (rows : List (List String)) (c : Nat) : Nat :=
  ArrayLayout.widest (((header.getD c "").length + 2) :: rows.map fun r => (r.getD c "").length)

/-- One line of a table, the first cell to the left, the others to the right. -/
def tableLine (widths : List Nat) (cells : List String) : String :=
  "  ".intercalate <| (widths.zip cells).zipIdx.map fun ((w, s), c) =>
    if c = 0 then padRight w s else padLeft w s

/-- A table with a header. -/
def table (header : List String) (rows : List (List String)) : String :=
  let widths := (List.range header.length).map (columnWidth header rows)
  let dashes := widths.map fun w => String.ofList (List.replicate w '-')
  "\n".intercalate <|
    [tableLine widths header, "  ".intercalate dashes] ++ rows.map (tableLine widths)

end ApertureSynthesis.Text
