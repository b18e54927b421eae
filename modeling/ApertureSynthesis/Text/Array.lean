/-
  Texts of arrays and lists of numbers. A bracketed array writes its numbers with one layout: as
  few digits as tell each value from its neighbours, at most eight after the point, padded to
  equal columns; with exponents when the magnitudes are large, small or far apart. Long arrays
  are broken into lines, very long ones are abridged. A shape is written as a tuple.
-/
import ApertureSynthesis.Text.Number

namespace ApertureSynthesis.Text

/-- A tuple of texts; a single one is followed by a comma. -/
def tuple : List String → String
  | [] => "()"
  | [x] => "(" ++ x ++ ",)"
  | xs => "(" ++ ", ".intercalate xs ++ ")"

/-- Shape of an array as a tuple. -/
def shape {β : Type} [ToString β] (dims : List β) : String := tuple (dims.map toString)

/-- A list of texts in brackets, separated by commas. -/
def list (xs : List String) : String := "[" ++ ", ".intercalate xs ++ "]"

/-- At most `places` digits after the point, fewer if the value needs fewer. -/
def cutPlaces (places : Nat) (d : Dyadic) : Decimal :=
  let s := shortest d
  if s.place < -(places : Int) then (Decimal.ofDyadic d (-places)).trim else s

/-- At most `places` digits after the first, fewer if the value needs fewer. -/
def cutDigits (places : Nat) (d : Dyadic) : Decimal :=
  let s := shortest d
  if s.place < s.leading - places then
    (Decimal.ofDyadic d (leadingPlace d.numerator d.denominator - places)).trim
  else s

/-- How the numbers of an array are written. -/
inductive ArrayLayout where
  /-- Whole digits padded to `left`, digits after the point to `right`. -/
  | positional (left right : Nat)
  /-- First digit padded to `left`, `places` digits after it, exponent with `width` digits. -/
  | scientific (left places width : Nat)

namespace ArrayLayout

/-- Magnitudes that are at least `1e8`, below `1e-4` or more than a thousandfold apart are written
    with exponents. -/
def needsExponent (xs : List Float) : Bool :=
  match xs.filter (fun x => x != 0 && x - x == 0) |>.map Float.abs with
  | [] => false
  | m :: ms =>
    let high := ms.foldl (fun a b => if a < b then b else a) m
    let low := ms.foldl (fun a b => if b < a then b else a) m
    high ≥ 1e8 || low < 1e-4 || high / low > 1000

/-- The greatest of some lengths. -/
def widest (xs : List Nat) : Nat := xs.foldl max 0

/-- The layout for the numbers of an array. -/
def ofList (xs : List Float) : ArrayLayout :=
  let finite := xs.filterMap Dyadic.ofFloat?
  let special := xs.filter fun x => !(x - x == 0)
  let room (left right : Nat) : Nat :=
    widest (left :: special.map fun x => (nonFinite x).length - (right + 1))
  if needsExponent xs then
    let parts := finite.map fun d => (d.negative, scientificParts (cutDigits 8 d))
    let places := widest (parts.map fun (_, _, rest, _) => rest.length)
    let width := widest (parts.map fun (_, _, _, e) => max 2 (toString e.natAbs).length)
    let left := widest (parts.map fun (negative, _) => if negative then 2 else 1)
    .scientific (room left (width + 2 + places)) places width
  else
    let parts := finite.map fun d => (d.negative, positionalParts (cutPlaces 8 d))
    let left := widest (parts.map fun (negative, whole, _) =>
      (if negative then 1 else 0) + whole.length)
    let right := widest (parts.map fun (_, _, fraction) => fraction.length)
    .positional (room left right) right

/-- One number in a layout. -/
def write (layout : ArrayLayout) (x : Float) : String :=
  match layout, Dyadic.ofFloat? x with
  | .positional left right, none => padLeft (left + right + 1) (nonFinite x)
  | .scientific left places width, none => padLeft (left + places + width + 3) (nonFinite x)
  | .positional left right, some d =>
    let (whole, fraction) := positionalParts (cutPlaces 8 d)
    padLeft left (signText d.negative ++ whole) ++ "." ++ padRight right fraction
  | .scientific left places width, some d =>
    let (first, rest, e) := scientificParts (cutDigits 8 d)
    let zeros := String.ofList (List.replicate (places - rest.length) '0')
    padLeft left (signText d.negative ++ first) ++ "." ++ rest ++ zeros ++
      (if e < 0 then "e-" else "e+") ++ padZeros width (toString e.natAbs)

end ArrayLayout

/-- Words in brackets, broken so that no line is longer than 74 characters; further lines are
    indented by one blank. -/
def bracketed (words : List String) : String :=
  let step : List String × String → String → List String × String := fun (done, line) word =>
    if 74 < line.length + word.length && 1 < line.length then
      (done ++ [toString line.trimAsciiEnd], " " ++ word ++ " ")
    else (done, line ++ word ++ " ")
  let (done, line) := words.foldl step ([], " ")
  "[" ++ toString (("\n".intercalate (done ++ [toString (line.dropEnd 1)])).drop 1) ++ "]"

/-- The elements of an array that are written: of more than a thousand the first and last three. -/
def abridged {β : Type} (xs : List β) : List β × List β :=
  if xs.length ≤ 1000 then (xs, []) else (xs.take 3, xs.drop (xs.length - 3))

/-- Elements in brackets, with dots for those that are left out. -/
def bracketedElements {β : Type} (write : β → String) (first last : List β) : String :=
  bracketed (first.map write ++ if last.isEmpty then [] else "..." :: last.map write)

/-- An array of numbers. -/
def numbers (xs : List Float) : String :=
  let (first, last) := abridged xs
  bracketedElements (ArrayLayout.ofList (first ++ last)).write first last

/-- An array of whole numbers, padded to equal width. -/
def integers (xs : List Int) : String :=
  let (first, last) := abridged xs
  let width := ArrayLayout.widest ((first ++ last).map fun n => (toString n).length)
  bracketedElements (fun n => padLeft width (toString n)) first last

end ApertureSynthesis.Text
