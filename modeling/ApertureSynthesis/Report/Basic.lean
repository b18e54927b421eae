/-
  Reports: results as trees of values, ready to be written down. Numbers in a report are decimals,
  rounded to so many digits of their own magnitude or of the magnitude of what they belong to; a
  large array is reported by some of its elements and by two sums.
-/
import ApertureSynthesis.Setting
import ApertureSynthesis.Tensor

namespace ApertureSynthesis

/-- A value to be written down. -/
inductive Report where
  /-- Nothing. -/
  | absent
  /-- A truth value. -/
  | flag (b : Bool)
  /-- A whole number. -/
  | whole (n : Int)
  /-- A number with a point. -/
  | decimal (d : Text.Decimal)
  /-- A text. -/
  | text (s : String)
  /-- A list. -/
  | list (xs : List Report)
  /-- Values with names. -/
  | record (fields : List (String × Report))
deriving Inhabited

namespace Report

/-- Values with their names. -/
abbrev Fields := List (String × Report)

/-- A count. -/
def count (n : Nat) : Report := whole n

/-- Whole numbers in a list. -/
def wholes (ns : List Int) : Report := list (ns.map whole)

/-- Counts in a list. -/
def counts (ns : List Nat) : Report := list (ns.map count)

/-- A number rounded to so many digits of a scale; what is not finite is reported by its name. -/
def rounded (x scale : Float) (digits : Nat) : Report :=
  if x - x == 0 then decimal (Text.rounded x scale digits) else text (Text.nonFinite x)

/-- A number with ten digits. -/
def number (x : Float) : Report := rounded x x.abs 10

/-- A number with seven digits. -/
def short (x : Float) : Report := rounded x x.abs 7

/-- Numbers in a list. -/
def numbers (xs : List Float) : Report := list (xs.map number)

/-- A number with all its digits. -/
def exact (x : Float) : Report :=
  match Text.Dyadic.ofFloat? x with
  | some d => decimal (Text.shortest d)
  | none => text (Text.nonFinite x)

mutual

/-- A setting as it is. -/
def setting : Setting Float → Report
  | .absent => absent
  | .flag b => flag b
  | .whole n => whole n
  | .real x => exact x
  | .text s => text s
  | .several xs => list (settings xs)
  | .named xs => record (namedSettings xs)

/-- Settings as they are. -/
def settings : List (Setting Float) → List Report
  | [] => []
  | x :: xs => setting x :: settings xs

/-- Settings with their names. -/
def namedSettings : List (String × Setting Float) → Fields
  | [] => []
  | (k, x) :: xs => (k, setting x) :: namedSettings xs

end

/-- Nested lists of the elements of an array from a storage position on. -/
def nestedFrom (start : Nat) (item : Nat → Report) : List Nat → Report
  | [] => item start
  | n :: rest => list ((List.range n).map fun k => nestedFrom (start + k * volume rest) item rest)

/-- Nested lists of the elements of an array. -/
def nested {β : Type} (t : Tensor β) (item : β → Report) : Report :=
  nestedFrom 0 (fun k => (t.data[k]?.map item).getD absent) t.shape

/-- The magnitude of a number, zero if it is not finite. -/
def magnitude (x : Float) : Float := if x - x == 0 then x.abs else 0

/-- The elements of an array up to this number are all reported. -/
def fullSize : Nat := 300

/-- How many elements of a larger array are reported. -/
def samples : Nat := 48

/-- A part of a large array: elements at equal distances, the sum of all, and their sum with weights
    that change from element to element. -/
def sampled (scale total : Float) (n : Nat) (name : String) (xs : Array Float) : Fields :=
  let chosen := (List.range samples).map fun j => xs.getD (j * (n - 1) / (samples - 1)) 0
  let weighted := xs.mapIdx fun i x => x * (i * 7919 % 101 + 1).toFloat / 101
  [(name, list (chosen.map (rounded · scale 7))),
    ("sum_" ++ name, rounded (xs.foldl (· + ·) 0) total 7),
    ("wsum_" ++ name, rounded (weighted.foldl (· + ·) 0) total 7)]

/-- An array given by its parts, rounded to seven digits of its greatest magnitude. -/
def array (shape : List Nat) (parts : List (String × Array Float)) : Report :=
  let n := volume shape
  let fold (f : Float → Float → Float) : Float :=
    parts.foldl (fun a (_, xs) => xs.foldl (fun a x => f a (magnitude x)) a) 0
  let scale := fold fun a x => if a < x then x else a
  let head := ("shape", counts shape)
  if n ≤ fullSize then
    record (head :: parts.map fun (k, xs) => (k, list (xs.toList.map (rounded · scale 7))))
  else
    let total := fold (· + ·)
    record (head :: ("abs", rounded total total 7) ::
      parts.flatMap fun (k, xs) => sampled scale total n k xs)

/-- An array of real numbers. -/
def reals (t : Tensor Float) : Report := array t.shape [("v", t.data)]

/-- An array of complex numbers. -/
def complexes (t : Tensor (Cplx Float)) : Report :=
  array t.shape [("re", t.data.map (·.re)), ("im", t.data.map (·.im))]

/-- A raster of real numbers. -/
def raster (r : Raster Float) : Report := reals (.ofRaster r)

end Report

end ApertureSynthesis
