/-
  The nearest of several numbers. Of equally near ones the first is taken; a distance that is not a
  number prevails over all that come after it.
-/
import ApertureSynthesis.Scalar

namespace ApertureSynthesis

variable {α : Type} [Scalar α]

/-- Whether `x` takes the place of the best candidate `best` in a search for the smallest. -/
@[inline] def improves (x best : α) : Bool :=
  !Scalar.isNaN best && (Scalar.isNaN x || decide (x < best))

/-- Position of the smallest of `best`, found at `found`, and the numbers that follow at `next`. -/
def leastFrom (best : α) (found next : Nat) : List α → Nat
  | [] => found
  | x :: xs =>
    if improves x best then leastFrom x next (next + 1) xs
    else leastFrom best found (next + 1) xs

/-- Position of the first smallest number of a list; there is none in an empty list. -/
def least? : List α → Option Nat
  | [] => none
  | x :: xs => some (leastFrom x 0 1 xs)

/-- Position of the number nearest to `x`. -/
def nearest? (xs : List α) (x : α) : Option Nat := least? (xs.map fun y => Scalar.abs (x - y))

end ApertureSynthesis
