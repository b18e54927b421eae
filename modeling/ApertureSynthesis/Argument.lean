/-
  Arguments: settings read as what an operation asks for. A length or a count has to be whole; other
  numbers may have a point; where a whole part is asked for, the fraction of a number is dropped and
  a word is read.
-/
import ApertureSynthesis.Fault

namespace ApertureSynthesis.Setting

variable {α : Type} [Scalar α]

/-- A whole number. -/
def count (s : Setting α) : Except (Fault α) Int :=
  match s.whole? with
  | some n => .ok n
  | none => .error .unsuitable

/-- A whole number, perhaps written with a point. -/
def integral (s : Setting α) : Except (Fault α) Int :=
  match s with
  | real x =>
    if Scalar.isFinite x && Scalar.floor x == x then .ok (Scalar.wholePart x)
    else .error .unsuitable
  | s => s.count

/-- A number. -/
def number (s : Setting α) : Except (Fault α) α :=
  match s.number? with
  | some x => .ok x
  | none => .error .unsuitable

/-- The whole number that a word spells. -/
def spelled? (s : String) : Option Int :=
  let s := s.trimAscii
  if s.startsWith '+' then (s.drop 1).toNat?.map Int.ofNat else s.toInt?

/-- The whole part of a number, or the whole number that a word spells. -/
def wholePart (s : Setting α) : Except (Fault α) Int :=
  match s with
  | real x =>
    if Scalar.isNaN x then .error .mismatch
    else if Scalar.isFinite x then .ok (Scalar.wholePart x)
    else .error .overflow
  | text w =>
    match spelled? w with
    | some n => .ok n
    | none => .error .mismatch
  | s => s.count

/-- The single settings of a list, the letters of a word, or the names of named values. -/
def items (s : Setting α) : Except (Fault α) (List (Setting α)) :=
  match s with
  | several xs => .ok xs
  | text w => .ok (w.toList.map fun c => text c.toString)
  | named xs => .ok (xs.map fun x => text x.1)
  | _ => .error .unsuitable

/-- The numbers of an array, row after row. No value stands for what is not a number; lists side by
    side have to agree in their lengths, and a word is no number. -/
def numbers (s : Setting α) : Except (Fault α) (List α) :=
  if s.shape?.isNone then .error .mismatch
  else s.leaves.mapM fun
    | absent => .ok (0 / 0)
    | text _ => .error .mismatch
    | x => x.number

/-- A number to multiply or divide an array by; a word is kept as a word and cannot be calculated
    with. -/
def factor (s : Setting α) : Except (Fault α) α :=
  match s with
  | text _ => .error .narrowing
  | s => s.number

/-- A setting is a word. -/
def isText : Setting α → Bool
  | text _ => true
  | _ => false

/-- The numbers of an array to calculate with, and the way each is written. An array that holds a
    word is an array of words. -/
def operands (s : Setting α) : Except (Fault α) (List (α × Setting α)) :=
  if s.shape?.isNone then .error .mismatch
  else match s.numbers? with
    | some xs => .ok xs
    | none => .error (if s.leaves.any isText then .narrowing else .unsuitable)

end ApertureSynthesis.Setting
