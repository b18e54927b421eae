/-
  Settings: the values that a configuration gives for its parameters, before they are checked. A
  truth value counts as the whole number 0 or 1; a whole number counts as a number. A setting
  keeps the way it was written, because complaints about it quote it.
-/
import ApertureSynthesis.Scalar
import ApertureSynthesis.Text.Array
import ApertureSynthesis.Text.Quoted

namespace ApertureSynthesis

/-- A value given for a parameter. -/
inductive Setting (α : Type) where
  /-- No value. -/
  | absent
  /-- A truth value. -/
  | flag (b : Bool)
  /-- A whole number. -/
  | whole (n : Int)
  /-- A number with a point. -/
  | real (x : α)
  /-- A word. -/
  | text (s : String)
  /-- Several values. -/
  | several (xs : List (Setting α))
  /-- Values with names. -/
  | named (xs : List (String × Setting α))
deriving Inhabited

namespace Setting

variable {α : Type} [Scalar α]

/-- The whole number that a setting is, truth values included. -/
def whole? : Setting α → Option Int
  | flag b => some (if b then 1 else 0)
  | whole n => some n
  | _ => none

/-- The number that a setting is. -/
def number? : Setting α → Option α
  | flag b => some (if b then 1 else 0)
  | whole n => some (n : α)
  | real x => some x
  | _ => none

/-- Whether a setting says yes: nothing, zero, an empty word and an empty list do not. -/
def truth : Setting α → Bool
  | absent => false
  | flag b => b
  | whole n => n != 0
  | real x => !(x == 0)
  | text s => !s.isEmpty
  | several xs => !xs.isEmpty
  | named xs => !xs.isEmpty

/-- Whether a setting is one. A whole number is compared as such. -/
def isOne : Setting α → Bool
  | flag b => b
  | whole n => n == 1
  | real x => x == 1
  | _ => false

/-- The value of a name. -/
def field? (s : Setting α) (key : String) : Option (Setting α) :=
  match s with
  | named xs => List.lookup key xs
  | _ => none

mutual

/-- The single values of a setting, those of lists in order. -/
def leaves : Setting α → List (Setting α)
  | several xs => leavesOfAll xs
  | absent => [absent]
  | flag b => [flag b]
  | whole n => [whole n]
  | real x => [real x]
  | text s => [text s]
  | named xs => [named xs]

/-- The single values of all settings of a list. -/
def leavesOfAll : List (Setting α) → List (Setting α)
  | [] => []
  | x :: xs => leaves x ++ leavesOfAll xs

end

mutual

/-- The lengths of nested lists, the outermost first; there are none if lists side by side
    differ. -/
def shape? : Setting α → Option (List Nat)
  | several xs => (commonShape? xs).map fun
    | some inner => xs.length :: inner
    | none => [0]
  | _ => some []

/-- The common lengths of settings side by side, if there are any settings. -/
def commonShape? : List (Setting α) → Option (Option (List Nat))
  | [] => some none
  | x :: xs =>
    match shape? x, commonShape? xs with
    | some s, some none => some (some s)
    | some s, some (some t) => if s = t then some (some s) else none
    | _, _ => none

end

/-- The numbers of a setting with the way each is written: all with a point as soon as one of them
    has a point, and truth values among numbers as numbers. -/
def numbers? (s : Setting α) : Option (List (α × Setting α)) := do
  let items := s.leaves
  let values ← items.mapM number?
  let isFlag : Setting α → Bool
    | flag _ => true
    | _ => false
  if items.all isFlag then pure (values.zip items)
  else match items.mapM whole? with
    | some wholes => pure (values.zip (wholes.map whole))
    | none => pure (values.map fun x => (x, real x))

mutual

/-- A setting as it is written in a list: nothing as `None`, a word in quotes. -/
def written : Setting Float → String
  | absent => "None"
  | flag b => if b then "True" else "False"
  | whole n => toString n
  | real x => Text.number x
  | text s => Text.quoted s
  | several xs => Text.list (writtenAll xs)
  | named xs => "\x7b" ++ ", ".intercalate (writtenNamed xs) ++ "\x7d"

/-- Settings as they are written in a list. -/
def writtenAll : List (Setting Float) → List String
  | [] => []
  | x :: xs => written x :: writtenAll xs

/-- Settings with their names. -/
def writtenNamed : List (String × Setting Float) → List String
  | [] => []
  | (k, x) :: xs => (Text.quoted k ++ ": " ++ written x) :: writtenNamed xs

end

/-- A setting as it is quoted: a word without quotes. -/
def quoted : Setting Float → String
  | text s => s
  | x => x.written

end Setting

end ApertureSynthesis
