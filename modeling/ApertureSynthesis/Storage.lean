/-
  How single numbers are stored: as truth values, as whole numbers of a width, or as numbers with a
  point. A number that is stored is brought to the nearest one that can be; a whole number keeps its
  low bits.
-/
import ApertureSynthesis.Argument
import ApertureSynthesis.Cplx

namespace ApertureSynthesis

/-- Number of bytes of a whole number. -/
inductive Width where
  /-- 8 bits. -/
  | one
  /-- 16 bits. -/
  | two
  /-- 32 bits. -/
  | four
  /-- 64 bits. -/
  | eight
deriving DecidableEq, Repr

/-- Number of bytes. -/
def Width.bytes : Width → Nat
  | one => 1
  | two => 2
  | four => 4
  | eight => 8

/-- How a number is stored. -/
inductive Storage where
  /-- As a truth value. -/
  | flag
  /-- As a whole number, with a sign or without. -/
  | whole (signed : Bool) (width : Width)
  /-- With a point, in 16 bits. -/
  | half
  /-- With a point, in 32 bits. -/
  | single
  /-- With a point, in 64 bits. -/
  | double
deriving DecidableEq, Repr

namespace Storage

/-- Bytes of a number. -/
def bytes : Storage → Nat
  | flag => 1
  | whole _ w => w.bytes
  | half => 2
  | single => 4
  | double => 8

/-- How many whole numbers there are of a width. -/
def span (w : Width) : Nat := Nat.pow 256 w.bytes

/-- The least whole number of a width. -/
def least (signed : Bool) (w : Width) : Int := if signed then -(span w / 2 : Nat) else 0

/-- One more than the greatest whole number of a width. -/
def limit (signed : Bool) (w : Width) : Int := least signed w + span w

/-- The whole number of a width with the same low bits. -/
def wrap (signed : Bool) (w : Width) (n : Int) : Int :=
  (n - least signed w) % span w + least signed w

/-- The nearest number with eleven binary digits whose last one is worth at least `2 ^ -24`. -/
def nearestHalf (x : Float) : Float :=
  if x - x == 0 && x != 0 then
    let place := max (x.frExp.2 - 11) (-24)
    let y := (Scalar.round (x.scaleB (-place))).scaleB place
    if 65504 < y then 1.0 / 0.0 else if y < -65504 then -1.0 / 0.0 else y
  else x

/-- A number as it is stored. -/
def store : Storage → Float → Float
  | flag => fun x => if x == 0 then 0 else 1
  | whole signed w => fun x => Float.ofInt (wrap signed w (Scalar.truncInt x))
  | half => nearestHalf
  | single => fun x => x.toFloat32.toFloat
  | double => id

/-- A value that is set, as it is stored. A whole number that cannot be stored is refused, while a
    number with a point loses its fraction and its high bits. Nothing is stored as what is no
    number. -/
def accept (s : Storage) (value : Setting Float) : Except (Fault Float) Float :=
  match s, value with
  | flag, v => .ok (if v.truth then 1 else 0)
  | whole signed w, .real x => do
    let n ← (Setting.real x).wholePart
    if n < least true .eight ∨ limit signed .eight ≤ n then throw .overflow
    return Float.ofInt (wrap signed w n)
  | whole signed w, v => do
    let n ← v.wholePart
    if n < least signed w ∨ limit signed w ≤ n then throw .overflow
    return Float.ofInt n
  | s, v => (Setting.several [v]).numbers.map fun xs => s.store (xs.headD 0)

/-- A complex value that is set where there is no room for an imaginary part. Only its truth value
    can be kept. -/
def acceptComplex (s : Storage) (z : Cplx Float) : Except (Fault Float) Float :=
  match s with
  | flag => .ok (if z.re == 0 && z.im == 0 then 0 else 1)
  | _ => .error .unsuitable

/-- A value that is set among complex numbers or real ones. A pair is a complex number. -/
def acceptAs (s : Storage) (complex : Bool) (value : Setting Float) :
    Except (Fault Float) (Cplx Float) :=
  match value with
  | .several [re, im] => do
    let z : Cplx Float := ⟨← re.number, ← im.number⟩
    if complex then return ⟨s.store z.re, s.store z.im⟩
    else return Cplx.ofReal (← s.acceptComplex z)
  | v => do
    let x ← s.accept v
    let nothing := if let .absent := v then complex else false
    return if nothing then ⟨x, x⟩ else Cplx.ofReal x

/-- How the numbers of an array of settings are stored; words and nothing are no numbers. -/
def ofItems (items : List (Setting Float)) : Option Storage :=
  let isFlag : Setting Float → Bool
    | .flag _ => true
    | _ => false
  if !items.all fun x => x.number?.isSome then none
  else if items.isEmpty then some double
  else if items.all isFlag then some flag
  else if items.all fun x => x.whole?.isSome then some (whole true .eight)
  else some double

/-- Sums with numbers stored in a second way can be kept in the first: truth values take only truth
    values, whole numbers with a sign only whole numbers, and whole numbers without a sign only
    truth values. -/
def takes : Storage → Storage → Bool
  | flag, t => t = flag
  | whole _ _, flag => true
  | whole true _, whole _ _ => true
  | whole _ _, _ => false
  | _, _ => true

/-- Refuses a value that cannot be added in place: truth values are only added to truth values,
    whole numbers to whole numbers. A whole number on its own has to fit. -/
def checkAddition (s : Storage) (value : Setting Float) : Except (Fault Float) Unit :=
  match s, value with
  | s, .several xs => do
    if (Setting.several xs).shape?.isNone then throw .mismatch
    match ofItems (Setting.several xs).leaves with
    | some t => if s.takes t then return () else throw .narrowing
    | none => throw .narrowing
  | flag, .flag _ => .ok ()
  | flag, _ => .error .narrowing
  | whole _ _, .flag _ => .ok ()
  | whole signed w, .whole n =>
    if n < least signed w ∨ limit signed w ≤ n then .error .overflow else .ok ()
  | whole _ _, _ => .error .narrowing
  | _, v => if v.number?.isSome then .ok () else .error .narrowing

end Storage

end ApertureSynthesis
