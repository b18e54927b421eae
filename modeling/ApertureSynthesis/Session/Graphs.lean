/-
  A session with a switch and with values, some of them deferred. The work is simple arithmetic on
  values of any kind: numbers are added and compared as numbers, words letter by letter and lists
  entry by entry; other kinds do not mix.
-/
import ApertureSynthesis.Argument
import ApertureSynthesis.Workflow.Switch

namespace ApertureSynthesis.Session

/-- A value to work on. -/
abbrev Datum := Setting Float

namespace Datum

/-- The sum of two numbers, whole if both are; words and lists are put together. -/
def add (x y : Datum) : Except (Fault Float) Datum :=
  match x, y with
  | .text a, .text b => .ok (.text (a ++ b))
  | .several a, .several b => .ok (.several (a ++ b))
  | x, y =>
    match x.whole?, y.whole? with
    | some m, some n => .ok (.whole (m + n))
    | _, _ => do return .real ((← x.number) + (← y.number))

mutual

/-- Two values are the same. -/
def same : Datum → Datum → Bool
  | .several a, .several b => allSame a b
  | .text a, .text b => a == b
  | .absent, .absent => true
  | x, y =>
    match x.whole?, y.whole?, x.number?, y.number? with
    | some m, some n, _, _ => m == n
    | _, _, some a, some b => a == b
    | _, _, _, _ => false

/-- Two lists have the same entries. -/
def allSame : List Datum → List Datum → Bool
  | [], [] => true
  | x :: xs, y :: ys => same x y && allSame xs ys
  | _, _ => false

end

mutual

/-- Whether the first value is below the second, if they can be compared. -/
def below : Datum → Datum → Except (Fault Float) Bool
  | .several a, .several b => listBelow a b
  | .text a, .text b => .ok (decide (a < b))
  | x, y =>
    match x.whole?, y.whole? with
    | some m, some n => .ok (decide (m < n))
    | _, _ => do return decide ((← x.number) < (← y.number))

/-- Lists are compared at the first entry in which they differ. -/
def listBelow : List Datum → List Datum → Except (Fault Float) Bool
  | _, [] => .ok false
  | [], _ :: _ => .ok true
  | x :: xs, y :: ys => if same x y then listBelow xs ys else below x y

end

/-- The sum of a list, from a start. -/
def sum (start : Datum) (xs : List Datum) : Except (Fault Float) Datum := xs.foldlM add start

/-- The first of the greatest values. -/
def greatest : List Datum → Except (Fault Float) Datum
  | [] => .error .mismatch
  | x :: xs => xs.foldlM (fun best y => do return if ← below best y then y else best) x

/-- A value put into an ordered list, after those that are not above it. -/
def place (x : Datum) : List Datum → Except (Fault Float) (List Datum)
  | [] => .ok [x]
  | y :: ys => do if ← below x y then return x :: y :: ys else return y :: (← place x ys)

/-- A list in ascending order, equal values in the order in which they are. -/
def sorted (xs : List Datum) : Except (Fault Float) (List Datum) :=
  xs.foldlM (fun ys x => place x ys) []

end Datum

/-- A function to work with. -/
inductive Job where
  /-- The sum of a list, from a start. -/
  | sum
  /-- The greatest of a list, or of several. -/
  | max
  /-- A list in ascending order. -/
  | sorted
deriving DecidableEq

namespace Job

/-- The function of a name. -/
def ofName? : String → Option Job
  | "sum" => some sum
  | "max" => some max
  | "sorted" => some sorted
  | _ => none

/-- The value of a function. Words are not summed. -/
def run : Job → List Datum → Except (Fault Float) Datum
  | sum, [xs] => do Datum.sum (.whole 0) (← xs.items)
  | sum, [xs, start] => do
    let items ← xs.items
    if let .text _ := start then throw .unsuitable
    Datum.sum start items
  | max, [xs] => do Datum.greatest (← xs.items)
  | max, x :: y :: rest => Datum.greatest (x :: y :: rest)
  | sorted, [xs] => do return .several (← Datum.sorted (← xs.items))
  | _, _ => .error .unsuitable

end Job

/-- A piece of work on data. -/
abbrev DatumWork := Work (Except (Fault Float)) Datum

/-- A switch and a list of values. -/
structure Graphs where
  /-- The switch. -/
  switch : Switch
  /-- What the switch was told about deferring work, as it was written. -/
  deferring : Setting Float
  /-- What it was told about simplifying graphs, as it was written. -/
  optimizing : Setting Float
  /-- The values, in the order in which they were made. -/
  values : List DatumWork

/-- What a function is applied to. -/
inductive Operand where
  /-- A value. -/
  | value (x : Datum)
  /-- The value at a position of the list; a negative one counts from the end. -/
  | ref (k : Setting Float)

namespace Graphs

/-- A value of the list. -/
def at? (g : Graphs) (position : Setting Float) : Except (Fault Float) DatumWork := do
  let k ← position.count
  let k := if k < 0 then k + g.values.length else k
  match if k < 0 then none else g.values[k.toNat]? with
  | some w => return w
  | none => throw .index

/-- A session with a switch that is told whether to defer work and whether to simplify graphs. -/
def start (deferring optimizing : Setting Float) : Graphs :=
  ⟨⟨deferring.truth, optimizing.truth, false⟩, deferring, optimizing, []⟩

/-- Chooses the way of execution, and says why it is refused if it is. -/
def setClient (g : Graphs) (client deferring optimizing : Setting Float) :
    Except (Fault Float) Unit × Graphs :=
  let (switch, result) := g.switch.setClient client deferring.truth optimizing.truth
  (result, { g with switch, deferring, optimizing })

/-- A piece of work is deferred. -/
def deferred : DatumWork → Bool
  | .done _ => false
  | .graph _ => true

/-- Adds a value to the list, and says whether it is deferred. -/
def push (g : Graphs) (w : DatumWork) : Bool × Graphs :=
  (deferred w, { g with values := g.values ++ [w] })

/-- Work on values of which some are deferred, done at once: a sum that starts from a deferred value
    is deferred as well, and nothing else can be done with one. -/
def mixed (job : Job) (works : List DatumWork) : Except (Fault Float) DatumWork :=
  match job, works with
  | .sum, [.done xs, .graph start] => do
    let items ← xs.items
    return .graph (do Datum.sum (← start) items)
  | _, _ => .error .unsuitable

/-- Hands a function and its operands to the switch. -/
def execute (g : Graphs) (job : Job) (operands : List Operand) :
    Except (Fault Float) (Bool × Graphs) := do
  let works ← operands.mapM fun
    | .value x => pure (.done x)
    | .ref k => g.at? k
  let work : Except (Fault Float) Datum := do job.run (← works.mapM Work.value)
  let immediate := !g.switch.deferring
  return g.push (← if immediate && works.any deferred then mixed job works
    else g.switch.execute work)

/-- Simplifies values; the first is added to the list. -/
def optimize (g : Graphs) (refs : List (Setting Float)) : Except (Fault Float) (Bool × Graphs) := do
  let works ← refs.mapM g.at?
  match works with
  | w :: _ => return g.push (g.switch.optimize w)
  | [] => throw .index

/-- Asks for a value. -/
def compute (g : Graphs) (k : Setting Float) : Except (Fault Float) DatumWork := do
  g.switch.compute (α := Float) (← g.at? k)

end Graphs

end ApertureSynthesis.Session
