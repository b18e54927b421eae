/-
  A session with visibilities of one layout, kept under names. Several names may stand for one table
  of rows: a wrapped set and a part that is the whole share the table of their source, so a value
  set through one name is seen through the other. Copies and selections have tables of their own.
-/
import ApertureSynthesis.Storage
import ApertureSynthesis.Visibility.Create
import ApertureSynthesis.Visibility.Partition
import ApertureSynthesis.Visibility.Taper

namespace ApertureSynthesis.Session

/-- What a table of rows is seen with. -/
structure TableView where
  /-- Number of the table. -/
  table : Nat
  /-- Frequency of each channel. -/
  frequency : List Float
  /-- The frequency is a bare number. -/
  bare : Bool
  /-- The phase centre. -/
  phaseCentre : Option (SkyDirection Float)

/-- What a name stands for. -/
inductive Named where
  /-- Visibilities. -/
  | one (view : TableView)
  /-- A list of visibilities. -/
  | many (views : List TableView)

/-- The tables of a session, and the names for them. -/
structure Tables (nchan npol : Nat) where
  /-- Rows of each table. -/
  tables : Array (List (Row Float nchan npol))
  /-- The names, latest first. -/
  names : List (String × Named)

/-- A column of visibilities. -/
inductive Column where
  /-- Coordinates. -/
  | uvw
  /-- Values. -/
  | vis
  /-- Weights. -/
  | weight
  /-- Flags. -/
  | flags
deriving DecidableEq

/-- The column of a name. -/
def Column.ofName? : String → Option Column
  | "uvw" => some .uvw
  | "vis" => some .vis
  | "weight" => some .weight
  | "flags" => some .flags
  | _ => none

namespace Tables

variable {nchan npol : Nat}

/-- The visibilities that a view shows. -/
def read (t : Tables nchan npol) (view : TableView) : Visibility Float nchan npol :=
  ⟨t.tables.getD view.table [], view.frequency, view.bare, view.phaseCentre⟩

/-- Keeps visibilities in a table of their own. -/
def add (t : Tables nchan npol) (vis : Visibility Float nchan npol) :
    TableView × Tables nchan npol :=
  (⟨t.tables.size, vis.frequency, vis.bare, vis.phaseCentre⟩,
    { t with tables := t.tables.push vis.rows })

/-- Gives a name. -/
def name (t : Tables nchan npol) (key : String) (x : Named) : Tables nchan npol :=
  { t with names := (key, x) :: t.names }

/-- Keeps visibilities in a table of their own, under a name. -/
def keep (t : Tables nchan npol) (key : String) (vis : Visibility Float nchan npol) :
    Tables nchan npol :=
  let (view, t) := t.add vis
  t.name key (.one view)

/-- A session with one named set of visibilities. -/
def start (key : String) (vis : Visibility Float nchan npol) : Tables nchan npol :=
  keep ⟨#[], []⟩ key vis

/-- What a name stands for. -/
def find? (t : Tables nchan npol) (key : String) : Option Named := List.lookup key t.names

/-- The view of named visibilities; with no visibilities of that name the given fault. -/
def view (t : Tables nchan npol) (key : String) (fault : Fault Float) :
    Except (Fault Float) TableView :=
  match t.find? key with
  | some (.one v) => .ok v
  | _ => .error fault

/-- Named visibilities, of which a part is asked for. -/
def part (t : Tables nchan npol) (key : String) :
    Except (Fault Float) (Visibility Float nchan npol) :=
  (t.view key .missing).map t.read

/-- Named visibilities, which are promised to be there. -/
def promised (t : Tables nchan npol) (key : String) :
    Except (Fault Float) (Visibility Float nchan npol) :=
  (t.view key .broken).map t.read

/-- The views of a named list. -/
def views (t : Tables nchan npol) (key : String) : Except (Fault Float) (List TableView) :=
  match t.find? key with
  | some (.many vs) => .ok vs
  | _ => .error .unsuitable

/-- The entry of a list at a possibly negative position. -/
def pick {β : Type} (xs : List β) (k : Int) : Except (Fault Float) β :=
  match (Visibility.rowNumber? xs.length k).bind (xs[·]?) with
  | some x => .ok x
  | none => .error .index

/-- Names the parts of visibilities. A single part is the whole itself; a list has no rows to be
    cut. -/
def scatter (t : Tables nchan npol) (source key : String) (parts : Setting Float) :
    Except (Fault Float) (List Nat × Tables nchan npol) := do
  if let some (.many _) := t.find? source then throw .missing
  let view ← t.view source .broken
  match ← Visibility.partCount? parts with
  | none => return ([(t.read view).rowCount], t.name key (.many [view]))
  | some n =>
    let pieces := (t.read view).scatter n
    let (views, t) := pieces.foldl (fun (views, t) p =>
      let (v, t) := t.add p
      (views ++ [v], t)) (([] : List TableView), t)
    return (pieces.map Visibility.rowCount, t.name key (.many views))

/-- Names one entry of a list. -/
def select (t : Tables nchan npol) (source key : String) (k : Int) :
    Except (Fault Float) (Tables nchan npol) := do
  return t.name key (.one (← pick (← t.views source) k))

/-- Names a view of the same table without a phase centre. -/
def wrap (t : Tables nchan npol) (source key : String) :
    Except (Fault Float) (Tables nchan npol) := do
  return t.name key (.one { (← t.view source .missing) with phaseCentre := none })

/-- Names the parts of a list put together, all of them or those at given positions. -/
def gather (t : Tables nchan npol) (source key parts : String) (order : Option (List Int)) :
    Except (Fault Float) (Tables nchan npol) := do
  if order.isNone then let _ ← t.promised source
  let views ← t.views parts
  let chosen ← match order with
    | none => pure views
    | some ks => ks.mapM (pick views)
  let whole ← t.promised source
  return t.keep key (← Visibility.gather whole (chosen.map t.read))

/-- How the elements of a column are stored, and whether they are complex. -/
def storage : Column → Storage × Bool
  | .uvw | .weight => (.double, false)
  | .vis => (.double, true)
  | .flags => (.flag, false)

/-- A change of all elements of a column whose index begins with given entries. -/
def setColumn (column : Column) (index : List Nat) (z : Cplx Float) (k : Nat)
    (r : Row Float nchan npol) : Row Float nchan npol :=
  let chosen (full : List Nat) : Bool := index.isPrefixOf full
  match column with
  | .uvw =>
    { r with
      u := if chosen [k, 0] then z.re else r.u
      v := if chosen [k, 1] then z.re else r.v
      w := if chosen [k, 2] then z.re else r.w }
  | .vis => r.mapSamples fun c p s => if chosen [k, c, p] then { s with value := z } else s
  | .weight => r.mapSamples fun c p s => if chosen [k, c, p] then { s with weight := z.re } else s
  | .flags => r.mapSamples fun c p s =>
    if chosen [k, c, p] then { s with flagged := z.re != 0 } else s

/-- Sets elements of a column in the table of named visibilities. -/
def set (t : Tables nchan npol) (source column : String) (index : List Int)
    (value : Setting Float) :
    Except (Fault Float) (Tables nchan npol) := do
  let view ← t.view source .missing
  let some column := Column.ofName? column | throw .mismatch
  let rows := t.tables.getD view.table []
  let shape := if column = .uvw then [rows.length, 3] else [rows.length, nchan, npol]
  if shape.length < index.length then throw .index
  let index ← (shape.zip index).mapM fun (n, k) =>
    match Visibility.rowNumber? n k with
    | some k => pure k
    | none => throw .index
  let z ← (storage column).1.acceptAs (storage column).2 value
  let rows := rows.mapIdx (setColumn column index z)
  return { t with tables := t.tables.setIfInBounds view.table rows }

end Tables

end ApertureSynthesis.Session
