/-
  Visibilities from columns: uvw coordinates by row, and values, weights and flags by row, channel
  and polarisation. `create` wants every column in its exact shape; `ofColumns` stretches weights
  and flags to the shape of the values.
-/
import ApertureSynthesis.Argument
import ApertureSynthesis.Broadcast
import ApertureSynthesis.Image.Coordinates

namespace ApertureSynthesis

variable {α : Type} [Scalar α]

/-- Visibilities together with their numbers of channels and polarisations. -/
structure VisibilitySet (α : Type) where
  /-- Number of channels. -/
  nchan : Nat
  /-- Number of polarisations. -/
  npol : Nat
  /-- The visibilities. -/
  data : Visibility α nchan npol

namespace SkyDirection

/-- Full turns in an angle in degrees; an angle just below zero is one turn short of it. -/
def turns (angle : α) : α :=
  let n := Scalar.floor (angle / 360.0)
  if angle < 0 && n == 0 then -1 else n

/-- An angle in degrees brought into `[0, 360)`. One that needs no turn is left as it is. -/
def wrapped (angle : α) : α :=
  let n := turns angle
  if !Scalar.isFinite angle || n == 0 then angle
  else
    let rest := angle - n * 360.0
    let rest := if 360.0 ≤ rest then rest - 360.0 else rest
    if rest < 0 then rest + 360.0 else rest

/-- A direction in degrees, its right ascension brought into `[0, 360)`. A declination beyond a pole
    is refused. -/
def create (ra dec : α) : Except (Fault α) (SkyDirection α) :=
  if dec < -90.0 ∨ 90.0 < dec then .error .mismatch else .ok ⟨wrapped ra, dec⟩

/-- A direction as text. -/
def text (d : SkyDirection Float) : String :=
  "<SkyCoord (ICRS): (ra, dec) in deg\n    (" ++ place d.ra ++ ", " ++ place d.dec ++ ")>"
where
  /-- A coordinate as a single number of an array. -/
  place (x : Float) : String := toString (((Text.numbers [x]).drop 1).dropEnd 1)

end SkyDirection

namespace Visibility

variable {nchan npol : Nat}

/-- A row from its coordinates and its samples. -/
def rowOf (uvw : Tensor α) (k : Nat) (sample : Nat → Nat → Sample α) : Row α nchan npol where
  u := uvw.get [k, 0]
  v := uvw.get [k, 1]
  w := uvw.get [k, 2]
  samples := Vector.ofFn fun c => Vector.ofFn fun p => sample c.val p.val

/-- The rows of columns of one shape. -/
def rowsOf (nrows : Nat) (uvw : Tensor α) (values : Option (Tensor (Cplx α)))
    (weights : Option (Tensor α)) (flags : Option (Tensor Bool)) : List (Row α nchan npol) :=
  (List.range nrows).map fun k => rowOf uvw k fun c p =>
    { value := (values.map (·.get [k, c, p])).getD 0
      weight := (weights.map (·.get [k, c, p])).getD 1
      flagged :=
        (flags.map fun t => t.data.getD (Tensor.offset t.shape [k, c, p]) false).getD false }

/-- Refuses a column that has not the shape of all. -/
def checkColumn (name : String) (nrows nchan : Nat) (npol : Setting α) (given : Option (List Nat)) :
    Except (Fault α) Unit :=
  let refused (s : List Nat) : Except (Fault α) Unit :=
    .error (.columnShape name [.whole nrows, .whole nchan, npol] s)
  match given with
  | none => .ok ()
  | some [n, c, p] => if n = nrows ∧ c = nchan ∧ isLength npol p then .ok () else refused [n, c, p]
  | some s => refused s
where
  /-- A setting is a given length. -/
  isLength (s : Setting α) (n : Nat) : Bool :=
    match s.whole?, s.number? with
    | some k, _ => k == n
    | none, some x => x == (n : α)
    | none, none => false

/-- Visibilities from uvw coordinates, zero, of weight one and unflagged unless columns are given,
    and with the default phase centre unless one is given. -/
def create (uvw : Tensor α) (frequency : List α) (npol : Setting α)
    (values : Option (Tensor (Cplx α))) (weights : Option (Tensor α)) (flags : Option (Tensor Bool))
    (phaseCentre : Option (SkyDirection α)) : Except (Fault α) (VisibilitySet α) :=
  match uvw.shape with
  | [nrows, 3] => do
    let nchan := frequency.length
    let own ← match values with
      | some t => pure (t.shape.getD 2 0)
      | none => axisLength (← npol.count)
    checkColumn "vis" nrows nchan npol (values.map Tensor.shape)
    checkColumn "weight" nrows nchan npol (weights.map Tensor.shape)
    checkColumn "flags" nrows nchan npol (flags.map Tensor.shape)
    return ⟨nchan, own, rowsOf nrows uvw values weights flags, frequency, false,
      some (phaseCentre.getD WorldCoordinates.defaultCentre)⟩
  | shape => .error (.uvwShape shape)

/-- A column stretched to the shape of the values. -/
def stretchColumn {β : Type} [Zero β] (shape : List Nat) (column : Option (Tensor β)) :
    Except (Fault α) (Option (Tensor β)) :=
  match column with
  | none => .ok none
  | some t => match (t.dropLeading shape.length).stretch? shape with
    | some t => .ok (some t)
    | none => .error .mismatch

/-- Visibilities from their columns, without a phase centre. There may be another number of
    frequencies than channels, or a bare one. -/
def ofColumns (uvw : Tensor α) (frequency : List α) (bare : Bool)
    (values : Option (Tensor (Cplx α))) (weights : Option (Tensor α))
    (flags : Option (Tensor Bool)) :
    Except (Fault α) (VisibilitySet α) :=
  match values with
  | none => .error .missing
  | some values => match values.shape with
    | [nrows, nchan, npol] => do
      if uvw.shape ≠ [nrows, 3] then throw (.uvwRows uvw.shape)
      let weights ← stretchColumn [nrows, nchan, npol] weights
      let flags ← @stretchColumn α Nat ⟨0⟩ [nrows, nchan, npol]
        (flags.map (·.map fun b => if b then 1 else 0))
      let flags := flags.map (·.map fun (n : Nat) => n == 1)
      return ⟨nchan, npol, rowsOf nrows uvw (some values) weights flags, frequency, bare,
        none⟩
    | _ => .error .mismatch

/-- A description in six lines. -/
def text (vis : Visibility Float nchan npol) : String :=
  "Visibility:\n" ++
  s!"\tNumber of rows: {vis.rowCount}\n" ++
  s!"\tNumber of channels: {nchan}\n" ++
  s!"\tFrequency: {spectrumText}\n" ++
  s!"\tNumber of polarisations: {npol}\n" ++
  s!"\tPhasecentre: {(vis.phaseCentre.map SkyDirection.text).getD (Setting.quoted .absent)}\n"
where
  /-- The frequencies as an array, or as a number if there is a bare one. -/
  spectrumText : String :=
    match vis.bare, vis.frequency with
    | true, [f] => Text.number f
    | _, fs => Text.numbers fs

/-- Storage in units of `2 ^ 30` bytes. -/
def gigabytes (bytes : Nat) : Float := bytes.toFloat / 1073741824.0

/-- A description in one line. -/
def summary (vis : Visibility Float nchan npol) : String :=
  s!"{vis.rowCount} rows, {nchan} channels, {npol} polarisations, " ++
    Text.fixed 3 (gigabytes vis.bytes) ++ " GB"

end Visibility

end ApertureSynthesis
