/-
  Gridders: a kind of convolution function, its cache, and the passes that use it. A gridder goes
  through the stages

    unconfigured → initialized → active → finalized

  The cache is built on initialization, asked for or on first use. Beginning a pass makes the
  gridder active; finalizing turns the grid of a pass into an image; a further pass makes it active
  again. An operation is an `Action`: it changes the gridder and either gives a result or refuses,
  and a refusal keeps the changes made before it.
-/
import ApertureSynthesis.Corrector
import ApertureSynthesis.Grid.Deposit
import ApertureSynthesis.Grid.Image
import ApertureSynthesis.Kernel.Variant

namespace ApertureSynthesis

/-- Stages of a gridder. -/
inductive Stage where
  /-- Not yet prepared for any axes. -/
  | unconfigured
  /-- Prepared, no pass begun. -/
  | initialized
  /-- In a pass. -/
  | active
  /-- The last pass was turned into an image. -/
  | finalized
deriving DecidableEq, Repr

/-- The name of a stage. -/
def Stage.name : Stage → String
  | unconfigured => "unconfigured"
  | initialized => "initialized"
  | active => "active"
  | finalized => "finalized"

/-- A gridder. -/
structure Gridder (α : Type) [Scalar α] where
  /-- The kind of convolution function. -/
  variant : Kernel.Variant α
  /-- How the kernel is read between lattice points. -/
  interpolation : Interpolation
  /-- Axes of the grid. -/
  axes : Option (Axes α)
  /-- The convolution function, once built. -/
  cache : Option (Cache α)
  /-- The corrector for the gridding function, once built. -/
  corrector : Option (Corrector α)
  /-- The stage. -/
  stage : Stage
  /-- Counters of the current or last pass. -/
  statistics : Statistics

/-- An operation on a gridder. -/
abbrev Action (α : Type) [Scalar α] (β : Type) := ExceptT (Fault α) (StateM (Gridder α)) β

namespace Gridder

variable {α : Type} [Scalar α]

/-- A gridder that is not yet initialized. -/
def new (variant : Kernel.Variant α) (axes : Option (Axes α)) (interpolation : Interpolation) :
    Gridder α :=
  ⟨variant, interpolation, axes, none, none, .unconfigured, .zero⟩

/-- The gridder that a configuration describes: by default w projection with linear
    interpolation. -/
def create (axes : Option (Axes α)) (config : Kernel.Arguments α) :
    Except (Fault α) (Gridder α) := do
  let variant ← match config.get "gridder" (.text "wprojection") with
    | .text "box" => pure .box
    | .text "spheroidal" => Kernel.Variant.spheroidal? config
    | .text "wprojection" => Kernel.Variant.wprojectionOf config
    | .text "illumination" => Kernel.Variant.illuminationOf config
    | given => throw (.gridderKind given)
  let interpolation := config.get "interpolation" (.text "linear")
  match Interpolation.ofSetting? interpolation with
  | some i => return new variant axes i
  | none => throw (.gridderInterpolation interpolation)

/-- A description of a gridder, with the shape of its axes if it has any. -/
def text (g : Gridder α) : String :=
  "Gridder:\n" ++
  s!"\tVariant: {g.variant.name}\n" ++
  s!"\tInterpolation: {g.interpolation.name}\n" ++
  s!"\tState: {g.stage.name}\n" ++
  match g.axes with
  | some a => s!"\tShape: {Text.shape a.shape}\n"
  | none => ""

/-- A result as an action that changes nothing. -/
def lift {β : Type} (x : Except (Fault α) β) : Action α β := ExceptT.mk (pure x)

/-- What a gridder has once it is initialized, or a refusal. -/
def need {β : Type} (part : Option β) : Action α β :=
  match part with
  | some x => pure x
  | none => throw .missing

/-- Builds the cache and the corrector for axes, those given or else its own. -/
def prepare (axes : Option (Axes α)) : Action α Unit := do
  if let some a := axes then modify fun g => { g with axes := some a }
  match (← get).axes with
  | none => throw .noAxes
  | some a =>
    let cell ← lift a.cellSize
    let frequency := Setting.several (a.frequency.map .real)
    let cache ← lift ((← get).variant.buildCache cell a.shape frequency)
    modify fun g => { g with cache := some cache }
    let corrector ← lift (Corrector.create cache a.ny a.nx)
    modify fun g => { g with corrector := some corrector, stage := .initialized }

end Gridder

end ApertureSynthesis
