/-
  A session with a gridder and with visibilities, images and grids kept under names. A grid is kept
  together with its sums of weights; gridding into a named grid changes it, also for other names
  that stand for it. A name that stands for nothing is refused before the gridder is asked.
-/
import ApertureSynthesis.Gridder.Imaging
import ApertureSynthesis.Visibility.Create
import ApertureSynthesis.Visibility.Taper

namespace ApertureSynthesis.Session

/-- A grid with its sums of weights. -/
structure GridPair where
  /-- The grid, or nothing if its cells do not have four axes. -/
  grid : Option (Grid Float)
  /-- Sums of weights. -/
  sums : Tensor Float

/-- A gridder with named data. -/
structure Passes where
  /-- The gridder. -/
  gridder : Gridder Float
  /-- Named visibilities, latest first. -/
  visibilities : List (String × VisibilitySet Float)
  /-- Named images, latest first. -/
  images : List (String × Image Float)
  /-- Grids with their sums of weights. -/
  pairs : Array GridPair
  /-- Names of grids, latest first. -/
  grids : List (String × Nat)

namespace Passes

/-- What a name stands for. -/
def named {β : Type} (xs : List (String × β)) (key : String) : Except (Fault Float) β :=
  match List.lookup key xs with
  | some x => .ok x
  | none => .error .unknown

/-- Keeps visibilities under a name. -/
def keepVisibility {nchan npol : Nat} (s : Passes) (key : String)
    (vis : Visibility Float nchan npol) : Passes :=
  { s with visibilities := (key, ⟨nchan, npol, vis⟩) :: s.visibilities }

/-- Keeps an image under a name. -/
def keepImage (s : Passes) (key : String) (im : Image Float) : Passes :=
  { s with images := (key, im) :: s.images }

/-- Keeps a grid and sums of weights under a name. -/
def keepGrid (s : Passes) (key : String) (grid : Option (Grid Float)) (sums : Tensor Float) :
    Passes :=
  { s with pairs := s.pairs.push ⟨grid, sums⟩, grids := (key, s.pairs.size) :: s.grids }

/-- Keeps a grid with sums of weights that are zero. -/
def keepEmpty (s : Passes) (key : String) (grid : Grid Float) : Passes :=
  s.keepGrid key (some grid) (Tensor.fill [grid.nchan, grid.npol] 0)

/-- A named grid. -/
def pair (s : Passes) (key : String) : Except (Fault Float) GridPair := do
  match s.pairs[← named s.grids key]? with
  | some p => return p
  | none => throw .unknown

/-- Asks the gridder; the session keeps the gridder as the action leaves it. -/
def ask {β : Type} (s : Passes) (action : Action Float β) : Except (Fault Float) β × Passes :=
  let (result, gridder) := action.run.run s.gridder
  (result, { s with gridder := gridder })

/-- Asks the gridder, and changes the session by the result. -/
def asking {β γ : Type} (s : Passes) (action : Action Float β)
    (use : β → Passes → γ × Passes) : Except (Fault Float) γ × Passes :=
  match s.ask action with
  | (.ok x, s) => let (y, s) := use x s; (.ok y, s)
  | (.error fault, s) => (.error fault, s)

/-- What is done with the grid of a pair. One without four axes is refused when the gridder looks at
    its shape, after what comes before that. -/
def withGrid {β : Type} (p : GridPair) (before : Action Float Unit)
    (use : Grid Float → Action Float β) :
    Action Float β :=
  match p.grid with
  | some g => use g
  | none => do before; throw .broken

/-- What comes before a grid is used for gridding or predicting. -/
def opened : Action Float Unit := do Gridder.ensurePrepared; Gridder.ensurePass

/-- What comes before a grid is turned into an image. -/
def unfinished : Action Float Unit := do
  if (← get).stage ≠ .active then throw (.noPass (← get).stage.name)

/-- Grids named visibilities or their weights, into a named grid or a fresh one, which is kept under
    the name `out`. -/
def accumulate (s : Passes) (how : Grid.Contribution Float) (vis : VisibilitySet Float)
    (source : Option String) (out : String) :
    Except (Fault Float) (Grid Float × Tensor Float) × Passes :=
  match source with
  | none => s.asking (Gridder.accumulate how vis.data none none >>= Gridder.complete) fun d s =>
      ((d.grid, d.sumWeights), s.keepGrid out (some d.grid) d.sumWeights)
  | some key => match named s.grids key with
    | .error fault => (.error fault, s)
    | .ok k => match s.pairs[k]? with
      | none => (.error .unknown, s)
      | some p =>
        match s.ask
          (withGrid p opened fun g => Gridder.accumulate how vis.data (some g) (some p.sums)) with
        | (.error fault, s) => (.error fault, s)
        | (.ok a, s) =>
          let now := a.reached
          let s := { s with pairs := s.pairs.setIfInBounds k ⟨some now.grid, now.sumWeights⟩ }
          match a.fault with
          | some fault => (.error fault, s)
          | none => (.ok (now.grid, now.sumWeights), { s with grids := (out, k) :: s.grids })

/-- Predicts visibilities from the grid of a pair. -/
def forward {nchan npol : Nat} (vis : Visibility Float nchan npol) (p : GridPair) :
    Action Float (Visibility Float nchan npol) :=
  withGrid p opened (Gridder.forward vis)

/-- Turns the grid of a pair into an image, with its own or other sums of weights. -/
def finalize (p : GridPair) (sums : Option (Tensor Float)) (normalize : Bool) :
    Action Float (Image Float) :=
  withGrid p unfinished fun g => Gridder.finalize g (sums.getD p.sums) normalize

end Passes

end ApertureSynthesis.Session
