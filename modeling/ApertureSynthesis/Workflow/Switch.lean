/-
  Deferred execution. A switch decides whether work is done at once or kept as a graph that is run
  when its value is asked for. Without a compute client a graph is run where it is, in the order in
  which it was built, so its value is that of doing the work at once. Asking for a value means
  different things: where work is done at once, anything is returned as it is; where it is deferred,
  only a graph can be run, neither a plain value nor a list of graphs.
-/
import ApertureSynthesis.Fault

namespace ApertureSynthesis

/-- Whether work is deferred, and how. -/
structure Switch where
  /-- Work is kept as a graph. -/
  deferring : Bool := true
  /-- Graphs are simplified before they are run. -/
  optimizing : Bool := true
  /-- A compute client was announced. -/
  client : Bool := false
deriving DecidableEq, Repr

/-- The outcome of handing work to a switch; `m` is where the work has its effects. -/
inductive Work (m : Type → Type) (β : Type) where
  /-- The value, already there. -/
  | done (x : β)
  /-- What has to be run for the value. -/
  | graph (run : m β)

namespace Switch

variable {m : Type → Type} [Monad m] {β : Type}

/-- The name of the way of execution. -/
def kind (s : Switch) : String := if s.deferring then "dask" else "function"

/-- Hands work to a switch. -/
def execute (s : Switch) (work : m β) : m (Work m β) :=
  if s.deferring then pure (.graph work) else do return .done (← work)

/-- Simplification keeps the value of a graph. -/
def optimize (_ : Switch) (w : Work m β) : Work m β := w

/-- Simplification of a list of graphs gives a list of the same values. -/
def optimizeAll (s : Switch) (ws : List (Work m β)) : List (Work m β) := ws.map s.optimize

/-- Closes the client. -/
def close (s : Switch) : Switch := { s with client := false }

/-- Chooses the way of execution. Where work is deferred, a client is kept before it is found that
    it is none; where it is not, no client is kept. -/
def setClient {α : Type} (_ : Switch) (client : Setting α) (deferring optimizing : Bool) :
    Switch × Except (Fault α) Unit :=
  if deferring then (⟨true, optimizing, true⟩, .error (.client client))
  else (⟨false, optimizing, false⟩, .ok ())

variable {α : Type} [MonadExceptOf (Fault α) m]

/-- Asks for the value of one piece of work. -/
def compute (s : Switch) (w : Work m β) : m (Work m β) :=
  if s.deferring then
    match s.client, w with
    | false, .graph run => do return .done (← run)
    | _, _ => throw .missing
  else pure w

/-- Asks for the values of a list of pieces of work. -/
def computeList (s : Switch) (ws : List (Work m β)) : m (List (Work m β)) :=
  if s.deferring then throw .missing else pure ws

end Switch

/-- Runs what has to be run for a value. -/
def Work.value {m : Type → Type} [Monad m] {β : Type} : Work m β → m β
  | done x => pure x
  | graph run => run

end ApertureSynthesis
