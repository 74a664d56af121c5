import BehaviorGraph.Settings
import BehaviorGraph.Input.Bindings
import BehaviorGraph.Scene.Layers
import BehaviorGraph.Session.Bake
/-!
# Sessions

Everything there is while a game is running: the objects of the loaded scenes,
what is registered about them, the graphs, and the runs in progress.

A run holds a copy of the steps it still has to do. It is ready to do the next
one, or asleep until a time, or finished; and it counts what became of the
steps it has done. Time is counted in milliseconds from the start of the
session. A session may have no scheduler, and then no run can be started.

## Main definitions

* `Tally`: What became of the steps of a run.
* `Run`: A run and where it stands.
* `Session`: The state of a game.
* `Session.start`: A session without objects.
* `Session.tag`: The target id of an object.
* `Session.bake`: Bake a graph, in its place in the library.
-/

namespace BehaviorGraph

/-- What became of the steps of a run. -/
structure Tally where
  /-- The steps that took effect. -/
  executed : Nat := 0
  /-- The steps that had nothing to act on. -/
  skipped : Nat := 0
  /-- The steps that failed. -/
  failed : Nat := 0
deriving DecidableEq

/-- The steps done. -/
def Tally.steps (t : Tally) : Nat :=
  t.executed + t.skipped + t.failed

/-- Where a run stands. -/
inductive RunPhase where
  /-- It can do the next of its remaining steps. -/
  | ready (rest : List Step)
  /-- It is in a delay until a time, with steps remaining behind it. -/
  | asleep (wake : Nat) (rest : List Step)
  /-- It has done all its steps. -/
  | finished
deriving DecidableEq

/-- A run. -/
structure Run where
  /-- Where it stands. -/
  phase : RunPhase
  /-- What became of its steps. -/
  tally : Tally := {}
  /-- Whether somebody has waited for it and taken its tally. -/
  taken : Bool := false
deriving DecidableEq

/-- The state of a game. -/
structure Session extends Stage where
  /-- The settings the session was started with. -/
  config : Settings := {}
  /-- The layers and their groups. -/
  layers : Layers := {}
  /-- What keys and input actions do. -/
  bindings : Bindings := {}
  /-- The graphs. -/
  library : Library := {}
  /-- What actions have logged. -/
  log : List String := []
  /-- The runs, in the order they were started. -/
  runs : List Run := []
  /-- The time. -/
  now : Nat := 0
  /-- Whether runs can be started. -/
  scheduled : Bool := true

namespace Session

/-- A session without objects. Layers are declared and cancel actions bound as
    the settings say. -/
def start (config : Settings) (supply : Nat → ObjectId) (scheduled : Bool) : Session where
  supply := supply
  config := config
  layers := .declare config.layers
  bindings :=
    config.cancelActions.entries.foldl (fun b e => b.bindAction e.1 e.2) {}
  scheduled := scheduled

/-- Change the stage. -/
def onStage {α : Type} (f : Stage → α × Stage) (s : Session) : α × Session :=
  let (x, stage) := f s.toStage
  (x, { s with toStage := stage })

/-- The target id of an object, which stands for it from now on. -/
def tag (id : ObjectId) (s : Session) : Option String × Session :=
  s.onStage (Stage.tag id)

/-- Bake a graph. -/
def bake (graph : GraphRef) (s : Session) : BakeSummary × Session :=
  let (report, g, stage) := (s.library.get graph).bake (Stage.context graph) s.toStage
  (report, { s with toStage := stage, library := s.library.set graph g })

end Session

end BehaviorGraph
