import BehaviorGraph.Session.Basic
/-!
# Input and the Runs It Starts

How runs come about, and what a frame of input does.

A full run does every step of a program in stored order; a triggered run does the
steps that the trigger leads to. A graph that is not baked gives a run without
steps. The steps are copied when the run is started, so what happens to the graph
afterwards does not concern it. Nothing is done yet when a run is started.

Keys that went down start the runs of the key triggers bound to them. Input
actions that were performed hide the layers bound to them.

## Main definitions

* `Graph.fullSteps`, `Graph.stepsFrom`: The steps of a run.
* `Session.startFull`, `Session.startFrom`: Start a run.
* `Session.click`: Start the run that a click on an object triggers.
* `Session.press`: Start the runs that keys trigger.
* `Session.performAction`: One input action.
* `Session.tick`: A frame of input.
-/

namespace BehaviorGraph

/-! ### Starting runs -/

namespace Graph

/-- The steps of a full run. -/
def fullSteps (g : Graph) : List Step :=
  g.program

/-- The steps of a run from a trigger. -/
def stepsFrom (g : Graph) (trigger : NodeId) : List Step :=
  if g.isBaked && !trigger.isBlank then g.reachedSteps trigger else []

end Graph

namespace Session

/-- Start a run of some steps. Returns its number, unless there is no
    scheduler. -/
def startRun (steps : List Step) (s : Session) : Option Nat × Session :=
  if s.scheduled then
    (some s.runs.length, { s with runs := s.runs ++ [{ phase := .ready steps }] })
  else (none, s)

/-- Start a full run of a graph. -/
def startFull (graph : GraphRef) (s : Session) : Option Nat × Session :=
  s.startRun (s.library.get graph).fullSteps

/-- Start a run of a graph from a trigger. -/
def startFrom (graph : GraphRef) (trigger : NodeId) (s : Session) : Option Nat × Session :=
  s.startRun ((s.library.get graph).stepsFrom trigger)

/-- Start the run of a trigger component, if the object is live and the component
    names a node. -/
def fire (component : SceneObject → Option TriggerRef) (id : ObjectId) (s : Session) :
    Option Nat × Session :=
  if s.world.isLive id then
    match ((s.world.get? id).bind component).filter TriggerRef.namesNode with
    | none => (none, s)
    | some b => s.startFrom b.graph b.node
  else (none, s)

/-- Click on an object. Returns the number of the run this starts. -/
def click (id : ObjectId) (s : Session) : Option Nat × Session :=
  s.fire SceneObject.clickTrigger id

/-- Start the runs of the key triggers of some objects, one after the other.
    Returns the numbers of the runs. -/
def fireKeys : List ObjectId → Session → List Nat × Session
  | [], s => ([], s)
  | id :: ids, s =>
    let (run, s) := s.fire SceneObject.keyTrigger id
    let (runs, s) := fireKeys ids s
    (run.toList ++ runs, s)

/-- The objects bound to one of some keys, in the order of the bindings. -/
def boundTo (s : Session) (keys : List Key) : List ObjectId :=
  (s.bindings.keys.entries.filter fun e => e.1 ∈ keys).flatMap fun e => e.2.map (·.object)

/-- Start the runs that keys trigger. -/
def press (keys : List Key) (s : Session) : List Nat × Session :=
  s.fireKeys (s.boundTo keys)

/-! ### Frames of input -/

/-- Hide the layer that an input action is bound to. Returns whether there is
    one that has groups. -/
def performAction (action : String) (s : Session) : Bool × Session :=
  match s.bindings.layer? action with
  | none => (false, s)
  | some layer =>
    let (found, world) := s.layers.setVisible layer false s.world
    (found, { s with world })

/-- Take the input of a frame. Returns the numbers of the runs it starts. -/
def tick (keys : List Key) (actions : List String) (s : Session) : List Nat × Session :=
  let (runs, s) := s.press keys
  (runs, actions.foldl (fun s action => (s.performAction action).2) s)

end Session

end BehaviorGraph
