import BehaviorGraph.Graph.Basic
import BehaviorGraph.Scene.Action
/-!
# The World

The objects of every loaded scene, and the graphs that they refer to.

Objects are kept in the order they were spawned. They form hierarchies by naming
their parents; nobody checks that a parent exists, or that parents do not run
in circles. An object is live in its hierarchy if it and all its ancestors are
active, which takes a chain of parents that ends.

Trigger components refer to graphs, not to names. A name can be given to another
graph later; components keep the graph they were given. A name that was never
given to a graph means a new graph without nodes, another one each time.

## Main definitions

* `GraphRef`: A graph that objects can refer to.
* `TriggerRef`: The node that a trigger component starts runs from.
* `SceneObject`: An object with its components.
* `World`: Objects by id, in spawn order.
* `World.spawn`, `World.despawn`, `World.unloadScene`: Coming and going.
* `World.setActive`, `World.toggleActive`: The object's own active flag.
* `World.isLive`: Activity in the hierarchy.
* `Library`: Graphs and their names.
* `Library.get`, `Library.set`: The graph behind a reference.
* `Library.load`: Give a name to a new graph.
* `Library.find`: The graph that a name means.
-/

namespace BehaviorGraph

/-- A graph that objects can refer to. -/
structure GraphRef where
  /-- The number of the graph. -/
  index : Nat
deriving DecidableEq, Inhabited

/-- The node of a graph that a trigger component starts runs from. -/
structure TriggerRef where
  /-- The graph. -/
  graph : GraphRef
  /-- The trigger node. -/
  node : NodeId
deriving DecidableEq

/-- Whether the binding names a node at all. -/
def TriggerRef.namesNode (b : TriggerRef) : Bool :=
  !b.node.isBlank

/-- An object of a scene. -/
structure SceneObject where
  /-- The name that is shown. -/
  name : String
  /-- The scene the object belongs to. -/
  scene : String
  /-- The object's place in the hierarchy. -/
  parent : Option ObjectId := none
  /-- The object's own active flag. -/
  active : Bool := true
  /-- The id by which programs refer to the object. -/
  targetId : Option String := none
  /-- The layer that the object is a group of. -/
  layerGroup : Option String := none
  /-- The trigger that a key starts. -/
  keyTrigger : Option TriggerRef := none
  /-- The trigger that a click starts. -/
  clickTrigger : Option TriggerRef := none
  /-- The actions that graphs can call. -/
  actions : ActionTable Action := .empty
deriving DecidableEq

/-- The objects of every loaded scene, in spawn order. -/
abbrev World :=
  OrderedMap ObjectId SceneObject

namespace World

/-- Add an object; one that has its id already is replaced. -/
def spawn (id : ObjectId) (o : SceneObject) (w : World) : World :=
  w.insert id o

/-- The ids of an object's children, in spawn order. -/
def children (w : World) (id : ObjectId) : List ObjectId :=
  (w.entries.filter fun e => e.2.parent = some id).map Prod.fst

/-- The objects of a scene, in spawn order. -/
def inScene (w : World) (scene : String) : List (ObjectId × SceneObject) :=
  w.entries.filter fun e => e.2.scene = scene

/-- An object and its descendants, nearest first. -/
def subtree (w : World) (id : ObjectId) : List ObjectId :=
  walk w.children (w.size + 1) [id] [id]

/-- Remove an object and its descendants, and return them, nearest first. -/
def despawn (id : ObjectId) (w : World) : List (ObjectId × SceneObject) × World :=
  if w.contains id then
    let doomed := w.subtree id
    (doomed.filterMap fun d => (w.get? d).map fun o => (d, o),
      w.retain fun k _ => k ∉ doomed)
  else ([], w)

/-- Remove the objects of a scene, and return them. -/
def unloadScene (scene : String) (w : World) : List (ObjectId × SceneObject) × World :=
  (w.inScene scene, w.retain fun _ o => o.scene ≠ scene)

/-- Set an object's own active flag. Returns whether the object exists. -/
def setActive (id : ObjectId) (active : Bool) (w : World) : Bool × World :=
  (w.contains id, w.update id fun o => { o with active })

/-- Flip an object's own active flag. Returns the new flag. -/
def toggleActive (id : ObjectId) (w : World) : Option Bool × World :=
  ((w.get? id).map fun o => !o.active, w.update id fun o => { o with active := !o.active })

/-- Set the active flags of some objects. -/
def setActiveAll (ids : List ObjectId) (active : Bool) (w : World) : World :=
  ids.foldl (fun w id => (setActive id active w).2) w

/-- The object's own active flag. -/
def isActive (w : World) (id : ObjectId) : Bool :=
  (w.get? id).any (·.active)

/-- Whether a chain of parents ends within a number of steps, all objects on it
    being active. -/
def isLiveChain (w : World) : Nat → Option ObjectId → Bool
  | 0, _ => false
  | _ + 1, none => true
  | steps + 1, some id =>
    match w.get? id with
    | none => false
    | some o => o.active && isLiveChain w steps o.parent

/-- Whether the object and all its ancestors are active. A chain of parents that
    ends is no longer than there are objects. -/
def isLive (w : World) (id : ObjectId) : Bool :=
  isLiveChain w (w.size + 1) (some id)

end World

/-! ### The graph library -/

/-- Graphs and their names. -/
structure Library where
  /-- The graphs, by reference. -/
  graphs : List Graph := []
  /-- What names were given to. -/
  names : OrderedMap String GraphRef := .empty

namespace Library

/-- The graph that stands in for one that was never loaded. -/
def missing : Graph where
  name := "missing"

/-- The graph behind a reference. -/
def get (l : Library) (r : GraphRef) : Graph :=
  l.graphs[r.index]?.getD missing

/-- Change the graph behind a reference. -/
def set (r : GraphRef) (g : Graph) (l : Library) : Library :=
  { l with graphs := l.graphs.set r.index g }

/-- Add a graph that has no name. -/
def add (g : Graph) (l : Library) : GraphRef × Library :=
  (⟨l.graphs.length⟩, { l with graphs := l.graphs ++ [g] })

/-- Give a name to a new graph. -/
def load (name : String) (g : Graph) (l : Library) : Library :=
  let (r, l) := l.add g
  { l with names := l.names.insert name r }

/-- The graph that a name means. -/
def find (name : String) (l : Library) : GraphRef × Library :=
  match l.names.get? name with
  | some r => (r, l)
  | none => l.add missing

/-- The key that starts runs from a binding: that of its node, if this is a
    trigger by key and has one. -/
def keyOf? (l : Library) (b : TriggerRef) : Option Key :=
  if b.namesNode then ((l.get b.graph).node? b.node).bind fun n => n.kind.key? else none

end Library

end BehaviorGraph
