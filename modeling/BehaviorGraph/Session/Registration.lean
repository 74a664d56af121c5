import BehaviorGraph.Session.Basic
/-!
# Registration

Objects coming and going, and what is registered about them.

An object that is spawned is registered under its target id, as a group of its
layer, and with the key of its trigger, as far as it has these; when it goes, so
do its registrations. A scene is loaded by spawning its objects first and then
registering all that belong to it, in one pass for each kind of registration.

## Main definitions

* `Session.spawn`, `Session.despawn`: One object.
* `Session.loadScene`, `Session.sceneLoaded`, `Session.unloadScene`: A scene.
* `Session.shutdown`: Forget every registration.
-/

namespace BehaviorGraph

/-- How much a pass over a scene has registered. -/
structure SceneCounts where
  /-- The number of target ids. -/
  targets : Nat
  /-- The number of new groups of layers. -/
  groups : Nat
  /-- The number of key triggers. -/
  keys : Nat
deriving DecidableEq

namespace Session

/-- Bind an object to the key of its trigger node. -/
def bindTrigger (id : ObjectId) (s : Session) : Option Key × Session :=
  let (key, bindings) := s.bindings.bindTrigger s.library s.world id
  (key, { s with bindings })

/-- Spawn an object and register it. -/
def spawn (id : ObjectId) (o : SceneObject) (s : Session) : Session :=
  let s :=
    { s with
      targets := (s.targets.assignFor id o).2
      layers := (s.layers.joinFor id o).2
      world := s.world.spawn id o }
  (s.bindTrigger id).2

/-- Forget every registration about an object that is gone. -/
def forget (id : ObjectId) (o : SceneObject) (s : Session) : Session :=
  { s with
    targets := s.targets.releaseFor id o
    layers := s.layers.leave id
    bindings := s.bindings.unbindObject id }

/-- Remove an object and its descendants. Returns how many objects went. -/
def despawn (id : ObjectId) (s : Session) : Nat × Session :=
  let (removed, world) := s.world.despawn id
  (removed.length, removed.foldl (fun s e => s.forget e.1 e.2) { s with world })

/-- Register the objects of a scene. -/
def sceneLoaded (scene : String) (s : Session) : SceneCounts × Session :=
  let (targets, t) := s.targets.assignScene s.world scene
  let (groups, layers) := s.layers.joinScene s.world scene
  let (keys, bindings) := s.bindings.bindScene s.library s.world scene
  ({ targets, groups, keys }, { s with targets := t, layers, bindings })

/-- Spawn objects, and register those of a scene. -/
def loadScene (scene : String) (objects : List (ObjectId × SceneObject)) (s : Session) :
    SceneCounts × Session :=
  sceneLoaded scene
    { s with world := objects.foldl (fun w e => World.spawn e.1 e.2 w) s.world }

/-- Unbind the keys of a scene's objects. Returns how many there were. -/
def sceneUnloaded (scene : String) (s : Session) : Nat × Session :=
  let (count, bindings) := s.bindings.unbindScene scene
  (count, { s with bindings })

/-- Forget the target id and the layer of an object that is gone with its
    scene. -/
def forgetWithScene (id : ObjectId) (o : SceneObject) (s : Session) : Session :=
  { s with
    targets := s.targets.releaseFor id o
    layers := s.layers.leave id }

/-- Remove the objects of a scene. Returns how many there were. -/
def unloadScene (scene : String) (s : Session) : Nat × Session :=
  let (removed, world) := s.world.unloadScene scene
  let s := removed.foldl (fun s e => s.forgetWithScene e.1 e.2) { s with world }
  (removed.length, (s.sceneUnloaded scene).2)

/-- Forget every registration and every binding. -/
def shutdown (s : Session) : Session :=
  { s with bindings := {}, layers := s.layers.clear, targets := .empty }

end Session

end BehaviorGraph
