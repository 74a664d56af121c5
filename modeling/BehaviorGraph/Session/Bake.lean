import BehaviorGraph.Bake.Basic
import BehaviorGraph.Scene.World
/-!
# Baking Against a World

Target ids, and the part of a session that graphs are baked against.

Programs refer to the objects of the world by target ids. An object that is inactive
keeps its target id, so that a program can show it again. When the object goes, its
target id is forgotten, unless it stands for another object by then.

Baking writes target ids into objects. An object that carries one keeps it; to
one that carries none, or a blank one, the next fresh id is given. Either way the
target id stands for that object from then on. The fresh ids are supplied from
outside, as a sequence of which the used ones are counted.

## Main definitions

* `Targets`: Objects by target id.
* `Targets.assign`, `Targets.release`, `Targets.resolve?`: One target id.
* `Targets.assignFor`, `Targets.releaseFor`: An object's target id.
* `Targets.assignScene`: The target ids of a scene.
* `Stage`: The world, its targets, and the supply of fresh target ids.
* `Stage.tag`: The target id of an object.
* `Stage.context`: The bake context over stages.
-/

namespace BehaviorGraph

/-! ### Target ids -/

/-- Objects by target id. -/
abbrev Targets :=
  OrderedMap String ObjectId

namespace Targets

/-- Let a target id stand for an object. A blank one is refused. -/
def assign (target : String) (id : ObjectId) (t : Targets) : Bool × Targets :=
  if Text.isBlank target then (false, t) else (true, t.insert target id)

/-- Forget a target id, and return the object it stood for. -/
def release (target : String) (t : Targets) : Option ObjectId × Targets :=
  (t.get? target, t.erase target)

/-- The object that a target id stands for. -/
def resolve? (t : Targets) (target : String) : Option ObjectId :=
  if Text.isBlank target then none else t.get? target

/-- Register an object's target id, if it has one. -/
def assignFor (id : ObjectId) (o : SceneObject) (t : Targets) : Bool × Targets :=
  match o.targetId with
  | none => (false, t)
  | some target => t.assign target id

/-- Forget an object's target id, if it stands for this object. -/
def releaseFor (id : ObjectId) (o : SceneObject) (t : Targets) : Targets :=
  match o.targetId with
  | none => t
  | some target => if t.get? target = some id then t.erase target else t

/-- Register the target ids of some objects. Returns how many were accepted. -/
def assignAll : List (ObjectId × SceneObject) → Targets → Nat × Targets
  | [], t => (0, t)
  | (id, o) :: rest, t =>
    let (accepted, t) := t.assignFor id o
    let (count, t) := assignAll rest t
    (count + accepted.toNat, t)

/-- Register the target ids of a scene's objects, active or not. -/
def assignScene (w : World) (scene : String) (t : Targets) : Nat × Targets :=
  assignAll (w.inScene scene) t

end Targets

/-! ### The stage -/

/-- What graphs are baked against. -/
structure Stage where
  /-- The objects. -/
  world : World := .empty
  /-- What target ids stand for. -/
  targets : Targets := .empty
  /-- The fresh target ids, in the order they are used. -/
  supply : Nat → ObjectId
  /-- The number of fresh target ids used so far. -/
  minted : Nat := 0

namespace Stage

/-- The next fresh target id. -/
def fresh (s : Stage) : String :=
  (s.supply s.minted).toString

/-- Give a fresh target id to an object. -/
def mint (id : ObjectId) (s : Stage) : Stage :=
  { s with
    world := s.world.update id fun o => { o with targetId := some s.fresh }
    minted := s.minted + 1 }

/-- The target id that an object carries, unless it is blank. -/
def carriedId? (o : SceneObject) : Option String :=
  o.targetId.filter fun target => !Text.isBlank target

/-- The target id of an object, which stands for it from now on. An object that
    does not exist has none. -/
def tag (id : ObjectId) (s : Stage) : Option String × Stage :=
  match s.world.get? id with
  | none => (none, s)
  | some o =>
    match carriedId? o with
    | some target => (some target, { s with targets := (s.targets.assign target id).2 })
    | none =>
      let target := s.fresh
      let s := s.mint id
      (some target, { s with targets := (s.targets.assign target id).2 })

/-- Let clicks on an object start runs from a node of a graph. -/
def bindClick (graph : GraphRef) (id : ObjectId) (node : NodeId) (s : Stage) : Stage :=
  { s with
    world := s.world.update id fun o => { o with clickTrigger := some ⟨graph, node⟩ } }

/-- The bake context over stages, for a graph. -/
def context (graph : GraphRef) : BakeContext Stage where
  targetId := tag
  bindClick := bindClick graph

end Stage

end BehaviorGraph
