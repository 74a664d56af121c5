import BehaviorGraph.Scene.World
/-!
# Input Bindings

What keys and input actions do.

A key starts runs from the key triggers of the objects bound to it. Which key an
object is bound to is read from its trigger node when the object is bound; the
scene it belongs to is noted with the binding. An input action hides a layer.

## Main definitions

* `KeyBinding`: An object bound to a key.
* `Bindings`: The objects of each key, and the layer of each input action.
* `Bindings.bindTrigger`: Bind an object.
* `Bindings.unbind`: Unbind objects.
-/

namespace BehaviorGraph

/-- An object bound to a key. -/
structure KeyBinding where
  /-- The object. -/
  object : ObjectId
  /-- The scene it belonged to when it was bound. -/
  scene : String
deriving DecidableEq

/-- What keys and input actions do. -/
structure Bindings where
  /-- The objects of each key, in the order they were bound. -/
  keys : OrderedMap Key (List KeyBinding) := .empty
  /-- The layer that each input action hides. -/
  actions : OrderedMap String String := .empty

namespace Bindings

/-- The objects bound to a key. -/
def ofKey (b : Bindings) (key : Key) : List KeyBinding :=
  (b.keys.get? key).getD []

/-- Bind an object to a key, unless it is bound to it already. -/
def bind (key : Key) (binding : KeyBinding) (b : Bindings) : Bindings :=
  let bound := b.ofKey key
  if bound.any (·.object = binding.object) then b
  else { b with keys := b.keys.insert key (bound ++ [binding]) }

/-- Bind an object to the key of its trigger node. Returns that key. -/
def bindTrigger (graphs : Library) (w : World) (id : ObjectId) (b : Bindings) :
    Option Key × Bindings :=
  match w.get? id with
  | none => (none, b)
  | some o =>
    match o.keyTrigger.bind graphs.keyOf? with
    | none => (none, b)
    | some key => (some key, b.bind key ⟨id, o.scene⟩)

/-- Bind some objects. Returns how many have a key. -/
def bindTriggers (graphs : Library) (w : World) :
    List ObjectId → Bindings → Nat × Bindings
  | [], b => (0, b)
  | id :: ids, b =>
    let (key, b) := b.bindTrigger graphs w id
    let (count, b) := bindTriggers graphs w ids b
    (count + key.isSome.toNat, b)

/-- Bind the objects of a scene, active or not. -/
def bindScene (graphs : Library) (w : World) (scene : String) (b : Bindings) :
    Nat × Bindings :=
  bindTriggers graphs w ((w.inScene scene).map Prod.fst) b

/-- The number of bindings of objects to keys. -/
def keyCount (b : Bindings) : Nat :=
  b.keys.values.flatten.length

/-- Unbind the objects that a test picks. Returns how many bindings it
    picked. -/
def unbind (doomed : KeyBinding → Bool) (b : Bindings) : Nat × Bindings :=
  let keys :=
    (b.keys.mapValues fun _ bound => bound.filter fun k => !doomed k).retain fun _ bound =>
      !bound.isEmpty
  let rest := { b with keys }
  (b.keyCount - rest.keyCount, rest)

/-- Unbind an object. -/
def unbindObject (id : ObjectId) (b : Bindings) : Bindings :=
  (b.unbind fun k => k.object = id).2

/-- Unbind the objects that belonged to a scene. -/
def unbindScene (scene : String) (b : Bindings) : Nat × Bindings :=
  b.unbind fun k => k.scene = scene

/-- Let an input action hide a layer. -/
def bindAction (action layer : String) (b : Bindings) : Bindings :=
  { b with actions := b.actions.insert action layer }

/-- Let an input action do nothing. Returns the layer it used to hide. -/
def unbindAction (action : String) (b : Bindings) : Option String × Bindings :=
  (b.actions.get? action, { b with actions := b.actions.erase action })

/-- The layer that an input action hides. -/
def layer? (b : Bindings) (action : String) : Option String :=
  b.actions.get? action

end Bindings

end BehaviorGraph
