import BehaviorGraph.Scene.World
import BehaviorGraph.Text.Name
/-!
# Layers

Names that stand for groups of objects, which are shown and hidden together.

Layer names are trimmed; a blank name and the word `none` name no layer. If layers
are declared, a name means the first declared layer that is the same up to
letter case, and names that mean none of them are refused. A layer that loses
its last group is gone.

## Main definitions

* `Layers`: The declared layers, and the groups of each layer.
* `Layers.parse?`: The layer that a name means.
* `Layers.join`, `Layers.leave`: Groups coming and going.
* `Layers.setVisible`, `Layers.toggle`, `Layers.isVisible`: Visibility.
-/

namespace BehaviorGraph

/-- Groups of objects under layer names. -/
structure Layers where
  /-- The declared layers; without any, every layer name is accepted. -/
  declared : List String := []
  /-- The groups of each layer, oldest first. -/
  groups : OrderedMap String (List ObjectId) := .empty

namespace Layers

/-- No groups yet, and the declared layers but for blank ones. -/
def declare (names : List String) : Layers where
  declared := names.filter fun name => !Text.isBlank name

/-- The word that names no layer. -/
def noneName : String :=
  "none"

/-- The layer that a name means. -/
def parse? (l : Layers) (name : String) : Option String :=
  let name := Text.trim name
  if Text.isBlank name || Text.sameName name noneName then none
  else if l.declared.isEmpty then some name
  else l.declared.find? fun declared => Text.sameName declared name

/-- The groups of the layer that a name means. -/
def members (l : Layers) (name : String) : List ObjectId :=
  match l.parse? name with
  | none => []
  | some key => (l.groups.get? key).getD []

/-- The layers that have groups, oldest first. -/
def names (l : Layers) : List String :=
  l.groups.keys

/-- Make an object a group of a layer. Returns whether it is a new one. -/
def join (name : String) (id : ObjectId) (l : Layers) : Bool × Layers :=
  match l.parse? name with
  | none => (false, l)
  | some key =>
    let members := (l.groups.get? key).getD []
    if id ∈ members then (false, l)
    else (true, { l with groups := l.groups.insert key (members ++ [id]) })

/-- Make an object no group of any layer. -/
def leave (id : ObjectId) (l : Layers) : Layers :=
  { l with
    groups :=
      (l.groups.mapValues fun _ members => members.filter (· ≠ id)).retain fun _ members =>
        !members.isEmpty }

/-- Forget all groups. -/
def clear (l : Layers) : Layers :=
  { l with groups := .empty }

/-- Make an object a group of the layer it names, if it names one. -/
def joinFor (id : ObjectId) (o : SceneObject) (l : Layers) : Bool × Layers :=
  match o.layerGroup with
  | none => (false, l)
  | some name => l.join name id

/-- Register some objects. Returns how many became groups. -/
def joinAll : List (ObjectId × SceneObject) → Layers → Nat × Layers
  | [], l => (0, l)
  | (id, o) :: rest, l =>
    let (isNew, l) := l.joinFor id o
    let (count, l) := joinAll rest l
    (count + isNew.toNat, l)

/-- Register the objects of a scene, active or not. -/
def joinScene (w : World) (scene : String) (l : Layers) : Nat × Layers :=
  joinAll (w.inScene scene) l

/-- Show or hide the groups of a layer. Returns whether there are any. -/
def setVisible (l : Layers) (name : String) (visible : Bool) (w : World) : Bool × World :=
  let members := l.members name
  (!members.isEmpty, w.setActiveAll members visible)

/-- Whether any group of a layer is active. -/
def isVisible (l : Layers) (w : World) (name : String) : Bool :=
  (l.members name).any w.isActive

/-- Show or hide some layers, one after the other. Returns how many have
    groups. -/
def setVisibleAll (l : Layers) (visible : Bool) : List String → World → Nat × World
  | [], w => (0, w)
  | name :: names, w =>
    let (switched, w) := l.setVisible name visible w
    let (count, w) := l.setVisibleAll visible names w
    (count + switched.toNat, w)

/-- Hide the layers that are visible and show the others, one after the other.
    Returns how many have groups. -/
def toggle (l : Layers) : List String → World → Nat × World
  | [], w => (0, w)
  | name :: names, w =>
    let (switched, w) := l.setVisible name (!l.isVisible w name) w
    let (count, w) := l.toggle names w
    (count + switched.toNat, w)

/-- Switch some layers. Returns how many have groups. -/
def switch (l : Layers) (s : Switch) (names : List String) (w : World) : Nat × World :=
  match s with
  | .on => l.setVisibleAll true names w
  | .off => l.setVisibleAll false names w
  | .over => l.toggle names w

end Layers

end BehaviorGraph
