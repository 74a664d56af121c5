import BehaviorGraph.Input.Key
import BehaviorGraph.Number.Single
import BehaviorGraph.ObjectId
/-!
# Nodes

The nodes that a behaviour graph is composed of.

A node either starts a run, when an object is clicked or a key goes down, or
does something in a run: it switches layers or objects, waits, or calls an
action that an object has registered. What a node does is fixed by its type;
what it does it to is its configuration, `NodeKind`. Layers and objects can
each be switched on, off or over, which is one of the three values of `Switch`.

## Main definitions

* `NodeId`: The name of a node within its graph.
* `Switch`: On, off, or over.
* `NodeType`: What a node does.
* `Shelf`: The shelf of the palette a type is found on.
* `NodeKind`: The type and configuration of a node.
* `NodeKind.referents`: The scene objects a node refers to.
* `Node`: An id, a display name, a position and a kind.

## Theorems

* `NodeKind.type_empty`: The unconfigured kind of a type has that type.
* `NodeType.mem_all`: No type is missing from the list.
-/

namespace BehaviorGraph

/-- The name of a node within its graph. -/
structure NodeId where
  /-- The name. -/
  text : String
deriving DecidableEq, Inhabited

/-- An id that is empty or white space throughout names no node. -/
def NodeId.isBlank (id : NodeId) : Bool :=
  Text.isBlank id.text

/-- What happens to something that can be shown or hidden. -/
inductive Switch where
  /-- It is shown. -/
  | on
  /-- It is hidden. -/
  | off
  /-- It is shown if it was hidden, and hidden if it was shown. -/
  | over
deriving DecidableEq, Inhabited

/-- What a node does. -/
inductive NodeType where
  /-- Starts a run when an object is clicked. -/
  | click
  /-- Starts a run when a key goes down. -/
  | key
  /-- Switches every group of some layers. -/
  | layers (s : Switch)
  /-- Switches some objects. -/
  | objects (s : Switch)
  /-- Makes the run wait. -/
  | delay
  /-- Calls an action of an object. -/
  | call
deriving DecidableEq, Inhabited

/-- The shelf of the palette that a node type is found on. -/
inductive Shelf where
  /-- Ways to start a run. -/
  | trigger
  /-- Visibility of layers. -/
  | layer
  /-- Visibility of single objects. -/
  | object
  /-- Timing. -/
  | flow
  /-- Calls into the game. -/
  | script
deriving DecidableEq, Inhabited

namespace NodeType

/-- Every node type, in the order of the palette. -/
def all : List NodeType :=
  [.click, .key, .layers .on, .layers .off, .layers .over,
   .objects .on, .objects .off, .objects .over, .delay, .call]

theorem mem_all (t : NodeType) : t ∈ all := by
  cases t with
  | layers s => cases s <;> decide
  | objects s => cases s <;> decide
  | _ => decide

/-- A trigger starts runs and takes no part in them. -/
def isTrigger : NodeType → Bool
  | .click | .key => true
  | _ => false

/-- The shelf of the palette. -/
def shelf : NodeType → Shelf
  | .click | .key => .trigger
  | .layers _ => .layer
  | .objects _ => .object
  | .delay => .flow
  | .call => .script

/-- The name that designers see. -/
def displayName : NodeType → String
  | .click => "On Click"
  | .key => "On Key"
  | .layers .on => "Show Layer"
  | .layers .off => "Hide Layer"
  | .layers .over => "Toggle Layer"
  | .objects .on => "Show Object"
  | .objects .off => "Hide Object"
  | .objects .over => "Toggle Object"
  | .delay => "Delay"
  | .call => "Call Method"

/-- The name that stands in files. -/
def name : NodeType → String
  | .click => "TriggerByClick"
  | .key => "TriggerByKey"
  | .layers .on => "ShowLayer"
  | .layers .off => "HideLayer"
  | .layers .over => "ToggleLayer"
  | .objects .on => "ShowObject"
  | .objects .off => "HideObject"
  | .objects .over => "ToggleObject"
  | .delay => "Delay"
  | .call => "CallMethod"

/-- The type with exactly this name. -/
def ofName? (s : String) : Option NodeType :=
  all.find? fun t => t.name == s

end NodeType

namespace Shelf

/-- Every shelf. -/
def all : List Shelf :=
  [.trigger, .layer, .object, .flow, .script]

/-- The name of a shelf. -/
def name : Shelf → String
  | .trigger => "Trigger"
  | .layer => "Layer"
  | .object => "Object"
  | .flow => "Flow"
  | .script => "Script"

/-- The shelf with exactly this name. -/
def ofName? (s : String) : Option Shelf :=
  all.find? fun c => c.name == s

end Shelf

/-- The type of a node together with its configuration. -/
inductive NodeKind where
  /-- Start a run when `target` is clicked. -/
  | click (target : Option ObjectId)
  /-- Start a run when `key` goes down; without a key, never. -/
  | key (key : Option Key)
  /-- Switch the layers with these names. -/
  | layers (s : Switch) (names : List String)
  /-- Switch the objects in these slots; an empty slot does nothing. -/
  | objects (s : Switch) (slots : List (Option ObjectId))
  /-- Wait for a number of seconds. -/
  | delay (seconds : Single)
  /-- Call the action that `target` has registered under `component` and
      `method`. -/
  | call (target : Option ObjectId) (component method : String)
deriving DecidableEq, Inhabited

namespace NodeKind

/-- The type of a kind. -/
def type : NodeKind → NodeType
  | .click _ => .click
  | .key _ => .key
  | .layers s _ => .layers s
  | .objects s _ => .objects s
  | .delay _ => .delay
  | .call _ _ _ => .call

/-- The unconfigured kind of a type. -/
def empty : NodeType → NodeKind
  | .click => .click none
  | .key => .key none
  | .layers s => .layers s []
  | .objects s => .objects s []
  | .delay => .delay (Single.zero false)
  | .call => .call none "" ""

@[simp]
theorem type_empty (t : NodeType) : (empty t).type = t := by
  cases t <;> rfl

/-- The scene objects that a node refers to, in order and with repetitions. -/
def referents : NodeKind → List ObjectId
  | .click target => target.toList
  | .objects _ slots => slots.filterMap id
  | .call target _ _ => target.toList
  | .key _ | .layers _ _ | .delay _ => []

/-- The key that a kind waits for. -/
def key? : NodeKind → Option Key
  | .key k => k
  | _ => none

/-- Equality of kinds, where durations compare as floating point numbers. -/
def same : NodeKind → NodeKind → Bool
  | .delay x, .delay y => x.same y
  | k, k' => k == k'

end NodeKind

/-- A node of a graph. -/
structure Node where
  /-- The name within the graph. -/
  id : NodeId
  /-- The name that designers see. -/
  name : String
  /-- The place on the canvas. -/
  position : Single × Single
  /-- What the node does. -/
  kind : NodeKind
deriving DecidableEq, Inhabited

namespace Node

/-- What the node does, its configuration aside. -/
def type (n : Node) : NodeType :=
  n.kind.type

/-- A node at the origin that carries the display name of its type. -/
def ofKind (id : NodeId) (kind : NodeKind) : Node where
  id := id
  name := kind.type.displayName
  position := (Single.zero false, Single.zero false)
  kind := kind

/-- Equality of nodes, where positions and durations compare as floating point
    numbers. -/
def same (a b : Node) : Bool :=
  a.id == b.id && a.name == b.name && a.position.1.same b.position.1
    && a.position.2.same b.position.2 && a.kind.same b.kind

end Node

end BehaviorGraph
