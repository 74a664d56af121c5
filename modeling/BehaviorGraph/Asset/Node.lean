import BehaviorGraph.Asset.Format
import BehaviorGraph.Graph.Node
/-!
# Nodes in Assets

How a node is put down in a format.

A node is one flat record: the members that every node has, and those that its
type needs. When writing, members of other types are left out, and so are a
target and a key that are not set. When reading, they are read and forgotten; a
member that the type needs and that is missing is empty.

## Main definitions

* `Format.ofNode`: Write a node.
* `Format.node?`: Read a node.
-/

namespace BehaviorGraph.Format

variable {V : Type} (fmt : Format V)

/-- The members that a node may have, in the order of their declaration. -/
def nodeFields : List String :=
  ["id", "position", "displayName", "type", "target", "key", "layers", "targets",
   "seconds", "component", "method"]

/-- Write the id of a node. -/
def ofNodeId (id : NodeId) : V :=
  fmt.ofText id.text

/-- Read the id of a node. -/
def nodeId? (v : V) : Option NodeId :=
  (fmt.text? v).map NodeId.mk

/-- Write the id of an object. -/
def ofObjectId (o : ObjectId) : V :=
  fmt.ofText o.toString

/-- Read the id of an object. -/
def objectId? (v : V) : Option ObjectId :=
  (fmt.text? v).bind ObjectId.ofString?

/-- Read a node type. -/
def nodeType? (v : V) : Option NodeType :=
  (fmt.name? v).bind NodeType.ofName?

/-- Read a key. -/
def key? (v : V) : Option Key :=
  (fmt.name? v).bind Key.ofName?

/-- Write a member that is set. -/
def ofPresent (v : V) : V :=
  fmt.ofOption (some v)

/-- Write a member that may be unset; it is left out then. -/
def ofOptional {α : Type} (name : String) (encode : α → V) : Option α → List (String × V)
  | none => []
  | some x => [(name, fmt.ofPresent (encode x))]

/-- Write the members that only some types of nodes need. -/
def ofKind : NodeKind → List (String × V)
  | .click target => fmt.ofOptional "target" fmt.ofObjectId target
  | .key key => fmt.ofOptional "key" (fun k => fmt.ofName k.name) key
  | .layers _ names => [("layers", fmt.ofPresent (fmt.ofItems fmt.ofText names))]
  | .objects _ slots =>
    [("targets",
      fmt.ofPresent (fmt.ofItems (fun slot => fmt.ofOption (slot.map fmt.ofObjectId)) slots))]
  | .delay seconds => [("seconds", fmt.ofPresent (fmt.ofSingle seconds))]
  | .call target component method =>
    fmt.ofOptional "target" fmt.ofObjectId target
      ++ [("component", fmt.ofPresent (fmt.ofText component)),
          ("method", fmt.ofPresent (fmt.ofText method))]

/-- Write a node. -/
def ofNode (n : Node) : V :=
  fmt.ofRecord "NodeRecord"
    ([("id", fmt.ofNodeId n.id),
      ("position", fmt.ofPair (fmt.ofSingle n.position.1, fmt.ofSingle n.position.2)),
      ("displayName", fmt.ofPresent (fmt.ofText n.name)),
      ("type", fmt.ofName n.type.name)]
      ++ fmt.ofKind n.kind)

/-- What the members of a node that only some types need say. -/
structure KindMembers where
  /-- The object of a click or a call. -/
  target : Option ObjectId
  /-- The key of a key trigger. -/
  key : Option Key
  /-- The names of layers. -/
  layers : Option (List String)
  /-- The slots for objects. -/
  slots : Option (List (Option ObjectId))
  /-- The duration of a delay. -/
  seconds : Option Single
  /-- The component of a call. -/
  component : Option String
  /-- The method of a call. -/
  method : Option String

/-- The kind of a node of a type, what is missing being empty. -/
def KindMembers.kind (m : KindMembers) : NodeType → NodeKind
  | .click => .click m.target
  | .key => .key m.key
  | .layers s => .layers s (m.layers.getD [])
  | .objects s => .objects s (m.slots.getD [])
  | .delay => .delay (m.seconds.getD (Single.zero false))
  | .call => .call m.target (m.component.getD "") (m.method.getD "")

/-- Read the members that only some types of nodes need. -/
def kindMembers? (members : OrderedMap String V) : Option KindMembers := do
  let target ← fmt.optional? fmt.objectId? "target" members
  let key ← fmt.optional? fmt.key? "key" members
  let layers ← fmt.optional? (fmt.items? fmt.text?) "layers" members
  let slots ← fmt.optional? (fmt.items? (fmt.optionOf? fmt.objectId?)) "targets" members
  let seconds ← fmt.optional? fmt.single? "seconds" members
  let component ← fmt.optional? fmt.text? "component" members
  let method ← fmt.optional? fmt.text? "method" members
  return { target, key, layers, slots, seconds, component, method }

/-- Read a node. Without a position it stands at the origin, and without a
    display name it carries that of its type. -/
def node? (v : V) : Option Node := do
  let members ← fmt.fields? "NodeRecord" nodeFields v
  let id ← required? fmt.nodeId? "id" members
  let origin := (Single.zero false, Single.zero false)
  let position ← defaulted? (fmt.pairOf? fmt.single?) origin "position" members
  let name ← fmt.optional? fmt.text? "displayName" members
  let type ← required? fmt.nodeType? "type" members
  let kind ← fmt.kindMembers? members
  return { id, name := name.getD type.displayName, position, kind := kind.kind type }

end BehaviorGraph.Format
