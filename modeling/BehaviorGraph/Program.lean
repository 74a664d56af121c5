import BehaviorGraph.Graph.Node
import BehaviorGraph.OrderedMap
/-!
# Steps

The instructions of a baked program.

A step carries the id and type of the node it was compiled from, and the
parameters that its type needs: literals under well-known keys, layer names, and
the target ids of objects. A program is a list of steps.

## Main definitions

* `Step`: One instruction.
* `Step.stringParam?`, `Step.floatParam?`: Literals by key.
* `Step.same`: Equality up to the comparison of floating point numbers.
* `Program.stepOf?`: The step compiled from a node.
-/

namespace BehaviorGraph

/-- The keys under which steps carry their literals. -/
inductive Param where
  /-- The key that a key trigger waits for. -/
  | key
  /-- How long a delay takes. -/
  | seconds
  /-- The component of the action to call. -/
  | component
  /-- The method of the action to call. -/
  | method
deriving DecidableEq

/-- The key as it stands in a step. -/
def Param.name : Param → String
  | .key => "key"
  | .seconds => "seconds"
  | .component => "component"
  | .method => "method"

/-- One instruction of a baked program. -/
structure Step where
  /-- The type of the node it was compiled from. -/
  type : NodeType
  /-- The id of the node it was compiled from. -/
  node : NodeId
  /-- Text literals. -/
  strings : OrderedMap String String := .empty
  /-- Integer literals. -/
  ints : OrderedMap String Int32 := .empty
  /-- Floating point literals. -/
  floats : OrderedMap String Single := .empty
  /-- Names of layers. -/
  layers : List String := []
  /-- Target ids of objects. -/
  targets : List String := []
deriving DecidableEq

namespace Step

/-- The text under a well-known key. -/
def stringParam? (s : Step) (p : Param) : Option String :=
  s.strings.get? p.name

/-- The number under a well-known key. -/
def floatParam? (s : Step) (p : Param) : Option Single :=
  s.floats.get? p.name

/-- The first target id. -/
def target? (s : Step) : Option String :=
  s.targets.head?

/-- Add a text under a well-known key. -/
def setString (p : Param) (value : String) (s : Step) : Step :=
  { s with strings := s.strings.insert p.name value }

/-- Add a number under a well-known key. -/
def setFloat (p : Param) (value : Single) (s : Step) : Step :=
  { s with floats := s.floats.insert p.name value }

/-- Equality of steps: literals are compared by key whatever their order, and
    numbers as floating point numbers. -/
def same (a b : Step) : Bool :=
  a.type == b.type && a.node == b.node
    && a.strings.sameBy (· == ·) b.strings
    && a.ints.sameBy (· == ·) b.ints
    && a.floats.sameBy Single.same b.floats
    && a.layers == b.layers && a.targets == b.targets

end Step

/-- The steps of a graph in the order they are stored. -/
abbrev Program :=
  List Step

namespace Program

/-- The first step compiled from a node with this id. -/
def stepOf? (p : Program) (id : NodeId) : Option Step :=
  p.find? fun s => s.node = id

/-- Equality of programs, step by step. -/
def same : Program → Program → Bool
  | [], [] => true
  | s :: p, s' :: p' => s.same s' && same p p'
  | _, _ => false

end Program

end BehaviorGraph
