import BehaviorGraph.Asset.Node
import BehaviorGraph.Graph.Basic
/-!
# Graphs in Assets

How edges, steps and whole graphs are put down in a format.

A graph needs a name and nodes, an edge its two ends, and a step the type
and id of its node; whatever else is missing is empty or zero.

## Main definitions

* `Format.ofEdge`, `Format.edge?`: Write and read an edge.
* `Format.ofStep`, `Format.step?`: Write and read a step.
* `Format.ofGraph`, `Format.graph?`: Write and read a graph.
-/

namespace BehaviorGraph.Format

variable {V : Type} (fmt : Format V)

/-! ### Edges -/

/-- The members of an edge, in the order of their declaration. -/
def edgeFields : List String :=
  ["fromId", "toId", "fromPort", "toPort"]

/-- Write an edge. -/
def ofEdge (c : Edge) : V :=
  fmt.ofRecord "Connection"
    [("fromId", fmt.ofNodeId c.source), ("toId", fmt.ofNodeId c.target),
     ("fromPort", fmt.ofUnsigned32 c.sourcePin), ("toPort", fmt.ofUnsigned32 c.targetPin)]

/-- Read an edge. -/
def edge? (v : V) : Option Edge := do
  let members ← fmt.fields? "Connection" edgeFields v
  let source ← required? fmt.nodeId? "fromId" members
  let target ← required? fmt.nodeId? "toId" members
  let sourcePin ← defaulted? fmt.unsigned32? 0 "fromPort" members
  let targetPin ← defaulted? fmt.unsigned32? 0 "toPort" members
  return { source, target, sourcePin, targetPin }

/-! ### Steps -/

/-- The members of a step, in the order of their declaration. -/
def stepFields : List String :=
  ["nodeType", "nodeId", "stringParams", "intParams", "floatParams", "layerParams",
   "targetIds"]

/-- Write a step. -/
def ofStep (s : Step) : V :=
  fmt.ofRecord "ExecutionStep"
    [("nodeType", fmt.ofName s.type.name), ("nodeId", fmt.ofNodeId s.node),
     ("stringParams", fmt.ofMap fmt.ofText s.strings),
     ("intParams", fmt.ofMap fmt.ofSigned32 s.ints),
     ("floatParams", fmt.ofMap fmt.ofSingle s.floats),
     ("layerParams", fmt.ofItems fmt.ofText s.layers),
     ("targetIds", fmt.ofItems fmt.ofText s.targets)]

/-- Read a step. -/
def step? (v : V) : Option Step := do
  let members ← fmt.fields? "ExecutionStep" stepFields v
  let type ← required? fmt.nodeType? "nodeType" members
  let node ← required? fmt.nodeId? "nodeId" members
  let strings ← defaulted? (fmt.map? fmt.text?) .empty "stringParams" members
  let ints ← defaulted? (fmt.map? fmt.signed32?) .empty "intParams" members
  let floats ← defaulted? (fmt.map? fmt.single?) .empty "floatParams" members
  let layers ← defaulted? (fmt.items? fmt.text?) [] "layerParams" members
  let targets ← defaulted? (fmt.items? fmt.text?) [] "targetIds" members
  return { type, node, strings, ints, floats, layers, targets }

/-! ### Graphs -/

/-- The members of a graph, in the order of their declaration. -/
def graphFields : List String :=
  ["name", "nodes", "connections", "bakedProgram"]

/-- Write a graph. -/
def ofGraph (g : Graph) : V :=
  fmt.ofRecord "Graph"
    [("name", fmt.ofText g.name), ("nodes", fmt.ofItems fmt.ofNode g.nodes),
     ("connections", fmt.ofItems fmt.ofEdge g.edges),
     ("bakedProgram", fmt.ofItems fmt.ofStep g.program)]

/-- Read a graph. -/
def graph? (v : V) : Option Graph := do
  let members ← fmt.fields? "Graph" graphFields v
  let name ← required? fmt.text? "name" members
  let nodes ← required? (fmt.items? fmt.node?) "nodes" members
  let edges ← defaulted? (fmt.items? fmt.edge?) [] "connections" members
  let program ← defaulted? (fmt.items? fmt.step?) [] "bakedProgram" members
  return { name, nodes, edges, program }

end BehaviorGraph.Format
