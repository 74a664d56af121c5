import BehaviorGraph.Graph.Basic
import BehaviorGraph.Number.Digits
/-!
# Diagnostics

The inconsistencies of a graph that leave a node or an edge without
effect.

None of them stops anything. A node with a blank id cannot be reached, a second
node with the same id is shadowed by the first, and an edge that is not
live leads nowhere.

## Main definitions

* `Diagnostic`: One inconsistency.
* `Graph.diagnostics`: All of them, those of nodes first.
-/

namespace BehaviorGraph

/-- An inconsistency of a graph. -/
inductive Diagnostic where
  /-- The node at this place has a blank id. -/
  | emptyNodeId (index : Nat)
  /-- A further node carries an id that stands for an earlier one. -/
  | duplicateNodeId (id : NodeId)
  /-- An edge names a node that is not there. -/
  | danglingEdge (source target : NodeId)
deriving DecidableEq

/-- The wording of a diagnostic. -/
def Diagnostic.message : Diagnostic → String
  | emptyNodeId index =>
    "Node at index " ++ String.ofList (natChars index) ++ " has an empty id"
  | duplicateNodeId id => "Duplicate node id: " ++ id.text
  | danglingEdge source target =>
    "Dangling connection: " ++ source.text ++ " -> " ++ target.text

namespace Graph

/-- The findings on a list of nodes that starts at a place and follows nodes
    with the given ids. -/
def nodeFindings : Nat → List NodeId → List Node → List Diagnostic
  | _, _, [] => []
  | index, seen, n :: rest =>
    if n.id.isBlank then .emptyNodeId index :: nodeFindings (index + 1) seen rest
    else if n.id ∈ seen then .duplicateNodeId n.id :: nodeFindings (index + 1) seen rest
    else nodeFindings (index + 1) (n.id :: seen) rest

/-- Every inconsistency: those of nodes in authoring order, then those of
    edges. -/
def diagnostics (g : Graph) : List Diagnostic :=
  nodeFindings 0 [] g.nodes
    ++ (g.edges.filter fun e => !g.isLive e).map fun e =>
        .danglingEdge e.source e.target

end Graph

end BehaviorGraph
