import BehaviorGraph.Graph.Node
import BehaviorGraph.Program
/-!
# Behaviour Graphs

Nodes, the edges between them, and the program they were baked to.

An edge joins two nodes by their ids. It also records a pin at either end, which the
authoring tool draws and nothing else looks at.

A graph may come from a file that nobody checked: ids may repeat or be blank,
and an edge may name a node that is not there. An id then stands for the
first node that carries it, and an edge with an end that is no node is not
live; it is kept, and has no effect on a bake.

A trigger starts a part of the program. From the trigger, edges are followed breadth
first, by the ids they name and whether or not these are nodes. Every id is met once,
the trigger itself never, and each id that has a step of its own contributes it, unless
that step belongs to another trigger. The same walk finds the descendants of an object.

## Main definitions

* `Edge`: A directed edge.
* `Edge.involves`: The edge starts or ends at a node.
* `Edge.joins`: The edge leads from one node to another.
* `Graph`: Name, nodes, edges and program.
* `Graph.node?`: The node that an id stands for.
* `Graph.isLive`: Both ends of an edge are nodes.
* `Graph.successors`, `Graph.predecessors`: The neighbours of an id.
* `Graph.roots`: The nodes no live edge leads to.
* `Graph.same`: Equality up to the comparison of floating point numbers.
* `unseen`: The elements of a list that are new, each once.
* `walk`: The breadth first walk from a queue.
* `Graph.reached`: The ids met from a trigger, nearest first.
* `Graph.reachedSteps`: Their steps.
-/

namespace BehaviorGraph

/-! ### Edges -/

/-- A directed edge between two nodes. -/
structure Edge where
  /-- The node it starts at. -/
  source : NodeId
  /-- The node it ends at. -/
  target : NodeId
  /-- The pin at the start. -/
  sourcePin : UInt32 := 0
  /-- The pin at the end. -/
  targetPin : UInt32 := 0
deriving DecidableEq

namespace Edge

/-- The edge starts or ends at the node. -/
def involves (e : Edge) (id : NodeId) : Bool :=
  e.source = id || e.target = id

/-- The edge leads from the first node to the second. -/
def joins (e : Edge) (source target : NodeId) : Bool :=
  e.source = source && e.target = target

end Edge

/-! ### Graphs -/

/-- A behaviour graph. -/
structure Graph where
  /-- The name of the graph. -/
  name : String
  /-- The nodes, in the order they were authored. -/
  nodes : List Node := []
  /-- The edges, in the order they were authored. -/
  edges : List Edge := []
  /-- The program the graph was baked to; empty if it is not baked. -/
  program : Program := []
deriving DecidableEq

namespace Graph

/-- The name of a graph that was given none. -/
def untitled : String :=
  "Untitled"

/-- The node that an id stands for: the first one that carries it. -/
def node? (g : Graph) (id : NodeId) : Option Node :=
  g.nodes.find? fun n => n.id = id

/-- The place of the node that an id stands for. -/
def index? (g : Graph) (id : NodeId) : Option Nat :=
  g.nodes.findIdx? fun n => n.id = id

/-- Whether an id stands for a node. -/
def hasNode (g : Graph) (id : NodeId) : Bool :=
  (g.node? id).isSome

theorem hasNode_iff {g : Graph} {id : NodeId} :
    g.hasNode id = true ↔ ∃ n ∈ g.nodes, n.id = id := by
  simp only [hasNode, node?, List.find?_isSome, decide_eq_true_eq]

/-- Both ends of the edge are nodes. -/
def isLive (g : Graph) (e : Edge) : Bool :=
  g.hasNode e.source && g.hasNode e.target

/-- Where the edges out of an id lead, in their order. -/
def successors (g : Graph) (id : NodeId) : List NodeId :=
  (g.edges.filter fun e => e.source = id).map (·.target)

/-- Where the edges into an id come from, in their order. -/
def predecessors (g : Graph) (id : NodeId) : List NodeId :=
  (g.edges.filter fun e => e.target = id).map (·.source)

/-- The nodes that no live edge leads to, in authoring order. -/
def roots (g : Graph) : List Node :=
  let reached := (g.edges.filter g.isLive).map (·.target)
  g.nodes.filter fun n => n.id ∉ reached

/-- A graph is baked if it has a program. -/
def isBaked (g : Graph) : Bool :=
  !g.program.isEmpty

/-- Equality of graphs, where numbers compare as floating point numbers. -/
def same (a b : Graph) : Bool :=
  a.name == b.name && a.nodes.length == b.nodes.length
    && (a.nodes.zip b.nodes).all (fun e => e.1.same e.2)
    && a.edges == b.edges && a.program.same b.program

end Graph

/-! ### Breadth first walks -/

section Walk

variable {α : Type} [DecidableEq α]

/-- The elements that are not in `seen`, each at its first place only. -/
def unseen (seen : List α) : List α → List α
  | [] => []
  | x :: xs => if x ∈ seen then unseen seen xs else x :: unseen (x :: seen) xs

/-- The breadth first walk: take the first of the queue, and queue those of its
    successors that were not met before. The ids that were met include those
    in the queue. -/
def walk (next : α → List α) : Nat → List α → List α → List α
  | 0, _, _ => []
  | _ + 1, [], _ => []
  | fuel + 1, x :: queue, met =>
    let new := unseen met (next x)
    x :: walk next fuel (queue ++ new) (new ++ met)

end Walk

/-! ### Triggered steps -/

namespace Graph

/-- The ids met from a trigger, nearest first. Every id but the trigger is
    queued at most once and is the target of some edge, so one step for
    each edge is enough. -/
def reached (g : Graph) (trigger : NodeId) : List NodeId :=
  let first := unseen [trigger] (g.successors trigger)
  walk g.successors (g.edges.length + 1) first (first ++ [trigger])

/-- The step that an id contributes to a triggered run. -/
def contribution? (g : Graph) (id : NodeId) : Option Step :=
  (g.program.stepOf? id).filter fun s => !s.type.isTrigger

/-- The steps that a trigger starts, in the order their ids are met. -/
def reachedSteps (g : Graph) (trigger : NodeId) : List Step :=
  (g.reached trigger).filterMap g.contribution?

end Graph

end BehaviorGraph
