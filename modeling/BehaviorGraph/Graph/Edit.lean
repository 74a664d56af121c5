import BehaviorGraph.Graph.Basic
/-!
# Editing Graphs

The changes an authoring tool makes to a graph.

Every edit returns what it found together with the graph after it. An edit that
changes anything drops the program, so a graph that has a program is the graph
that was baked; an edit that finds nothing to do leaves the graph as it was.

## Main definitions

* `ConnectError`: Why two nodes cannot be connected.
* `Graph.addNode`, `Graph.removeNode`, `Graph.editNode`: Edits of nodes.
* `Graph.connect`, `Graph.disconnect`: Edits of edges.
* `Graph.dropProgram`: Drop the program.
-/

namespace BehaviorGraph

/-- Why two nodes cannot be connected. -/
inductive ConnectError where
  /-- There is no node with this id. -/
  | nodeNotFound (id : NodeId)
  /-- A node cannot be connected to itself. -/
  | selfLoop (id : NodeId)
  /-- The two are connected already. -/
  | alreadyConnected (source target : NodeId)
deriving DecidableEq

/-- The wording of the error. -/
def ConnectError.message : ConnectError → String
  | nodeNotFound id => "Node not found: " ++ id.text
  | selfLoop id => "Self-loop not allowed on node " ++ id.text
  | alreadyConnected source target =>
    "Nodes already connected: " ++ source.text ++ " -> " ++ target.text

namespace Graph

/-- Drop the program. -/
def dropProgram (g : Graph) : Graph :=
  { g with program := [] }

/-- Add a node at the end. -/
def addNode (n : Node) (g : Graph) : Graph :=
  { g with nodes := g.nodes ++ [n], program := [] }

/-- Remove the node that an id stands for, and every edge that involves
    the id. -/
def removeNode (id : NodeId) (g : Graph) : Option Node × Graph :=
  match g.node? id with
  | none => (none, g)
  | some n =>
    (some n,
      { g with
        nodes := g.nodes.eraseP fun n => n.id = id
        edges := g.edges.filter fun e => !e.involves id
        program := [] })

/-- Change the first element that passes a test. -/
def modifyFirst {α : Type} (test : α → Bool) (f : α → α) : List α → List α
  | [] => []
  | x :: xs => if test x then f x :: xs else x :: modifyFirst test f xs

/-- Change the node that an id stands for. -/
def editNode (id : NodeId) (f : Node → Node) (g : Graph) : Bool × Graph :=
  if g.hasNode id then
    (true, { g with nodes := modifyFirst (fun n => n.id = id) f g.nodes, program := [] })
  else (false, g)

/-- Connect two nodes that exist, differ and are not yet connected. -/
def connect (source target : NodeId) (g : Graph) : Except ConnectError Unit × Graph :=
  if !g.hasNode source then (.error (.nodeNotFound source), g)
  else if !g.hasNode target then (.error (.nodeNotFound target), g)
  else if source = target then (.error (.selfLoop source), g)
  else if g.edges.any (·.joins source target) then
    (.error (.alreadyConnected source target), g)
  else
    (.ok (), { g with edges := g.edges ++ [{ source, target }], program := [] })

/-- Remove every edge from one node to another. -/
def disconnect (source target : NodeId) (g : Graph) : Bool × Graph :=
  if g.edges.any (·.joins source target) then
    (true,
      { g with
        edges := g.edges.filter fun e => !e.joins source target
        program := [] })
  else (false, g)

end Graph

end BehaviorGraph
