import BehaviorGraph.Graph.Basic
/-!
# Baking

Turning a graph into a program: the order in which its nodes are compiled, the step of
each, and the program that comes of it.

Nodes are taken depth first from every root. A node is placed the first time
it is reached, and its children follow in the order of the edges that
lead to them. Nodes that no root reaches come last, in authoring order. Both
ends of an edge stand for the first node with their id, so of two nodes
with one id only the first has children or parents.

The walk keeps a stack of places still to be visited. A place can be pushed more
than once before it is taken from the stack; it is placed by the first of these
visits and skipped by the others.

Objects are referred to by target ids, which outlive the scene the graph was
authored in. Who compiles a graph supplies them through a `BakeContext`: it knows
the target id of an object, if the object exists, and attaches to an object the
trigger that clicking it starts. The context may keep a state of its own.

Baking compiles every node in bake order and stores the steps with the graph. It
cannot fail: a node that has no step is left out and reported. The depth first
order does not place all predecessors of a node before it; edges whose
steps end up the wrong way round are reported as well, and left as they are.

## Main definitions

* `Graph.arcs`: The live edges between places of nodes.
* `children`: Where the edges out of a place lead.
* `visitAll`: The depth first walk from a stack of places.
* `Graph.compileOrder`: The places of all nodes in bake order.
* `BakeContext`: Target ids and click triggers, over a state.
* `BakeContext.slotIds`: The target ids of the objects in some slots.
* `Node.layerNames`: The names of layers that a step carries.
* `Node.compile`: The step of a node.
* `BakeSummary`: What a bake did.
* `Program.violations`: The edges whose steps are the wrong way round.
* `Graph.bake`: Bake a graph.
-/

namespace BehaviorGraph

/-! ### The bake order -/

/-- The targets of the arcs out of a place, in their order. -/
def children (arcs : List (Nat × Nat)) (i : Nat) : List Nat :=
  (arcs.filter fun a => a.1 = i).map Prod.snd

/-- Visit the places on a stack, given the places visited before. The children
    of a new place go on top of the stack, those visited already left out. -/
def visitAll (arcs : List (Nat × Nat)) : Nat → List Nat → List Nat → List Nat
  | 0, _, visited => visited
  | _ + 1, [], visited => visited
  | fuel + 1, i :: stack, visited =>
    if i ∈ visited then visitAll arcs fuel stack visited
    else
      let visited := visited ++ [i]
      visitAll arcs fuel ((children arcs i).filter (· ∉ visited) ++ stack) visited

namespace Graph

/-- The live edges as pairs of the places that their ends stand for. -/
def arcs (g : Graph) : List (Nat × Nat) :=
  g.edges.filterMap fun e => do
    let i ← g.index? e.source
    let j ← g.index? e.target
    return (i, j)

/-- The places that the roots stand for. -/
def rootPlaces (g : Graph) : List Nat :=
  g.roots.filterMap fun n => g.index? n.id

/-- The places reached from the roots. A walk from one root takes each arc at
    most once, so a step for the root and one for every arc are enough. -/
def reachedPlaces (g : Graph) : List Nat :=
  let arcs := g.arcs
  g.rootPlaces.foldl (fun visited i => visitAll arcs (arcs.length + 1) [i] visited) []

/-- The places of the nodes in the order they are compiled. -/
def compileOrder (g : Graph) : List Nat :=
  let reached := g.reachedPlaces
  reached ++ (List.range g.nodes.length).filter (· ∉ reached)

end Graph

/-! ### Compiling nodes -/

/-- What the compiler needs from a scene. -/
structure BakeContext (σ : Type) where
  /-- The target id of an object, or nothing if the object does not exist. -/
  targetId : ObjectId → σ → Option String × σ
  /-- Make clicks on the object start runs from the node. -/
  bindClick : ObjectId → NodeId → σ → σ

/-- Ask for the target ids of the objects in some slots, one after the other,
    and keep those that exist. Nothing is asked about an empty slot. -/
def BakeContext.slotIds {σ : Type} (context : BakeContext σ) :
    List (Option ObjectId) → σ → List String × σ
  | [], s => ([], s)
  | none :: slots, s => context.slotIds slots s
  | some o :: slots, s =>
    let (answer, s) := context.targetId o s
    let (rest, s) := context.slotIds slots s
    (answer.toList ++ rest, s)

namespace Node

/-- The names of layers that a step carries: trimmed, blank ones left out. -/
def layerNames (names : List String) : List String :=
  (names.map Text.trim).filter fun name => !Text.isBlank name

/-- Compile a node. A node with a blank id, and a call without a method, have no
    step, and nothing is asked about them. The click trigger of a node is
    attached after its target id was asked for. -/
def compile {σ : Type} (context : BakeContext σ) (n : Node) (s : σ) : Option Step × σ :=
  if n.id.isBlank then (none, s)
  else
    let step : Step := { type := n.type, node := n.id }
    match n.kind with
    | .click none => (some step, s)
    | .click (some o) =>
      let (target, s) := context.targetId o s
      (some { step with targets := target.toList }, context.bindClick o n.id s)
    | .key none => (some step, s)
    | .key (some k) => (some (step.setString .key k.name), s)
    | .layers _ names => (some { step with layers := layerNames names }, s)
    | .objects _ slots =>
      let (targets, s) := context.slotIds slots s
      (some { step with targets }, s)
    | .delay seconds => (some (step.setFloat .seconds seconds), s)
    | .call target component method =>
      if Text.isBlank method then (none, s)
      else
        let step := (step.setString .component (Text.trim component)).setString .method
          (Text.trim method)
        match target with
        | none => (some step, s)
        | some o =>
          let (target, s) := context.targetId o s
          (some { step with targets := target.toList }, s)

end Node

/-! ### Baking -/

/-- What a bake did. -/
structure BakeSummary where
  /-- The number of steps of the program. -/
  steps : Nat
  /-- The nodes that have no step, in bake order. -/
  omitted : List NodeId
  /-- The edges whose target is placed before their source. -/
  violations : List (NodeId × NodeId)
deriving DecidableEq

/-- Compile nodes one after the other. -/
def compileAll {σ : Type} (context : BakeContext σ) :
    List Node → σ → List (Node × Option Step) × σ
  | [], s => ([], s)
  | n :: ns, s =>
    let (step, s) := n.compile context s
    let (rest, s) := compileAll context ns s
    ((n, step) :: rest, s)

/-- The place of the last step compiled from a node with this id. -/
def Program.lastIndex? (p : Program) (id : NodeId) : Option Nat :=
  (p.reverse.findIdx? fun s => s.node = id).map fun i => p.length - 1 - i

/-- The step of the target stands before the step of the source. -/
def Program.violates (p : Program) (e : Edge) : Bool :=
  match p.lastIndex? e.source, p.lastIndex? e.target with
  | some i, some j => j < i
  | _, _ => false

/-- The edges whose steps are the wrong way round. -/
def Program.violations (p : Program) (edges : List Edge) : List (NodeId × NodeId) :=
  (edges.filter p.violates).map fun e => (e.source, e.target)

namespace Graph

/-- The nodes in bake order. -/
def compileNodes (g : Graph) : List Node :=
  g.compileOrder.filterMap fun i => g.nodes[i]?

/-- Bake a graph: compile its nodes in bake order and store the program with
    it. -/
def bake {σ : Type} (context : BakeContext σ) (g : Graph) (s : σ) : BakeSummary × Graph × σ :=
  let (compiled, s) := compileAll context g.compileNodes s
  let program : Program := compiled.filterMap Prod.snd
  let omitted := (compiled.filter fun e => e.2.isNone).map fun e => e.1.id
  ({ steps := program.length, omitted, violations := program.violations g.edges },
    { g with program }, s)

end Graph

end BehaviorGraph
