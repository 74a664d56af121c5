import BehaviorGraph.Proofs.BakeOrder
import BehaviorGraph.Proofs.Enlisting
/-!
# What a Bake Asks For

A bake is a list of requests, served one after the other.

`CoversBakes` tells what holds of every bake, whatever it asks for. That is not enough
where the order counts: an object keeps the last click trigger that it is given, and a
target id that several objects carry stands for the one that was asked about last. So here
the compiler is followed once more, and what it does to the stage, or to any other host, is
written down as a list, which is a function of the graph alone.

The list is told in two parts. The objects whose target ids are asked for are those that
the nodes refer to, node by node in bake order; and the click triggers come from the
click nodes among them.

## Main definitions

* `BakeRequest`: A request for a target id, or a click trigger to attach.
* `Node.requests`, `Graph.requests`: The requests of a node, and of a graph.
* `BakeContext.serve`: Serve a request.
* `Stage.serve`: Serve a request on a stage.
* `Graph.asked`: The objects whose target ids are asked for.
* `Graph.wirings`: The click triggers that are attached, with their objects.

## Theorems

* `Graph.state_bake`: A bake serves the requests of its graph.
* `Graph.stage_bake`, `Session.stage_bake`: The same for a stage, and for a session.
* `Graph.mem_asked`, `Graph.mem_wirings`: Which nodes the requests come from.
-/

namespace BehaviorGraph

/-- What a graph asks of the stage that it is baked against. -/
inductive BakeRequest where
  /-- The target id of an object. -/
  | target (id : ObjectId)
  /-- Clicks on the object start runs from the node. -/
  | click (id : ObjectId) (node : NodeId)

namespace BakeRequest

/-- The object whose target id is asked for. -/
def target? : BakeRequest → Option ObjectId
  | target id => some id
  | click _ _ => none

/-- The click trigger that is to be attached, and its object. -/
def wire? : BakeRequest → Option (ObjectId × NodeId)
  | target _ => none
  | click id node => some (id, node)

end BakeRequest

namespace Node

/-- The click trigger of a node, unless its id is blank. -/
def wire? (n : Node) : Option (ObjectId × NodeId) :=
  if n.id.isBlank then none
  else
    match n.kind with
    | .click (some id) => some (id, n.id)
    | _ => none

/-- The requests of a node: for target ids first, and then for its click trigger. -/
def requests (n : Node) : List BakeRequest :=
  if n.takesPart then
    n.kind.referents.map .target ++ n.wire?.toList.map fun w => .click w.1 w.2
  else []

theorem wire?_eq_some_iff {n : Node} {id : ObjectId} {node : NodeId} :
    n.wire? = some (id, node) ↔
      n.kind = .click (some id) ∧ n.id = node ∧ n.id.isBlank = false := by
  unfold wire?
  rcases hblank : n.id.isBlank with _ | _
  · simp only [Bool.false_eq_true, ↓reduceIte, and_true]
    split
    · next id' hkind => simp [hkind]
    · next hother =>
        simp only [reduceCtorEq, false_iff]
        rintro ⟨hkind, -⟩
        exact hother id hkind
  · simp

/-- A node with a click trigger takes part. -/
theorem wire?_of_not_takesPart {n : Node} (h : n.takesPart = false) : n.wire? = none := by
  rw [Option.eq_none_iff_forall_ne_some]
  rintro ⟨id, node⟩ hwire
  rcases wire?_eq_some_iff.1 hwire with ⟨hkind, -, hblank⟩
  rw [takesPart, hkind, hblank] at h
  exact absurd h (by simp)

theorem filterMap_target?_requests (n : Node) :
    n.requests.filterMap BakeRequest.target? = if n.takesPart then n.kind.referents else [] := by
  have htargets : ∀ ids : List ObjectId,
      (ids.map BakeRequest.target).filterMap BakeRequest.target? = ids := by
    intro ids
    rw [List.filterMap_map]
    exact List.filterMap_some
  unfold requests
  split
  · rw [List.filterMap_append, htargets]
    cases n.wire? <;> simp [BakeRequest.target?]
  · rfl

theorem filterMap_wire?_requests (n : Node) :
    n.requests.filterMap BakeRequest.wire? = n.wire?.toList := by
  have htargets : ∀ ids : List ObjectId,
      (ids.map BakeRequest.target).filterMap BakeRequest.wire? = [] := by
    intro ids
    rw [List.filterMap_map, List.filterMap_eq_nil_iff]
    exact fun _ _ => rfl
  unfold requests
  split
  · rw [List.filterMap_append, htargets]
    cases n.wire? <;> simp [BakeRequest.wire?]
  · next hout => rw [wire?_of_not_takesPart (Bool.eq_false_iff.2 hout)]; rfl

end Node

namespace Graph

/-- The requests of a graph, in bake order. -/
def requests (g : Graph) : List BakeRequest :=
  g.compileNodes.flatMap Node.requests

/-- The objects whose target ids are asked for, in bake order. -/
def asked (g : Graph) : List ObjectId :=
  (g.compileNodes.filter Node.takesPart).flatMap fun n => n.kind.referents

/-- The click triggers that are attached and their objects, in bake order. -/
def wirings (g : Graph) : List (ObjectId × NodeId) :=
  g.compileNodes.filterMap Node.wire?

variable {g : Graph}

theorem mem_compileNodes {n : Node} : n ∈ g.compileNodes ↔ n ∈ g.nodes := by
  rw [compileNodes, List.mem_filterMap]
  constructor
  · rintro ⟨i, -, hi⟩
    exact List.mem_of_getElem? hi
  · intro hn
    rcases List.mem_iff_getElem?.1 hn with ⟨i, hi⟩
    refine ⟨i, (g.compileOrder_perm.mem_iff).2 ?_, hi⟩
    exact List.mem_range.2 (List.getElem?_eq_some_iff.1 hi).1

theorem mem_asked {id : ObjectId} :
    id ∈ g.asked ↔ ∃ n ∈ g.nodes, n.takesPart = true ∧ id ∈ n.kind.referents := by
  simp only [asked, List.mem_flatMap, List.mem_filter, mem_compileNodes, and_assoc]

theorem mem_wirings {id : ObjectId} {node : NodeId} :
    (id, node) ∈ g.wirings ↔
      ∃ n ∈ g.nodes, n.kind = .click (some id) ∧ n.id = node ∧ n.id.isBlank = false := by
  simp only [wirings, List.mem_filterMap, mem_compileNodes, Node.wire?_eq_some_iff]

theorem filterMap_target?_requests : g.requests.filterMap BakeRequest.target? = g.asked := by
  rw [requests, asked, List.filterMap_flatMap]
  induction g.compileNodes with
  | nil => rfl
  | cons n ns ih =>
      rw [List.flatMap_cons, ih, n.filterMap_target?_requests]
      rcases hn : n.takesPart with _ | _
      · rw [List.filter_cons_of_neg (Bool.eq_false_iff.1 hn)]
        rfl
      · rw [List.filter_cons_of_pos hn, List.flatMap_cons]
        rfl

theorem filterMap_wire?_requests : g.requests.filterMap BakeRequest.wire? = g.wirings := by
  rw [requests, wirings, List.filterMap_flatMap]
  induction g.compileNodes with
  | nil => rfl
  | cons n ns ih =>
      rw [List.flatMap_cons, ih, n.filterMap_wire?_requests]
      cases hn : n.wire? <;> simp [hn]

end Graph

/-! ### Serving -/

section

variable {σ : Type} (context : BakeContext σ)

/-- Serve a request of a graph. -/
def BakeContext.serve (s : σ) : BakeRequest → σ
  | .target id => (context.targetId id s).2
  | .click id node => context.bindClick id node s

theorem BakeContext.slotIds_serve (slots : List (Option ObjectId)) (s : σ) :
    (context.slotIds slots s).2 =
      ((slots.filterMap fun slot => slot).map BakeRequest.target).foldl context.serve s := by
  induction slots generalizing s with
  | nil => rfl
  | cons slot slots ih =>
      cases slot with
      | none => exact ih s
      | some id => exact ih (context.targetId id s).2

theorem Node.attach_serve {n : Node} (h : n.id.isBlank = false) (s : σ) :
    n.attach context s =
      (n.wire?.toList.map fun w => BakeRequest.click w.1 w.2).foldl context.serve s := by
  unfold Node.attach Node.wire?
  rw [h]
  cases n.kind with
  | click target => cases target <;> rfl
  | key k => rfl
  | layers switch names => rfl
  | objects switch slots => rfl
  | delay seconds => rfl
  | call target component method => rfl

/-- Compiling a node serves its requests. -/
theorem Node.compile_serve (n : Node) (s : σ) :
    (n.compile context s).2 = n.requests.foldl context.serve s := by
  rw [Node.compile_eq, Node.requests]
  rcases hn : n.takesPart with _ | _
  · rfl
  · have hblank : n.id.isBlank = false := by
      rw [takesPart, Bool.and_eq_true, Bool.not_eq_true'] at hn
      exact hn.1
    simp only [↓reduceIte]
    rw [List.foldl_append, ← filterMap_slots, ← context.slotIds_serve,
      ← attach_serve context hblank]
    rfl

theorem compileAll_serve (ns : List Node) (s : σ) :
    (compileAll context ns s).2 = (ns.flatMap Node.requests).foldl context.serve s := by
  induction ns generalizing s with
  | nil => rfl
  | cons n ns ih =>
      rw [List.flatMap_cons, List.foldl_append, ← n.compile_serve context]
      exact ih _

/-- Whatever a graph is baked against is left as the requests of the graph leave it. -/
theorem Graph.state_bake (g : Graph) (s : σ) :
    (g.bake context s).2.2 = g.requests.foldl context.serve s :=
  compileAll_serve context g.compileNodes s

end

namespace Stage

/-- Serve a request of a graph. -/
def serve (graph : GraphRef) (s : Stage) : BakeRequest → Stage
  | .target id => (s.tag id).2
  | .click id node => s.bindClick graph id node

theorem serve_tags (graph : GraphRef) (s : Stage) (r : BakeRequest) : s.Tags (s.serve graph r) := by
  cases r with
  | target id => exact tag_tags id s
  | click id node => exact bindClick_tags graph id node s

theorem serveAll_tags (graph : GraphRef) (rs : List BakeRequest) (s : Stage) :
    s.Tags (rs.foldl (serve graph) s) := by
  induction rs generalizing s with
  | nil => exact Tags.refl s
  | cons r rs ih => exact (s.serve_tags graph r).trans (ih _)

theorem context_serve (graph : GraphRef) : (context graph).serve = serve graph := by
  funext s r
  cases r <;> rfl

end Stage

/-- A bake serves the requests of its graph on the stage, one after the other. -/
theorem Graph.stage_bake (g : Graph) (graph : GraphRef) (s : Stage) :
    (g.bake (Stage.context graph) s).2.2 = g.requests.foldl (Stage.serve graph) s := by
  rw [← Stage.context_serve]
  exact g.state_bake (Stage.context graph) s

theorem Session.stage_bake (s : Session) (graph : GraphRef) :
    (s.bake graph).2.toStage =
      (s.library.get graph).requests.foldl (Stage.serve graph) s.toStage :=
  (s.library.get graph).stage_bake graph s.toStage

end BehaviorGraph
