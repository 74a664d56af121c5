import BehaviorGraph.Proofs.DanglingEdges
import BehaviorGraph.Proofs.OrderViolations
/-!
# Dangling Edges in Bakes

A bake does not see the edges that name no node.

An edge with an end that is no node is meant to have no effect. A triggered run goes over it
all the same, since it follows ids. A bake does not, and leaves such edges out in three
different ways. A root is a node that no live edge leads to. The walk goes over arcs between
places, and an end that is no node has no place. And the report compares places of steps, which
only ids of nodes have. So a graph and the same graph with its live edges only are baked alike:
in the same order, to the same program and the same summary.

The host is asked for the same things, too, one after the other. What it is asked for shows if
it is made to write that down, and this is the list of requests of the graph, for every host
and whatever it answers.

## Main definitions

* `BakeContext.noting`: A host that writes down what it is asked for.

## Theorems

* `Graph.noted_bake`: What a host is asked for in a bake.
* `Graph.roots_withoutDangling`, `Graph.compileOrder_withoutDangling`: Roots and bake order.
* `Graph.violations_withoutDangling`: The reported edges.
* `Graph.bake_withoutDangling_eq`: Baking and leaving out dangling edges commute.
* `Graph.bake_withoutDangling`: All of this together.
-/

namespace BehaviorGraph

namespace BakeContext

variable {σ : Type} (context : BakeContext σ)

/-- The same host, which also writes down what it is asked for. -/
def noting : BakeContext (σ × List BakeRequest) where
  targetId id t :=
    let (answer, s) := context.targetId id t.1
    (answer, s, t.2 ++ [.target id])
  bindClick id node t := (context.bindClick id node t.1, t.2 ++ [.click id node])

theorem serve_noting (t : σ × List BakeRequest) (r : BakeRequest) :
    context.noting.serve t r = (context.serve t.1 r, t.2 ++ [r]) := by
  cases r <;> rfl

theorem foldl_serve_noting (rs : List BakeRequest) (t : σ × List BakeRequest) :
    rs.foldl context.noting.serve t = (rs.foldl context.serve t.1, t.2 ++ rs) := by
  induction rs generalizing t with
  | nil => simp
  | cons r rs ih => simp [ih, serve_noting]

end BakeContext

namespace Graph

variable (g : Graph)

/-- A host is asked for the requests of the graph, and is left as without writing them down. -/
theorem noted_bake {σ : Type} (context : BakeContext σ) (s : σ) :
    (g.bake context.noting (s, [])).2.2 = ((g.bake context s).2.2, g.requests) := by
  rw [state_bake, state_bake, BakeContext.foldl_serve_noting, List.nil_append]

/-! ### Roots and order -/

@[simp]
theorem isLive_withoutDangling : g.withoutDangling.isLive = g.isLive :=
  rfl

@[simp]
theorem index?_withoutDangling : g.withoutDangling.index? = g.index? :=
  rfl

theorem roots_withoutDangling : g.withoutDangling.roots = g.roots := by
  simp only [roots, isLive_withoutDangling]
  simp only [withoutDangling, List.filter_filter, Bool.and_self]

/-- A dangling edge is no arc, since one of its ends has no place. -/
theorem arcs_withoutDangling : g.withoutDangling.arcs = g.arcs := by
  simp only [arcs, index?_withoutDangling]
  rw [withoutDangling, List.filterMap_filter]
  refine List.filterMap_congr fun e _ => ?_
  by_cases hlive : g.isLive e = true
  · rw [if_pos hlive]
  · rw [if_neg hlive, eq_comm, Option.eq_none_iff_forall_ne_some]
    intro a ha
    rcases Option.bind_eq_some_iff.1 ha with ⟨i, hi, ha⟩
    rcases Option.bind_eq_some_iff.1 ha with ⟨j, hj, -⟩
    exact hlive ((g.isLive_iff e).2 ⟨i, j, hi, hj⟩)

theorem compileOrder_withoutDangling : g.withoutDangling.compileOrder = g.compileOrder := by
  simp only [compileOrder, reachedPlaces, rootPlaces, arcs_withoutDangling, roots_withoutDangling,
    index?_withoutDangling]
  rfl

theorem compileNodes_withoutDangling : g.withoutDangling.compileNodes = g.compileNodes := by
  simp only [compileNodes, compileOrder_withoutDangling]
  rfl

/-! ### Program and report -/

/-- A dangling edge is not reported, since one of its ends has no step. -/
theorem violations_withoutDangling {σ : Type} (context : BakeContext σ) (s : σ) :
    let p := (g.bake context s).2.1.program
    p.violations g.withoutDangling.edges = p.violations g.edges := by
  intro p
  rw [Program.violations, Program.violations, withoutDangling, List.filter_filter]
  congr 1
  refine List.filter_congr fun e _ => ?_
  rw [Bool.and_comm]
  exact (g.violates_eq_of_bake context s e).symm

/-- The bake of the graph without its dangling edges is the bake of the graph, and then its
    dangling edges are left out. -/
theorem bake_withoutDangling_eq {σ : Type} (context : BakeContext σ) (s : σ) :
    let b := g.bake context s
    g.withoutDangling.bake context s = (b.1, b.2.1.withoutDangling, b.2.2) := by
  have hviolations := g.violations_withoutDangling context s
  simp only [bake, compileNodes_withoutDangling] at hviolations ⊢
  rw [hviolations]
  rfl

/-- Without its dangling edges a graph has the roots and the bake order that it has with them,
    and whatever it is baked against, the bake asks for the same things one after the other,
    namely the requests of the graph, makes the same program and the same summary, and leaves
    the host in the same state. -/
theorem bake_withoutDangling {σ : Type} (context : BakeContext σ) (g : Graph) (s : σ) :
    let live := g.withoutDangling
    live.roots = g.roots ∧
      live.compileOrder = g.compileOrder ∧
      (live.bake context.noting (s, [])).2.2.2 = g.requests ∧
      (g.bake context.noting (s, [])).2.2.2 = g.requests ∧
      (live.bake context s).2.1.program = (g.bake context s).2.1.program ∧
      (live.bake context s).1 = (g.bake context s).1 ∧
      (live.bake context s).2.2 = (g.bake context s).2.2 := by
  intro live
  have hbake : live.bake context s = _ := g.bake_withoutDangling_eq context s
  have hnoted : live.bake context.noting (s, []) = _ :=
    g.bake_withoutDangling_eq context.noting (s, [])
  refine ⟨g.roots_withoutDangling, g.compileOrder_withoutDangling, ?_, ?_, ?_, ?_, ?_⟩
  · rw [hnoted, noted_bake]
  · rw [noted_bake]
  · rw [hbake]
    rfl
  · rw [hbake]
  · rw [hbake]

end Graph

end BehaviorGraph
