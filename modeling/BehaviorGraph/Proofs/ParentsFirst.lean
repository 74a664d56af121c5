import BehaviorGraph.Proofs.DanglingEdges
import BehaviorGraph.Proofs.OrderViolations
import Mathlib.Order.WellFoundedSet
/-!
# Parents Before Children

When the bake order can be trusted to take a node after the nodes that lead to it.

The walk places a node the first time it meets it. Of several parents the node comes after
one, the one whose children were being visited, and nothing is said of the others. So a node
is sure to come after its parent if it has no other, and if the walk gets there at all:
nodes that no root leads to follow in authoring order, whatever the edges between them.

In a forest both hold everywhere. Going back from a node to its parent, to the parent of
that, and so on, never comes back to a node, and there are finitely many of them, so it ends
at a root. Then no edge is against the order, neither in the order of the nodes nor in the
program, where nodes without a step are missing.

## Main definitions

* `Graph.Rooted`: A root leads to an id.
* `Graph.IsForest`: No cycles, and one parent at most.
* `Graph.BakesBefore`: The bake takes one node before another.

## Theorems

* `Graph.exists_parent_before`: A node that is no root is placed after one of its parents.
* `Graph.bakesBefore_of_only_parent`: An only parent comes first.
* `Graph.IsForest.rooted`: In a forest a root leads to every node.
* `Graph.IsForest.pairwise_program`: No step comes before that of a parent.
* `Graph.parents_first`: All of this together.
-/

namespace BehaviorGraph

/-- Of two members of a list without repetitions only one stands before the other. -/
theorem not_sublist_swap {α : Type} {l : List α} {a b : α} (hl : l.Nodup)
    (h : List.Sublist [a, b] l) : ¬List.Sublist [b, a] l := by
  induction l with
  | nil => exact absurd h (by simp)
  | cons c l ih =>
      rw [List.nodup_cons] at hl
      intro h'
      cases h with
      | cons _ h =>
          cases h' with
          | cons _ h' => exact ih hl.2 h h'
          | cons_cons _ _ => exact hl.1 (h.subset (by simp))
      | cons_cons _ h =>
          cases h' with
          | cons _ h' => exact hl.1 (h'.subset (by simp))
          | cons_cons _ _ => exact hl.1 (h.subset (by simp))

namespace Graph

/-- Over live edges, a root leads to the id. -/
def Rooted (g : Graph) (id : NodeId) : Prop :=
  ∃ r ∈ g.roots, Relation.ReflTransGen g.withoutDangling.Leads r.id id

/-- The live edges form a forest. -/
structure IsForest (g : Graph) : Prop where
  /-- No live edges lead from an id back to it. -/
  acyclic : ∀ x, ¬Relation.TransGen g.withoutDangling.Leads x x
  /-- Live edges into an id all come from one id. -/
  parent_unique : ∀ {x x' y}, g.withoutDangling.Leads x y → g.withoutDangling.Leads x' y → x = x'

/-- The bake takes the node of the first id before the node of the second. -/
def BakesBefore (g : Graph) (x y : NodeId) : Prop :=
  ∃ i j, g.index? x = some i ∧ g.index? y = some j ∧ List.Sublist [i, j] g.compileOrder

variable {g : Graph}

/-! ### Ids and places -/

theorem leads_withoutDangling_of_mem {e : Edge} (he : e ∈ g.edges) (hlive : g.isLive e = true) :
    g.withoutDangling.Leads e.source e.target :=
  ⟨e, List.mem_filter.2 ⟨he, hlive⟩, rfl, rfl⟩

/-- A place stands for one id at most. -/
theorem index?_inj {x y : NodeId} {i : Nat} (hx : g.index? x = some i)
    (hy : g.index? y = some i) : x = y :=
  Option.some.inj ((g.id_of_index? hx).symm.trans (g.id_of_index? hy))

theorem leads_iff_liveArc {x y : NodeId} :
    g.withoutDangling.Leads x y ↔
      ∃ i j, g.index? x = some i ∧ g.index? y = some j ∧ g.LiveArc i j := by
  constructor
  · rintro ⟨e, he, rfl, rfl⟩
    rw [withoutDangling, List.mem_filter] at he
    rcases (g.isLive_iff e).1 he.2 with ⟨i, j, hi, hj⟩
    exact ⟨i, j, hi, hj, e, he.1, he.2, hi, hj⟩
  · rintro ⟨i, j, hi, hj, e, he, hlive, hsource, htarget⟩
    rw [index?_inj hi hsource, index?_inj hj htarget]
    exact leads_withoutDangling_of_mem he hlive

theorem exists_place_of_leads {x y : NodeId} {i : Nat} (hx : g.index? x = some i)
    (h : Relation.ReflTransGen g.withoutDangling.Leads x y) :
    ∃ j, g.index? y = some j ∧ Relation.ReflTransGen g.LiveArc i j := by
  induction h with
  | refl => exact ⟨i, hx, Relation.ReflTransGen.refl⟩
  | tail _ hedge ih =>
      rcases ih with ⟨k, hk, hreach⟩
      rcases leads_iff_liveArc.1 hedge with ⟨k', j, hk', hj, harc⟩
      rw [hk] at hk'
      cases hk'
      exact ⟨j, hj, hreach.tail harc⟩

theorem mem_roots_iff {n : Node} :
    n ∈ g.roots ↔ n ∈ g.nodes ∧ ∀ x, ¬g.withoutDangling.Leads x n.id := by
  simp only [roots, List.mem_filter, List.mem_map, decide_eq_true_eq]
  refine and_congr_right fun _ => ⟨?_, ?_⟩
  · rintro hroot x ⟨e, he, -, htarget⟩
    exact hroot ⟨e, List.mem_filter.1 he, htarget⟩
  · rintro hroot ⟨e, he, htarget⟩
    exact hroot e.source ⟨e, List.mem_filter.2 he, rfl, htarget⟩

/-- The walk gets to the ids that a root leads to. -/
theorem Rooted.exists_place {id : NodeId} (h : g.Rooted id) :
    ∃ i, g.index? id = some i ∧ i ∈ g.reachedPlaces := by
  rcases h with ⟨r, hr, hreach⟩
  have hnode : g.hasNode r.id = true := hasNode_iff.2 ⟨r, (mem_roots_iff.1 hr).1, rfl⟩
  rw [hasNode_eq_isSome_index?, Option.isSome_iff_exists] at hnode
  rcases hnode with ⟨k, hk⟩
  rcases exists_place_of_leads hk hreach with ⟨i, hi, harcs⟩
  exact ⟨i, hi, g.mem_reachedPlaces_iff.2 ⟨k, List.mem_filterMap.2 ⟨r, hr, hk⟩, harcs⟩⟩

theorem Rooted.tail {x y : NodeId} (h : g.Rooted x) (hedge : g.withoutDangling.Leads x y) :
    g.Rooted y := by
  rcases h with ⟨r, hr, hreach⟩
  exact ⟨r, hr, hreach.tail hedge⟩

/-! ### One parent -/

/-- A node that a root leads to, and that is no root, is placed after one of its parents. -/
theorem exists_parent_before {y : NodeId} (h : g.Rooted y)
    (hchild : ∃ x, g.withoutDangling.Leads x y) :
    ∃ x, g.withoutDangling.Leads x y ∧ g.BakesBefore x y := by
  rcases h.exists_place with ⟨j, hj, hreached⟩
  rcases g.visits_reachedPlaces.exists_parent j hreached with hold | hstart | ⟨i, hchild, hbefore⟩
  · exact absurd hold List.not_mem_nil
  · -- The walk starts with the places of roots.
    rcases List.mem_filterMap.1 hstart with ⟨r, hr, hplace⟩
    rcases hchild with ⟨x, hx⟩
    rw [index?_inj hj hplace] at hx
    exact absurd hx ((mem_roots_iff.1 hr).2 x)
  · rcases g.mem_childPlaces_iff.1 hchild with ⟨e, he, hlive, hsource, htarget⟩
    rw [index?_inj hj htarget]
    refine ⟨e.source, leads_withoutDangling_of_mem he hlive, i, j, hsource, htarget, ?_⟩
    exact hbefore.trans (List.sublist_append_left _ _)

/-- A parent that a root leads to comes before its child if the child has no other parent. -/
theorem bakesBefore_of_only_parent {x y : NodeId} (hedge : g.withoutDangling.Leads x y)
    (hrooted : g.Rooted x) (honly : ∀ x', g.withoutDangling.Leads x' y → x' = x) :
    g.BakesBefore x y := by
  rcases exists_parent_before (hrooted.tail hedge) ⟨x, hedge⟩ with ⟨x', hparent, hbefore⟩
  rwa [honly x' hparent] at hbefore

/-! ### Forests -/

/-- Edges that all lead upwards do not lead back. -/
theorem IsForest.of_rank (rank : NodeId → Nat)
    (hup : ∀ e ∈ g.withoutDangling.edges, rank e.source < rank e.target)
    (hone : ∀ e ∈ g.withoutDangling.edges, ∀ e' ∈ g.withoutDangling.edges,
      e.target = e'.target → e.source = e'.source) : g.IsForest := by
  refine ⟨fun x hcycle => ?_, ?_⟩
  · have hrank : Relation.TransGen (fun a b : Nat => a < b) (rank x) (rank x) := by
      refine hcycle.lift rank ?_
      rintro _ _ ⟨e, he, rfl, rfl⟩
      exact hup e he
    rw [Relation.transGen_eq_self] at hrank
    exact absurd hrank (Nat.lt_irrefl _)
  · rintro x x' y ⟨e, he, rfl, rfl⟩ ⟨e', he', rfl, htarget⟩
    exact hone e he e' he' htarget.symm

/-- In a forest a root leads to every node. -/
theorem IsForest.rooted (h : g.IsForest) {id : NodeId} (hid : g.hasNode id = true) :
    g.Rooted id := by
  have hfinite : {x | g.hasNode x = true}.Finite :=
    (g.nodes.map (·.id)).finite_toSet.subset fun _ hx => List.mem_map.2 (hasNode_iff.1 hx)
  have : IsStrictOrder NodeId (Relation.TransGen g.withoutDangling.Leads) :=
    { irrefl := h.acyclic, trans := fun _ _ _ => Relation.TransGen.trans }
  -- Every node is a root, or has a parent that is further back.
  refine (hfinite.wellFoundedOn (r := Relation.TransGen g.withoutDangling.Leads)).induction hid ?_
  intro y hy ih
  by_cases hparent : ∃ x, g.withoutDangling.Leads x y
  · rcases hparent with ⟨x, hedge⟩
    have hx : g.hasNode x = true := ((g.leads_withoutDangling_iff).1 hedge).2.1
    exact (ih x hx (Relation.TransGen.single hedge)).tail hedge
  · rcases hasNode_iff.1 hy with ⟨n, hn, rfl⟩
    exact ⟨n, mem_roots_iff.2 ⟨hn, not_exists.1 hparent⟩, Relation.ReflTransGen.refl⟩

theorem IsForest.bakesBefore (h : g.IsForest) {x y : NodeId}
    (hedge : g.withoutDangling.Leads x y) : g.BakesBefore x y :=
  bakesBefore_of_only_parent hedge (h.rooted ((g.leads_withoutDangling_iff).1 hedge).2.1)
    fun _ hparent => h.parent_unique hparent hedge

/-- The places of a forest are in an order that no arc is against. -/
theorem IsForest.pairwise_compileOrder (h : g.IsForest) :
    g.compileOrder.Pairwise fun i j => ¬g.LiveArc j i := by
  rw [List.pairwise_iff_forall_sublist]
  rintro i j hbefore ⟨e, he, hlive, hsource, htarget⟩
  rcases h.bakesBefore (leads_withoutDangling_of_mem he hlive) with ⟨j', i', hj', hi', hafter⟩
  rw [hsource] at hj'
  rw [htarget] at hi'
  cases hj'
  cases hi'
  exact not_sublist_swap g.nodup_compileOrder hbefore hafter

/-- With distinct ids, every node is the one that its id stands for. -/
theorem index?_of_getElem? (hids : (g.nodes.map (·.id)).Nodup) {i : Nat} {n : Node}
    (hn : g.nodes[i]? = some n) : g.index? n.id = some i := by
  rcases List.getElem?_eq_some_iff.1 hn with ⟨hi, rfl⟩
  rw [index?, List.findIdx?_eq_some_iff_getElem]
  refine ⟨hi, decide_eq_true rfl, fun j hj hsame => ?_⟩
  have hdiffer : g.nodes.Pairwise fun m n => m.id ≠ n.id := List.pairwise_map.1 hids
  exact List.pairwise_iff_getElem.1 hdiffer j i _ hi hj (of_decide_eq_true hsame)

/-- The nodes of a forest with distinct ids are compiled in an order that no live edge is
    against. -/
theorem IsForest.pairwise_compileNodes (h : g.IsForest) (hids : (g.nodes.map (·.id)).Nodup) :
    (g.compileNodes.map (·.id)).Pairwise fun x y => ¬g.withoutDangling.Leads y x := by
  refine List.Pairwise.map (·.id) (fun _ _ hnot => hnot)
    (h.pairwise_compileOrder.filterMap (fun i => g.nodes[i]?) ?_)
  rintro i j hnot n hn m hm hedge
  rcases leads_iff_liveArc.1 hedge with ⟨j', i', hj', hi', harc⟩
  rw [index?_of_getElem? hids hm] at hj'
  rw [index?_of_getElem? hids hn] at hi'
  cases hj'
  cases hi'
  exact hnot harc

/-- No step of a baked forest comes before the step of a parent. -/
theorem IsForest.pairwise_program (h : g.IsForest) (hids : (g.nodes.map (·.id)).Nodup) {σ : Type}
    (context : BakeContext σ) (s : σ) :
    ((g.bake context s).2.1.program.map (·.node)).Pairwise
      fun x y => ¬g.withoutDangling.Leads y x := by
  have hprogram : (g.bake context s).2.1.program.map (·.node) =
      (g.compileNodes.filter Node.takesPart).map (·.id) :=
    map_node_compileAll context g.compileNodes s
  rw [hprogram]
  exact (h.pairwise_compileNodes hids).sublist (List.filter_sublist.map _)

/-- So a step of a parent is earlier than every step of a child. -/
theorem IsForest.lt_of_leads (h : g.IsForest) (hids : (g.nodes.map (·.id)).Nodup) {σ : Type}
    (context : BakeContext σ) (s : σ) {i j : Nat} {p q : Step}
    (hi : (g.bake context s).2.1.program[i]? = some p)
    (hj : (g.bake context s).2.1.program[j]? = some q)
    (hedge : g.withoutDangling.Leads p.node q.node) : i < j := by
  rcases List.getElem?_eq_some_iff.1 hi with ⟨hi, rfl⟩
  rcases List.getElem?_eq_some_iff.1 hj with ⟨hj, rfl⟩
  rcases Nat.lt_trichotomy i j with hlt | rfl | hlt
  · exact hlt
  · exact absurd (Relation.TransGen.single hedge) (h.acyclic _)
  · have hlater := List.pairwise_iff_getElem.1 (h.pairwise_program hids context s) j i
      (by rwa [List.length_map]) (by rwa [List.length_map]) hlt
    simp only [List.getElem_map] at hlater
    exact absurd hedge hlater

/-- A bake of a forest has no edge to report. -/
theorem IsForest.violates_eq_false (h : g.IsForest) (hids : (g.nodes.map (·.id)).Nodup) {σ : Type}
    (context : BakeContext σ) (s : σ) {e : Edge} (he : e ∈ g.edges) :
    (g.bake context s).2.1.program.violates e = false := by
  rw [← Bool.not_eq_true]
  intro hviolates
  -- A reported edge is live, and a step of its target comes before one of its source.
  have hlive := g.isLive_of_steps context s (Program.ends_of_violates _ hviolates)
  have hedge := leads_withoutDangling_of_mem he hlive
  rcases (Program.violates_iff _).1 hviolates with ⟨i, j, hi, hj, hlt⟩
  rcases (Program.lastIndex?_eq_some_iff _).1 hi with ⟨hi, hsource, -⟩
  rcases (Program.lastIndex?_eq_some_iff _).1 hj with ⟨hj, htarget, -⟩
  rw [← hsource, ← htarget] at hedge
  have hgt := h.lt_of_leads hids context s (List.getElem?_eq_getElem hi)
    (List.getElem?_eq_getElem hj) hedge
  omega

/-- When the bake order can be trusted, whatever is baked against. For a live edge whose source
    a root leads to and whose target no other id leads to, the source comes before the target;
    ids may repeat, and stand for the first node that carries them. In a forest with distinct
    ids that is so for every live edge, no edge is reported, and of the two ends of a live edge
    the source has its step first. -/
theorem parents_first {σ : Type} (context : BakeContext σ) (g : Graph) (s : σ) :
    (∀ e ∈ g.edges, g.isLive e = true → g.Rooted e.source →
      (∀ x, g.withoutDangling.Leads x e.target → x = e.source) →
        g.BakesBefore e.source e.target) ∧
    ((g.nodes.map (·.id)).Nodup → g.IsForest →
      let b := g.bake context s
      let p := b.2.1.program
      b.1.violations = [] ∧
        ∀ e ∈ g.edges, g.isLive e = true →
          g.BakesBefore e.source e.target ∧
            ∀ i j, p.place? e.source = some i → p.place? e.target = some j → i < j) := by
  refine ⟨fun e he hlive hrooted honly => ?_, fun hids h => ⟨?_, fun e he hlive => ⟨?_, ?_⟩⟩⟩
  · exact bakesBefore_of_only_parent (leads_withoutDangling_of_mem he hlive) hrooted honly
  · have hreported : (g.bake context s).1.violations =
        (g.bake context s).2.1.program.violations g.edges := rfl
    rw [hreported, Program.violations, List.map_eq_nil_iff, List.filter_eq_nil_iff]
    intro e he
    rw [h.violates_eq_false hids context s he]
    exact Bool.false_ne_true
  · exact h.bakesBefore (leads_withoutDangling_of_mem he hlive)
  · intro i j hi hj
    rcases (Program.place?_eq_some_iff _).1 hi with ⟨hi, hsource, -⟩
    rcases (Program.place?_eq_some_iff _).1 hj with ⟨hj, htarget, -⟩
    have hedge := leads_withoutDangling_of_mem he hlive
    rw [← hsource, ← htarget] at hedge
    exact h.lt_of_leads hids context s (List.getElem?_eq_getElem hi)
      (List.getElem?_eq_getElem hj) hedge

/-- A start, a circle of two nodes behind it, and a way out of the circle. -/
def lasso : Graph where
  name := "lasso"
  nodes := [.ofKind ⟨"out"⟩ (.layers .on []), .ofKind ⟨"turn"⟩ (.layers .off []),
    .ofKind ⟨"back"⟩ (.layers .on []), .ofKind ⟨"start"⟩ (.click none)]
  edges := [{ source := ⟨"start"⟩, target := ⟨"turn"⟩ }, { source := ⟨"turn"⟩, target := ⟨"back"⟩ },
    { source := ⟨"back"⟩, target := ⟨"turn"⟩ }, { source := ⟨"back"⟩, target := ⟨"out"⟩ }]

/-- Two roots, the first with branches: an edge drawn twice, and a call without a method, which
    has no step, between two nodes that have one. -/
def branches : Graph where
  name := "branches"
  nodes := [.ofKind ⟨"late"⟩ (.layers .off []), .ofKind ⟨"call"⟩ (.call none "Door" " "),
    .ofKind ⟨"show"⟩ (.layers .on []), .ofKind ⟨"start"⟩ (.click none),
    .ofKind ⟨"alone"⟩ (.click none)]
  edges := [{ source := ⟨"start"⟩, target := ⟨"show"⟩ },
    { source := ⟨"start"⟩, target := ⟨"call"⟩ }, { source := ⟨"start"⟩, target := ⟨"show"⟩ },
    { source := ⟨"call"⟩, target := ⟨"late"⟩ }, { source := ⟨"late"⟩, target := ⟨"gone"⟩ }]

/-- The way out of the circle comes after the node that it leaves, although it was authored
    first, and the branches come after the start. -/
theorem parents_first_lasso_branches :
    lasso.Rooted ⟨"back"⟩ ∧ lasso.BakesBefore ⟨"back"⟩ ⟨"out"⟩ ∧
      (branches.nodes.map (·.id)).Nodup ∧ branches.IsForest ∧
      (branches.bake Draft.context {}).1.violations = [] ∧
      branches.BakesBefore ⟨"start"⟩ ⟨"show"⟩ ∧ branches.BakesBefore ⟨"call"⟩ ⟨"late"⟩ := by
  have hrooted : lasso.Rooted ⟨"back"⟩ := by
    refine ⟨.ofKind ⟨"start"⟩ (.click none), by decide +kernel, ?_⟩
    refine Relation.ReflTransGen.tail (b := ⟨"turn"⟩) (Relation.ReflTransGen.single ?_) ?_
    · exact ⟨{ source := ⟨"start"⟩, target := ⟨"turn"⟩ }, by decide +kernel, rfl, rfl⟩
    · exact ⟨{ source := ⟨"turn"⟩, target := ⟨"back"⟩ }, by decide +kernel, rfl, rfl⟩
  have honly : ∀ x, lasso.withoutDangling.Leads x ⟨"out"⟩ → x = ⟨"back"⟩ := by
    rintro _ ⟨e, he, rfl, htarget⟩
    revert e
    decide +kernel
  have hids : (branches.nodes.map (·.id)).Nodup := by decide +kernel
  have hforest : branches.IsForest :=
    .of_rank (fun x => if x = ⟨"start"⟩ then 0 else if x = ⟨"late"⟩ then 2 else 1)
      (by decide +kernel) (by decide +kernel)
  rcases (parents_first Draft.context branches {}).2 hids hforest with ⟨hnone, hedges⟩
  refine ⟨hrooted, ?_, hids, hforest, hnone, ?_, ?_⟩
  · exact (parents_first Draft.context lasso {}).1
      { source := ⟨"back"⟩, target := ⟨"out"⟩ } (by decide +kernel) (by decide +kernel)
      hrooted honly
  · exact (hedges { source := ⟨"start"⟩, target := ⟨"show"⟩ } (by decide +kernel)
      (by decide +kernel)).1
  · exact (hedges { source := ⟨"call"⟩, target := ⟨"late"⟩ } (by decide +kernel)
      (by decide +kernel)).1

end Graph

end BehaviorGraph
