import BehaviorGraph.Bake.Draft
import BehaviorGraph.Graph.Diagnostics
import BehaviorGraph.Proofs.NodeOutcomes
import BehaviorGraph.Proofs.ParentsFirst
/-!
# What Diagnostics Find

Diagnostics find what is wrong with a graph, all of it and nothing else.

The nodes are gone through once, and the ids that came up are remembered. So a node is found if
its id is blank, or if a node before it has the same id; the first node with an id is not found,
and all others are. Blank ids are not remembered, and need not be, since they are found for
being blank. What is found about a node can be told from the graph alone, then, and that nothing is
found means that the ids are distinct and none is blank.

In such a graph every node is the one that its id stands for, and all nodes but calls without a
method have a step. So the step that is looked up by an id is that of the node with the id, which
in general it need not be.

## Main definitions

* `Graph.finding?`: What there is to find about the node at a place.
* `Graph.Remembers`: The ids that came up.
* `Node.LacksMethod`: A call whose method is blank.

## Theorems

* `Graph.nodeFindings_eq`: The scan finds what there is to find, place by place.
* `Graph.count_nodeFindings`: How often an id is found to be repeated.
* `Graph.nodeFindings_eq_nil_iff`, `Graph.diagnostics_eq_nil_iff`: When nothing is found.
* `Graph.mem_omitted_bake`: Which ids are omitted.
* `Graph.stepOf?_of_distinct`: With distinct ids a lookup finds the step of the node.
* `Graph.diagnostics_exact`: All of this together.
-/

namespace BehaviorGraph

/-- A call whose method is blank. -/
def Node.LacksMethod (n : Node) : Prop :=
  ∃ target component method,
    n.kind = .call target component method ∧ Text.isBlank method = true

namespace Graph

/-- What there is to find about the node at a place: that its id is blank, or else that a node
    before it has the same id. -/
def finding? (g : Graph) (i : Nat) : Option Diagnostic :=
  (g.idAt? i).bind fun id =>
    if id.isBlank then some (.emptyNodeId i)
    else if id ∈ (g.nodes.take i).map (·.id) then some (.duplicateNodeId id)
    else none

variable {g : Graph}

/-! ### The scan of the nodes -/

/-- Some ids are those of the given nodes, as far as they are not blank. -/
def Remembers (seen : List NodeId) (before : List Node) : Prop :=
  ∀ id, id.isBlank = false → (id ∈ seen ↔ id ∈ before.map (·.id))

section Remembers

variable {seen : List NodeId} {before : List Node} (h : Remembers seen before)
include h

theorem Remembers.concat_blank {n : Node} (hblank : n.id.isBlank = true) :
    Remembers seen (before ++ [n]) := by
  intro id hid
  have hne : id ≠ n.id := fun heq => by simp [heq, hblank] at hid
  simp [h id hid, hne]

theorem Remembers.concat_known {n : Node} (hmem : n.id ∈ seen) :
    Remembers seen (before ++ [n]) := by
  intro id hid
  rw [h id hid, List.map_append, List.mem_append, iff_self_or, List.map_singleton,
    List.mem_singleton]
  rintro rfl
  exact (h n.id hid).1 hmem

theorem Remembers.concat_new (n : Node) : Remembers (n.id :: seen) (before ++ [n]) := by
  intro id hid
  rw [List.mem_cons, h id hid, List.map_append, List.mem_append, List.map_singleton,
    List.mem_singleton, or_comm]

end Remembers

/-- The scan finds what there is to find about the nodes that are left, if it remembers the ids of
    the nodes before them. -/
theorem nodeFindings_eq (before : List Node) {rest : List Node} {seen : List NodeId}
    (hnodes : g.nodes = before ++ rest) (hseen : Remembers seen before) :
    nodeFindings before.length seen rest =
      (List.range' before.length rest.length).filterMap g.finding? := by
  induction rest generalizing before seen with
  | nil => rfl
  | cons n rest ih =>
      have hfinding : g.finding? before.length =
          if n.id.isBlank then some (.emptyNodeId before.length)
          else if n.id ∈ before.map (·.id) then some (.duplicateNodeId n.id) else none := by
        simp [finding?, idAt?, hnodes]
      have hrest : ∀ {seen : List NodeId}, Remembers seen (before ++ [n]) →
          nodeFindings (before.length + 1) seen rest =
            (List.range' (before.length + 1) rest.length).filterMap g.finding? := by
        intro seen hseen
        have hlater := ih (before ++ [n]) (by simp [hnodes]) hseen
        rwa [List.length_append, List.length_singleton] at hlater
      rw [List.length_cons, List.range'_succ, nodeFindings]
      by_cases hblank : n.id.isBlank = true
      · rw [if_pos hblank] at hfinding ⊢
        rw [List.filterMap_cons_some hfinding, hrest (hseen.concat_blank hblank)]
      · -- What is remembered tells of the id of this node, since it is not blank.
        have hknown := hseen n.id (Bool.eq_false_iff.2 hblank)
        rw [if_neg hblank] at hfinding ⊢
        by_cases hmem : n.id ∈ seen
        · rw [if_pos (hknown.1 hmem)] at hfinding
          rw [if_pos hmem, List.filterMap_cons_some hfinding, hrest (hseen.concat_known hmem)]
        · rw [if_neg fun hbefore => hmem (hknown.2 hbefore)] at hfinding
          rw [if_neg hmem, List.filterMap_cons_none hfinding, hrest (hseen.concat_new n)]

theorem nodeFindings_nodes (g : Graph) :
    nodeFindings 0 [] g.nodes = (List.range g.nodes.length).filterMap g.finding? := by
  rw [List.range_eq_range']
  exact nodeFindings_eq [] (List.nil_append _).symm fun _ _ => by simp

/-- An id that is not blank is found once for each node that has it, but for the first one. -/
theorem count_nodeFindings {id : NodeId} (hid : id.isBlank = false) (index : Nat)
    (seen : List NodeId) (ns : List Node) :
    (nodeFindings index seen ns).count (.duplicateNodeId id) =
      (ns.countP fun n => n.id = id) - if id ∈ seen then 0 else 1 := by
  induction ns generalizing index seen with
  | nil => simp [nodeFindings]
  | cons n ns ih =>
      rw [nodeFindings, List.countP_cons]
      by_cases hblank : n.id.isBlank = true
      · have hne : n.id ≠ id := fun heq => by simp [← heq, hblank] at hid
        simp [hblank, ih, hne]
      · by_cases hmem : n.id ∈ seen
        · by_cases heq : n.id = id
          · subst heq
            simp [hblank, hmem, ih]
          · simp [hblank, hmem, ih, heq]
        · by_cases heq : n.id = id
          · -- The first node with the id is not found, and it is remembered.
            subst heq
            simp [hblank, hmem, ih]
          · simp [hblank, hmem, ih, heq, Ne.symm heq]

/-! ### When nothing is found -/

/-- Nothing is found about some nodes if their ids are not blank, are not remembered, and are
    distinct. -/
theorem nodeFindings_eq_nil_iff {index : Nat} {seen : List NodeId} {ns : List Node} :
    nodeFindings index seen ns = [] ↔
      (∀ n ∈ ns, n.id.isBlank = false ∧ n.id ∉ seen) ∧ (ns.map (·.id)).Nodup := by
  induction ns generalizing index seen with
  | nil => simp [nodeFindings]
  | cons n ns ih =>
      rw [nodeFindings, List.forall_mem_cons, List.map_cons, List.nodup_cons]
      by_cases hblank : n.id.isBlank = true
      · simp [hblank]
      · by_cases hmem : n.id ∈ seen
        · simp [hblank, hmem]
        · rw [if_neg hblank, if_neg hmem, ih]
          simp only [List.mem_cons, not_or, List.mem_map, not_exists, not_and, hmem,
            not_false_eq_true, and_true, Bool.eq_false_iff.2 hblank, true_and]
          constructor
          · rintro ⟨hrest, hnodup⟩
            exact ⟨fun m hm => ⟨(hrest m hm).1, (hrest m hm).2.2⟩,
              fun m hm => (hrest m hm).2.1, hnodup⟩
          · rintro ⟨hrest, hdiffer, hnodup⟩
            exact ⟨fun m hm => ⟨(hrest m hm).1, hdiffer m hm, (hrest m hm).2⟩, hnodup⟩

theorem diagnostics_eq_nil_iff :
    g.diagnostics = [] ↔ (∀ n ∈ g.nodes, n.id.isBlank = false) ∧ (g.nodes.map (·.id)).Nodup ∧
      ∀ e ∈ g.edges, g.isLive e = true := by
  rw [diagnostics, List.append_eq_nil_iff, nodeFindings_eq_nil_iff, List.map_eq_nil_iff,
    List.filter_eq_nil_iff, and_assoc]
  simp only [List.not_mem_nil, not_false_eq_true, and_true, Bool.not_eq_true', Bool.not_eq_false]

/-! ### Bakes of graphs without findings -/

theorem node?_of_index? {i : Nat} {n : Node} (hindex : g.index? n.id = some i)
    (hn : g.nodes[i]? = some n) : g.node? n.id = some n := by
  have hfind : g.node? n.id = (g.index? n.id).bind fun i => g.nodes[i]? :=
    List.find?_eq_bind_findIdx?_getElem?
  rw [hfind, hindex, Option.bind_some, hn]

section Bake

variable {σ : Type} (context : BakeContext σ) (s : σ)

/-- The ids that are omitted are those of the nodes that take no part. -/
theorem mem_omitted_bake {id : NodeId} :
    id ∈ (g.bake context s).1.omitted ↔ ∃ n ∈ g.nodes, n.id = id ∧ n.takesPart = false := by
  simp only [omitted_bake, List.mem_filterMap, List.mem_filter, Option.isNone_iff_eq_none,
    mem_compileOrder_iff, idAt?, Option.map_eq_some_iff]
  constructor
  · rintro ⟨i, ⟨-, hnone⟩, n, hn, hid⟩
    exact ⟨n, List.mem_of_getElem? hn, hid, (g.stepAt?_eq_none_iff context s hn).1 hnone⟩
  · rintro ⟨n, hmem, hid, hpart⟩
    rcases List.mem_iff_getElem?.1 hmem with ⟨i, hn⟩
    exact ⟨i, ⟨(List.getElem?_eq_some_iff.1 hn).1, (g.stepAt?_eq_none_iff context s hn).2 hpart⟩,
      n, hn, hid⟩

/-- With distinct ids a lookup in the program finds the step of the node. -/
theorem stepOf?_of_distinct (hids : (g.nodes.map (·.id)).Nodup) {i : Nat} {n : Node}
    (hn : g.nodes[i]? = some n) :
    (g.bake context s).2.1.program.stepOf? n.id = g.stepAt? context s i := by
  have honly : ∀ j, g.idAt? j = some n.id → j = i := by
    intro j hj
    rcases Option.map_eq_some_iff.1 hj with ⟨m, hm, hsame⟩
    have hplace := index?_of_getElem? hids hm
    rw [hsame, index?_of_getElem? hids hn] at hplace
    exact (Option.some.inj hplace).symm
  have hid : g.idAt? i = some n.id := by rw [idAt?, hn, Option.map_some]
  rw [g.stepOf?_program_bake context s]
  rcases hfind : (List.range g.nodes.length).find? fun j =>
      g.idAt? j = some n.id && (g.stepAt? context s j).isSome with _ | j
  · -- The place of the node is among those looked at, so it has no step.
    have hmiss := List.find?_eq_none.1 hfind i
      (List.mem_range.2 (List.getElem?_eq_some_iff.1 hn).1)
    rw [hid, decide_eq_true rfl, Bool.true_and, Option.not_isSome_iff_eq_none] at hmiss
    exact hmiss.symm
  · have hfound := List.find?_some hfind
    rw [Bool.and_eq_true, decide_eq_true_eq] at hfound
    rw [honly j hfound.1, Option.bind_some]

end Bake

/-- Diagnostics are what there is to find about each node, in authoring order, and then the edges
    that are not live, in their order. An id that is not blank is found to be repeated once for each
    node that has it, but for the first one. So nothing is found exactly if no id is blank, the
    ids are distinct, and all edges are live. In this case, whatever the graph is baked against,
    only calls without a method are omitted, and all of these; every other node is the one that
    its id stands for, and the step that is looked up by its id is the one that it was compiled
    to. -/
theorem diagnostics_exact (g : Graph) :
    g.diagnostics = (List.range g.nodes.length).filterMap g.finding? ++
        ((g.edges.filter fun e => !g.isLive e).map fun e => .danglingEdge e.source e.target) ∧
      (∀ id, id.isBlank = false →
        g.diagnostics.count (.duplicateNodeId id) = (g.nodes.countP fun n => n.id = id) - 1) ∧
      (g.diagnostics = [] ↔ (∀ n ∈ g.nodes, n.id.isBlank = false) ∧
        (g.nodes.map (·.id)).Nodup ∧ ∀ e ∈ g.edges, g.isLive e = true) ∧
      (g.diagnostics = [] → ∀ {σ : Type} (context : BakeContext σ) (s : σ),
        let b := g.bake context s
        (∀ id, id ∈ b.1.omitted ↔ ∃ n ∈ g.nodes, n.id = id ∧ n.LacksMethod) ∧
        ∀ i n, g.nodes[i]? = some n → ¬n.LacksMethod →
          g.node? n.id = some n ∧
          ∃ st, g.stepAt? context s i = some st ∧ b.2.1.program.stepOf? n.id = some st) := by
  refine ⟨?_, fun id hid => ?_, diagnostics_eq_nil_iff, fun hnil {σ} context s => ?_⟩
  · rw [diagnostics, nodeFindings_nodes]
  · have hedges : ((g.edges.filter fun e => !g.isLive e).map fun e =>
        Diagnostic.danglingEdge e.source e.target).count (.duplicateNodeId id) = 0 :=
      List.count_eq_zero.2 (by simp)
    rw [diagnostics, List.count_append, count_nodeFindings hid, hedges]
    simp
  · rcases diagnostics_eq_nil_iff.1 hnil with ⟨hnamed, hids, -⟩
    have hlacks : ∀ n ∈ g.nodes, n.takesPart = false ↔ n.LacksMethod := fun n hn => by
      rw [Node.takesPart_eq_false_iff, hnamed n hn]
      simp [Node.LacksMethod]
    refine ⟨fun id => ?_, fun i n hn hcalls => ⟨?_, ?_⟩⟩
    · rw [mem_omitted_bake]
      refine exists_congr fun n => and_congr_right fun hn => and_congr_right fun _ => hlacks n hn
    · exact node?_of_index? (index?_of_getElem? hids hn) hn
    · rw [stepOf?_of_distinct context s hids hn]
      have hstep : g.stepAt? context s i ≠ none := fun hnone =>
        hcalls ((hlacks n (List.mem_of_getElem? hn)).1
          ((g.stepAt?_eq_none_iff context s hn).1 hnone))
      rcases Option.ne_none_iff_exists'.1 hstep with ⟨st, hst⟩
      exact ⟨st, hst, hst⟩

/-- A click that leads into a cycle of two nodes, and a call without a method. -/
def tidy : Graph where
  name := "tidy"
  nodes :=
    [.ofKind ⟨"start"⟩ (.click (some ⟨1⟩)), .ofKind ⟨"show"⟩ (.layers .on ["Map"]),
      .ofKind ⟨"call"⟩ (.call none "Shop" " "), .ofKind ⟨"hide"⟩ (.objects .off [some ⟨1⟩, none])]
  edges :=
    [{ source := ⟨"start"⟩, target := ⟨"hide"⟩ }, { source := ⟨"hide"⟩, target := ⟨"show"⟩ },
      { source := ⟨"show"⟩, target := ⟨"hide"⟩ }, { source := ⟨"show"⟩, target := ⟨"call"⟩ }]

theorem diagnostics_exact_tidy :
    let b := tidy.bake Draft.context {}
    tidy.diagnostics = [] ∧
      (NodeId.isBlank ⟨"show"⟩ = false ∧ tidy.diagnostics.count (.duplicateNodeId ⟨"show"⟩) = 0) ∧
      ⟨"call"⟩ ∈ b.1.omitted ∧
      ∃ st, tidy.stepAt? Draft.context {} 3 = some st ∧
        b.2.1.program.stepOf? ⟨"hide"⟩ = some st ∧ st.targets = ["target-0"] := by
  intro b
  have hclean : tidy.diagnostics = [] := by decide +kernel
  have hnamed : NodeId.isBlank ⟨"show"⟩ = false := by decide +kernel
  rcases diagnostics_exact tidy with ⟨-, hcount, -, hbake⟩
  rcases hbake hclean Draft.context {} with ⟨homitted, hsteps⟩
  have hhide : tidy.nodes[3]? = some (.ofKind ⟨"hide"⟩ (.objects .off [some ⟨1⟩, none])) := rfl
  have hhides : ¬(Node.ofKind ⟨"hide"⟩ (.objects .off [some ⟨1⟩, none])).LacksMethod := by
    rintro ⟨_, _, _, hkind, -⟩
    exact NodeKind.noConfusion hkind
  rcases (hsteps 3 _ hhide hhides).2 with ⟨st, hst, hlookup⟩
  refine ⟨hclean, ⟨hnamed, (hcount _ hnamed).trans (by decide +kernel)⟩, ?_, st, hst, hlookup, ?_⟩
  · exact (homitted _).2 ⟨_, List.mem_of_getElem? (by rfl : tidy.nodes[2]? = some _), rfl, none,
      "Shop", " ", rfl, by decide +kernel⟩
  · have htargets : (tidy.stepAt? Draft.context {} 3).map Step.targets = some ["target-0"] := by
      decide +kernel
    rw [hst] at htargets
    exact Option.some.inj htargets

/-- Of three nodes with one id the two later ones are found, and each node without an id. -/
example :
    let shows (id : String) : Node := .ofKind ⟨id⟩ (.layers .on [])
    Graph.diagnostics
        { name := "broken"
          nodes := [shows "a", shows "", shows "a", shows "b", shows " ", shows "a"]
          edges := [{ source := ⟨"a"⟩, target := ⟨"b"⟩ }, { source := ⟨"b"⟩, target := ⟨"c"⟩ }] } =
      [.emptyNodeId 1, .duplicateNodeId ⟨"a"⟩, .emptyNodeId 4, .duplicateNodeId ⟨"a"⟩,
        .danglingEdge ⟨"b"⟩ ⟨"c"⟩] := by
  decide +kernel

end Graph

end BehaviorGraph
