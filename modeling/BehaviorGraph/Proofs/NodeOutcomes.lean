import BehaviorGraph.Proofs.EditHistory
import BehaviorGraph.Proofs.OrderViolations
/-!
# What Becomes of Each Node

Every node of a graph is accounted for by a bake, once.

The bake order holds every place once, so a node is compiled once, in the state that the nodes
before it left. `Graph.stepAt?` is what it is compiled to then. The program and the summary are
put together from these: the program is the steps in bake order, and the omitted nodes are those
without one, in the same order. Which nodes are omitted does not depend on the host, nor on any
other node.

Ids need not be distinct, and a lookup in the program finds the first step with the id. First
in bake order, that is, and the walk may take nodes far from where they were authored. But of
the nodes with one id it gets to the first only, and those that it does not get to follow in
authoring order. So the nodes with one id are compiled in the order they were authored, and the
step that is found is that of the first of them that has any.

## Main definitions

* `Graph.stateAt`: The state that a node is compiled in.
* `Graph.stepAt?`: The step of the node at a place.
* `Graph.idAt?`: The id of the node at a place.

## Theorems

* `getElem?_compileAll`: What nodes are compiled to, one after the other.
* `Node.takesPart_eq_false_iff`: The nodes that have no step.
* `Graph.compileAll_compileNodes`: Every place has its outcome.
* `Graph.program_bake`, `Graph.omitted_bake`: The program and the summary.
* `Graph.filter_idAt?_compileOrder`: The places of one id keep their order.
* `Graph.stepOf?_program_bake`: The step that an id stands for.
* `Graph.nodes_accounted`: All of this together.
-/

namespace BehaviorGraph

/-- A node is compiled in the state that the nodes before it left. -/
theorem getElem?_compileAll {σ : Type} (context : BakeContext σ) (ns : List Node) (s : σ)
    (k : Nat) :
    (compileAll context ns s).1[k]? =
      ns[k]?.map fun n => (n, (n.compile context (compileAll context (ns.take k) s).2).1) := by
  induction ns generalizing s k with
  | nil => rfl
  | cons n ns ih =>
      cases k with
      | zero => rfl
      | succ k => exact ih (n.compile context s).2 k

theorem getElem?_filterMap {α β : Type} {f : α → Option β} {l : List α}
    (h : ∀ a ∈ l, (f a).isSome = true) (k : Nat) : (l.filterMap f)[k]? = l[k]?.bind f := by
  induction l generalizing k with
  | nil => rfl
  | cons a l ih =>
      rcases Option.isSome_iff_exists.1 (h a List.mem_cons_self) with ⟨b, hb⟩
      rw [List.filterMap_cons_some hb]
      cases k with
      | zero => exact hb.symm
      | succ k => exact ih (fun a ha => h a (List.mem_cons_of_mem _ ha)) k

namespace Node

/-- The nodes that have no step: those with a blank id, and calls without a method. -/
theorem takesPart_eq_false_iff {n : Node} :
    n.takesPart = false ↔
      n.id.isBlank = true ∨
        ∃ target component method,
          n.kind = .call target component method ∧ Text.isBlank method = true := by
  rw [takesPart, Bool.and_eq_false_iff, Bool.not_eq_false']
  cases n.kind <;> simp

theorem compile_eq_none_iff {σ : Type} (context : BakeContext σ) (n : Node) (s : σ) :
    (n.compile context s).1 = none ↔ n.takesPart = false := by
  rw [n.compile_eq]
  cases n.takesPart <;> simp

end Node

namespace Graph

variable {σ : Type} (context : BakeContext σ) (g : Graph) (s : σ)

/-- The state that the node at a place is compiled in: what the nodes before it left. -/
def stateAt (i : Nat) : σ :=
  (compileAll context (g.compileNodes.take (g.compileOrder.idxOf i)) s).2

/-- The step that the node at a place is compiled to, if any. -/
def stepAt? (i : Nat) : Option Step :=
  g.nodes[i]?.bind fun n => (n.compile context (g.stateAt context s i)).1

/-- The id of the node at a place. -/
def idAt? (i : Nat) : Option NodeId :=
  g.nodes[i]?.map (·.id)

/-- The places of the bake order are places of nodes. -/
theorem isSome_of_mem_compileOrder {i : Nat} (h : i ∈ g.compileOrder) :
    g.nodes[i]?.isSome = true := by
  rw [List.getElem?_eq_getElem (g.mem_compileOrder_iff.1 h)]
  rfl

/-! ### One outcome for each place -/

theorem getElem?_compileNodes (k : Nat) :
    g.compileNodes[k]? = g.compileOrder[k]?.bind fun i => g.nodes[i]? :=
  getElem?_filterMap (fun _ => g.isSome_of_mem_compileOrder) k

/-- The nodes in bake order, with what each is compiled to. -/
theorem compileAll_compileNodes :
    (compileAll context g.compileNodes s).1 =
      g.compileOrder.filterMap fun i => g.nodes[i]?.map fun n => (n, g.stepAt? context s i) := by
  refine List.ext_getElem? fun k => ?_
  rw [getElem?_compileAll, getElem?_compileNodes, getElem?_filterMap fun i hi => by
    rw [Option.isSome_map, g.isSome_of_mem_compileOrder hi]]
  rcases hk : g.compileOrder[k]? with _ | i
  · rfl
  · rcases List.getElem?_eq_some_iff.1 hk with ⟨hlt, rfl⟩
    -- The place stands in the order once, so what is before it is what is before position `k`.
    rcases hn : g.nodes[g.compileOrder[k]]? with _ | n
    · simp [hn]
    · simp [hn, stepAt?, stateAt, g.nodup_compileOrder.idxOf_getElem]

theorem stepAt?_eq_none_iff {i : Nat} {n : Node} (hn : g.nodes[i]? = some n) :
    g.stepAt? context s i = none ↔ n.takesPart = false := by
  rw [stepAt?, hn, Option.bind_some, n.compile_eq_none_iff]

/-- A step carries the id and the type of the node that it was compiled from. -/
theorem exists_node_of_stepAt? {i : Nat} {st : Step} (h : g.stepAt? context s i = some st) :
    ∃ n, g.nodes[i]? = some n ∧ st.node = n.id ∧ st.type = n.type := by
  rcases Option.bind_eq_some_iff.1 h with ⟨n, hn, hstep⟩
  exact ⟨n, hn, Node.node_and_type_of_compile hstep⟩

/-! ### The program and the summary -/

theorem program_bake :
    (g.bake context s).2.1.program = g.compileOrder.filterMap (g.stepAt? context s) := by
  have hprogram : (g.bake context s).2.1.program =
      (compileAll context g.compileNodes s).1.filterMap Prod.snd := rfl
  rw [hprogram, compileAll_compileNodes, List.filterMap_filterMap]
  refine List.filterMap_congr fun i _ => ?_
  rcases hn : g.nodes[i]? with _ | n <;> simp [stepAt?, hn]

/-- What a place is compiled to is in the program. -/
theorem mem_program_of_stepAt? {i : Nat} {st : Step} (h : g.stepAt? context s i = some st) :
    st ∈ (g.bake context s).2.1.program := by
  rcases g.exists_node_of_stepAt? context s h with ⟨n, hn, -, -⟩
  rw [program_bake]
  exact List.mem_filterMap.2
    ⟨i, g.mem_compileOrder_iff.2 (List.getElem?_eq_some_iff.1 hn).1, h⟩

theorem omitted_bake :
    (g.bake context s).1.omitted =
      (g.compileOrder.filter fun i => (g.stepAt? context s i).isNone).filterMap g.idAt? := by
  have homitted : (g.bake context s).1.omitted =
      ((compileAll context g.compileNodes s).1.filter fun e => e.2.isNone).map
        fun e => e.1.id := rfl
  rw [homitted, compileAll_compileNodes, List.filter_filterMap, List.map_filterMap,
    List.filterMap_filter]
  refine List.filterMap_congr fun i _ => ?_
  rcases hn : g.nodes[i]? with _ | n
  · simp [idAt?, hn]
  · cases hstep : g.stepAt? context s i <;> simp [idAt?, hn, Option.filter]

/-- Every node has a step or is omitted. -/
theorem length_program_add_omitted :
    (g.bake context s).2.1.program.length + (g.bake context s).1.omitted.length =
      g.nodes.length := by
  have hsteps : (g.bake context s).2.1.program.length =
      g.compileOrder.countP fun i => (g.stepAt? context s i).isSome := by
    rw [program_bake, List.length_filterMap_eq_countP]
  have homitted : (g.bake context s).1.omitted.length =
      g.compileOrder.countP fun i => !(g.stepAt? context s i).isSome := by
    rw [omitted_bake, List.length_filterMap_eq_countP, List.countP_filter]
    -- Every place of the order has an id, so none is lost where ids are read.
    refine List.countP_congr fun i hi => ?_
    rw [idAt?, Option.isSome_map, g.isSome_of_mem_compileOrder hi]
    simp
  have hplaces : g.compileOrder.length = g.nodes.length := by
    rw [g.compileOrder_perm.length_eq, List.length_range]
  rw [hsteps, homitted, ← hplaces,
    List.length_eq_countP_add_countP (fun i => (g.stepAt? context s i).isSome)]
  simp only [Bool.not_eq_true, Bool.decide_eq_false]

/-! ### Lookups -/

/-- Of two places with one id the earlier one is compiled first. -/
theorem pairwise_idAt?_compileOrder :
    g.compileOrder.Pairwise fun i j => g.idAt? i = g.idAt? j → i < j := by
  have hfirst : ∀ {i j : Nat}, i ∈ g.reachedPlaces → i ≠ j → g.idAt? i = g.idAt? j → i < j := by
    intro i j hi hne hsame
    rcases g.exists_index?_of_mem_reachedPlaces hi with ⟨id, hid⟩
    exact lt_of_le_of_ne (g.index?_le hid (hsame.symm.trans (g.id_of_index? hid))) hne
  rw [compileOrder, List.pairwise_append]
  refine ⟨?_, ?_, ?_⟩
  · exact g.nodup_reachedPlaces.imp_of_mem fun hi _ hne => hfirst hi hne
  · refine (List.pairwise_lt_range.filter _).imp ?_
    intro i j hlt _
    exact hlt
  · intro i hi j hj
    rw [List.mem_filter, decide_eq_true_eq] at hj
    exact hfirst hi fun heq => hj.2 (heq ▸ hi)

/-- The places with one id are compiled in authoring order. -/
theorem filter_idAt?_compileOrder (id : NodeId) (p : Nat → Bool) :
    g.compileOrder.filter (fun i => g.idAt? i = some id && p i) =
      (List.range g.nodes.length).filter fun i => g.idAt? i = some id && p i := by
  have hsorted : (g.compileOrder.filter fun i => g.idAt? i = some id && p i).Pairwise (· < ·) := by
    rw [List.pairwise_filter]
    refine g.pairwise_idAt?_compileOrder.imp fun hlt hi hj => hlt ?_
    simp only [Bool.and_eq_true, decide_eq_true_eq] at hi hj
    rw [hi.1, hj.1]
  -- Two lists with the same elements, both in order, are the same.
  exact List.Perm.eq_of_pairwise (fun _ _ _ _ hlt hgt => absurd hgt hlt.asymm) hsorted
    (List.pairwise_lt_range.filter _) (g.compileOrder_perm.filter _)

/-- The step of an id is that of the first node with the id that has a step. -/
theorem stepOf?_program_bake (id : NodeId) :
    (g.bake context s).2.1.program.stepOf? id =
      ((List.range g.nodes.length).find? fun i =>
        g.idAt? i = some id && (g.stepAt? context s i).isSome).bind (g.stepAt? context s) := by
  have hstep : ∀ i, (g.stepAt? context s i).any (fun st => decide (st.node = id)) =
      (g.idAt? i = some id && (g.stepAt? context s i).isSome) := by
    intro i
    rcases hi : g.stepAt? context s i with _ | st
    · simp
    · rcases g.exists_node_of_stepAt? context s hi with ⟨n, hn, hnode, -⟩
      simp [idAt?, hn, hnode]
  rw [program_bake, Program.stepOf?, List.find?_filterMap]
  simp only [hstep]
  rw [← List.head?_filter, ← List.head?_filter, g.filter_idAt?_compileOrder]

/-- A bake accounts for every node, whatever is baked against. Every place is compiled once. The
    program is what the places are compiled to, in bake order, and the omitted nodes are those
    that are compiled to nothing, in the same order, so there are as many steps and omitted
    nodes as nodes. Omitted are the nodes with a blank id and the calls without a method, and a
    step carries the id and the type of its node. An id stands for the step of the first node,
    in authoring order, that has the id and is not omitted. -/
theorem nodes_accounted {σ : Type} (context : BakeContext σ) (g : Graph) (s : σ) :
    let b := g.bake context s
    let outcome := g.stepAt? context s
    g.compileOrder.Perm (List.range g.nodes.length) ∧
      b.2.1.program = g.compileOrder.filterMap outcome ∧
      b.1.omitted = (g.compileOrder.filter fun i => (outcome i).isNone).filterMap g.idAt? ∧
      b.1.steps + b.1.omitted.length = g.nodes.length ∧
      (∀ i n, g.nodes[i]? = some n →
        (outcome i = none ↔ n.id.isBlank = true ∨
          ∃ target component method,
            n.kind = .call target component method ∧ Text.isBlank method = true) ∧
        ∀ st, outcome i = some st → st.node = n.id ∧ st.type = n.type) ∧
      ∀ id, b.2.1.program.stepOf? id =
        ((List.range g.nodes.length).find? fun i =>
          g.idAt? i = some id && (outcome i).isSome).bind outcome := by
  intro b outcome
  refine ⟨g.compileOrder_perm, g.program_bake context s, g.omitted_bake context s,
    g.length_program_add_omitted context s, fun i n hn => ⟨?_, fun st hst => ?_⟩,
    g.stepOf?_program_bake context s⟩
  · rw [g.stepAt?_eq_none_iff context s hn, Node.takesPart_eq_false_iff]
  · rcases g.exists_node_of_stepAt? context s hst with ⟨m, hm, hheader⟩
    rw [hn] at hm
    cases hm
    exact hheader

end Graph

end BehaviorGraph
