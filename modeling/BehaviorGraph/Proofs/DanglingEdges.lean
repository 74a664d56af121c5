import BehaviorGraph.Bake.Basic
import BehaviorGraph.Bake.Draft
import BehaviorGraph.Proofs.TriggeredSteps
/-!
# Dangling Edges in Triggered Runs

When the edges that name no node matter to a triggered run.

An edge with an end that is no node is meant to have no effect. A triggered run
follows edges by the ids they name, so it does have one as soon as two of them
meet: the run goes over to the id that is no node and on from there to a node
that live edges may lead to later, or not at all. `Graph.detour` is the smallest such
graph.

Deleting the dangling edges leaves a run as it is exactly if every id that
contributes a step is still led to, and contributing ids keep their order. For a
run to be safe from this whatever the program is, the trigger must lead to live
edges only, apart from edges back to itself. If no id that is not a node leads
on to a node, or has a step, then nothing is changed either; a single edge into
the void is of this kind.

## Main definitions

* `Graph.withoutDangling`: The graph with its live edges only.
* `Graph.DeadEnds`: Ids without a node lead on to no node.

## Theorems

* `eq_of_pairs`: Lists without repetitions are equal if order and members are.
* `Graph.reachedSteps_withoutDangling_iff`: When deleting them changes nothing.
* `Graph.forall_program_withoutDangling_iff`: When it changes nothing for any
  program.
* `Graph.reachedSteps_withoutDangling_of_deadEnds`: Ids without a node as dead
  ends.
* `Graph.dangling_edges_inert_when`: The three together.
* `Graph.dangling_edges_not_inert`: A run that goes on behind a dangling edge.
-/

namespace BehaviorGraph

/-- Two lists without repetitions that have the same members, in an order in which
    each pair of them stands alike, are equal. -/
theorem eq_of_pairs {α : Type} {as bs : List α} (ha : as.Nodup) (hb : bs.Nodup)
    (hmem : ∀ x, x ∈ as ↔ x ∈ bs)
    (hpairs : ∀ x y, List.Sublist [x, y] as → List.Sublist [x, y] bs) : as = bs := by
  induction as generalizing bs with
  | nil =>
      symm
      rw [List.eq_nil_iff_forall_not_mem]
      exact fun x hx => List.not_mem_nil ((hmem x).2 hx)
  | cons a as ih =>
      rcases bs with _ | ⟨b, bs⟩
      · exact absurd ((hmem a).1 List.mem_cons_self) List.not_mem_nil
      rw [List.nodup_cons] at ha hb
      -- Another head would stand behind the first element in one list only.
      have hab : a = b := by
        by_contra hne
        have hbas : b ∈ as := by
          rcases List.mem_cons.1 ((hmem b).2 List.mem_cons_self) with heq | htail
          · exact absurd heq.symm hne
          · exact htail
        have hpair := hpairs a b ((List.singleton_sublist.2 hbas).cons_cons a)
        have htail : List.Sublist [a, b] bs := by
          cases hpair with
          | cons _ h => exact h
          | cons_cons _ _ => exact absurd rfl hne
        exact hb.1 (htail.subset (by simp))
      subst hab
      have htails : ∀ x, x ∈ as ↔ x ∈ bs := by
        intro x
        by_cases hx : x = a
        · subst hx
          exact iff_of_false ha.1 hb.1
        · simpa [hx] using hmem x
      rw [ih ha.2 hb.2 htails fun x y hxy => ?_]
      have hx : x ≠ a := fun heq => ha.1 (heq ▸ hxy.subset List.mem_cons_self)
      cases hpairs x y (hxy.cons a) with
      | cons _ h => exact h
      | cons_cons _ _ => exact absurd rfl hx

namespace Graph

/-- The graph with its live edges only. -/
def withoutDangling (g : Graph) : Graph :=
  { g with edges := g.edges.filter g.isLive }

variable (g : Graph)

@[simp]
theorem contributes_withoutDangling : g.withoutDangling.contributes = g.contributes :=
  rfl

theorem leads_withoutDangling_iff {x y : NodeId} :
    g.withoutDangling.Leads x y ↔
      g.Leads x y ∧ g.hasNode x = true ∧ g.hasNode y = true := by
  constructor
  · rintro ⟨e, he, rfl, rfl⟩
    rw [withoutDangling, List.mem_filter, isLive, Bool.and_eq_true] at he
    exact ⟨⟨e, he.1, rfl, rfl⟩, he.2⟩
  · rintro ⟨⟨e, he, rfl, rfl⟩, hlive⟩
    refine ⟨e, ?_, rfl, rfl⟩
    rw [withoutDangling, List.mem_filter, isLive, Bool.and_eq_true]
    exact ⟨he, hlive⟩

theorem transGen_of_withoutDangling {x y : NodeId}
    (h : Relation.TransGen g.withoutDangling.Leads x y) : Relation.TransGen g.Leads x y :=
  Relation.TransGen.mono (fun _ _ hxy => (g.leads_withoutDangling_iff.1 hxy).1) _ _ h

/-- Live edges lead from nodes to nodes. -/
theorem hasNode_of_transGen {x y : NodeId}
    (h : Relation.TransGen g.withoutDangling.Leads x y) :
    g.hasNode x = true ∧ g.hasNode y = true := by
  constructor
  · rcases Relation.TransGen.head'_iff.1 h with ⟨z, hxz, -⟩
    exact (g.leads_withoutDangling_iff.1 hxz).2.1
  · rcases Relation.TransGen.tail'_iff.1 h with ⟨z, -, hzy⟩
    exact (g.leads_withoutDangling_iff.1 hzy).2.2

/-! ### For one program -/

/-- Two enumerations give the same steps exactly if the ids that contribute stand
    in them alike. -/
theorem contributions_eq_iff {ids ids' : List NodeId} :
    ids.filterMap g.contribution? = ids'.filterMap g.contribution? ↔
      ids.filter g.contributes = ids'.filter g.contributes := by
  constructor
  · intro h
    rw [← map_node_contributions, ← map_node_contributions, h]
  · intro h
    have hfilter : ∀ l : List NodeId,
        (l.filter g.contributes).filterMap g.contribution? = l.filterMap g.contribution? := by
      intro l
      rw [List.filterMap_filter]
      refine List.filterMap_congr (fun id _ => ?_)
      cases hc : g.contribution? id <;> simp [contributes, hc]
    rw [← hfilter ids, ← hfilter ids', h]

theorem reachedSteps_withoutDangling_iff (trigger : NodeId) :
    g.withoutDangling.reachedSteps trigger = g.reachedSteps trigger ↔
      (∀ id, g.contributes id = true → id ≠ trigger →
        Relation.TransGen g.Leads trigger id →
          Relation.TransGen g.withoutDangling.Leads trigger id) ∧
      ∀ x y, g.contributes x = true → g.contributes y = true →
        List.Sublist [x, y] (g.reached trigger) →
          List.Sublist [x, y] (g.withoutDangling.reached trigger) := by
  have hiff : g.reachedSteps trigger = g.withoutDangling.reachedSteps trigger ↔
      (g.reached trigger).filter g.contributes
        = (g.withoutDangling.reached trigger).filter g.contributes :=
    g.contributions_eq_iff
  have hpair : ∀ {x y : NodeId}, g.contributes x = true → g.contributes y = true →
      List.filter g.contributes [x, y] = [x, y] := by
    intro x y hx hy
    simp [hx, hy]
  rw [eq_comm]
  refine hiff.trans ⟨fun h => ⟨?_, ?_⟩, fun ⟨hled, horder⟩ => ?_⟩
  · -- An id that contributes is told by the step it adds.
    intro id hid hne htrans
    have hmem : id ∈ (g.reached trigger).filter g.contributes :=
      List.mem_filter.2 ⟨g.mem_reached_iff.2 ⟨hne, htrans⟩, hid⟩
    rw [h] at hmem
    exact (g.withoutDangling.mem_reached_iff.1 (List.mem_filter.1 hmem).1).2
  · intro x y hx hy hxy
    have hsub := hxy.filter g.contributes
    rw [h, hpair hx hy] at hsub
    exact hsub.trans List.filter_sublist
  · refine eq_of_pairs ((g.discovered_reached trigger).nodup.filter _)
      ((g.withoutDangling.discovered_reached trigger).nodup.filter _) ?_ ?_
    · intro id
      rw [List.mem_filter, List.mem_filter, mem_reached_iff, mem_reached_iff]
      constructor
      · rintro ⟨⟨hne, htrans⟩, hid⟩
        exact ⟨⟨hne, hled id hid hne htrans⟩, hid⟩
      · rintro ⟨⟨hne, htrans⟩, hid⟩
        exact ⟨⟨hne, g.transGen_of_withoutDangling htrans⟩, hid⟩
    · intro x y hxy
      have hx := (List.mem_filter.1 (hxy.subset (by simp : x ∈ [x, y]))).2
      have hy := (List.mem_filter.1 (hxy.subset (by simp : y ∈ [x, y]))).2
      have hsub := (horder x y hx hy (hxy.trans List.filter_sublist)).filter g.contributes
      rwa [hpair hx hy] at hsub

/-! ### For any program -/

/-- The same graph with another program. -/
def withProgram (p : Program) (g : Graph) : Graph :=
  { g with program := p }

/-- If the walk from a trigger follows live edges only, apart from edges back to the
    trigger, it is the walk over the live edges. -/
theorem reached_withoutDangling_of_live {trigger : NodeId}
    (h : ∀ e ∈ g.edges, e.source ∈ trigger :: g.reached trigger → e.target ≠ trigger →
      g.isLive e = true) :
    g.withoutDangling.reached trigger = g.reached trigger := by
  have hagree : ∀ x ∈ trigger :: g.reached trigger, ∀ seen, trigger ∈ seen →
      unseen seen (g.withoutDangling.successors x) = unseen seen (g.successors x) := by
    intro x hx seen hseen
    rw [successors, successors, withoutDangling, List.filter_comm]
    refine unseen_map_filter _ (fun e he hdead => ?_)
    rw [List.mem_filter, decide_eq_true_eq] at he
    -- An edge that is deleted leads back to the trigger, which was seen.
    by_contra hnew
    have hne : e.target ≠ trigger := fun heq => hnew (heq ▸ hseen)
    rw [h e he.1 (he.2.symm ▸ hx) hne] at hdead
    exact Bool.noConfusion hdead
  have hwalk := Walks.of_agree g.withoutDangling.successors (g.walks_reached trigger)
    (fun x hx seen hseen => hagree x (List.mem_cons_of_mem trigger hx) seen (hseen (by simp)))
  rw [← hagree trigger List.mem_cons_self [trigger] (by simp)] at hwalk
  exact (g.withoutDangling.walks_reached trigger).unique hwalk

theorem forall_program_withoutDangling_iff (trigger : NodeId) :
    (∀ p, (g.withProgram p).withoutDangling.reachedSteps trigger
        = (g.withProgram p).reachedSteps trigger) ↔
      ∀ e ∈ g.edges, e.source ∈ trigger :: g.reached trigger → e.target ≠ trigger →
        g.isLive e = true := by
  constructor
  · intro h
    -- A program with a step for a single id tells whether the id is led to.
    have hled : ∀ id ∈ g.reached trigger,
        Relation.TransGen g.withoutDangling.Leads trigger id := by
      intro id hid
      let p : Program := [{ type := .delay, node := id }]
      have hcontributes : (g.withProgram p).contributes id = true := by
        simp [contributes, contribution?, withProgram, p, Program.stepOf?, NodeType.isTrigger]
      have hmet := g.mem_reached_iff.1 hid
      exact (((g.withProgram p).reachedSteps_withoutDangling_iff trigger).1 (h p)).1 id
        hcontributes hmet.1 hmet.2
    intro e he hsource hne
    have htarget : e.target ∈ g.reached trigger := by
      refine g.mem_reached_iff.2 ⟨hne, ?_⟩
      exact Relation.TransGen.tail' (g.mem_cons_reached_iff.1 hsource) ⟨e, he, rfl, rfl⟩
    have hlive := g.hasNode_of_transGen (hled e.target htarget)
    rw [isLive, Bool.and_eq_true]
    refine ⟨?_, hlive.2⟩
    rcases List.mem_cons.1 hsource with heq | hmet
    · rw [heq]
      exact hlive.1
    · exact (g.hasNode_of_transGen (hled e.source hmet)).2
  · intro h p
    have hsame := (g.withProgram p).reached_withoutDangling_of_live h
    rw [reachedSteps, hsame]
    rfl

/-! ### Dead ends -/

/-- Over ids that are no node, a walk from the trigger gets to no node but the
    trigger. -/
def DeadEnds (g : Graph) (trigger : NodeId) : Prop :=
  ∀ e ∈ g.edges, e.source ∈ trigger :: g.reached trigger → e.target ≠ trigger →
    g.hasNode e.source = false → g.hasNode e.target = false

/-- From a node, live edges lead to the nodes among its successors. -/
theorem successors_withoutDangling {x : NodeId} (hx : g.hasNode x = true) :
    g.withoutDangling.successors x = (g.successors x).filter g.hasNode := by
  rw [successors, successors, withoutDangling, List.filter_map, List.filter_comm]
  congr 1
  rw [List.filter_filter, List.filter_filter]
  refine List.filter_congr (fun e _ => ?_)
  by_cases he : e.source = x
  · simp [he, isLive, hx]
  · simp [he]

section

variable {g} {trigger : NodeId}

theorem DeadEnds.eq_trigger (hends : g.DeadEnds trigger) {x y : NodeId}
    (hx : x ∈ trigger :: g.reached trigger) (hno : g.hasNode x = false)
    (hy : y ∈ g.successors x) (hnode : g.hasNode y = true) : y = trigger := by
  rcases g.mem_successors_iff.1 hy with ⟨e, he, rfl, rfl⟩
  by_contra hne
  rw [hends e he hx hne hno] at hnode
  exact Bool.noConfusion hnode

/-- A trigger that is no node leads to no node. -/
theorem DeadEnds.hasNode_eq_false (hends : g.DeadEnds trigger)
    (htrigger : g.hasNode trigger = false) {id : NodeId}
    (hid : Relation.ReflTransGen g.Leads trigger id) : g.hasNode id = false := by
  induction hid with
  | refl => exact htrigger
  | tail hpath hedge ih =>
      rename_i x y
      by_contra hnode
      rw [Bool.not_eq_false] at hnode
      have heq := hends.eq_trigger (g.mem_cons_reached_iff.2 hpath) ih
        (g.mem_successors_iff.2 hedge) hnode
      rw [heq, htrigger] at hnode
      exact Bool.noConfusion hnode

/-- From a trigger that is a node, the walk meets the same nodes with and without
    dangling edges, in the same order. -/
theorem DeadEnds.filter_reached_of_hasNode (hends : g.DeadEnds trigger)
    (htrigger : g.hasNode trigger = true) :
    (g.reached trigger).filter g.hasNode = g.withoutDangling.reached trigger := by
  have hqueue : (unseen [trigger] (g.successors trigger)).filter g.hasNode
      = unseen [trigger] (g.withoutDangling.successors trigger) := by
    rw [g.successors_withoutDangling htrigger]
    exact filter_unseen g.hasNode (fun _ _ => Iff.rfl) _
  have hmet : ∀ y, g.hasNode y = true →
      (y ∈ unseen [trigger] (g.successors trigger) ++ [trigger] ↔
        y ∈ unseen [trigger] (g.withoutDangling.successors trigger) ++ [trigger]) := by
    intro y hy
    rw [← hqueue, List.mem_append, List.mem_append, List.mem_filter]
    simp [hy]
  -- Ids that are no node lead on to the trigger at most, which was met from the start.
  have hdrop : ∀ x ∈ g.reached trigger, g.hasNode x = false → ∀ y ∈ g.successors x,
      g.hasNode y = true → y ∈ unseen [trigger] (g.successors trigger) ++ [trigger] := by
    intro x hx hno y hy hnode
    rw [hends.eq_trigger (List.mem_cons_of_mem trigger hx) hno hy hnode]
    exact List.mem_append_right _ List.mem_cons_self
  have hwalk := Walks.filter g.withoutDangling.successors g.hasNode (g.walks_reached trigger)
    (fun x _ hx => g.successors_withoutDangling hx) hdrop hmet
  rw [hqueue] at hwalk
  exact hwalk.unique (g.withoutDangling.walks_reached trigger)

/-- The walk over live edges meets the nodes that the walk over all edges meets, in
    the same order. -/
theorem DeadEnds.filter_reached (hends : g.DeadEnds trigger) :
    (g.reached trigger).filter g.hasNode = g.withoutDangling.reached trigger := by
  by_cases htrigger : g.hasNode trigger = true
  · exact hends.filter_reached_of_hasNode htrigger
  · -- A trigger that is no node starts nothing over live edges.
    rw [Bool.not_eq_true] at htrigger
    have hempty : g.withoutDangling.reached trigger = [] := by
      rw [List.eq_nil_iff_forall_not_mem]
      intro id hid
      have hnode := (g.hasNode_of_transGen (g.withoutDangling.mem_reached_iff.1 hid).2).1
      rw [htrigger] at hnode
      exact Bool.noConfusion hnode
    rw [hempty, List.filter_eq_nil_iff]
    intro id hid
    have hled := g.mem_cons_reached_iff.1 (List.mem_cons_of_mem trigger hid)
    rw [hends.hasNode_eq_false htrigger hled]
    exact Bool.false_ne_true

end

/-- If no id that is not a node leads on to a node, and none has a step, nothing
    is changed. -/
theorem reachedSteps_withoutDangling_of_deadEnds {trigger : NodeId}
    (hends : g.DeadEnds trigger)
    (hsteps : ∀ id ∈ g.reached trigger, g.hasNode id = false → g.contributes id = false) :
    g.withoutDangling.reachedSteps trigger = g.reachedSteps trigger := by
  refine (g.contributions_eq_iff).2 ?_
  rw [← hends.filter_reached, List.filter_filter]
  refine List.filter_congr (fun id hid => ?_)
  cases hno : g.hasNode id with
  | false => rw [hsteps id hid hno, Bool.false_and]
  | true => rw [Bool.and_true]

/-! ### Together -/

/-- When dangling edges have no effect on a triggered run: exactly if every id that
    adds a step is led to over live edges too and no two of these ids change their
    order; for every program exactly if only live edges are followed, apart from
    those back to the trigger; and in particular if ids that are no node are dead
    ends without a step. -/
theorem dangling_edges_inert_when (trigger : NodeId) :
    (g.withoutDangling.reachedSteps trigger = g.reachedSteps trigger ↔
      (∀ id, g.contributes id = true → id ≠ trigger →
        Relation.TransGen g.Leads trigger id →
          Relation.TransGen g.withoutDangling.Leads trigger id) ∧
      ∀ x y, g.contributes x = true → g.contributes y = true →
        List.Sublist [x, y] (g.reached trigger) →
          List.Sublist [x, y] (g.withoutDangling.reached trigger)) ∧
    ((∀ p, (g.withProgram p).withoutDangling.reachedSteps trigger
        = (g.withProgram p).reachedSteps trigger) ↔
      ∀ e ∈ g.edges, e.source ∈ trigger :: g.reached trigger → e.target ≠ trigger →
        g.isLive e = true) ∧
    ((∀ e ∈ g.edges, e.source ∈ trigger :: g.reached trigger → e.target ≠ trigger →
        g.hasNode e.source = false → g.hasNode e.target = false) →
      (∀ id ∈ g.reached trigger, g.hasNode id = false → g.contributes id = false) →
      g.withoutDangling.reachedSteps trigger = g.reachedSteps trigger) :=
  ⟨g.reachedSteps_withoutDangling_iff trigger, g.forall_program_withoutDangling_iff trigger,
    g.reachedSteps_withoutDangling_of_deadEnds⟩

/-- A click leads to a layer over an id that is no node. -/
def detour : Graph where
  name := "detour"
  nodes := [.ofKind ⟨"t"⟩ (.click none), .ofKind ⟨"a"⟩ (.layers .on [])]
  edges := [{ source := ⟨"t"⟩, target := ⟨"gone"⟩ }, { source := ⟨"gone"⟩, target := ⟨"a"⟩ }]
  program := [{ type := .click, node := ⟨"t"⟩ }, { type := .layers .on, node := ⟨"a"⟩ }]

/-- Dangling edges are not inert in a triggered run: over two of them, the trigger
    starts a step that it does not start without them. The program is the one that
    baking this graph gives. -/
theorem dangling_edges_not_inert :
    (detour.bake Draft.context {}).2.1 = detour ∧
      (∀ e ∈ detour.edges, detour.isLive e = false) ∧
      (detour.reachedSteps ⟨"t"⟩).map (·.node) = [⟨"a"⟩] ∧
      detour.withoutDangling.reachedSteps ⟨"t"⟩ = [] := by
  decide +kernel

end Graph

end BehaviorGraph
