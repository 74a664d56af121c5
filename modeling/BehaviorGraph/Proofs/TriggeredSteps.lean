import BehaviorGraph.Graph.Basic
import BehaviorGraph.Proofs.BreadthFirst
/-!
# What a Trigger Starts

The steps of a triggered run, for every graph and every program.

Nothing is asked of the edges: they may run in circles, lead from an id to itself
or back into the trigger, stand twice, or name no node. The walk over them ends in
any case, since every id it meets but the trigger is the target of an edge. It
meets exactly the ids that the trigger leads to, nearest first, and the program
has no say in that: an id without a step, or with the step of another trigger,
contributes nothing and is walked through all the same.

## Main definitions

* `Graph.Leads`: An edge leads from one id to another.
* `Graph.contributes`: The id adds a step to a triggered run.
* `Graph.Discovered`: The ids that a trigger leads to, level by level.

## Theorems

* `Graph.walks_reached`: The walk from a trigger ends.
* `Graph.discovered_reached`: It meets the ids level by level.
* `Graph.mem_reachedSteps_iff`: Which steps are started.
* `Graph.reachedSteps_spec`: All of this together.
-/

namespace BehaviorGraph

namespace Graph

/-- An edge leads from one id to another. -/
def Leads (g : Graph) (x y : NodeId) : Prop :=
  ∃ e ∈ g.edges, e.source = x ∧ e.target = y

/-- The id adds a step to a triggered run that meets it. -/
def contributes (g : Graph) (id : NodeId) : Bool :=
  (g.contribution? id).isSome

/-- The ids that a trigger leads to: level by level, where the levels up to the
    number of edges are all there are; each once, and nearest first. -/
structure Discovered (g : Graph) (trigger : NodeId) (ids : List NodeId) : Prop where
  /-- The levels stand one after the other. -/
  byLevel : ids = (List.range g.edges.length).flatMap fun k =>
    Walk.level g.successors trigger (k + 1)
  /-- There are no further levels. -/
  noMore : ∀ k, g.edges.length < k → Walk.level g.successors trigger k = []
  /-- Exactly the ids that the trigger leads to are there, but for itself. -/
  complete : ∀ id, id ∈ ids ↔ id ≠ trigger ∧ Relation.TransGen g.Leads trigger id
  /-- No id is there twice. -/
  nodup : ids.Nodup
  /-- The length of the shortest path never decreases. -/
  nearestFirst : ids.Pairwise fun x y => ∀ j k,
    Walk.IsDistance g.successors trigger j x → Walk.IsDistance g.successors trigger k y → j ≤ k

variable (g : Graph)

theorem mem_successors_iff {x y : NodeId} : y ∈ g.successors x ↔ g.Leads x y := by
  rw [successors, List.mem_map]
  constructor
  · rintro ⟨e, he, rfl⟩
    rw [List.mem_filter, decide_eq_true_eq] at he
    exact ⟨e, he.1, he.2, rfl⟩
  · rintro ⟨e, he, hx, hy⟩
    refine ⟨e, ?_, hy⟩
    rw [List.mem_filter, decide_eq_true_eq]
    exact ⟨he, hx⟩

theorem successors_subset (x : NodeId) : g.successors x ⊆ g.edges.map (·.target) := by
  intro y hy
  rcases (g.mem_successors_iff).1 hy with ⟨e, he, -, rfl⟩
  exact List.mem_map_of_mem he

/-! ### The ids that are met -/

theorem level_reached_eq_nil (trigger : NodeId) {k : Nat} (hk : g.edges.length < k) :
    Walk.level g.successors trigger k = [] := by
  refine Walk.level_eq_nil g.successors_subset ?_
  rwa [List.length_map]

/-- A walk from the trigger meets the trigger and then the levels behind it. -/
theorem met_eq_cons (trigger : NodeId) :
    Walk.met g.successors trigger g.edges.length
      = trigger :: (List.range g.edges.length).flatMap fun k =>
          Walk.level g.successors trigger (k + 1) := by
  rw [Walk.met_eq_flatMap, List.range_succ_eq_map, List.flatMap_cons, List.flatMap_map]
  rfl

theorem walks_levels (trigger : NodeId) :
    Walks g.successors (unseen [trigger] (g.successors trigger))
      (unseen [trigger] (g.successors trigger) ++ [trigger])
      ((List.range g.edges.length).flatMap fun k =>
        Walk.level g.successors trigger (k + 1)) := by
  have hend := g.level_reached_eq_nil trigger (Nat.lt_succ_self g.edges.length)
  have hwalk := Walk.walks_met g.successors trigger hend
  rw [met_eq_cons] at hwalk
  cases hwalk with
  | visit rest => exact rest

theorem reached_eq_levels (trigger : NodeId) :
    g.reached trigger = (List.range g.edges.length).flatMap fun k =>
      Walk.level g.successors trigger (k + 1) := by
  refine walk_eq_of_walks (g.walks_levels trigger) ?_
  -- Each id met is the target of an edge, so the rounds of the walk are enough.
  have hle : (Walk.met g.successors trigger g.edges.length).length ≤
      (g.edges.map (·.target)).length + 1 :=
    Walk.length_met_le g.successors_subset g.edges.length
  rw [met_eq_cons, List.length_cons, List.length_map] at hle
  omega

/-- The walk from a trigger ends: its loop, given no bound, meets these ids. -/
theorem walks_reached (trigger : NodeId) :
    Walks g.successors (unseen [trigger] (g.successors trigger))
      (unseen [trigger] (g.successors trigger) ++ [trigger]) (g.reached trigger) := by
  rw [reached_eq_levels]
  exact g.walks_levels trigger

theorem met_eq_cons_reached (trigger : NodeId) :
    Walk.met g.successors trigger g.edges.length = trigger :: g.reached trigger := by
  rw [met_eq_cons, reached_eq_levels]

theorem nodup_cons_reached (trigger : NodeId) : (trigger :: g.reached trigger).Nodup := by
  rw [← met_eq_cons_reached]
  exact Walk.nodup_met g.successors trigger g.edges.length

theorem mem_cons_reached_iff {trigger id : NodeId} :
    id ∈ trigger :: g.reached trigger ↔ Relation.ReflTransGen g.Leads trigger id := by
  have hleads : (fun x y => y ∈ g.successors x) = g.Leads := by
    funext x y
    exact propext g.mem_successors_iff
  have hmet : id ∈ Walk.met g.successors trigger (g.edges.map (·.target)).length ↔
      Relation.ReflTransGen (fun x y => y ∈ g.successors x) trigger id :=
    Walk.mem_met_iff_reflTransGen g.successors_subset
  rwa [List.length_map, met_eq_cons_reached, hleads] at hmet

theorem mem_reached_iff {trigger id : NodeId} :
    id ∈ g.reached trigger ↔ id ≠ trigger ∧ Relation.TransGen g.Leads trigger id := by
  have hnodup := List.nodup_cons.1 (g.nodup_cons_reached trigger)
  constructor
  · intro hid
    have hne : id ≠ trigger := fun heq => hnodup.1 (heq ▸ hid)
    have hreach := g.mem_cons_reached_iff.1 (List.mem_cons_of_mem trigger hid)
    rcases Relation.reflTransGen_iff_eq_or_transGen.1 hreach with heq | htrans
    · exact absurd heq hne
    · exact ⟨hne, htrans⟩
  · rintro ⟨hne, htrans⟩
    have hmem := g.mem_cons_reached_iff.2 htrans.to_reflTransGen
    rcases List.mem_cons.1 hmem with heq | hid
    · exact absurd heq hne
    · exact hid

theorem nearest_first_reached (trigger : NodeId) :
    (g.reached trigger).Pairwise fun x y => ∀ j k,
      Walk.IsDistance g.successors trigger j x →
        Walk.IsDistance g.successors trigger k y → j ≤ k := by
  rw [reached_eq_levels, List.pairwise_flatMap]
  constructor
  · intro n _
    -- Two ids of one level have one distance.
    refine List.pairwise_of_forall_mem_list ?_
    intro x hx y hy j k hj hk
    rw [Walk.mem_level_iff] at hx hy
    have hjn := hj.unique hx
    have hkn := hk.unique hy
    omega
  · -- Of two levels, the first has the smaller number.
    refine List.Pairwise.imp ?_ List.pairwise_lt_range
    intro m n hmn x hx y hy j k hj hk
    rw [Walk.mem_level_iff] at hx hy
    rw [hj.unique hx, hk.unique hy]
    omega

theorem discovered_reached (trigger : NodeId) : g.Discovered trigger (g.reached trigger) where
  byLevel := g.reached_eq_levels trigger
  noMore _ hk := g.level_reached_eq_nil trigger hk
  complete _ := g.mem_reached_iff
  nodup := (List.nodup_cons.1 (g.nodup_cons_reached trigger)).2
  nearestFirst := g.nearest_first_reached trigger

/-! ### The steps they contribute -/

theorem contribution?_eq_some_iff {id : NodeId} {s : Step} :
    g.contribution? id = some s ↔ g.program.stepOf? id = some s ∧ s.type.isTrigger = false := by
  rw [contribution?, Option.filter_eq_some_iff]
  simp

theorem node_of_contribution? {id : NodeId} {s : Step} (h : g.contribution? id = some s) :
    s.node = id := by
  have hstep := (g.contribution?_eq_some_iff.1 h).1
  simpa using List.find?_some hstep

/-- The steps of some ids carry those of the ids that contribute one. -/
theorem map_node_contributions (ids : List NodeId) :
    (ids.filterMap g.contribution?).map (·.node) = ids.filter g.contributes := by
  induction ids with
  | nil => rfl
  | cons id ids ih =>
      cases hc : g.contribution? id with
      | none =>
          rw [List.filterMap_cons_none hc, List.filter_cons_of_neg (by simp [contributes, hc]), ih]
      | some s =>
          rw [List.filterMap_cons_some hc, List.filter_cons_of_pos (by simp [contributes, hc]),
            List.map_cons, ih, g.node_of_contribution? hc]

theorem map_node_reachedSteps (trigger : NodeId) :
    (g.reachedSteps trigger).map (·.node) = (g.reached trigger).filter g.contributes :=
  g.map_node_contributions (g.reached trigger)

theorem mem_reachedSteps_iff {trigger : NodeId} {s : Step} :
    s ∈ g.reachedSteps trigger ↔
      s.node ≠ trigger ∧ Relation.TransGen g.Leads trigger s.node ∧
        g.program.stepOf? s.node = some s ∧ s.type.isTrigger = false := by
  rw [reachedSteps, List.mem_filterMap]
  constructor
  · rintro ⟨id, hid, hs⟩
    have hnode := g.node_of_contribution? hs
    subst hnode
    have hmet := g.mem_reached_iff.1 hid
    exact ⟨hmet.1, hmet.2, g.contribution?_eq_some_iff.1 hs⟩
  · rintro ⟨hne, htrans, hs⟩
    exact ⟨s.node, g.mem_reached_iff.2 ⟨hne, htrans⟩, g.contribution?_eq_some_iff.2 hs⟩

/-- The steps of a triggered run, for every graph and program: the walk ends, it
    meets what the trigger leads to level by level, and each id that was met adds
    its step unless that is the step of a trigger. So the trigger's own step is
    not among them, no node has two, and a step is among them whatever the ids on
    the way to its own contribute. -/
theorem reachedSteps_spec (trigger : NodeId) :
    Walks g.successors (unseen [trigger] (g.successors trigger))
        (unseen [trigger] (g.successors trigger) ++ [trigger]) (g.reached trigger) ∧
      g.Discovered trigger (g.reached trigger) ∧
      g.reachedSteps trigger = ((g.reached trigger).filterMap fun id =>
        (g.program.stepOf? id).filter fun s => !s.type.isTrigger) ∧
      (∀ s ∈ g.reachedSteps trigger, s.node ≠ trigger) ∧
      ((g.reachedSteps trigger).map (·.node)).Nodup ∧
      ∀ s, s ∈ g.reachedSteps trigger ↔
        s.node ≠ trigger ∧ Relation.TransGen g.Leads trigger s.node ∧
          g.program.stepOf? s.node = some s ∧ s.type.isTrigger = false := by
  refine ⟨g.walks_reached trigger, g.discovered_reached trigger, rfl, ?_, ?_,
    fun s => g.mem_reachedSteps_iff⟩
  · intro s hs
    exact (g.mem_reachedSteps_iff.1 hs).1
  · rw [map_node_reachedSteps]
    exact (g.discovered_reached trigger).nodup.filter _

end Graph

end BehaviorGraph
