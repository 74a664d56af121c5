import BehaviorGraph.Proofs.DepthFirst
/-!
# Bake Order

The bake order of every graph, as a recursion over its nodes.

The places of the roots are visited in authoring order, and the places that are
left over follow. Ids need not be distinct: an edge stands between the first nodes
with its two ids, and so does a root stand for the first node with its id, which
several roots can share. What is left over then includes the nodes that are hidden
behind another one with their id.

## Main definitions

* `Graph.childPlaces`: The children of a place.
* `Graph.LiveArc`: A live edge between two places.
* `Graph.Preorder`: The order that the recursion gives.

## Theorems

* `Graph.visits_reachedPlaces`: The recursion, from the roots on.
* `Graph.mem_reachedPlaces_iff`: What comes before the places left over.
* `Graph.compileOrder_perm`: Every place is there once.
* `Graph.preorder_iff_compileOrder`: The bake order is the recursive one.
-/

namespace BehaviorGraph

namespace Graph

/-- The children of a place, in the order of the edges: both ends of an edge stand
    for the first node with that id, and an edge without one of them does not
    count. -/
def childPlaces (g : Graph) (i : Nat) : List Nat :=
  g.edges.filterMap fun e => if g.index? e.source = some i then g.index? e.target else none

/-- A live edge leads from one place to another. -/
def LiveArc (g : Graph) (i j : Nat) : Prop :=
  ∃ e ∈ g.edges, g.isLive e = true ∧ g.index? e.source = some i ∧ g.index? e.target = some j

/-- The order that the recursion gives: the places visited from the roots in
    authoring order, and then the places left over in increasing order. -/
def Preorder (g : Graph) (order : List Nat) : Prop :=
  ∃ front, Visits g.childPlaces (g.roots.filterMap fun n => g.index? n.id) [] front ∧
    order = front ++ (List.range g.nodes.length).filter (· ∉ front)

variable (g : Graph)

/-! ### Places -/

theorem lt_of_index? {id : NodeId} {i : Nat} (h : g.index? id = some i) :
    i < g.nodes.length := by
  rw [index?, List.findIdx?_eq_some_iff_getElem] at h
  exact h.1

/-- The id that a place stands for is the one of the node there. -/
theorem id_of_index? {id : NodeId} {i : Nat} (h : g.index? id = some i) :
    g.nodes[i]?.map (·.id) = some id := by
  rw [index?, List.findIdx?_eq_some_iff_getElem] at h
  rcases h with ⟨hi, hid, -⟩
  rw [List.getElem?_eq_getElem hi, Option.map_some, of_decide_eq_true hid]

/-- An id stands for the first place that carries it. -/
theorem index?_le {id : NodeId} {i j : Nat} (h : g.index? id = some i)
    (hj : g.nodes[j]?.map (·.id) = some id) : i ≤ j := by
  rw [index?, List.findIdx?_eq_some_iff_getElem] at h
  rcases h with ⟨hi, -, hfirst⟩
  rcases Option.map_eq_some_iff.1 hj with ⟨n, hn, hid⟩
  rcases List.getElem?_eq_some_iff.1 hn with ⟨hlt, rfl⟩
  by_contra hbefore
  exact hfirst j (by omega) (decide_eq_true hid)

theorem hasNode_eq_isSome_index? (id : NodeId) : g.hasNode id = (g.index? id).isSome := by
  rw [hasNode, node?, index?, List.isSome_find?, List.findIdx?_isSome]

theorem isLive_iff (e : Edge) :
    g.isLive e = true ↔
      ∃ i j, g.index? e.source = some i ∧ g.index? e.target = some j := by
  rw [isLive, Bool.and_eq_true, hasNode_eq_isSome_index?, hasNode_eq_isSome_index?,
    Option.isSome_iff_exists, Option.isSome_iff_exists]
  constructor
  · rintro ⟨⟨i, hi⟩, j, hj⟩
    exact ⟨i, j, hi, hj⟩
  · rintro ⟨i, j, hi, hj⟩
    exact ⟨⟨i, hi⟩, j, hj⟩

theorem children_arcs (i : Nat) : children g.arcs i = g.childPlaces i := by
  rw [children, arcs, childPlaces, List.filter_filterMap, List.map_filterMap]
  refine List.filterMap_congr (fun e _ => ?_)
  -- An edge that lacks one of its ends is no arc, and gives no child either.
  rcases hs : g.index? e.source with _ | a
  · simp
  · rcases ht : g.index? e.target with _ | b
    · simp
    · by_cases ha : a = i <;> simp [ha, Option.filter]

theorem mem_childPlaces_iff {i j : Nat} : j ∈ g.childPlaces i ↔ g.LiveArc i j := by
  rw [childPlaces, List.mem_filterMap]
  constructor
  · rintro ⟨e, he, hj⟩
    by_cases hi : g.index? e.source = some i
    · rw [if_pos hi] at hj
      exact ⟨e, he, (g.isLive_iff e).2 ⟨i, j, hi, hj⟩, hi, hj⟩
    · rw [if_neg hi] at hj
      exact absurd hj (Option.some_ne_none j).symm
  · rintro ⟨e, he, -, hi, hj⟩
    exact ⟨e, he, by rw [if_pos hi, hj]⟩

/-! ### The walk from the roots -/

/-- Walks from one place after the other make up the walk from all of them. -/
theorem visits_foldl (roots visited : List Nat) :
    Visits (children g.arcs) roots visited
      (roots.foldl (fun visited i => visitAll g.arcs (g.arcs.length + 1) [i] visited) visited) := by
  induction roots generalizing visited with
  | nil => exact Visits.done visited
  | cons i roots ih =>
      -- Whatever was visited before, all arcs and one place are rounds enough.
      have hbound : [i].length + (pendingArcs g.arcs visited).length ≤ g.arcs.length + 1 := by
        have hpending := List.length_filter_le (fun a => decide (a.1 ∉ visited)) g.arcs
        rw [List.length_singleton, pendingArcs]
        omega
      rw [List.foldl_cons, ← List.singleton_append]
      exact visits_append_iff.2 ⟨_, visits_visitAll g.arcs hbound, ih _⟩

theorem visits_reachedPlaces : Visits g.childPlaces g.rootPlaces [] g.reachedPlaces := by
  have hwalk := g.visits_foldl g.rootPlaces []
  rwa [show children g.arcs = g.childPlaces from funext g.children_arcs] at hwalk

theorem nodup_reachedPlaces : g.reachedPlaces.Nodup :=
  g.visits_reachedPlaces.nodup List.nodup_nil

theorem mem_reachedPlaces_iff {i : Nat} :
    i ∈ g.reachedPlaces ↔ ∃ r ∈ g.rootPlaces, Relation.ReflTransGen g.LiveArc r i := by
  have harc : (fun a b => b ∈ g.childPlaces a) = g.LiveArc := by
    funext a b
    exact propext g.mem_childPlaces_iff
  rw [g.visits_reachedPlaces.mem_iff_reachable, harc]

/-- The walk only gets to places that ids stand for. -/
theorem exists_index?_of_mem_reachedPlaces {i : Nat} (h : i ∈ g.reachedPlaces) :
    ∃ id, g.index? id = some i := by
  rcases g.mem_reachedPlaces_iff.1 h with ⟨r, hr, hreach⟩
  cases hreach with
  | refl =>
      rcases List.mem_filterMap.1 hr with ⟨n, -, hi⟩
      exact ⟨n.id, hi⟩
  | tail _ harc =>
      rcases harc with ⟨e, -, -, -, hi⟩
      exact ⟨e.target, hi⟩

theorem lt_of_mem_reachedPlaces {i : Nat} (h : i ∈ g.reachedPlaces) : i < g.nodes.length := by
  rcases g.exists_index?_of_mem_reachedPlaces h with ⟨id, hi⟩
  exact g.lt_of_index? hi

/-! ### The order -/

theorem nodup_compileOrder : g.compileOrder.Nodup := by
  rw [compileOrder, List.nodup_append]
  refine ⟨g.nodup_reachedPlaces, List.nodup_range.filter _, ?_⟩
  intro a ha b hb hab
  rw [List.mem_filter, decide_eq_true_eq] at hb
  exact hb.2 (hab ▸ ha)

theorem mem_compileOrder_iff {i : Nat} : i ∈ g.compileOrder ↔ i < g.nodes.length := by
  rw [compileOrder, List.mem_append, List.mem_filter, List.mem_range, decide_eq_true_eq]
  constructor
  · rintro (hi | ⟨hi, -⟩)
    · exact g.lt_of_mem_reachedPlaces hi
    · exact hi
  · intro hi
    by_cases hr : i ∈ g.reachedPlaces
    · exact Or.inl hr
    · exact Or.inr ⟨hi, hr⟩

theorem compileOrder_perm : g.compileOrder.Perm (List.range g.nodes.length) := by
  rw [List.perm_ext_iff_of_nodup g.nodup_compileOrder List.nodup_range]
  intro i
  rw [mem_compileOrder_iff, List.mem_range]

/-- The bake order is the order that the recursion gives, and the recursion gives no
    other. It holds every place once, and the places before those left over are
    the ones that live edges reach from the place of a root. -/
theorem preorder_iff_compileOrder :
    (∀ order, g.Preorder order ↔ order = g.compileOrder) ∧
      g.compileOrder.Perm (List.range g.nodes.length) ∧
      ∃ front, Visits g.childPlaces (g.roots.filterMap fun n => g.index? n.id) [] front ∧
        g.compileOrder = front ++ (List.range g.nodes.length).filter (· ∉ front) ∧
        ∀ i, i ∈ front ↔ ∃ n ∈ g.roots, ∃ r, g.index? n.id = some r ∧
          Relation.ReflTransGen g.LiveArc r i := by
  refine ⟨fun order => ⟨?_, ?_⟩, g.compileOrder_perm, g.reachedPlaces,
    g.visits_reachedPlaces, rfl, fun i => ?_⟩
  · -- The recursion has one outcome, so any order it gives is this one.
    rintro ⟨front, hfront, rfl⟩
    rw [hfront.unique g.visits_reachedPlaces]
    rfl
  · rintro rfl
    exact ⟨g.reachedPlaces, g.visits_reachedPlaces, rfl⟩
  · rw [mem_reachedPlaces_iff]
    constructor
    · rintro ⟨r, hr, hreach⟩
      rcases List.mem_filterMap.1 hr with ⟨n, hn, hplace⟩
      exact ⟨n, hn, r, hplace, hreach⟩
    · rintro ⟨n, hn, r, hplace, hreach⟩
      exact ⟨r, List.mem_filterMap.2 ⟨n, hn, hplace⟩, hreach⟩

end Graph

end BehaviorGraph
