import BehaviorGraph.Proofs.EditHistory
/-!
# Failed Edits

What an edit that fails leaves behind.

An edit that asks for nodes or edges may find that they are not there, or for a new edge that
it must not be. It says so and gives the graph back, and the program with it: an author
who tries to draw an edge twice, or to remove a node that is gone, does not have to bake
again. So each edit has to look before it touches anything, in graphs from a file as well,
whose ids may repeat and whose edges may lead nowhere, lead back, or stand twice.

Connecting looks for four things in a row and tells the first that is wrong. A missing source
is reported even if the target is missing too, a missing node even if the edge would
be a loop, and a loop even if it is already drawn.

## Main definitions

* `Graph.RefusesEdge`: Why two nodes cannot be connected.
* `Graph.Respects`: What an edit may make of a graph.

## Theorems

* `Graph.connect_error_iff`: Which error connecting reports.
* `Graph.connect_ok_iff`: When connecting succeeds.
* `Graph.failed_edit_changes_nothing`: Edits that fail change nothing, and edits that
  succeed drop the program.
-/

namespace BehaviorGraph

namespace Graph

variable {g : Graph}

/-! ### Connecting -/

/-- Why two nodes cannot be connected: the first of the four checks that fails, those before it
    having passed. -/
inductive RefusesEdge (g : Graph) (source target : NodeId) : ConnectError → Prop where
  /-- There is no node to start at. -/
  | noSource (hsource : g.hasNode source = false) :
      RefusesEdge g source target (.nodeNotFound source)
  /-- There is no node to end at. -/
  | noTarget (hsource : g.hasNode source = true) (htarget : g.hasNode target = false) :
      RefusesEdge g source target (.nodeNotFound target)
  /-- The edge would end where it starts. -/
  | loop (hsource : g.hasNode source = true) (hsame : source = target) :
      RefusesEdge g source target (.selfLoop source)
  /-- There is such an edge. -/
  | again (hsource : g.hasNode source = true) (htarget : g.hasNode target = true)
      (hne : source ≠ target) (hedge : ∃ e ∈ g.edges, e.ends = (source, target)) :
      RefusesEdge g source target (.alreadyConnected source target)

theorem any_joins_eq_true {source target : NodeId} :
    (g.edges.any (·.joins source target)) = true ↔ ∃ e ∈ g.edges, e.ends = (source, target) := by
  simp only [List.any_eq_true, Edge.joins_iff]

theorem connect_error_iff {source target : NodeId} {err : ConnectError} :
    (g.connect source target).1 = .error err ↔ g.RefusesEdge source target err := by
  constructor
  · -- The checks one by one: behind each of them it is known to have passed.
    intro h
    simp only [connect] at h
    split at h
    case isTrue hsource =>
      cases h
      exact .noSource (by simpa using hsource)
    case isFalse hsource =>
      have hsource : g.hasNode source = true := by simpa using hsource
      split at h
      case isTrue htarget =>
        cases h
        exact .noTarget hsource (by simpa using htarget)
      case isFalse htarget =>
        have htarget : g.hasNode target = true := by simpa using htarget
        split at h
        case isTrue hsame =>
          cases h
          exact .loop hsource hsame
        case isFalse hne =>
          split at h
          case isTrue hedge =>
            cases h
            exact .again hsource htarget hne (any_joins_eq_true.1 hedge)
          case isFalse => cases h
  · intro h
    cases h with
    | noSource hsource => simp [connect, hsource]
    | noTarget hsource htarget => simp [connect, hsource, htarget]
    | loop hsource hsame =>
        -- The target passes as the source did, being the same.
        subst hsame
        simp [connect, hsource]
    | again hsource htarget hne hedge =>
        simp only [connect, hsource, htarget, hne, any_joins_eq_true.2 hedge]
        rfl

theorem connect_ok_iff {source target : NodeId} :
    (g.connect source target).1 = .ok () ↔ g.CanConnect source target := by
  rcases g.connect_cases source target with ⟨err, herr⟩ | ⟨hcan, hok⟩
  · -- Whatever was wrong, one of the checks does not pass.
    have hrefuses : g.RefusesEdge source target err := connect_error_iff.1 (by rw [herr])
    rw [herr]
    refine iff_of_false (by simp) fun hcan => ?_
    cases hrefuses with
    | noSource hsource => exact absurd hcan.hasSource (by simp [hsource])
    | noTarget _ htarget => exact absurd hcan.hasTarget (by simp [htarget])
    | loop _ hsame => exact hcan.ne hsame
    | again _ _ _ hedge =>
        rcases hedge with ⟨e, he, hends⟩
        exact hcan.fresh e he hends
  · rw [hok]
    exact iff_of_true rfl hcan

/-! ### What edits leave -/

/-- What an edit may make of a graph: it drops the program if it succeeds, and changes nothing
    if it fails. -/
structure Respects (g g' : Graph) (success : Prop) : Prop where
  /-- No program outlives an edit that succeeds. -/
  unbaked : success → g'.program = []
  /-- An edit that fails leaves the whole graph as it is. -/
  unchanged : ¬ success → g' = g

theorem respects_connect (g : Graph) (source target : NodeId) :
    g.Respects (g.connect source target).2 ((g.connect source target).1 = .ok ()) := by
  rcases g.connect_cases source target with ⟨err, herr⟩ | ⟨-, hok⟩
  · rw [herr]
    exact ⟨fun h => absurd h (by simp), fun _ => rfl⟩
  · rw [hok]
    exact ⟨fun _ => rfl, fun h => absurd rfl h⟩

theorem respects_removeNode (g : Graph) (id : NodeId) :
    g.Respects (g.removeNode id).2 ((g.removeNode id).1.isSome = true) := by
  unfold removeNode
  split
  · exact ⟨fun h => absurd h (by simp), fun _ => rfl⟩
  · exact ⟨fun _ => rfl, fun h => absurd rfl h⟩

theorem respects_editNode (g : Graph) (id : NodeId) (f : Node → Node) :
    g.Respects (g.editNode id f).2 ((g.editNode id f).1 = true) := by
  unfold editNode
  split
  · exact ⟨fun _ => rfl, fun h => absurd rfl h⟩
  · exact ⟨fun h => absurd h (by simp), fun _ => rfl⟩

theorem respects_disconnect (g : Graph) (source target : NodeId) :
    g.Respects (g.disconnect source target).2 ((g.disconnect source target).1 = true) := by
  unfold disconnect
  split
  · exact ⟨fun _ => rfl, fun h => absurd rfl h⟩
  · exact ⟨fun h => absurd h (by simp), fun _ => rfl⟩

/-- Removing a node finds the one that the id stands for. -/
theorem fst_removeNode (g : Graph) (id : NodeId) : (g.removeNode id).1 = g.node? id := by
  unfold removeNode
  split
  · next h => exact h.symm
  · next h => exact h.symm

theorem fst_editNode (g : Graph) (id : NodeId) (f : Node → Node) :
    (g.editNode id f).1 = g.hasNode id := by
  unfold editNode
  split
  · next h => exact h.symm
  · next h =>
      have hnone : g.hasNode id = false := by simpa using h
      exact hnone.symm

theorem fst_disconnect_iff {source target : NodeId} :
    (g.disconnect source target).1 = true ↔ ∃ e ∈ g.edges, e.ends = (source, target) := by
  rw [← any_joins_eq_true, disconnect]
  split
  · next h => exact iff_of_true rfl h
  · next h => exact iff_of_false (by simp) h

/-- After disconnecting no edge joins the two, whether or not one did before. -/
theorem ends_ne_of_mem_disconnect {source target : NodeId} {e : Edge}
    (he : e ∈ (g.disconnect source target).2.edges) : e.ends ≠ (source, target) := by
  unfold disconnect at he
  split at he
  · rw [List.mem_filter, Bool.not_eq_true', ← Bool.not_eq_true, Edge.joins_iff] at he
    exact he.2
  · next h =>
      have hnone : (g.edges.any (·.joins source target)) = false := by simpa using h
      exact any_joins_eq_false.1 hnone e he

/-- Whatever graph it is, an edit that fails leaves it as it was, program and all, and an edit that
    succeeds leaves no program. Connecting succeeds exactly if both ids stand for nodes, the
    two differ and no edge joins them in that direction, and otherwise reports the
    first of the four that is wrong. Removing and changing a node fail exactly if there is
    none with the id. Disconnecting fails exactly if there is no such edge, and if it succeeds
    there is none afterwards. -/
theorem failed_edit_changes_nothing (g : Graph) :
    (∀ source target,
      ((g.connect source target).1 = .ok () ↔ g.CanConnect source target) ∧
        (∀ err, (g.connect source target).1 = .error err ↔ g.RefusesEdge source target err) ∧
        g.Respects (g.connect source target).2 ((g.connect source target).1 = .ok ())) ∧
      (∀ id,
        ((g.removeNode id).1.isSome = true ↔ ∃ n ∈ g.nodes, n.id = id) ∧
          g.Respects (g.removeNode id).2 ((g.removeNode id).1.isSome = true)) ∧
      (∀ id f,
        ((g.editNode id f).1 = true ↔ ∃ n ∈ g.nodes, n.id = id) ∧
          g.Respects (g.editNode id f).2 ((g.editNode id f).1 = true)) ∧
      ∀ source target,
        ((g.disconnect source target).1 = true ↔ ∃ e ∈ g.edges, e.ends = (source, target)) ∧
          g.Respects (g.disconnect source target).2 ((g.disconnect source target).1 = true) ∧
          ∀ e ∈ (g.disconnect source target).2.edges, e.ends ≠ (source, target) := by
  refine ⟨fun source target => ⟨connect_ok_iff, fun err => connect_error_iff, ?_⟩,
    fun id => ⟨?_, g.respects_removeNode id⟩, fun id f => ⟨?_, g.respects_editNode id f⟩,
    fun source target => ⟨fst_disconnect_iff, ?_, fun e => ends_ne_of_mem_disconnect⟩⟩
  · exact g.respects_connect source target
  · rw [fst_removeNode]
    exact hasNode_iff
  · rw [fst_editNode]
    exact hasNode_iff
  · exact g.respects_disconnect source target

/-- Several things are wrong at once in a graph from a file: the first check decides. -/
example :
    let g : Graph :=
      { name := "loaded", nodes := [.ofKind ⟨"a"⟩ (.click none)]
        edges := [{ source := ⟨"a"⟩, target := ⟨"a"⟩ }, { source := ⟨"b"⟩, target := ⟨"b"⟩ }] }
    (g.connect ⟨"b"⟩ ⟨"b"⟩).1 = .error (.nodeNotFound ⟨"b"⟩) ∧
      (g.connect ⟨"a"⟩ ⟨"c"⟩).1 = .error (.nodeNotFound ⟨"c"⟩) ∧
      (g.connect ⟨"a"⟩ ⟨"a"⟩).1 = .error (.selfLoop ⟨"a"⟩) :=
  ⟨rfl, rfl, rfl⟩

end Graph

end BehaviorGraph
