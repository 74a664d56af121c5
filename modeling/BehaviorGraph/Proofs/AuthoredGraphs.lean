import BehaviorGraph.Proofs.EditHistory
import Mathlib.Data.List.Nodup
/-!
# Authored Graphs

What holds of every graph that was put together by edits from nothing.

A graph that comes from a file may have edges from a node to itself, edges
that stand twice, and edges that name no node. Edits make none of these. The checks
of `Graph.connect` see to that when an edge is drawn, and afterwards an edge can only
go: every other edit leaves the edges as they are or drops some of them. So the
ends of edges stay different, within an edge and between edges, whatever is done to the
nodes.

That edges stay live is a matter of the nodes, and here an edit can break what another
one made. Removing a node takes away the first node with its id, and every edge of
the id, though a second node may carry it still; the edges that are left are those
of other ids, and these all keep a node. An author may also change the id of a node,
and no edge follows it. So edges stay live along a history in which no edit does this,
which is what `Graph.keepsIds` says.

## Main definitions

* `Graph.IsSimple`: No edge leads from a node to itself or stands twice.
* `Graph.AllLive`: Every edge is live.
* `Graph.keepsIds`: No edit of a history changes the id of a node.

## Theorems

* `Graph.disconnect_connect`: Disconnecting what was just connected undoes it.
* `GraphEdit.edges_apply`: An edit draws one edge or drops some.
* `GraphEdit.isLive_apply`: An edge that an edit leaves stays live.
* `Graph.isSimple_edited`, `Graph.allLive_edited`: The two properties along a history.
* `Graph.edges_of_authored`: The edges of a graph built by edits.
-/

namespace BehaviorGraph

namespace Graph

/-! ### Taking a connection back -/

/-- Disconnecting what was just connected undoes it, the program aside, which the first
    of the two edits dropped already. -/
theorem disconnect_connect {g : Graph} {source target : NodeId}
    (h : (g.connect source target).1 = .ok ()) :
    (g.connect source target).2.disconnect source target = (true, g.dropProgram) := by
  rcases g.connect_cases source target with ⟨err, herr⟩ | ⟨hcan, hok⟩
  · rw [herr] at h
    exact absurd h (by simp)
  · -- The new edge is the only one that joins the two, so it is all that is dropped.
    have hkept : g.edges.filter (fun e => !e.joins source target) = g.edges := by
      refine List.filter_eq_self.2 fun e he => ?_
      rw [Bool.not_eq_true', ← Bool.not_eq_true, Edge.joins_iff]
      exact hcan.fresh e he
    have hnew : Edge.joins { source, target } source target = true := Edge.joins_iff.2 rfl
    rw [hok]
    simp [disconnect, dropProgram, List.filter_append, hkept, hnew]

/-! ### The two properties -/

/-- No edge leads from a node to itself, and no two edges have the same ends. -/
structure IsSimple (g : Graph) : Prop where
  /-- The ends of an edge differ. -/
  ne : ∀ e ∈ g.edges, e.source ≠ e.target
  /-- The ends of the edges differ from each other. -/
  nodup : (g.edges.map Edge.ends).Nodup

/-- Every edge is live. -/
def AllLive (g : Graph) : Prop :=
  ∀ e ∈ g.edges, g.isLive e = true

theorem IsSimple.of_sublist {g g' : Graph} (h : g.IsSimple) (hsub : g'.edges.Sublist g.edges) :
    g'.IsSimple where
  ne e he := h.ne e (hsub.subset he)
  nodup := h.nodup.sublist (hsub.map Edge.ends)

theorem IsSimple.of_connect {g g' : Graph} (h : g.IsSimple) {source target : NodeId}
    (hcan : g.CanConnect source target)
    (hedges : g'.edges = g.edges ++ [({ source, target } : Edge)]) :
    g'.IsSimple where
  ne e he := by
    rw [hedges] at he
    rcases List.mem_append.1 he with hold | hnew
    · exact h.ne e hold
    · rw [List.mem_singleton.1 hnew]
      exact hcan.ne
  nodup := by
    rw [hedges, List.map_append, List.map_singleton]
    refine h.nodup.append (List.nodup_singleton _) ?_
    refine List.disjoint_singleton.2 fun hin => ?_
    rcases List.mem_map.1 hin with ⟨e, he, hends⟩
    exact hcan.fresh e he hends

/-! ### Ids -/

/-- Changing the first element that passes a test keeps what the change keeps of
    it, in all places. -/
theorem map_modifyFirst {α β : Type} {test : α → Bool} {f : α → α} {key : α → β} {xs : List α}
    (h : ∀ x, xs.find? test = some x → key (f x) = key x) :
    (modifyFirst test f xs).map key = xs.map key := by
  induction xs with
  | nil => rfl
  | cons x xs ih =>
      rw [modifyFirst]
      split
      case isTrue hx =>
        rw [List.map_cons, List.map_cons, h x (by rw [List.find?_cons_of_pos hx])]
      case isFalse hx =>
        rw [List.map_cons, List.map_cons, ih fun y hy => h y (by rwa [List.find?_cons_of_neg hx])]

end Graph

namespace GraphEdit

/-- The edit does not change the id of a node when it is made to this graph. -/
def keepsIds : GraphEdit → Graph → Bool
  | editNode id f, g => (g.node? id).all fun n => (f n).id = n.id
  | _, _ => true

/-- An edit draws one edge, after the checks for it, or leaves of the edges some or all. -/
theorem edges_apply (e : GraphEdit) (g : Graph) :
    (e.apply g).edges.Sublist g.edges ∨
      ∃ source target, g.CanConnect source target ∧
        (e.apply g).edges = g.edges ++ [({ source, target } : Edge)] := by
  cases e with
  | addNode n => exact Or.inl (List.Sublist.refl _)
  | removeNode id =>
      simp only [apply, Graph.removeNode]
      cases g.node? id with
      | none => exact Or.inl (List.Sublist.refl _)
      | some n => exact Or.inl List.filter_sublist
  | editNode id f =>
      simp only [apply, Graph.editNode]
      split
      · exact Or.inl (List.Sublist.refl _)
      · exact Or.inl (List.Sublist.refl _)
  | connect source target =>
      rcases g.connect_cases source target with ⟨err, herr⟩ | ⟨hcan, hok⟩
      · simp only [apply, herr]
        exact Or.inl (List.Sublist.refl _)
      · exact Or.inr ⟨source, target, hcan, by simp only [apply, hok]⟩
  | disconnect source target =>
      simp only [apply, Graph.disconnect]
      split
      · exact Or.inl List.filter_sublist
      · exact Or.inl (List.Sublist.refl _)
  | dropProgram => exact Or.inl (List.Sublist.refl _)
  | bake context host => exact Or.inl (List.Sublist.refl _)

/-- An id that stands for a node does so after an edit that keeps ids, unless the edit
    removes a node of this id. -/
theorem hasNode_apply {e : GraphEdit} {g : Graph} (hkeeps : e.keepsIds g = true) {id : NodeId}
    (hnode : g.hasNode id = true) (hremoved : ∀ gone, e = removeNode gone → gone ≠ id) :
    (e.apply g).hasNode id = true := by
  cases e with
  | addNode n =>
      rw [Graph.hasNode_iff] at hnode ⊢
      rcases hnode with ⟨m, hm, hid⟩
      exact ⟨m, List.mem_append_left _ hm, hid⟩
  | removeNode gone =>
      simp only [apply, Graph.removeNode]
      cases g.node? gone with
      | none => exact hnode
      | some n =>
          rw [Graph.hasNode_iff] at hnode ⊢
          rcases hnode with ⟨m, hm, hid⟩
          -- Only a node with the id that is removed can go.
          have hother : m.id ≠ gone := by
            rw [hid]
            exact (hremoved gone rfl).symm
          have hkept : m ∈ g.nodes.eraseP fun n => n.id = gone :=
            (List.mem_eraseP_of_neg (by simpa using hother)).2 hm
          exact ⟨m, hkept, hid⟩
  | editNode changed f =>
      simp only [apply, Graph.editNode]
      split
      · have hids : (Graph.modifyFirst (fun n => n.id = changed) f g.nodes).map (·.id) =
            g.nodes.map (·.id) := by
          refine Graph.map_modifyFirst fun n hn => ?_
          rw [← Graph.node?] at hn
          simpa [keepsIds, hn] using hkeeps
        rw [Graph.hasNode_iff, ← List.mem_map] at hnode ⊢
        rwa [hids]
      · exact hnode
  | connect source target =>
      rcases g.connect_cases source target with ⟨err, herr⟩ | ⟨-, hok⟩
      · simp only [apply, herr]
        exact hnode
      · simp only [apply, hok]
        exact hnode
  | disconnect source target =>
      simp only [apply, Graph.disconnect]
      split
      · exact hnode
      · exact hnode
  | dropProgram => exact hnode
  | bake context host => exact hnode

/-- An edge that is still there after a node was removed does not involve its id. -/
theorem not_involves_of_removeNode {g : Graph} {gone : NodeId} {edge : Edge}
    (hgone : g.hasNode gone = true) (hin : edge ∈ ((removeNode gone).apply g).edges) :
    edge.involves gone = false := by
  rcases Option.isSome_iff_exists.1 hgone with ⟨n, hn⟩
  simp only [apply, Graph.removeNode, hn, List.mem_filter] at hin
  simpa using hin.2

/-- A live edge that is still there after an edit that keeps ids is still live. -/
theorem isLive_apply {e : GraphEdit} {g : Graph} (hkeeps : e.keepsIds g = true) {edge : Edge}
    (hin : edge ∈ (e.apply g).edges) (hlive : g.isLive edge = true) :
    (e.apply g).isLive edge = true := by
  simp only [Graph.isLive, Bool.and_eq_true] at hlive ⊢
  have hnot : ∀ gone, e = removeNode gone → gone ≠ edge.source ∧ gone ≠ edge.target := by
    rintro gone rfl
    constructor
    · rintro rfl
      exact absurd (not_involves_of_removeNode hlive.1 hin) (by simp [Edge.involves])
    · rintro rfl
      exact absurd (not_involves_of_removeNode hlive.2 hin) (by simp [Edge.involves])
  exact ⟨hasNode_apply hkeeps hlive.1 fun gone he => (hnot gone he).1,
    hasNode_apply hkeeps hlive.2 fun gone he => (hnot gone he).2⟩

/-- An edit keeps a graph simple, whatever it does to the nodes. -/
theorem isSimple_apply (e : GraphEdit) {g : Graph} (h : g.IsSimple) : (e.apply g).IsSimple := by
  rcases e.edges_apply g with hsub | ⟨source, target, hcan, hedges⟩
  · exact h.of_sublist hsub
  · exact h.of_connect hcan hedges

/-- An edit that keeps ids keeps every edge live. -/
theorem allLive_apply {e : GraphEdit} {g : Graph} (hkeeps : e.keepsIds g = true)
    (h : g.AllLive) : (e.apply g).AllLive := by
  intro edge hin
  refine isLive_apply hkeeps hin ?_
  rcases e.edges_apply g with hsub | ⟨source, target, hcan, hedges⟩
  · exact h edge (hsub.subset hin)
  · rw [hedges] at hin
    rcases List.mem_append.1 hin with hold | hnew
    · exact h edge hold
    · rw [List.mem_singleton.1 hnew, Graph.isLive, hcan.hasSource, hcan.hasTarget]
      rfl

end GraphEdit

namespace Graph

/-! ### Histories -/

/-- No edit of the history changes the id of a node, each looked at where it is made. -/
def keepsIds : Graph → List GraphEdit → Bool
  | _, [] => true
  | g, e :: later => e.keepsIds g && (e.apply g).keepsIds later

theorem isSimple_edited {start : Graph} (h : start.IsSimple) (history : List GraphEdit) :
    (start.edited history).IsSimple := by
  induction history generalizing start with
  | nil => exact h
  | cons e later ih => exact ih (e.isSimple_apply h)

theorem allLive_edited {start : Graph} (h : start.AllLive) {history : List GraphEdit}
    (hkeeps : start.keepsIds history = true) : (start.edited history).AllLive := by
  induction history generalizing start with
  | nil => exact h
  | cons e later ih =>
      rw [keepsIds, Bool.and_eq_true] at hkeeps
      exact ih (GraphEdit.allLive_apply hkeeps.1 h) hkeeps.2

/-- The edges of a graph built by edits. As long as no edit changed the id of a node, every
    edge is live. In any case each edge joins two different ids, no two edges have
    the same ends, and a connection that succeeds can be taken back: disconnecting
    the two finds it and leaves exactly the edges from before. -/
theorem edges_of_authored (name : String) (history : List GraphEdit) :
    let g := edited { name } history
    (keepsIds { name } history = true → ∀ e ∈ g.edges, g.isLive e = true) ∧
      (∀ e ∈ g.edges, e.source ≠ e.target) ∧
      (g.edges.map fun e => (e.source, e.target)).Nodup ∧
      ∀ source target, (g.connect source target).1 = .ok () →
        let joined := (g.connect source target).2
        (joined.disconnect source target).1 = true ∧
          (joined.disconnect source target).2.edges = g.edges := by
  intro g
  have hnone : ∀ e ∈ ({ name } : Graph).edges, False := fun e he => List.not_mem_nil he
  have hsimple : g.IsSimple :=
    isSimple_edited ⟨fun e he => (hnone e he).elim, List.nodup_nil⟩ history
  refine ⟨fun hkeeps => ?_, hsimple.ne, hsimple.nodup, fun source target hok => ?_⟩
  · exact allLive_edited (fun e he => (hnone e he).elim) hkeeps
  · intro joined
    have hundone : joined.disconnect source target = (true, g.dropProgram) :=
      disconnect_connect hok
    rw [hundone]
    exact ⟨rfl, rfl⟩

/-- Edits around an id that two nodes carry. Two connections fail, since the edge is there
    or would lead from a node to itself. Removing the first of the two nodes takes the
    edges along, and the second is connected anew. The last edit would change
    an id, but finds no node. -/
def sketches : List GraphEdit :=
  [.addNode (.ofKind ⟨"start"⟩ (.click none)),
   .addNode (.ofKind ⟨"wait"⟩ (.delay (Single.zero false))),
   .addNode (.ofKind ⟨"wait"⟩ (.layers .off ["Menu"])),
   .connect ⟨"start"⟩ ⟨"wait"⟩, .connect ⟨"wait"⟩ ⟨"start"⟩,
   .connect ⟨"start"⟩ ⟨"wait"⟩, .connect ⟨"wait"⟩ ⟨"wait"⟩, .bake Draft.context {},
   .removeNode ⟨"wait"⟩, .connect ⟨"start"⟩ ⟨"wait"⟩,
   .editNode ⟨"wait"⟩ (fun n => { n with name := "Hide" }),
   .editNode ⟨"hide"⟩ (fun n => { n with id := ⟨"show"⟩ })]

theorem edges_of_sketches :
    let g := edited { name := "menu" } sketches
    let joined := (g.connect ⟨"wait"⟩ ⟨"start"⟩).2
    keepsIds { name := "menu" } sketches = true ∧
      (g.connect ⟨"wait"⟩ ⟨"start"⟩).1 = .ok () ∧
      g.edges.map Edge.ends = [(⟨"start"⟩, ⟨"wait"⟩)] ∧
      (∀ e ∈ g.edges, g.isLive e = true) ∧ (∀ e ∈ g.edges, e.source ≠ e.target) ∧
      (g.edges.map fun e => (e.source, e.target)).Nodup ∧
      (joined.disconnect ⟨"wait"⟩ ⟨"start"⟩).1 = true ∧
      (joined.disconnect ⟨"wait"⟩ ⟨"start"⟩).2.edges = g.edges := by
  intro g joined
  have hkeeps : keepsIds { name := "menu" } sketches = true := by decide +kernel
  have hok : (g.connect ⟨"wait"⟩ ⟨"start"⟩).1 = .ok () := by decide +kernel
  rcases edges_of_authored "menu" sketches with ⟨hlive, hne, hnodup, hundone⟩
  exact ⟨hkeeps, hok, by decide +kernel, hlive hkeeps, hne, hnodup, hundone _ _ hok⟩

/-- Once the id of a node was changed, an edge may be left that leads nowhere. -/
example :
    let g := edited { name := "menu" }
      (sketches ++ [.editNode ⟨"wait"⟩ fun n => { n with id := ⟨"hide"⟩ }])
    keepsIds { name := "menu" }
      (sketches ++ [.editNode ⟨"wait"⟩ fun n => { n with id := ⟨"hide"⟩ }]) = false ∧
      g.edges.map g.isLive = [false] := by
  decide +kernel

end Graph

end BehaviorGraph
