import BehaviorGraph.Bake.Draft
import BehaviorGraph.Graph.Edit
import BehaviorGraph.Proofs.Rendering
import Mathlib.Data.List.Induction
/-!
# Edits and Programs

A graph that has a program is the graph that was baked.

Nothing marks a program as out of date. Runs trust that whoever changes a graph
drops its program, so each edit has to be looked at on every one of its paths. Two
things can come of an edit that is no bake. Either it found something to change, and
then there is no program; or it failed, and then the graph is the one it was,
program and all. A run of edits is put together from these: going back from a graph
that has a program, all edits failed until the one that baked it.

The host that a graph is baked against does not matter. It decides which target ids
stand in the steps, and neither their nodes nor their types.

## Main definitions

* `Graph.CanConnect`: The checks before an edge is drawn all pass.
* `GraphEdit`: An edit of a graph, baking included.
* `GraphEdit.apply`: The graph after an edit.
* `Graph.edited`: The graph after some edits.

## Theorems

* `Graph.connect_cases`: Connecting adds one edge or does nothing.
* `GraphEdit.apply_cases`: An edit that is no bake drops the program or does nothing.
* `Graph.mem_program_bake`: The steps of a bake belong to nodes of the graph.
* `Graph.edited_cases`: Where the program of an edited graph comes from.
* `Graph.program_of_last_bake`: A program is never stale.
-/

namespace BehaviorGraph

/-! ### Connecting -/

/-- Where an edge leads from and to, its pins aside. -/
def Edge.ends (e : Edge) : NodeId × NodeId :=
  (e.source, e.target)

theorem Edge.joins_iff {e : Edge} {source target : NodeId} :
    e.joins source target = true ↔ e.ends = (source, target) := by
  simp [joins, ends]

namespace Graph

/-- The checks before an edge is drawn all pass. -/
structure CanConnect (g : Graph) (source target : NodeId) : Prop where
  /-- There is a node to start at. -/
  hasSource : g.hasNode source = true
  /-- There is a node to end at. -/
  hasTarget : g.hasNode target = true
  /-- The two differ. -/
  ne : source ≠ target
  /-- No edge joins them yet. -/
  fresh : ∀ e ∈ g.edges, e.ends ≠ (source, target)

theorem any_joins_eq_false {g : Graph} {source target : NodeId} :
    (g.edges.any (·.joins source target)) = false ↔
      ∀ e ∈ g.edges, e.ends ≠ (source, target) := by
  simp only [List.any_eq_false, Edge.joins_iff, ne_eq]

/-- Connecting either fails and leaves the graph alone, or adds one edge between two
    nodes that were not joined. -/
theorem connect_cases (g : Graph) (source target : NodeId) :
    (∃ err, g.connect source target = (.error err, g)) ∨
      g.CanConnect source target ∧
        g.connect source target =
          (.ok (), { g with edges := g.edges ++ [{ source, target }], program := [] }) := by
  simp only [connect]
  split
  case isTrue => exact Or.inl ⟨_, rfl⟩
  case isFalse hsource =>
    split
    case isTrue => exact Or.inl ⟨_, rfl⟩
    case isFalse htarget =>
      split
      case isTrue => exact Or.inl ⟨_, rfl⟩
      case isFalse hne =>
        split
        case isTrue => exact Or.inl ⟨_, rfl⟩
        case isFalse hfresh =>
          refine Or.inr ⟨⟨?_, ?_, hne, ?_⟩, rfl⟩
          · simpa using hsource
          · simpa using htarget
          · exact any_joins_eq_false.1 (by simpa using hfresh)

end Graph

/-! ### Edits -/

/-- An edit of a graph. Baking is one; its context is that of any host. -/
inductive GraphEdit : Type 1 where
  /-- Add a node. -/
  | addNode (n : Node)
  /-- Remove a node and its edges. -/
  | removeNode (id : NodeId)
  /-- Change a node, its id and kind included. -/
  | editNode (id : NodeId) (f : Node → Node)
  /-- Connect two nodes. -/
  | connect (source target : NodeId)
  /-- Disconnect two nodes. -/
  | disconnect (source target : NodeId)
  /-- Drop the program. -/
  | dropProgram
  /-- Bake the graph, for a host in some state. -/
  | bake {σ : Type} (context : BakeContext σ) (host : σ)

namespace GraphEdit

/-- The graph after an edit, whether that succeeds or fails. -/
def apply : GraphEdit → Graph → Graph
  | addNode n, g => g.addNode n
  | removeNode id, g => (g.removeNode id).2
  | editNode id f, g => (g.editNode id f).2
  | connect source target, g => (g.connect source target).2
  | disconnect source target, g => (g.disconnect source target).2
  | dropProgram, g => g.dropProgram
  | bake context host, g => (g.bake context host).2.1

/-- The edit bakes the graph. -/
def isBake : GraphEdit → Bool
  | bake _ _ => true
  | _ => false

/-- An edit that is no bake drops the program, or leaves the graph as it is. -/
theorem apply_cases {e : GraphEdit} (h : e.isBake = false) (g : Graph) :
    (e.apply g).program = [] ∨ e.apply g = g := by
  cases e with
  | addNode n => exact Or.inl rfl
  | removeNode id =>
      simp only [apply, Graph.removeNode]
      cases g.node? id with
      | none => exact Or.inr rfl
      | some n => exact Or.inl rfl
  | editNode id f =>
      simp only [apply, Graph.editNode]
      split
      · exact Or.inl rfl
      · exact Or.inr rfl
  | connect source target =>
      rcases g.connect_cases source target with ⟨err, herr⟩ | ⟨-, hok⟩
      · exact Or.inr (by simp only [apply, herr])
      · exact Or.inl (by simp only [apply, hok])
  | disconnect source target =>
      simp only [apply, Graph.disconnect]
      split
      · exact Or.inl rfl
      · exact Or.inr rfl
  | dropProgram => exact Or.inl rfl
  | bake context host => exact absurd h (by simp [isBake])

end GraphEdit

/-! ### The steps of a bake -/

namespace Node

/-- The step that a node is compiled to carries its id and its type. -/
theorem node_and_type_of_compile {σ : Type} {context : BakeContext σ} {n : Node} {host : σ}
    {st : Step} (h : (n.compile context host).1 = some st) :
    st.node = n.id ∧ st.type = n.type := by
  rw [compile_eq] at h
  split at h
  · have hst : n.step (n.ask context host).1 = st := Option.some.inj h
    rw [← hst]
    exact ⟨(n.header_step _).1, (n.header_step _).2.1⟩
  · exact absurd h (by simp)

end Node

/-- Each step of some compiled nodes is the step of one of them. -/
theorem mem_compileAll {σ : Type} {context : BakeContext σ} {ns : List Node} {host : σ}
    {st : Step} (h : st ∈ (compileAll context ns host).1.filterMap Prod.snd) :
    ∃ n ∈ ns, st.node = n.id ∧ st.type = n.type := by
  induction ns generalizing host with
  | nil => exact absurd h List.not_mem_nil
  | cons n ns ih =>
      have hrest : st ∈ (compileAll context ns (n.compile context host).2).1.filterMap Prod.snd →
          ∃ m ∈ n :: ns, st.node = m.id ∧ st.type = m.type := by
        intro hst
        rcases ih hst with ⟨m, hm, hsame⟩
        exact ⟨m, List.mem_cons_of_mem n hm, hsame⟩
      rcases hstep : (n.compile context host).1 with _ | st'
      · simp only [compileAll, hstep, List.filterMap_cons_none] at h
        exact hrest h
      · simp only [compileAll, hstep, List.filterMap_cons] at h
        rcases List.mem_cons.1 h with rfl | htail
        · exact ⟨n, List.mem_cons_self, Node.node_and_type_of_compile hstep⟩
        · exact hrest htail

namespace Graph

theorem mem_program_bake {σ : Type} {context : BakeContext σ} {host : σ} {g : Graph} {st : Step}
    (h : st ∈ (g.bake context host).2.1.program) :
    ∃ n ∈ g.nodes, st.node = n.id ∧ st.type = n.type := by
  rcases mem_compileAll h with ⟨n, hn, hsame⟩
  rw [compileNodes, List.mem_filterMap] at hn
  rcases hn with ⟨i, -, hi⟩
  exact ⟨n, List.mem_of_getElem? hi, hsame⟩

/-! ### Edits one after the other -/

/-- The graph after some edits. -/
def edited (g : Graph) (history : List GraphEdit) : Graph :=
  history.foldl (fun g e => e.apply g) g

/-- The graph has just been baked, failed edits aside: the last bake of the history
    ended with this very graph. -/
def IsLastBake (start : Graph) (history : List GraphEdit) (g : Graph) : Prop :=
  ∃ (past later : List GraphEdit) (σ : Type) (context : BakeContext σ) (host : σ),
    history = past ++ .bake context host :: later ∧
      (∀ e ∈ later, e.isBake = false) ∧
      g = ((start.edited past).bake context host).2.1

/-- A graph that starts without a program has none after some edits, or is the
    graph that the last bake among them ended with. -/
theorem edited_cases {start : Graph} (hstart : start.program = []) (history : List GraphEdit) :
    (start.edited history).program = [] ∨
      start.IsLastBake history (start.edited history) := by
  -- The induction takes the last edit off: what went before it is the history of
  -- the graph that it was made to.
  induction history using List.reverseRecOn with
  | nil => exact Or.inl hstart
  | append_singleton history e ih =>
      have hlast : start.edited (history ++ [e]) = e.apply (start.edited history) := by
        simp [edited]
      rw [hlast]
      rcases hbake : e.isBake with _ | _
      · rcases GraphEdit.apply_cases hbake (start.edited history) with hnone | hsame
        · exact Or.inl hnone
        · rw [hsame]
          rcases ih with hnone | ⟨past, later, σ, context, host, hsplit, hlater, hgraph⟩
          · exact Or.inl hnone
          · refine Or.inr ⟨past, later ++ [e], σ, context, host, ?_, ?_, hgraph⟩
            · rw [hsplit, List.append_assoc, List.cons_append]
            · intro e' he'
              rcases List.mem_append.1 he' with hin | hin
              · exact hlater e' hin
              · rw [List.mem_singleton.1 hin]
                exact hbake
      · cases e with
        | bake context host =>
            refine Or.inr ⟨history, [], _, context, host, rfl, ?_, rfl⟩
            intro e' he'
            exact absurd he' List.not_mem_nil
        | _ => exact absurd hbake (by simp [GraphEdit.isBake])

/-- A program is never stale. However a graph was put together from nodes and edges
    and edited afterwards, if it has a program then it is, nodes, edges and program,
    the graph that the last bake ended with. So each of its steps belongs to a node
    that is in the graph, and has that node's type. -/
theorem program_of_last_bake (name : String) (nodes : List Node) (edges : List Edge)
    (history : List GraphEdit)
    (hbaked : (edited { name, nodes, edges } history).isBaked = true) :
    let g := edited { name, nodes, edges } history
    IsLastBake { name, nodes, edges } history g ∧
      ∀ st ∈ g.program, ∃ n ∈ g.nodes, st.node = n.id ∧ st.type = n.type := by
  intro g
  have hprogram : g.program ≠ [] := by
    simpa [isBaked] using hbaked
  have hstart : ({ name, nodes, edges } : Graph).program = [] := rfl
  rcases edited_cases hstart history with hnone | hlast
  · exact absurd hnone hprogram
  · refine ⟨hlast, ?_⟩
    intro st hst
    rcases hlast with ⟨past, later, σ, context, host, -, -, hgraph⟩
    -- Baking keeps the nodes, so those of the graph are those that were compiled.
    have hnodes : g.nodes = (edited { name, nodes, edges } past).nodes := by
      rw [show g = _ from hgraph]
      rfl
    rw [show g = _ from hgraph] at hst
    rw [hnodes]
    exact mem_program_bake hst

/-- Edits around two bakes: before the first, an edge that cannot be drawn yet; between
    them, an edit that changes an id and drops the program; and after the second,
    edits that all fail. -/
def revisions : List GraphEdit :=
  [.connect ⟨"start"⟩ ⟨"wait"⟩, .addNode (.ofKind ⟨"wait"⟩ (.delay (Single.zero false))),
   .connect ⟨"start"⟩ ⟨"wait"⟩, .bake Draft.context {},
   .editNode ⟨"wait"⟩ (fun n => { n with id := ⟨"hide"⟩, kind := .layers .off ["Menu"] }),
   .bake Draft.context {},
   .removeNode ⟨"wait"⟩, .connect ⟨"start"⟩ ⟨"start"⟩, .disconnect ⟨"hide"⟩ ⟨"start"⟩]

theorem program_of_revisions :
    let g := edited { name := "menu", nodes := [.ofKind ⟨"start"⟩ (.click none)] } revisions
    g.isBaked = true ∧
      IsLastBake { name := "menu", nodes := [.ofKind ⟨"start"⟩ (.click none)] } revisions g ∧
      g.program.map Step.type = [.click, .layers .off] ∧
      ∀ st ∈ g.program, ∃ n ∈ g.nodes, st.node = n.id ∧ st.type = n.type := by
  intro g
  have hbaked : g.isBaked = true := by decide +kernel
  rcases program_of_last_bake "menu" [.ofKind ⟨"start"⟩ (.click none)] [] revisions hbaked with
    ⟨hlast, hsteps⟩
  exact ⟨hbaked, hlast, by decide +kernel, hsteps⟩

end Graph

end BehaviorGraph
