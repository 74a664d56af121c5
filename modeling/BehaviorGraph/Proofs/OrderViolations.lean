import BehaviorGraph.Bake.Draft
import BehaviorGraph.Proofs.BakeRequests
import Mathlib.Data.List.NodupEquivFin
/-!
# Edges Against the Order

Which edges a bake reports as the wrong way round.

A step stands before another at their places in the program, but an edge names ids. The
step of an id is the first one that was compiled from a node with the id: lookups find
it, and so do runs. A bake compares other places. It writes down the place of every step
under its id, so that of several steps with one id the last one stays, and an edge is
reported if the last place of its target is before the last place of its source.

For an id that one node carries the two places are the same. For others they need not be,
and the comparison fails both ways: `Graph.echo` has an edge that is reported although the
step of its target comes second, and one that is not although the step of its target comes
first. Ids of nodes that have no step count neither way, so what matters is which nodes
take part, not which there are.

## Main definitions

* `Program.place?`: The place of the step of an id.
* `Program.misplaces`: The step of the target stands before the step of the source.
* `Graph.misplaced`: The live edges with that property.
* `Graph.Repeats`: Several nodes with the id take part.

## Theorems

* `Program.stepOf?_eq`: The step at the place of an id is the step of the id.
* `Program.lastIndex?_eq_some_iff`: The place that a bake compares.
* `Graph.map_node_bake`: The ids of a program are those of the nodes that take part.
* `Graph.violations_bake`: What is reported, and when it is what should be.
* `Graph.violations_diamond`: A graph for which it is what should be.
* `Graph.violations_echo`: A graph for which it is not.
-/

namespace BehaviorGraph

namespace Program

/-- The place of the step that an id stands for. -/
def place? (p : Program) (id : NodeId) : Option Nat :=
  p.findIdx? fun s => s.node = id

/-- The step of the target stands before the step of the source. -/
def misplaces (p : Program) (e : Edge) : Bool :=
  match p.place? e.source, p.place? e.target with
  | some i, some j => j < i
  | _, _ => false

variable (p : Program) {id : NodeId}

/-- The step of an id is the one at its place. -/
theorem stepOf?_eq (id : NodeId) : p.stepOf? id = (p.place? id).bind fun i => p[i]? :=
  List.find?_eq_bind_findIdx?_getElem?

/-- The place of an id is that of the first step that has it. -/
theorem place?_eq_some_iff {i : Nat} :
    p.place? id = some i ↔
      ∃ h : i < p.length, p[i].node = id ∧ ∀ j (hj : j < i), p[j].node ≠ id := by
  rw [place?, List.findIdx?_eq_some_iff_getElem]
  simp only [decide_eq_true_eq, ne_eq]

/-- The place that a bake compares is that of the last step that has the id. -/
theorem lastIndex?_eq_some_iff {i : Nat} :
    p.lastIndex? id = some i ↔
      ∃ h : i < p.length, p[i].node = id ∧ ∀ j (hj : j < p.length), i < j → p[j].node ≠ id := by
  simp only [lastIndex?, Option.map_eq_some_iff, List.findIdx?_eq_some_iff_getElem,
    List.length_reverse, List.getElem_reverse, decide_eq_true_eq]
  constructor
  · rintro ⟨k, ⟨hk, hnode, hlater⟩, rfl⟩
    refine ⟨by omega, hnode, fun j hj hkj => ?_⟩
    -- A later place is an earlier one from behind.
    have hj' := hlater (p.length - 1 - j) (by omega)
    have hback : p.length - 1 - (p.length - 1 - j) = j := by omega
    simpa only [hback] using hj'
  · rintro ⟨hi, hnode, hlater⟩
    have hback : p.length - 1 - (p.length - 1 - i) = i := by omega
    refine ⟨p.length - 1 - i, ⟨by omega, by simpa only [hback] using hnode, ?_⟩, hback⟩
    intro j hj
    exact hlater _ (by omega) (by omega)

theorem place?_eq_none_iff : p.place? id = none ↔ ∀ s ∈ p, s.node ≠ id := by
  simp [place?]

theorem lastIndex?_eq_none_iff : p.lastIndex? id = none ↔ ∀ s ∈ p, s.node ≠ id := by
  simp [lastIndex?]

/-- An id that stands in the program once has one place. -/
theorem lastIndex?_eq_place? (h : (p.map (·.node)).count id ≤ 1) :
    p.lastIndex? id = p.place? id := by
  rcases hplace : p.place? id with _ | i
  · exact p.lastIndex?_eq_none_iff.2 (p.place?_eq_none_iff.1 hplace)
  · rcases p.place?_eq_some_iff.1 hplace with ⟨hi, hnode, -⟩
    refine p.lastIndex?_eq_some_iff.2 ⟨hi, hnode, fun j hj hij hagain => ?_⟩
    have htwice : (p.map (·.node)).Duplicate id := by
      rw [List.duplicate_iff_exists_distinct_get]
      refine ⟨⟨i, by simpa using hi⟩, ⟨j, by simpa using hj⟩, hij, ?_, ?_⟩
      · simp [hnode]
      · simp [hagain]
    exact absurd (List.duplicate_iff_two_le_count.1 htwice) (by omega)

theorem misplaces_iff {e : Edge} :
    p.misplaces e = true ↔
      ∃ i j, p.place? e.source = some i ∧ p.place? e.target = some j ∧ j < i := by
  unfold misplaces
  rcases p.place? e.source with _ | i <;> rcases p.place? e.target with _ | j <;> simp

theorem violates_iff {e : Edge} :
    p.violates e = true ↔
      ∃ i j, p.lastIndex? e.source = some i ∧ p.lastIndex? e.target = some j ∧ j < i := by
  unfold violates
  rcases p.lastIndex? e.source with _ | i <;> rcases p.lastIndex? e.target with _ | j <;> simp

/-- Both ends of an edge against the order have a step. -/
theorem ends_of_misplaces {e : Edge} (h : p.misplaces e = true) :
    (∃ s ∈ p, s.node = e.source) ∧ ∃ s ∈ p, s.node = e.target := by
  rcases p.misplaces_iff.1 h with ⟨i, j, hi, hj, -⟩
  rcases p.place?_eq_some_iff.1 hi with ⟨hi, hsource, -⟩
  rcases p.place?_eq_some_iff.1 hj with ⟨hj, htarget, -⟩
  exact ⟨⟨_, List.getElem_mem hi, hsource⟩, ⟨_, List.getElem_mem hj, htarget⟩⟩

theorem ends_of_violates {e : Edge} (h : p.violates e = true) :
    (∃ s ∈ p, s.node = e.source) ∧ ∃ s ∈ p, s.node = e.target := by
  rcases p.violates_iff.1 h with ⟨i, j, hi, hj, -⟩
  rcases p.lastIndex?_eq_some_iff.1 hi with ⟨hi, hsource, -⟩
  rcases p.lastIndex?_eq_some_iff.1 hj with ⟨hj, htarget, -⟩
  exact ⟨⟨_, List.getElem_mem hi, hsource⟩, ⟨_, List.getElem_mem hj, htarget⟩⟩

/-- No step stands before itself. -/
theorem misplaces_of_loop {e : Edge} (h : e.source = e.target) : p.misplaces e = false := by
  rw [← Bool.not_eq_true, misplaces_iff]
  rintro ⟨i, j, hi, hj, hlt⟩
  rw [h, hj] at hi
  exact absurd (Option.some.inj hi) (by omega)

theorem violates_of_loop {e : Edge} (h : e.source = e.target) : p.violates e = false := by
  rw [← Bool.not_eq_true, violates_iff]
  rintro ⟨i, j, hi, hj, hlt⟩
  rw [h, hj] at hi
  exact absurd (Option.some.inj hi) (by omega)

end Program

/-! ### Programs of graphs -/

/-- The steps of a bake carry the ids of the nodes that take part, in bake order. -/
theorem map_node_compileAll {σ : Type} (context : BakeContext σ) (ns : List Node) (s : σ) :
    ((compileAll context ns s).1.filterMap Prod.snd).map (·.node) =
      (ns.filter Node.takesPart).map (·.id) := by
  induction ns generalizing s with
  | nil => rfl
  | cons n ns ih =>
      have hrest := ih (n.compile context s).2
      rcases hn : n.takesPart with _ | _
      · have hnone : (n.compile context s).1 = none := by
          rw [n.compile_eq, hn]
          rfl
        rw [List.filter_cons_of_neg (by simp [hn])]
        simp only [compileAll, hnone, List.filterMap_cons_none]
        exact hrest
      · have hstep : (n.compile context s).1 = some (n.step (n.ask context s).1) := by
          rw [n.compile_eq, hn]
          rfl
        rw [List.filter_cons_of_pos hn]
        simp only [compileAll, hstep]
        exact congrArg₂ List.cons (n.header_step _).1 hrest

theorem filterMap_getElem?_range {α : Type} (l : List α) :
    (List.range l.length).filterMap (fun i => l[i]?) = l := by
  induction l with
  | nil => rfl
  | cons a l ih =>
      rw [List.length_cons, List.range_succ_eq_map, List.filterMap_cons, List.filterMap_map]
      exact congrArg (a :: ·) ih

namespace Graph

/-- Several nodes with the id take part. -/
def Repeats (g : Graph) (id : NodeId) : Prop :=
  2 ≤ ((g.nodes.filter Node.takesPart).map (·.id)).count id

instance (g : Graph) (id : NodeId) : Decidable (g.Repeats id) :=
  inferInstanceAs (Decidable (2 ≤ _))

/-- The live edges whose target has its step before the step of the source, in their order. -/
def misplaced (g : Graph) (p : Program) : List (NodeId × NodeId) :=
  (g.edges.filter fun e => g.isLive e && p.misplaces e).map fun e => (e.source, e.target)

variable {σ : Type} (context : BakeContext σ) (g : Graph) (s : σ)

/-- The bake order leaves no node out and takes none twice. -/
theorem compileNodes_perm : g.compileNodes.Perm g.nodes := by
  have horder := g.compileOrder_perm.filterMap fun i => g.nodes[i]?
  rwa [filterMap_getElem?_range] at horder

/-- The ids of a program are those of the nodes that take part. -/
theorem map_node_bake :
    ((g.bake context s).2.1.program.map (·.node)).Perm
      ((g.nodes.filter Node.takesPart).map (·.id)) := by
  have hids := map_node_compileAll context g.compileNodes s
  have hprogram : (g.bake context s).2.1.program =
      (compileAll context g.compileNodes s).1.filterMap Prod.snd := rfl
  rw [hprogram, hids]
  exact (g.compileNodes_perm.filter _).map _

/-- An id with a step is the id of a node. -/
theorem hasNode_of_step {id : NodeId}
    (h : ∃ step ∈ (g.bake context s).2.1.program, step.node = id) : g.hasNode id = true := by
  rw [← List.mem_map, (g.map_node_bake context s).mem_iff, List.mem_map] at h
  rcases h with ⟨n, hn, hid⟩
  exact hasNode_iff.2 ⟨n, (List.mem_filter.1 hn).1, hid⟩

theorem isLive_of_steps {e : Edge}
    (h : (∃ step ∈ (g.bake context s).2.1.program, step.node = e.source) ∧
      ∃ step ∈ (g.bake context s).2.1.program, step.node = e.target) : g.isLive e = true := by
  rw [isLive, g.hasNode_of_step context s h.1, g.hasNode_of_step context s h.2]
  rfl

/-- An id that does not repeat has one place in the program. -/
theorem lastIndex?_of_not_repeats {id : NodeId} (h : ¬g.Repeats id) :
    (g.bake context s).2.1.program.lastIndex? id = (g.bake context s).2.1.program.place? id := by
  apply Program.lastIndex?_eq_place?
  rw [(g.map_node_bake context s).count_eq]
  unfold Repeats at h
  omega

/-- An edge that a bake reports is live. -/
theorem violates_eq_of_bake (e : Edge) :
    let p := (g.bake context s).2.1.program
    p.violates e = (g.isLive e && p.violates e) := by
  intro p
  rcases he : p.violates e with _ | _
  · rw [Bool.and_false]
  · rw [g.isLive_of_steps context s (p.ends_of_violates he)]
    rfl

/-- The report is as it should be exactly if the two comparisons agree on every edge. -/
theorem violations_eq_misplaced_iff :
    let b := g.bake context s
    let p := b.2.1.program
    b.1.violations = g.misplaced p ↔ ∀ e ∈ g.edges, p.violates e = p.misplaces e := by
  intro b p
  have hreported : b.1.violations = (g.edges.filter p.violates).map fun e =>
      (e.source, e.target) := rfl
  -- An edge is told by its ends, and so is whether its steps are the wrong way round.
  have hends : ∀ {e e' : Edge}, (e.source, e.target) = (e'.source, e'.target) →
      p.violates e = p.violates e' ∧ p.misplaces e = p.misplaces e' := by
    intro e e' h
    rw [Prod.mk.injEq] at h
    simp only [Program.violates, Program.misplaces, h, and_self]
  rw [hreported, misplaced]
  constructor
  · intro heq e he
    have hmem := congrArg ((e.source, e.target) ∈ ·) heq
    simp only [List.mem_map, List.mem_filter, Bool.and_eq_true] at hmem
    rw [Bool.eq_iff_iff]
    constructor
    · intro hviolates
      rcases hmem.mp ⟨e, ⟨he, hviolates⟩, rfl⟩ with ⟨e', ⟨-, -, hmisplaces⟩, hsame⟩
      rw [← (hends hsame).2, hmisplaces]
    · intro hmisplaces
      have hlive := g.isLive_of_steps context s (p.ends_of_misplaces hmisplaces)
      rcases hmem.mpr ⟨e, ⟨he, hlive, hmisplaces⟩, rfl⟩ with ⟨e', ⟨-, hviolates⟩, hsame⟩
      rw [← (hends hsame).1, hviolates]
  · intro hsame
    congr 1
    refine List.filter_congr fun e he => ?_
    rw [g.violates_eq_of_bake context s e, hsame e he]

/-- The edges that a bake of a graph reports, whatever it is baked against: the live edges for
    which the last step with the id of the target stands before the last step with the id of
    the source, in the order of the edges. These are the live edges whose target has its step
    before the step of the source exactly if the two comparisons agree on every edge. They do
    so if the ends of every edge, loops aside, are ids that do not repeat. -/
theorem violations_bake {σ : Type} (context : BakeContext σ) (g : Graph) (s : σ) :
    let b := g.bake context s
    let p := b.2.1.program
    (b.1.violations =
      (g.edges.filter fun e => g.isLive e && p.violates e).map fun e => (e.source, e.target)) ∧
    (b.1.violations = g.misplaced p ↔ ∀ e ∈ g.edges, p.violates e = p.misplaces e) ∧
    ((∀ e ∈ g.edges, e.source ≠ e.target → ¬g.Repeats e.source ∧ ¬g.Repeats e.target) →
      b.1.violations = g.misplaced p) := by
  intro b p
  have hiff := g.violations_eq_misplaced_iff context s
  refine ⟨?_, hiff, fun hrepeats => hiff.2 fun e he => ?_⟩
  · have hreported : b.1.violations = p.violations g.edges := rfl
    rw [hreported, Program.violations,
      List.filter_congr fun e _ => g.violates_eq_of_bake context s e]
  · by_cases hloop : e.source = e.target
    · exact (p.violates_of_loop hloop).trans (p.misplaces_of_loop hloop).symm
    · rcases hrepeats e he hloop with ⟨hsource, htarget⟩
      rw [Bool.eq_iff_iff, Program.violates_iff, Program.misplaces_iff,
        g.lastIndex?_of_not_repeats context s hsource,
        g.lastIndex?_of_not_repeats context s htarget]

/-- Two ways from one node to another. -/
def diamond : Graph where
  name := "diamond"
  nodes := [.ofKind ⟨"a"⟩ (.layers .on []), .ofKind ⟨"b"⟩ (.layers .on []),
    .ofKind ⟨"c"⟩ (.layers .on []), .ofKind ⟨"d"⟩ (.layers .on [])]
  edges := [{ source := ⟨"a"⟩, target := ⟨"b"⟩ }, { source := ⟨"a"⟩, target := ⟨"c"⟩ },
    { source := ⟨"b"⟩, target := ⟨"d"⟩ }, { source := ⟨"c"⟩, target := ⟨"d"⟩ }]

/-- The end of both ways is placed before the second one. -/
theorem violations_diamond :
    let b := diamond.bake Draft.context {}
    (∀ e ∈ diamond.edges, e.source ≠ e.target →
      ¬diamond.Repeats e.source ∧ ¬diamond.Repeats e.target) ∧
      b.1.violations = diamond.misplaced b.2.1.program ∧ b.1.violations = [(⟨"c"⟩, ⟨"d"⟩)] := by
  have hrepeats : ∀ e ∈ diamond.edges, e.source ≠ e.target →
      ¬diamond.Repeats e.source ∧ ¬diamond.Repeats e.target := by
    decide +kernel
  exact ⟨hrepeats, (violations_bake Draft.context diamond {}).2.2 hrepeats, by decide +kernel⟩

/-- Three nodes of which the first and the last have one id, with edges both ways between the
    two ids. -/
def echo : Graph where
  name := "echo"
  nodes := [.ofKind ⟨"a"⟩ (.layers .on []), .ofKind ⟨"b"⟩ (.layers .on []),
    .ofKind ⟨"a"⟩ (.layers .on [])]
  edges := [{ source := ⟨"a"⟩, target := ⟨"b"⟩ }, { source := ⟨"b"⟩, target := ⟨"a"⟩ }]

/-- The step of the first id comes first. The edge to it is not reported, and the edge from it
    is. -/
theorem violations_echo :
    let b := echo.bake Draft.context {}
    b.2.1.program.map (·.node) = [⟨"a"⟩, ⟨"b"⟩, ⟨"a"⟩] ∧
      echo.misplaced b.2.1.program = [(⟨"b"⟩, ⟨"a"⟩)] ∧
      b.1.violations = [(⟨"a"⟩, ⟨"b"⟩)] := by
  decide +kernel

end Graph

end BehaviorGraph
