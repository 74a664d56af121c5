import BehaviorGraph.Bake.Basic
import BehaviorGraph.Proofs.Tagging
import Mathlib.Data.List.Forall2
/-!
# Steps Render Nodes

Compiling a node is asking for the target ids of the objects in its slots, and
writing the step that carries them. The first half is the only one that touches
the scene, and the second is a function of the node and the answers. Every type of
node fits this shape: triggers and calls have one slot, nodes that switch objects
have many, and the others have none.

A step renders a node against a stage if it is the step of that node for
target ids which are held by the objects that the node refers to: one target id
for each reference whose object exists, in the order of the references. The
step is written long before baking is over, and the nodes after it ask for target
ids of their own. Since later stages keep what earlier ones had, the step still
renders its node against the stage that baking ends with.

What baking does to a stage is a sequence of requests for target ids and of click
triggers that are attached. What holds of each holds of all of it, and the recursions of
the compiler are followed once, for all relations between an earlier stage and a later.

## Main definitions

* `Stage.Names`: Target ids that are held by the objects that exist among some.
* `Node.slots`: The slots that a node's target ids are asked for.
* `Node.attach`: Attach the click trigger of a node.
* `Node.ask`, `Node.step`: The two halves of compiling a node.
* `Node.takesPart`: The id is not blank, and a call has a method.
* `Stage.CoversBakes`: A relation that holds of requests and of click triggers.
* `Node.Renders`: A step says what a node says.

## Theorems

* `Node.compile_eq`: Compiling is asking, and writing the step.
* `Stage.CoversBakes.compileAll`: The relation holds of compiling some nodes.
* `slotIds_names`: The target ids of the objects in some slots.
* `Node.compile_renders`: The step of one node.
* `compileAll_renders`: The steps of a list of nodes.
-/

namespace BehaviorGraph

namespace Stage

/-- The target ids are held by the objects that exist among the given ones, one
    after the other. -/
def Names (s : Stage) (ids : List ObjectId) (targets : List String) : Prop :=
  List.Forall₂ s.Holds (ids.filter s.world.contains) targets

theorem names_nil (s : Stage) : s.Names [] [] :=
  List.Forall₂.nil

theorem Names.append {s : Stage} {ids ids' : List ObjectId} {targets targets' : List String}
    (h : s.Names ids targets) (h' : s.Names ids' targets') :
    s.Names (ids ++ ids') (targets ++ targets') := by
  unfold Names at h h' ⊢
  rw [List.filter_append]
  exact List.rel_append h h'

/-- Target ids go on naming the objects that they name. -/
theorem Names.extend {bound : Nat} {s s' : Stage} (h : s.Extends s') (hbound : s'.minted ≤ bound)
    (hs : s.Sound bound) {ids : List ObjectId} {targets : List String}
    (hn : s.Names ids targets) : s'.Names ids targets := by
  have hthere : ids.filter s'.world.contains = ids.filter s.world.contains := by
    apply List.filter_congr
    intro id _
    exact h.contains id
  unfold Names at hn ⊢
  rw [hthere]
  exact hn.imp (h.holds bound hbound hs)

theorem tag_names (id : ObjectId) (s : Stage) :
    (s.tag id).2.Names [id] (s.tag id).1.toList := by
  -- There is an answer exactly if there is an object to hold it.
  have hthere : (s.tag id).2.world.contains id = (s.tag id).1.isSome := by
    rw [(tag_extends id s).contains, isSome_tag]
  unfold Names
  rcases hanswer : (s.tag id).1 with _ | target
  · rw [List.filter_cons_of_neg (by rw [hthere, hanswer]; decide)]
    exact List.Forall₂.nil
  · rw [List.filter_cons_of_pos (by rw [hthere, hanswer]; rfl)]
    exact List.Forall₂.cons (tag_holds hanswer) List.Forall₂.nil

end Stage

namespace Node

/-- The slots whose target ids the step of a node carries. -/
def slots (n : Node) : List (Option ObjectId) :=
  match n.kind with
  | .click target | .call target _ _ => [target]
  | .objects _ slots => slots
  | .key _ | .layers _ _ | .delay _ => []

theorem filterMap_slots (n : Node) : (n.slots.filterMap fun slot => slot) = n.kind.referents := by
  unfold slots
  cases n.kind with
  | click target => cases target <;> rfl
  | call target component method => cases target <;> rfl
  | key k => rfl
  | layers switch names => rfl
  | objects switch slots => rfl
  | delay seconds => rfl

/-- Attach the trigger that a node has clicks start, if it names an object. -/
def attach {σ : Type} (context : BakeContext σ) (n : Node) (s : σ) : σ :=
  match n.kind with
  | .click (some o) => context.bindClick o n.id s
  | _ => s

/-- Ask for the target ids of a node's slots, and attach its click trigger. -/
def ask {σ : Type} (context : BakeContext σ) (n : Node) (s : σ) : List String × σ :=
  let (targets, s) := context.slotIds n.slots s
  (targets, n.attach context s)

/-- The step of a node that carries the given target ids. -/
def step (n : Node) (targets : List String) : Step :=
  let bare : Step := { type := n.type, node := n.id, targets }
  match n.kind with
  | .key (some k) => bare.setString .key k.name
  | .layers _ names => { bare with layers := layerNames names }
  | .delay seconds => bare.setFloat .seconds seconds
  | .call _ component method =>
    (bare.setString .component (Text.trim component)).setString .method (Text.trim method)
  | _ => bare

/-- The node takes part in runs: its id is not blank, and if it is a call, it has a
    method. -/
def takesPart (n : Node) : Bool :=
  !n.id.isBlank &&
    match n.kind with
    | .call _ _ method => !Text.isBlank method
    | _ => true

/-- Compiling a node that takes part is asking for its target ids and writing its
    step; nothing is asked about the others. -/
theorem compile_eq {σ : Type} (context : BakeContext σ) (n : Node) (s : σ) :
    n.compile context s =
      if n.takesPart then (some (n.step (n.ask context s).1), (n.ask context s).2)
      else (none, s) := by
  -- Both sides read the kind of the node, so it has to be a variable of its own.
  obtain ⟨nodeId, name, position, kind⟩ := n
  unfold compile takesPart
  rcases hid : NodeId.isBlank nodeId with _ | _
  · simp only [Bool.false_eq_true, ↓reduceIte, Bool.not_false, Bool.true_and]
    cases kind with
    | click target =>
        cases target with
        | none => rfl
        | some o => simp [ask, attach, step, slots, BakeContext.slotIds]
    | key k => cases k <;> rfl
    | layers switch names => rfl
    | objects switch slots => rfl
    | delay seconds => rfl
    | call target component method =>
        -- A call without a method is dropped before anything is asked.
        rcases hmethod : Text.isBlank method with _ | _
        · cases target with
          | none => simp [hmethod, ask, attach, step, slots, BakeContext.slotIds]
          | some o =>
              simp [hmethod, ask, attach, step, slots, BakeContext.slotIds, Step.setString]
        · simp [hmethod]
  · simp

end Node

namespace Stage

/-- A relation between a stage and a later one that baking a graph respects: it holds of
    a stage and itself, of two changes in a row, of requests for target ids, and of
    click triggers that are attached. -/
structure CoversBakes (graph : GraphRef) (R : Stage → Stage → Prop) : Prop where
  /-- It holds if nothing happens. -/
  refl : ∀ s : Stage, R s s
  /-- It holds of two changes in a row. -/
  trans : ∀ {s s' s'' : Stage}, R s s' → R s' s'' → R s s''
  /-- It holds of requests for target ids. -/
  tag : ∀ (id : ObjectId) (s : Stage), R s (s.tag id).2
  /-- It holds of click triggers. -/
  bindClick : ∀ (id : ObjectId) (node : NodeId) (s : Stage), R s (s.bindClick graph id node)

namespace CoversBakes

variable {graph : GraphRef} {R : Stage → Stage → Prop} (h : CoversBakes graph R)
include h

theorem slotIds (slots : List (Option ObjectId)) (s : Stage) :
    R s ((context graph).slotIds slots s).2 := by
  induction slots generalizing s with
  | nil => exact h.refl s
  | cons slot slots ih =>
      cases slot with
      | none => exact ih s
      | some id => exact h.trans (h.tag id s) (ih (s.tag id).2)

theorem attach (n : Node) (s : Stage) : R s (n.attach (context graph) s) := by
  unfold Node.attach
  split
  · exact h.bindClick _ n.id s
  · exact h.refl s

theorem ask (n : Node) (s : Stage) : R s (n.ask (context graph) s).2 :=
  h.trans (h.slotIds n.slots s) (h.attach n _)

theorem compile (n : Node) (s : Stage) : R s (n.compile (context graph) s).2 := by
  rw [Node.compile_eq]
  split
  · exact h.ask n s
  · exact h.refl s

theorem compileAll (ns : List Node) (s : Stage) :
    R s (compileAll (context graph) ns s).2 := by
  induction ns generalizing s with
  | nil => exact h.refl s
  | cons n ns ih => exact h.trans (h.compile n s) (ih _)

end CoversBakes

/-- Later stages keep what earlier ones had, whatever is baked. -/
theorem coversBakes_extends (graph : GraphRef) : CoversBakes graph Extends :=
  ⟨Extends.refl, Extends.trans, tag_extends, bindClick_extends graph⟩

end Stage

section Answers

variable (graph : GraphRef)

/-- The target ids of some slots are those of the objects that exist in them. -/
theorem slotIds_names {bound : Nat} (slots : List (Option ObjectId)) {s : Stage}
    (hs : s.Sound bound) (hbound : ((Stage.context graph).slotIds slots s).2.minted ≤ bound) :
    ((Stage.context graph).slotIds slots s).2.Names (slots.filterMap fun slot => slot)
      ((Stage.context graph).slotIds slots s).1 := by
  induction slots generalizing s with
  | nil => exact Stage.names_nil s
  | cons slot slots ih =>
      cases slot with
      | none => exact ih hs hbound
      | some o =>
          have hext := (Stage.coversBakes_extends graph).slotIds slots (s.tag o).2
          have hmiddle : (s.tag o).2.Sound bound :=
            (Stage.tag_extends o s).sound bound (Nat.le_trans hext.minted_le hbound) hs
          -- What the first slot was answered still names its object in the end.
          have hfirst := (Stage.tag_names o s).extend hext hbound hmiddle
          exact hfirst.append (ih hmiddle hbound)

end Answers

namespace Node

/-- The step says what the node says, about objects that the stage knows by target
    id. -/
structure Renders (s : Stage) (n : Node) (st : Step) : Prop where
  /-- It is the step of the node for the target ids it carries. -/
  step_eq : st = n.step st.targets
  /-- These are held by the objects that the node refers to. -/
  names : s.Names n.kind.referents st.targets

/-- A step goes on rendering its node. -/
theorem Renders.extend {bound : Nat} {s s' : Stage} (h : s.Extends s')
    (hbound : s'.minted ≤ bound) (hs : s.Sound bound) {n : Node} {st : Step}
    (hr : n.Renders s st) : n.Renders s' st :=
  ⟨hr.step_eq, hr.names.extend h hbound hs⟩

/-- A step says which node it is of, and carries the target ids it was given. -/
theorem header_step (n : Node) (targets : List String) :
    (n.step targets).node = n.id ∧ (n.step targets).type = n.type ∧
      (n.step targets).targets = targets := by
  unfold step
  cases n.kind with
  | key k => cases k <;> exact ⟨rfl, rfl, rfl⟩
  | click target => exact ⟨rfl, rfl, rfl⟩
  | layers switch names => exact ⟨rfl, rfl, rfl⟩
  | objects switch slots => exact ⟨rfl, rfl, rfl⟩
  | delay seconds => exact ⟨rfl, rfl, rfl⟩
  | call target component method => exact ⟨rfl, rfl, rfl⟩

@[simp]
theorem targets_step (n : Node) (targets : List String) : (n.step targets).targets = targets :=
  (n.header_step targets).2.2

variable (graph : GraphRef)

/-- The answers that a node is given are held by the objects it refers to. -/
theorem ask_names {bound : Nat} (n : Node) {s : Stage} (hs : s.Sound bound)
    (hbound : (n.ask (Stage.context graph) s).2.minted ≤ bound) :
    (n.ask (Stage.context graph) s).2.Names n.kind.referents
      (n.ask (Stage.context graph) s).1 := by
  rw [← filterMap_slots]
  have hcovers := Stage.coversBakes_extends graph
  have hattach := hcovers.attach n ((Stage.context graph).slotIds n.slots s).2
  have hmiddle : ((Stage.context graph).slotIds n.slots s).2.minted ≤ bound :=
    Nat.le_trans hattach.minted_le hbound
  have hsound := (hcovers.slotIds n.slots s).sound bound hmiddle hs
  exact (slotIds_names graph n.slots hs hmiddle).extend hattach hbound hsound

/-- The step that a node is compiled to renders it. -/
theorem compile_renders {bound : Nat} {n : Node} {s : Stage} (hs : s.Sound bound)
    (hbound : (n.compile (Stage.context graph) s).2.minted ≤ bound) (hn : n.takesPart = true) :
    ∃ st, (n.compile (Stage.context graph) s).1 = some st ∧
      n.Renders (n.compile (Stage.context graph) s).2 st := by
  rw [compile_eq, if_pos hn] at hbound ⊢
  refine ⟨n.step (n.ask (Stage.context graph) s).1, rfl, ?_, ?_⟩
  · rw [targets_step]
  · rw [targets_step]
    exact ask_names graph n hs hbound

end Node

section CompileAll

variable (graph : GraphRef)

/-- The steps of a list of nodes render those of the nodes that take part, in their
    order, against the stage that compiling them ends with. -/
theorem compileAll_renders {bound : Nat} (ns : List Node) {s : Stage} (hs : s.Sound bound)
    (hbound : (compileAll (Stage.context graph) ns s).2.minted ≤ bound) :
    List.Forall₂ (fun n st => n.Renders (compileAll (Stage.context graph) ns s).2 st)
      (ns.filter Node.takesPart)
      ((compileAll (Stage.context graph) ns s).1.filterMap Prod.snd) := by
  -- The first step is written against an earlier stage than the one the list ends
  -- with, which extends it; the bound has not been passed on the way.
  induction ns generalizing s with
  | nil => exact List.Forall₂.nil
  | cons n ns ih =>
      have hcovers := Stage.coversBakes_extends graph
      have hext := hcovers.compile n s
      have hrest := hcovers.compileAll ns (n.compile (Stage.context graph) s).2
      have hmiddle : (n.compile (Stage.context graph) s).2.minted ≤ bound :=
        Nat.le_trans hrest.minted_le hbound
      have hsound := hext.sound bound hmiddle hs
      have htail := ih hsound hbound
      -- A node that takes no part adds no step, and leaves the stage as it is.
      rcases hn : n.takesPart with _ | _
      · have hnone : (n.compile (Stage.context graph) s).1 = none := by
          rw [Node.compile_eq, hn]
          rfl
        rw [List.filter_cons_of_neg (by simp [hn])]
        simp only [compileAll, hnone, List.filterMap_cons_none]
        exact htail
      · rcases n.compile_renders graph hs hmiddle hn with ⟨st, hst, hrenders⟩
        rw [List.filter_cons_of_pos hn]
        simp only [compileAll, hst]
        exact List.Forall₂.cons (hrenders.extend hrest hbound hsound) htail

end CompileAll

end BehaviorGraph
