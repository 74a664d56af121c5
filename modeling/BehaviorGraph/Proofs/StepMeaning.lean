import BehaviorGraph.Proofs.LayerNames
import BehaviorGraph.Proofs.Meaning
import BehaviorGraph.Session.Perform
/-!
# What Steps Mean

The meaning of a step that renders a node is the meaning of the node.

A step is carried out against the targets and layers of a session. It knows
objects by target id and layers by trimmed name, where the node knows objects
themselves and layers as somebody typed them. The detour is invisible: target ids
that objects hold lead back to these objects, references to objects that are gone
change nothing either way, and layer names are trimmed again by who reads them.

## Main definitions

* `Step.action?`: The action that a step calls.
* `Step.carryOut`, `Step.carryOutAll`: The meaning of steps.

## Theorems

* `Targets.switch_of_holds`: Target ids that objects hold are switched as the
  objects are.
* `Node.Renders.carryOut_eq`: A step does what the node says that it renders.
* `carryOutAll_eq_of_renders`: The same for the steps of a list of nodes.
-/

namespace BehaviorGraph

/-- Switching the objects behind target ids changes nothing but active flags. -/
theorem Targets.awake_switch (t : Targets) (s : Switch) (targets : List String) (w : World) :
    World.awake (t.switch s targets w).2 = w.awake := by
  induction targets generalizing w with
  | nil => rfl
  | cons target rest ih =>
      rcases hresolve : t.resolve? target with _ | id
      · simp only [Targets.switch, hresolve]
        exact ih w
      · simp only [Targets.switch, hresolve]
        rw [ih, World.awake_switch]

namespace Step

/-- The action that a step calls, if its target and the action exist. -/
def action? (targets : Targets) (st : Step) (w : World) : Option Action :=
  (st.target?.bind targets.resolve?).bind fun id =>
    w.action? id ((st.stringParam? .component).getD "") ((st.stringParam? .method).getD "")

/-- Do what a step says. -/
def carryOut (targets : Targets) (layers : Layers) (st : Step) (c : Course) : Course :=
  match st.type with
  | .click | .key => c.skip
  | .layers switch => c.switch (layers.switch switch st.layers)
  | .objects switch => c.switch (targets.switch switch st.targets)
  | .delay => c.pass
  | .call => c.call (st.action? targets c.world)

theorem actions_carryOut (targets : Targets) (layers : Layers) (st : Step) (c : Course) :
    (st.carryOut targets layers c).world.actions = c.world.actions := by
  unfold carryOut
  cases st.type with
  | click => rfl
  | key => rfl
  | layers switch =>
      simp only [Course.world_switch]
      exact World.actions_of_awake (layers.awake_switch switch st.layers c.world)
  | objects switch =>
      simp only [Course.world_switch]
      exact World.actions_of_awake (targets.awake_switch switch st.targets c.world)
  | delay => rfl
  | call => simp only [Course.world_call]

/-- Do what some steps say, one after the other. -/
def carryOutAll (targets : Targets) (layers : Layers) (steps : List Step) (c : Course) : Course :=
  steps.foldl (fun c st => st.carryOut targets layers c) c

end Step

theorem Param.name_injective {p q : Param} (h : p.name = q.name) : p = q := by
  cases p <;> cases q <;> simp [Param.name] at h ⊢

theorem Step.stringParam?_setString (p q : Param) (value : String) (st : Step) :
    (st.setString q value).stringParam? p = if p = q then some value else st.stringParam? p := by
  unfold stringParam? setString
  rw [OrderedMap.get?_insert]
  by_cases h : p = q
  · rw [if_pos h, if_pos (congrArg Param.name h)]
  · rw [if_neg h, if_neg (fun hname => h (Param.name_injective hname))]

/-- Switching target ids that objects hold is switching the objects. -/
theorem Targets.switch_of_holds {s : Stage} {ids : List ObjectId} {targets : List String}
    (h : List.Forall₂ s.Holds ids targets) (switch : Switch) (w : World) :
    s.targets.switch switch targets w = w.switchAll switch ids := by
  induction h generalizing w with
  | nil => rfl
  | cons hheld _ ih => simp only [Targets.switch, World.switchAll, hheld.resolve?, ih]

namespace Node

/-- Switching the target ids that name some objects is switching the objects. -/
theorem switch_of_names {s : Stage} {ids : List ObjectId} {targets : List String}
    (h : s.Names ids targets) (switch : Switch) {w : World}
    (hw : w.actions = s.world.actions) :
    s.targets.switch switch targets w = w.switchAll switch ids := by
  have hthere : s.world.contains = w.contains := by
    funext id
    rw [← World.contains_actions, ← hw, World.contains_actions]
  rw [Targets.switch_of_holds h, hthere, World.switchAll_filter]

/-- The first target id of a node with one slot leads to the object in it, if it
    exists. -/
theorem resolve?_of_names {s : Stage} {target : Option ObjectId} {targets : List String}
    (h : s.Names target.toList targets) :
    targets.head?.bind s.targets.resolve? = target.filter s.world.contains := by
  unfold Stage.Names at h
  cases target with
  | none =>
      cases h
      rfl
  | some o =>
      rw [Option.toList_some] at h
      rcases hthere : s.world.contains o with _ | _
      · rw [List.filter_cons_of_neg (by simp [hthere])] at h
        cases h
        simp [Option.filter, hthere]
      · rw [List.filter_cons_of_pos hthere] at h
        cases h with
        | cons hheld hnil =>
            cases hnil
            simp [Option.filter, hthere, hheld.resolve?]

/-- An object that does not exist has no action. -/
theorem action?_filter {w : World} {there : ObjectId → Bool} (h : there = w.contains)
    (target : Option ObjectId) (component method : String) :
    ((target.filter there).bind fun id => w.action? id component method) =
      target.bind fun id => w.action? id component method := by
  subst h
  cases target with
  | none => rfl
  | some o =>
      rcases hthere : w.contains o with _ | _
      · have hmissing : w.get? o = none := by simpa [OrderedMap.contains] using hthere
        simp [Option.filter, hthere, World.action?, hmissing]
      · simp [Option.filter, hthere]

/-- A step does what the node says that it renders, in any world that has the
    same objects with the same actions. -/
theorem Renders.carryOut_eq {s : Stage} {n : Node} {st : Step} (h : n.Renders s st)
    (layers : Layers) {c : Course} (hc : c.world.actions = s.world.actions) :
    st.carryOut s.targets layers c = n.carryOut layers c := by
  obtain ⟨nodeId, name, position, kind⟩ := n
  rcases h with ⟨hstep, hnames⟩
  -- The step is given by the node and the target ids, so only these are left.
  generalize st.targets = targets at hstep hnames
  subst hstep
  have hthere : s.world.contains = c.world.contains := by
    funext id
    rw [← World.contains_actions, ← hc, World.contains_actions]
  cases kind with
  | click target => rfl
  | key k => cases k <;> rfl
  | layers switch names =>
      have hswitch : layers.switch switch (layerNames names) = layers.switch switch names :=
        funext (layers.switch_layerNames switch names)
      simp only [Step.carryOut, carryOut, step, type, NodeKind.type, hswitch]
  | objects switch slots =>
      have hswitch : s.targets.switch switch targets c.world =
          c.world.switchAll switch (NodeKind.objects switch slots).referents :=
        switch_of_names hnames switch hc
      simp only [Step.carryOut, carryOut, step, type, NodeKind.type, Course.switch, hswitch]
  | delay seconds => rfl
  | call target component method =>
      have hresolve := resolve?_of_names hnames
      have haction : Step.action? s.targets
          (step ⟨nodeId, name, position, .call target component method⟩ targets) c.world =
            target.bind fun id => c.world.action? id (Text.trim component) (Text.trim method) := by
        rw [← action?_filter hthere, ← hresolve]
        unfold Step.action?
        simp only [step, Step.stringParam?_setString, ↓reduceIte, reduceCtorEq, Option.getD_some]
        rfl
      exact congrArg (Course.call · c) haction

end Node

/-- Steps do what the nodes say that they render. -/
theorem carryOutAll_eq_of_renders {s : Stage} {ns : List Node} {steps : List Step}
    (h : List.Forall₂ (fun n st => n.Renders s st) ns steps) (layers : Layers) {c : Course}
    (hc : c.world.actions = s.world.actions) :
    Step.carryOutAll s.targets layers steps c =
      ns.foldl (fun c n => n.carryOut layers c) c := by
  induction h generalizing c with
  | nil => rfl
  | @cons n st ns steps hr _ ih =>
      have hnext : (n.carryOut layers c).world.actions = s.world.actions := by
        rw [Node.actions_carryOut, hc]
      rw [Step.carryOutAll, List.foldl_cons, List.foldl_cons, hr.carryOut_eq layers hc]
      exact ih hnext

end BehaviorGraph
