import BehaviorGraph.Bake.Basic
import BehaviorGraph.Proofs.Rendering
/-!
# What Graphs Mean

The meaning of a graph without steps and target ids.

A graph is carried out by going through its nodes in bake order and doing to the
authored objects and layers what each node says. A node with a blank id and a call
without a method take no part. Triggers are counted as skipped; layers and objects
are switched as the node lists them, and the node is skipped if there is nothing to
switch; a delay takes effect; and a call calls the action that its object has under
the trimmed names, if the object and the action exist.

What comes of it is a `Course`: the world in the end, the actions called, what they
have logged, and the tally. It is described for actions that write to the log or
fail and do nothing else. Of an action that fails, what it logged before stays
logged.

## Main definitions

* `Effect.isQuiet`, `World.isQuiet`: Actions keep to themselves.
* `Action.lines`, `Action.fails`: What calling an action comes to.
* `Course`: What a run has come to.
* `Node.carryOut`, `Graph.carryOut`: The meaning of nodes and graphs.

## Theorems

* `Node.carryOut_untagged`, `Graph.carryOut_untagged`: Tags have no meaning.
* `Node.actions_carryOut`: Nodes leave the actions of objects alone.
-/

namespace BehaviorGraph

/-- The effect does not touch the world, and starts no run. -/
def Effect.isQuiet : Effect → Bool
  | .log _ | .fail => true
  | .setLayer _ _ | .setActive _ _ | .despawn _ | .click _ => false

/-- What an action logs before it ends or fails. -/
def Action.lines : Action → List String
  | [] => []
  | .log text :: rest => text :: lines rest
  | .fail :: _ => []
  | _ :: rest => lines rest

/-- Whether an action fails. -/
def Action.fails (a : Action) : Bool :=
  a.any (· = .fail)

namespace World

/-- No action of any object touches the world or starts a run. -/
def isQuiet (w : World) : Bool :=
  w.actions.values.all fun t => t.entries.values.all fun a => a.all Effect.isQuiet

/-- The action that an object has under some names. -/
def action? (w : World) (id : ObjectId) (component method : String) : Option Action :=
  (w.get? id).bind fun o => o.actions.find? component method

theorem action?_eq (w : World) (id : ObjectId) (component method : String) :
    w.action? id component method =
      (w.actions.get? id).bind fun t => t.find? component method := by
  rw [action?, get?_actions]
  rcases w.get? id with _ | o
  · rfl
  · rfl

theorem isQuiet_congr {w w' : World} (h : w'.actions = w.actions) : w'.isQuiet = w.isQuiet := by
  rw [isQuiet, isQuiet, h]

theorem action?_congr {w w' : World} (h : w'.actions = w.actions) (id : ObjectId)
    (component method : String) :
    w'.action? id component method = w.action? id component method := by
  rw [action?_eq, action?_eq, h]

end World

theorem ActionTable.mem_of_find? {α : Type} {t : ActionTable α} {component method : String} {a : α}
    (h : t.find? component method = some a) : a ∈ t.entries.values := by
  unfold ActionTable.find? at h
  split at h
  · rw [ofMethod?, Option.map_eq_some_iff] at h
    rcases h with ⟨e, he, rfl⟩
    exact List.mem_map_of_mem (List.mem_of_find?_eq_some he)
  · exact List.mem_map_of_mem (OrderedMap.get?_eq_some_iff.1 h)

/-- The actions that can be called in a quiet world are quiet. -/
theorem World.isQuiet_action {w : World} (hw : w.isQuiet = true) {id : ObjectId}
    {component method : String} {a : Action} (h : w.action? id component method = some a) :
    a.all Effect.isQuiet = true := by
  rw [World.action?_eq, Option.bind_eq_some_iff] at h
  rcases h with ⟨t, ht, ha⟩
  have htable : t ∈ w.actions.values :=
    List.mem_map_of_mem (OrderedMap.get?_eq_some_iff.1 ht)
  rw [World.isQuiet, List.all_eq_true] at hw
  exact List.all_eq_true.1 (hw t htable) a (ActionTable.mem_of_find? ha)

/-- What a run has come to. -/
structure Course where
  /-- The objects. -/
  world : World
  /-- What actions have logged. -/
  log : List String
  /-- The actions called, the first one first. -/
  called : List Action := []
  /-- What became of the steps. -/
  tally : Tally := {}

namespace Course

/-- Count a step that took effect. -/
def pass (c : Course) : Course :=
  { c with tally := { c.tally with executed := c.tally.executed + 1 } }

/-- Count a step that had nothing to act on. -/
def skip (c : Course) : Course :=
  { c with tally := { c.tally with skipped := c.tally.skipped + 1 } }

/-- Count a step that failed. -/
def fault (c : Course) : Course :=
  { c with tally := { c.tally with failed := c.tally.failed + 1 } }

/-- Switch something in the world, and count whether there was anything to
    switch. -/
def switch (f : World → Nat × World) (c : Course) : Course :=
  let changed := { c with world := (f c.world).2 }
  if 0 < (f c.world).1 then changed.pass else changed.skip

/-- Call an action, if there is one. -/
def call (a : Option Action) (c : Course) : Course :=
  match a with
  | none => c.skip
  | some a =>
    let done := { c with called := c.called ++ [a], log := c.log ++ a.lines }
    if a.fails then done.fault else done.pass

/-- The course in a world without tags. -/
def untagged (c : Course) : Course :=
  { c with world := c.world.untagged }

@[simp]
theorem world_untagged (c : Course) : c.untagged.world = c.world.untagged :=
  rfl

@[simp]
theorem log_untagged (c : Course) : c.untagged.log = c.log :=
  rfl

@[simp]
theorem called_untagged (c : Course) : c.untagged.called = c.called :=
  rfl

@[simp]
theorem tally_untagged (c : Course) : c.untagged.tally = c.tally :=
  rfl

theorem switch_untagged {f : World → Nat × World}
    (hf : ∀ w, f w.untagged = ((f w).1, World.untagged (f w).2)) (c : Course) :
    c.untagged.switch f = (c.switch f).untagged := by
  simp only [switch, untagged, hf]
  split
  · rfl
  · rfl

theorem call_untagged (a : Option Action) (c : Course) :
    c.untagged.call a = (c.call a).untagged := by
  cases a with
  | none => rfl
  | some a =>
      simp only [call, untagged]
      split
      · rfl
      · rfl

theorem world_switch (f : World → Nat × World) (c : Course) :
    (c.switch f).world = (f c.world).2 := by
  simp only [switch]
  split
  · rfl
  · rfl

theorem world_call (a : Option Action) (c : Course) : (c.call a).world = c.world := by
  cases a with
  | none => rfl
  | some a =>
      simp only [call]
      split
      · rfl
      · rfl

theorem called_switch (f : World → Nat × World) (c : Course) : (c.switch f).called = c.called := by
  simp only [switch]
  split
  · rfl
  · rfl

theorem called_call (a : Option Action) (c : Course) :
    (c.call a).called = c.called ++ a.toList := by
  cases a with
  | none => simp [call, skip]
  | some a =>
      simp only [call]
      split
      · rfl
      · rfl

end Course

namespace Node

/-- The action that a node calls, if its object exists and has it. -/
def action? (n : Node) (w : World) : Option Action :=
  match n.kind with
  | .call target component method =>
    target.bind fun id => w.action? id (Text.trim component) (Text.trim method)
  | _ => none

/-- Do what a node says. -/
def carryOut (layers : Layers) (n : Node) (c : Course) : Course :=
  match n.kind with
  | .click _ | .key _ => c.skip
  | .layers switch names => c.switch (layers.switch switch names)
  | .objects switch _ => c.switch (World.switchAll switch n.kind.referents)
  | .delay _ => c.pass
  | .call _ _ _ => c.call (n.action? c.world)

theorem action?_congr {w w' : World} (h : w'.actions = w.actions) (n : Node) :
    n.action? w' = n.action? w := by
  unfold action?
  split
  · simp only [World.action?_congr h]
  · rfl

theorem carryOut_untagged (layers : Layers) (n : Node) (c : Course) :
    n.carryOut layers c.untagged = (n.carryOut layers c).untagged := by
  unfold carryOut
  cases n.kind with
  | click target => rfl
  | key k => rfl
  | layers switch names => exact c.switch_untagged (layers.switch_untagged switch names)
  | objects switch slots => exact c.switch_untagged (World.switchAll_untagged switch _)
  | delay seconds => rfl
  | call target component method =>
      -- The action is found by object, not by target id.
      have hsame : n.action? c.untagged.world = n.action? c.world :=
        n.action?_congr c.world.actions_untagged
      simp only
      rw [hsame]
      exact c.call_untagged _

theorem actions_carryOut (layers : Layers) (n : Node) (c : Course) :
    (n.carryOut layers c).world.actions = c.world.actions := by
  unfold carryOut
  cases n.kind with
  | click target => rfl
  | key k => rfl
  | layers switch names =>
      simp only [Course.world_switch]
      exact World.actions_of_awake (layers.awake_switch switch names c.world)
  | objects switch slots =>
      simp only [Course.world_switch]
      exact World.actions_of_awake (c.world.awake_switchAll switch _)
  | delay seconds => rfl
  | call target component method => simp only [Course.world_call]

end Node

namespace Graph

/-- Do what the nodes of a graph say, in bake order, those left out that take no
    part. -/
def carryOut (layers : Layers) (g : Graph) (c : Course) : Course :=
  (g.compileNodes.filter Node.takesPart).foldl (fun c n => n.carryOut layers c) c

theorem carryOut_untagged (layers : Layers) (g : Graph) (c : Course) :
    g.carryOut layers c.untagged = (g.carryOut layers c).untagged := by
  unfold carryOut
  induction g.compileNodes.filter Node.takesPart generalizing c with
  | nil => rfl
  | cons n ns ih =>
      rw [List.foldl_cons, List.foldl_cons, Node.carryOut_untagged, ih]

end Graph

end BehaviorGraph
