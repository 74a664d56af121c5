import BehaviorGraph.ObjectId
import BehaviorGraph.OrderedMap
import BehaviorGraph.Text.Name
/-!
# Actions

What objects let graphs call by name.

An action belongs to the game and not to the graph, so what it does is described
by its effects: it may write to the log, switch layers and objects, remove
objects, click on objects, and fail. An object keeps its actions in a table, by
component and method. Who does not care for the component leaves it blank and
gets the oldest entry of the method.

## Main definitions

* `Effect`: One thing that an action does.
* `Action`: The effects of an action, in order.
* `ActionTable`: Actions by component and method.
* `ActionTable.find?`: The action that a component and a method mean.
-/

namespace BehaviorGraph

/-- One thing that an action does. -/
inductive Effect where
  /-- Write a line to the log. -/
  | log (text : String)
  /-- Fail; nothing after it takes place. -/
  | fail
  /-- Show or hide a layer. -/
  | setLayer (name : String) (visible : Bool)
  /-- Activate or deactivate an object. -/
  | setActive (object : ObjectId) (active : Bool)
  /-- Remove an object and its descendants. -/
  | despawn (object : ObjectId)
  /-- Click on an object. -/
  | click (object : ObjectId)
deriving DecidableEq

/-- What an action does, in order. -/
abbrev Action :=
  List Effect

/-- Actions by component and method, oldest first. -/
structure ActionTable (α : Type) where
  /-- The entries. -/
  entries : OrderedMap (String × String) α
deriving DecidableEq

namespace ActionTable

variable {α : Type}

/-- The table without entries. -/
def empty : ActionTable α :=
  ⟨.empty⟩

instance : Inhabited (ActionTable α) :=
  ⟨empty⟩

/-- The number of entries. -/
def size (t : ActionTable α) : Nat :=
  t.entries.size

/-- Register an action, in the place of the one that was registered under these
    names before. -/
def define (component method : String) (action : α) (t : ActionTable α) : ActionTable α :=
  ⟨t.entries.insert (component, method) action⟩

/-- Remove the action under exactly these names. -/
def remove (component method : String) (t : ActionTable α) :
    Option α × ActionTable α :=
  (t.entries.get? (component, method), ⟨t.entries.erase (component, method)⟩)

/-- The oldest action of a method. -/
def ofMethod? (t : ActionTable α) (method : String) : Option α :=
  (t.entries.entries.find? fun e => e.1.2 = method).map Prod.snd

/-- The action that the names mean. A blank component means any. -/
def find? (t : ActionTable α) (component method : String) : Option α :=
  if Text.isBlank component then t.ofMethod? method else t.entries.get? (component, method)

end ActionTable

end BehaviorGraph
