import BehaviorGraph.Session.Frame
import BehaviorGraph.Session.Registration
import BehaviorGraph.Text.Writing
/-!
# Performing Steps

What the steps of a program do to a session.

A step that has nothing to act on does nothing and says why. Steps of triggers do
nothing in any case. A delay takes effect when its time has passed; waiting for
that is the business of the run. An action is the only thing that can fail, and
what it did before it failed stays done.

## Main definitions

* `StepOutcome`, `StepError`: What became of a step.
* `Session.apply`, `Session.call`: Effects and actions.
* `Session.perform`: Perform a step.
-/

namespace BehaviorGraph

/-- What became of a step in which nothing went wrong. -/
inductive StepOutcome where
  /-- It took effect. -/
  | applied
  /-- It had nothing to act on. -/
  | skipped
deriving DecidableEq

/-- What went wrong in a step. -/
inductive StepError where
  /-- No object stands behind the step's target ids. -/
  | unresolvedTarget (node : NodeId) (targets : String)
  /-- The target object has no such action. -/
  | unresolvedAction (node : NodeId) (component method : String)
  /-- The action failed. -/
  | failed (node : NodeId)
deriving DecidableEq

namespace StepError

/-- The step did nothing because a reference leads nowhere. -/
def isUnresolved : StepError → Bool
  | unresolvedTarget _ _ | unresolvedAction _ _ _ => true
  | failed _ => false

/-- The wording of an error. -/
def message : StepError → String
  | unresolvedTarget node targets =>
    "Step " ++ node.text ++ ": unresolved target " ++ String.ofList (Text.quote false targets)
  | unresolvedAction node component method =>
    "Step " ++ node.text ++ ": no action " ++ component ++ "." ++ method ++ " on target"
  | failed node => "Step " ++ node.text ++ " failed"

end StepError

/-- Switch an object. Returns whether it exists. -/
def World.switch (s : Switch) (id : ObjectId) (w : World) : Bool × World :=
  match s with
  | .on => w.setActive id true
  | .off => w.setActive id false
  | .over => ((w.toggleActive id).1.isSome, (w.toggleActive id).2)

/-- Switch the objects behind some target ids, one after the other. Returns how
    many there are. -/
def Targets.switch (t : Targets) (s : Switch) : List String → World → Nat × World
  | [], w => (0, w)
  | target :: rest, w =>
    match t.resolve? target with
    | none => t.switch s rest w
    | some id =>
      let (found, w) := w.switch s id
      let (count, w) := t.switch s rest w
      (count + found.toNat, w)

namespace Session

/-- Let an effect take place. Returns whether it went well. -/
def apply (e : Effect) (s : Session) : Bool × Session :=
  match e with
  | .log text => (true, { s with log := s.log ++ [text] })
  | .fail => (false, s)
  | .setLayer name visible =>
    (true, { s with world := (s.layers.setVisible name visible s.world).2 })
  | .setActive id active => (true, { s with world := (s.world.setActive id active).2 })
  | .despawn id => (true, (s.despawn id).2)
  | .click id => (true, (s.click id).2)

/-- Call an action. Returns whether it went well. -/
def call : Action → Session → Bool × Session
  | [], s => (true, s)
  | e :: rest, s =>
    match s.apply e with
    | (true, s) => call rest s
    | (false, s) => (false, s)

/-- The action that a step calls, or why there is none. -/
def callee (st : Step) (s : Session) : Except StepError Action :=
  match st.target? with
  | none => .error (.unresolvedTarget st.node "")
  | some target =>
    match s.targets.resolve? target with
    | none => .error (.unresolvedTarget st.node target)
    | some id =>
      let component := (st.stringParam? .component).getD ""
      let method := (st.stringParam? .method).getD ""
      match (s.world.get? id).bind fun o => o.actions.find? component method with
      | none => .error (.unresolvedAction st.node component method)
      | some action => .ok action

/-- Perform a step that calls an action. -/
def performCall (st : Step) (s : Session) : Except StepError StepOutcome × Session :=
  match s.callee st with
  | .error e => (.error e, s)
  | .ok action =>
    match s.call action with
    | (true, s) => (.ok .applied, s)
    | (false, s) => (.error (.failed st.node), s)

/-- Perform a step that switches layers. -/
def performLayers (switch : Switch) (st : Step) (s : Session) :
    Except StepError StepOutcome × Session :=
  let (count, world) := s.layers.switch switch st.layers s.world
  (.ok (if 0 < count then .applied else .skipped), { s with world })

/-- Perform a step that switches objects. -/
def performObjects (switch : Switch) (st : Step) (s : Session) :
    Except StepError StepOutcome × Session :=
  if st.targets.isEmpty then (.ok .skipped, s)
  else
    let (count, world) := s.targets.switch switch st.targets s.world
    if 0 < count then (.ok .applied, { s with world })
    else (.error (.unresolvedTarget st.node (", ".intercalate st.targets)), s)

/-- Perform a step. -/
def perform (st : Step) (s : Session) : Except StepError StepOutcome × Session :=
  match st.type with
  | .click | .key => (.ok .skipped, s)
  | .layers switch => s.performLayers switch st
  | .objects switch => s.performObjects switch st
  | .delay => (.ok .applied, s)
  | .call => s.performCall st

end Session

end BehaviorGraph
