import BehaviorGraph.Proofs.StepMeaning
import BehaviorGraph.Session.Clock
import BehaviorGraph.Session.Frame
/-!
# What Runs Can Change

A run switches objects, or calls actions; an action switches objects, starts runs
or removes objects. So whatever the runs of a session do, and whatever clicks and
keys do that start them, is a sequence of two kinds of change. A calm change leaves
everything alone but active flags, runs, log and clock. The other one is the removal
of an object, which drops its registrations.

What holds of both kinds, and of two changes made one after the other, holds of every
way in which runs go on. The lemmas below follow the definitions down from waiting for
a run to a single effect, once for all relations that are closed in this sense.

Performing a step does not touch the runs there are. What is to be said about them needs
a finer division, in which the changes that a single step consists of are told apart.

## Main definitions

* `Session.CoversSteps`: A relation that holds of the changes which steps consist of, and
  of what they are composed to.
* `Session.Calm`: Nothing has changed but active flags, runs, log and clock.
* `Session.CoversRuns`: A relation that holds of calm changes and removals, and of
  what they are composed to.

## Theorems

* `Session.CoversSteps.perform`: The relation holds of performing a step.
* `Session.CoversSteps.tick`: And of a frame of input.
* `Session.CoversRuns.turn`: Of a turn of a run.
* `Session.CoversRuns.settle`, `Session.CoversRuns.passWhile`: Of runs that go on.
* `Session.CoversRuns.finish`, `Session.CoversRuns.execute`: Of waiting for them.
-/

namespace BehaviorGraph

namespace Session

/-- A relation between a session and a later one that steps respect: it holds of each
    change that a step can consist of, and of a change that is composed of two. -/
structure CoversSteps (R : Session → Session → Prop) : Prop where
  /-- It holds if nothing happens. -/
  refl : ∀ s : Session, R s s
  /-- It holds of two changes in a row. -/
  trans : ∀ {s s' s'' : Session}, R s s' → R s' s'' → R s s''
  /-- It holds of switching objects. -/
  switched : ∀ {s : Session} {world : World}, world.awake = s.world.awake → R s { s with world }
  /-- It holds of writing to the log. -/
  logged : ∀ (text : String) (s : Session), R s { s with log := s.log ++ [text] }
  /-- It holds of starting a run. -/
  startRun : ∀ (steps : List Step) (s : Session), R s (s.startRun steps).2
  /-- It holds of removals. -/
  despawn : ∀ (id : ObjectId) (s : Session), R s (s.despawn id).2

namespace CoversSteps

variable {R : Session → Session → Prop} (h : CoversSteps R)
include h

theorem foldl {α : Type} {f : Session → α → Session} (hf : ∀ s x, R s (f s x)) (xs : List α)
    (s : Session) : R s (xs.foldl f s) := by
  induction xs generalizing s with
  | nil => exact h.refl s
  | cons x xs ih => exact h.trans (hf s x) (ih (f s x))

/-! ### Starting runs -/

theorem fire (component : SceneObject → Option TriggerRef) (id : ObjectId) (s : Session) :
    R s (s.fire component id).2 := by
  unfold Session.fire
  split
  · split
    · exact h.refl s
    · exact h.startRun _ s
  · exact h.refl s

theorem fireKeys (ids : List ObjectId) (s : Session) : R s (s.fireKeys ids).2 := by
  induction ids generalizing s with
  | nil => exact h.refl s
  | cons id ids ih => exact h.trans (h.fire SceneObject.keyTrigger id s) (ih _)

theorem performAction (action : String) (s : Session) : R s (s.performAction action).2 := by
  unfold Session.performAction
  split
  · exact h.refl s
  · next layer _ =>
      exact h.switched (s.layers.awake_setVisible layer false s.world)

theorem tick (keys : List Key) (actions : List String) (s : Session) :
    R s (s.tick keys actions).2 :=
  h.trans (h.fireKeys (s.boundTo keys) s)
    (h.foldl (fun s action => h.performAction action s) actions _)

/-! ### Performing steps -/

theorem apply (e : Effect) (s : Session) : R s (s.apply e).2 := by
  unfold Session.apply
  cases e with
  | log text => exact h.logged text s
  | fail => exact h.refl s
  | setLayer name visible => exact h.switched (s.layers.awake_setVisible name visible s.world)
  | setActive id active => exact h.switched (s.world.awake_setActive id active)
  | despawn id => exact h.despawn id s
  | click id => exact h.fire SceneObject.clickTrigger id s

theorem call (a : Action) (s : Session) : R s (s.call a).2 := by
  induction a generalizing s with
  | nil => exact h.refl s
  | cons e rest ih =>
      have heffect := h.apply e s
      unfold Session.call
      -- An effect that fails has its own consequences, and is the last one.
      split
      · next s' happly =>
          rw [happly] at heffect
          exact h.trans heffect (ih s')
      · next s' happly =>
          rw [happly] at heffect
          exact heffect

theorem performCall (st : Step) (s : Session) : R s (s.performCall st).2 := by
  unfold Session.performCall
  split
  · exact h.refl s
  · next action _ =>
      have hcall := h.call action s
      split
      · next s' hresult =>
          rw [hresult] at hcall
          exact hcall
      · next s' hresult =>
          rw [hresult] at hcall
          exact hcall

theorem performObjects (switch : Switch) (st : Step) (s : Session) :
    R s (s.performObjects switch st).2 := by
  unfold Session.performObjects
  split
  · exact h.refl s
  · simp only
    split
    · exact h.switched (s.targets.awake_switch switch st.targets s.world)
    · exact h.refl s

theorem perform (st : Step) (s : Session) : R s (s.perform st).2 := by
  unfold Session.perform
  cases st.type with
  | click => exact h.refl s
  | key => exact h.refl s
  | layers switch => exact h.switched (s.layers.awake_switch switch st.layers s.world)
  | objects switch => exact h.performObjects switch st s
  | delay => exact h.refl s
  | call => exact h.performCall st s

end CoversSteps

/-- Nothing has changed but active flags, runs, log and clock. -/
structure Calm (s s' : Session) : Prop where
  /-- The objects are the same but for their active flags. -/
  awake : s'.world.awake = s.world.awake
  /-- Target ids stand for the same objects. -/
  targets : s'.targets = s.targets
  /-- Layers have the same groups. -/
  layers : s'.layers = s.layers
  /-- Keys and input actions do the same. -/
  bindings : s'.bindings = s.bindings

theorem Calm.refl (s : Session) : s.Calm s :=
  ⟨rfl, rfl, rfl, rfl⟩

/-- A relation between a session and a later one that runs respect: it holds of calm
    changes and of removals, and of a change that is composed of two. -/
structure CoversRuns (R : Session → Session → Prop) : Prop where
  /-- It holds of two changes in a row. -/
  trans : ∀ {s s' s'' : Session}, R s s' → R s' s'' → R s s''
  /-- It holds of calm changes. -/
  calm : ∀ {s s' : Session}, s.Calm s' → R s s'
  /-- It holds of removals. -/
  despawn : ∀ (id : ObjectId) (s : Session), R s (s.despawn id).2

namespace CoversRuns

variable {R : Session → Session → Prop} (h : CoversRuns R)
include h

/-- Starting a run is a calm change, as are switching and writing to the log. -/
theorem steps : CoversSteps R where
  refl s := h.calm (Calm.refl s)
  trans := h.trans
  switched hawake := h.calm ⟨hawake, rfl, rfl, rfl⟩
  logged _ _ := h.calm ⟨rfl, rfl, rfl, rfl⟩
  startRun steps s := by
    unfold Session.startRun
    split
    · exact h.calm ⟨rfl, rfl, rfl, rfl⟩
    · exact h.calm (Calm.refl s)
  despawn := h.despawn

theorem refl (s : Session) : R s s :=
  h.steps.refl s

/-! ### Runs that go on -/

theorem setRun (i : Nat) (r : Run) (s : Session) : R s (s.setRun i r) :=
  h.calm ⟨rfl, rfl, rfl, rfl⟩

theorem turn (i : Nat) (s : Session) : R s (s.turn i) := by
  unfold Session.turn
  split
  · exact h.refl s
  · split
    · exact h.setRun i _ s
    · next st rest _ =>
        split
        · exact h.setRun i _ s
        · exact h.trans (h.steps.perform st s) (h.setRun i _ _)
    · exact h.refl s

theorem turnAll (s : Session) : R s s.turnAll :=
  h.steps.foldl (fun s i => h.turn i s) _ s

theorem settleWithin (turns : Nat) (s : Session) : R s (s.settleWithin turns) := by
  induction turns generalizing s with
  | zero => exact h.refl s
  | succ turns ih =>
      unfold Session.settleWithin
      split
      · exact h.trans (h.turnAll s) (ih s.turnAll)
      · exact h.refl s

theorem settle (s : Session) : R s s.settle :=
  h.settleWithin s.patience s

theorem moveTo (time : Nat) (s : Session) : R s (s.moveTo time) := by
  have hclock : R s { s with now := time, runs := s.runs.map (Run.awaken time) } :=
    h.calm ⟨rfl, rfl, rfl, rfl⟩
  exact h.trans hclock (h.settle _)

theorem passWhile (goOn : Session → Nat → Bool) (turns : Nat) (s : Session) :
    R s (s.passWhile goOn turns) := by
  induction turns generalizing s with
  | zero => exact h.refl s
  | succ turns ih =>
      unfold Session.passWhile
      split
      · exact h.refl s
      · next time _ =>
          split
          · exact h.trans (h.moveTo time s) (ih (s.moveTo time))
          · exact h.refl s

theorem passUntil (time : Nat) (s : Session) : R s (s.passUntil time) :=
  h.trans (h.passWhile _ s.patience s) (h.moveTo time _)

theorem advance (ms : Nat) (s : Session) : R s (s.advance ms) :=
  h.trans (h.settle s) (h.passUntil _ s.settle)

theorem finish (i : Nat) (s : Session) : R s (s.finish i).2 := by
  unfold Session.finish
  split
  · have hpass := h.passWhile (fun s _ => s.isRunning i) s.settle.patience s.settle
    have hwait := h.trans (h.settle s) hpass
    simp only
    split
    · exact h.trans hwait (h.setRun i _ _)
    · exact hwait
  · exact h.refl s

theorem execute (st : Step) (s : Session) : R s (s.execute st).2 := by
  unfold Session.execute
  split
  · exact h.refl s
  · split
    · exact h.steps.perform st s
    · next time _ =>
        exact h.trans (h.trans (h.settle s) (h.passUntil time s.settle)) (h.steps.perform st _)

end CoversRuns

end Session

end BehaviorGraph
