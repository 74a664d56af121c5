import BehaviorGraph.Proofs.StepMeaning
import BehaviorGraph.Session.Clock
/-!
# Quiet Steps

What a step does to a session if the action that it calls, if any, does not touch the
world.

Then a step reads four things of a session, its targets, layers, world and log, and
changes two, its world and log. The meaning of the step says how: performing it
does exactly this, and counts it the same way. Only an action could do more, by
changing the world behind the run or by starting another run, and quiet actions
only write to the log or fail. In a quiet world, all of them are quiet.

## Main definitions

* `Session.called`: The action that performing a step calls.
* `Session.CallsQuietly`: Steps call quiet actions only.
* `Session.course`: The course that starts in a session.
* `Session.Performs`: What was performed is what a course describes.

## Theorems

* `Session.call_of_isQuiet`: Calling a quiet action writes its lines to the log.
* `Session.performLayers_spec`, `Session.performObjects_spec`,
  `Session.performCall_spec`: Each way of performing a step.
* `Session.perform_spec`: Performing a step that calls a quiet action, or none.
-/

namespace BehaviorGraph

/-! ### Performing -/

/-- Where no target leads to an object, nothing is switched. -/
theorem Targets.switch_eq_self {t : Targets} {s : Switch} {targets : List String} {w : World}
    (h : (t.switch s targets w).1 = 0) : (t.switch s targets w).2 = w := by
  induction targets generalizing w with
  | nil => rfl
  | cons target rest ih =>
      rcases hresolve : t.resolve? target with _ | id
      · simp only [Targets.switch, hresolve] at h ⊢
        exact ih h
      · simp only [Targets.switch, hresolve, Nat.add_eq_zero_iff, Bool.toNat_eq_zero] at h ⊢
        have hmissing : w.contains id = false := by
          rw [← World.switch_fst s id w]
          exact h.2
        have hsame := World.switch_of_not_contains hmissing s
        rw [hsame] at h ⊢
        exact ih h.1

namespace Session

theorem call_of_isQuiet {a : Action} (h : a.all Effect.isQuiet = true) (s : Session) :
    s.call a = (!a.fails, { s with log := s.log ++ a.lines }) := by
  induction a generalizing s with
  | nil => simp [call, Action.fails, Action.lines]
  | cons e rest ih =>
      rw [List.all_cons, Bool.and_eq_true] at h
      cases e with
      | log text =>
          simp only [call, apply]
          rw [ih h.2]
          simp [Action.fails, Action.lines]
      | fail => simp [call, apply, Action.fails, Action.lines]
      | setLayer name visible => simp [Effect.isQuiet] at h
      | setActive id active => simp [Effect.isQuiet] at h
      | despawn id => simp [Effect.isQuiet] at h
      | click id => simp [Effect.isQuiet] at h

/-- The action that performing a step calls. -/
def called (st : Step) (s : Session) : List Action :=
  if st.type = .call then (st.action? s.targets s.world).toList else []

/-- Some steps call quiet actions only, as things stand. -/
def CallsQuietly (s : Session) (steps : List Step) : Prop :=
  ∀ st ∈ steps, ∀ a ∈ s.called st, a.all Effect.isQuiet = true

theorem callsQuietly_of_isQuiet {s : Session} (hs : s.world.isQuiet = true) (steps : List Step) :
    s.CallsQuietly steps := by
  intro st _ a ha
  unfold called at ha
  split at ha
  · rw [Option.mem_toList, Step.action?, Option.bind_eq_some_iff] at ha
    rcases ha with ⟨id, -, ha⟩
    exact World.isQuiet_action hs ha
  · exact absurd ha List.not_mem_nil

/-- What steps call does not depend on active flags. -/
theorem called_congr {s s' : Session} (htargets : s'.targets = s.targets)
    (hactions : s'.world.actions = s.world.actions) (st : Step) : s'.called st = s.called st := by
  simp only [called, Step.action?, htargets, World.action?_congr hactions]

theorem CallsQuietly.congr {s s' : Session} {steps : List Step} (h : s.CallsQuietly steps)
    (htargets : s'.targets = s.targets) (hactions : s'.world.actions = s.world.actions) :
    s'.CallsQuietly steps := by
  intro st hst a ha
  rw [called_congr htargets hactions] at ha
  exact h st hst a ha

/-- A step calls the action that it names, or says which reference leads
    nowhere. -/
theorem callee_cases (st : Step) (s : Session) :
    (∃ a, st.action? s.targets s.world = some a ∧ s.callee st = .ok a) ∨
      (st.action? s.targets s.world = none ∧
        ∃ e, e.isUnresolved = true ∧ s.callee st = .error e) := by
  unfold Step.action? callee
  rcases st.target? with _ | target
  · exact Or.inr ⟨rfl, _, rfl, rfl⟩
  · simp only [Option.bind_some]
    rcases s.targets.resolve? target with _ | id
    · exact Or.inr ⟨rfl, _, rfl, rfl⟩
    · simp only [Option.bind_some, World.action?]
      rcases (s.world.get? id).bind fun o => o.actions.find?
          ((st.stringParam? .component).getD "") ((st.stringParam? .method).getD "") with _ | a
      · exact Or.inr ⟨rfl, _, rfl, rfl⟩
      · exact Or.inl ⟨a, rfl, rfl⟩

/-- The course that starts in the state of a session. -/
def course (s : Session) (tally : Tally) : Course where
  world := s.world
  log := s.log
  tally := tally

/-- Performing something had a result and led to a session that a course
    describes. -/
structure Performs (s : Session) (tally : Tally)
    (performed : Except StepError StepOutcome × Session) (c : Course) : Prop where
  /-- Nothing but the world and the log has changed. -/
  session : performed.2 = { s with world := c.world, log := c.log }
  /-- The result is counted as in the course. -/
  tally : tally.record performed.1 = c.tally

theorem performLayers_spec (s : Session) (tally : Tally) (switch : Switch) (st : Step) :
    s.Performs tally (s.performLayers switch st)
      ((s.course tally).switch (s.layers.switch switch st.layers)) := by
  unfold performLayers Course.switch course
  simp only
  split
  · exact ⟨rfl, rfl⟩
  · exact ⟨rfl, rfl⟩

theorem performObjects_spec (s : Session) (tally : Tally) (switch : Switch) (st : Step) :
    s.Performs tally (s.performObjects switch st)
      ((s.course tally).switch (s.targets.switch switch st.targets)) := by
  unfold performObjects Course.switch course
  split
  · next hempty =>
      -- Without targets there is nothing to switch, and the world stays as it is.
      rw [List.isEmpty_iff.1 hempty]
      exact ⟨rfl, rfl⟩
  · simp only
    split
    · exact ⟨rfl, rfl⟩
    · -- That no target leads to an object is an error, and counts as skipping.
      next hcount =>
        have hzero : (s.targets.switch switch st.targets s.world).1 = 0 := by omega
        rw [Targets.switch_eq_self hzero]
        exact ⟨rfl, rfl⟩

theorem performCall_spec {s : Session} {st : Step}
    (hquiet : ∀ a, st.action? s.targets s.world = some a → a.all Effect.isQuiet = true)
    (tally : Tally) :
    s.Performs tally (s.performCall st)
      ((s.course tally).call (st.action? s.targets s.world)) := by
  unfold performCall
  rcases s.callee_cases st with ⟨a, ha, hcallee⟩ | ⟨hnone, e, he, hcallee⟩
  · rw [hcallee, ha]
    simp only [call_of_isQuiet (hquiet a ha), Course.call, course]
    rcases a.fails with _ | _
    · exact ⟨rfl, rfl⟩
    · exact ⟨rfl, rfl⟩
  · -- A reference that leads nowhere counts as skipping, whichever it is.
    rw [hcallee, hnone]
    refine ⟨rfl, ?_⟩
    simp only [Tally.record, he]
    rfl

/-- Performing a step that calls nothing but a quiet action changes the world and the log
    as the step says, and it is counted as the step says. -/
theorem perform_spec {s : Session} {st : Step}
    (hquiet : ∀ a ∈ s.called st, a.all Effect.isQuiet = true) (tally : Tally) :
    s.Performs tally (s.perform st) (st.carryOut s.targets s.layers (s.course tally)) := by
  unfold Step.carryOut perform
  rcases htype : st.type with _ | _ | switch | switch | _ | _
  · exact ⟨rfl, rfl⟩
  · exact ⟨rfl, rfl⟩
  · exact s.performLayers_spec tally switch st
  · exact s.performObjects_spec tally switch st
  · exact ⟨rfl, rfl⟩
  · apply performCall_spec
    intro a ha
    apply hquiet
    rw [called, if_pos htype, ha]
    exact List.mem_singleton_self a

/-- The call that a step makes is the one it adds to a course. -/
theorem called_carryOut (s : Session) (tally : Tally) (st : Step) :
    (st.carryOut s.targets s.layers (s.course tally)).called = s.called st := by
  unfold Step.carryOut called
  cases st.type with
  | click => rfl
  | key => rfl
  | layers switch => simp [Course.called_switch, course]
  | objects switch => simp [Course.called_switch, course]
  | delay => rfl
  | call =>
      simp only [course, ↓reduceIte]
      rw [Course.called_call]
      rfl

end Session

end BehaviorGraph
