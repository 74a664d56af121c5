import BehaviorGraph.Proofs.Histories
/-!
# The Turns of a History

Which runs do a step in a history, and when.

A session does not remember the order in which its runs took turns; it only counts what
became of their steps. The order can be read off the definitions, though. Whatever makes
runs go on, be it a single turn, time that passes, or waiting for a run, comes down to
turns of single runs and settings of the clock, so each of these definitions has a
companion that lists the turns as they are taken, each with the session that it is taken
in.

A turn in which a run has a step to do dispatches this step. The turn then performs this
step and no other, once, and counts what became of it; a delay that takes time is
dispatched when the run falls asleep in it, and not again when it ends. A turn in which
nothing is dispatched leaves everything as it is, unless the run is finished by it.

To know something about a history and its turns, it is enough to know it of one turn, of
one setting of the clock, and of taking the tally of a run, provided that it carries over
from two parts of a history to both in a row. The lemmas below follow the definitions down
once for all such relations.

## Main definitions

* `Turn`, `Dispatch`: A turn of a run, and a step that it does.
* `Session.turns`: The turns of a history.
* `Session.dispatches`: The steps that runs do in a history.
* `Session.FollowsTurns`: A relation between a session, turns, and a later session that
  carries over to turns in a row.

## Theorems

* `Session.turn_of_dispatch?`, `Session.turn_of_dispatch?_eq_none`: What a turn does, told
  from what is dispatched in it.
* `Session.FollowsTurns.settle`, `Session.FollowsTurns.moveTo`: Runs that go on.
* `Session.FollowsTurns.passUntil`, `Session.FollowsTurns.advance`: Time that passes.
* `Session.FollowsTurns.finish`: Waiting for a run.
-/

namespace BehaviorGraph

/-- The step that a run does next, if it is ready. -/
def Run.next? (r : Run) : Option Step :=
  match r.phase with
  | .ready (st :: _) => some st
  | _ => none

theorem Run.next?_eq_some_iff {r : Run} {st : Step} :
    r.next? = some st ↔ ∃ rest, r.phase = .ready (st :: rest) := by
  rcases hphase : r.phase with (_ | ⟨first, rest⟩) | ⟨wake, rest⟩ | _ <;> simp [next?, hphase]

/-- A turn of a run. -/
structure Turn where
  /-- The number of the run. -/
  run : Nat
  /-- The session that the turn is taken in. -/
  before : Session

/-- A step that a run does. -/
structure Dispatch where
  /-- The number of the run. -/
  run : Nat
  /-- The step. -/
  step : Step
  /-- The session that the step is done in. -/
  before : Session

/-- The run that takes the turn, where it stands before it. -/
def Turn.mover? (t : Turn) : Option Run :=
  t.before.runs[t.run]?

/-- The step that is done in a turn, if there is one. -/
def Turn.dispatch? (t : Turn) : Option Dispatch :=
  (t.mover?.bind Run.next?).map fun step => ⟨t.run, step, t.before⟩

theorem Turn.dispatch?_eq {s : Session} {i : Nat} {r : Run} (hr : s.runs[i]? = some r) :
    Turn.dispatch? ⟨i, s⟩ = r.next?.map fun st => ⟨i, st, s⟩ := by
  simp only [dispatch?, mover?, hr, Option.bind_some]

/-- Who is not there does nothing. -/
theorem Turn.dispatch?_eq_none {s : Session} {i : Nat} (hnone : s.runs[i]? = none) :
    Turn.dispatch? ⟨i, s⟩ = none := by
  simp only [dispatch?, mover?, hnone, Option.bind_none, Option.map_none]

namespace Session

/-! ### What a turn does -/

section Turn

variable {s : Session} {i : Nat} {r : Run}

theorem getElem?_setRun_self (hr : s.runs[i]? = some r) (r' : Run) :
    (s.setRun i r').runs[i]? = some r' :=
  List.getElem?_set_self (List.getElem?_eq_some_iff.1 hr).1

/-- A turn of a run that is not there is a turn of nobody. -/
theorem turn_of_none (hr : s.runs[i]? = none) : s.turn i = s := by
  simp only [turn, hr]

/-- A run that is asleep or finished has nothing to do. -/
theorem turn_of_not_isReady (hr : s.runs[i]? = some r) (h : r.isReady = false) :
    s.turn i = s := by
  unfold turn
  rw [hr]
  rcases hphase : r.phase with rest | ⟨wake, rest⟩ | _
  · simp [Run.isReady, hphase] at h
  · simp [hphase]
  · simp [hphase]

theorem turn_of_nil (hr : s.runs[i]? = some r) (h : r.phase = .ready []) :
    s.turn i = s.setRun i { r with phase := .finished } := by
  simp only [turn, hr, h]

theorem turn_of_wake {st : Step} {rest : List Step} {wake : Nat} (hr : s.runs[i]? = some r)
    (h : r.phase = .ready (st :: rest)) (hwake : st.wake? s.now = some wake) :
    s.turn i = s.setRun i { r with phase := .asleep wake rest } := by
  simp only [turn, hr, h, hwake]

theorem turn_of_perform {st : Step} {rest : List Step} (hr : s.runs[i]? = some r)
    (h : r.phase = .ready (st :: rest)) (hwake : st.wake? s.now = none) :
    s.turn i = (s.perform st).2.setRun i
      { r with phase := .ready rest, tally := r.tally.record (s.perform st).1 } := by
  simp only [turn, hr, h, hwake]

/-- The turn of a recorded step performs this step, once, and counts what became of it; or
    the step is a delay, and the run falls asleep in it. Either way the run has the steps
    behind it left. -/
theorem turn_of_dispatch? {d : Dispatch} (h : Turn.dispatch? ⟨i, s⟩ = some d) :
    d.run = i ∧ d.before = s ∧ ∃ r rest, s.runs[i]? = some r ∧
      r.phase = .ready (d.step :: rest) ∧
      ((d.step.wake? s.now = none ∧
          s.turn i = (s.perform d.step).2.setRun i
            { r with phase := .ready rest, tally := r.tally.record (s.perform d.step).1 }) ∨
        ∃ wake, d.step.wake? s.now = some wake ∧
          s.turn i = s.setRun i { r with phase := .asleep wake rest }) := by
  rcases hr : s.runs[i]? with _ | r
  · rw [Turn.dispatch?_eq_none hr] at h
    exact absurd h (by simp)
  · rw [Turn.dispatch?_eq hr, Option.map_eq_some_iff] at h
    rcases h with ⟨st, hnext, rfl⟩
    rcases Run.next?_eq_some_iff.1 hnext with ⟨rest, hphase⟩
    refine ⟨rfl, rfl, r, rest, rfl, hphase, ?_⟩
    rcases hwake : st.wake? s.now with _ | wake
    · exact Or.inl ⟨rfl, turn_of_perform hr hphase hwake⟩
    · exact Or.inr ⟨wake, rfl, turn_of_wake hr hphase hwake⟩

/-- A turn without a recorded step does nothing, but that a run without steps left is
    finished by it. -/
theorem turn_of_dispatch?_eq_none (h : Turn.dispatch? ⟨i, s⟩ = none) :
    s.turn i = s ∨ ∃ r, s.runs[i]? = some r ∧ r.phase = .ready [] ∧
      s.turn i = s.setRun i { r with phase := .finished } := by
  rcases hr : s.runs[i]? with _ | r
  · exact Or.inl (turn_of_none hr)
  · rw [Turn.dispatch?_eq hr, Option.map_eq_none_iff] at h
    rcases hphase : r.phase with (_ | ⟨st, rest⟩) | ⟨wake, rest⟩ | _
    · exact Or.inr ⟨r, rfl, hphase, turn_of_nil hr hphase⟩
    · rw [Run.next?_eq_some_iff.2 ⟨rest, hphase⟩] at h
      exact absurd h (by simp)
    · exact Or.inl (turn_of_not_isReady hr (by simp [Run.isReady, hphase]))
    · exact Or.inl (turn_of_not_isReady hr (by simp [Run.isReady, hphase]))

end Turn

/-! ### The turns of a history -/

/-- Turns of some runs, one after the other. -/
def turnsOf : List Nat → Session → List Turn
  | [], _ => []
  | i :: is, s => ⟨i, s⟩ :: turnsOf is (s.turn i)

/-- A turn of every run. -/
def turnAllTurns (s : Session) : List Turn :=
  turnsOf (List.range s.runs.length) s

/-- The turns that are taken while runs go on, for a number of turns at most. -/
def settleTurns : Nat → Session → List Turn
  | 0, _ => []
  | turns + 1, s =>
    if s.runs.any Run.isReady then s.turnAllTurns ++ settleTurns turns s.turnAll else []

/-- The turns that are taken when the clock is set. -/
def moveTurns (time : Nat) (s : Session) : List Turn :=
  let s := { s with now := time, runs := s.runs.map (Run.awaken time) }
  settleTurns s.patience s

/-- The turns that are taken while time passes, for a number of turns at most. -/
def passTurns (goOn : Session → Nat → Bool) : Nat → Session → List Turn
  | 0, _ => []
  | turns + 1, s =>
    match s.nextWake? with
    | none => []
    | some time =>
      if goOn s time then s.moveTurns time ++ passTurns goOn turns (s.moveTo time) else []

/-- The turns that are taken until a time. -/
def untilTurns (time : Nat) (s : Session) : List Turn :=
  let goOn := fun (_ : Session) wake => decide (wake ≤ time)
  passTurns goOn s.patience s ++ (s.passWhile goOn s.patience).moveTurns time

/-- The turns that are taken while time passes. -/
def advanceTurns (ms : Nat) (s : Session) : List Turn :=
  settleTurns s.patience s ++ s.settle.untilTurns (s.settle.now + ms)

/-- The turns that are taken while a run is waited for. -/
def finishTurns (i : Nat) (s : Session) : List Turn :=
  if s.runs[i]?.any fun r => !r.taken then
    settleTurns s.patience s ++
      passTurns (fun s _ => s.isRunning i) s.settle.patience s.settle
  else []

/-- The turns that are taken while a single step waits. -/
def executeTurns (st : Step) (s : Session) : List Turn :=
  if st.nanoseconds?.isSome && !s.scheduled then []
  else
    match st.wake? s.now with
    | none => []
    | some time => settleTurns s.patience s ++ s.settle.untilTurns time

/-- The turns that are taken in an event. -/
def eventTurns (e : Event) (s : Session) : List Turn :=
  match e with
  | .turn run => [⟨run, s⟩]
  | .advance ms => s.advanceTurns ms
  | .finish run => s.finishTurns run
  | .execute st => s.executeTurns st
  | _ => []

/-- The turns of a history. -/
def turns : List Event → Session → List Turn
  | [], _ => []
  | e :: events, s => s.eventTurns e ++ turns events (s.happen e)

/-- The steps that runs do in a history, in the order in which they are done. -/
def dispatches (events : List Event) (s : Session) : List Dispatch :=
  (s.turns events).filterMap Turn.dispatch?

/-- A relation between a session, the turns that are taken from there, and a later
    session, which carries over to turns in a row. -/
structure FollowsTurns (R : Session → List Turn → Session → Prop) : Prop where
  /-- It holds if nothing happens. -/
  refl : ∀ s : Session, R s [] s
  /-- It holds of two parts in a row. -/
  trans : ∀ {s s' s'' : Session} {ts ts' : List Turn},
    R s ts s' → R s' ts' s'' → R s (ts ++ ts') s''
  /-- It holds of a turn. -/
  turn : ∀ (i : Nat) (s : Session), R s [⟨i, s⟩] (s.turn i)
  /-- It holds of setting the clock. -/
  clock : ∀ (time : Nat) (s : Session),
    R s [] { s with now := time, runs := s.runs.map (Run.awaken time) }
  /-- It holds of taking the tally of a run. -/
  take : ∀ {s : Session} {i : Nat} {r : Run}, s.runs[i]? = some r →
    R s [] (s.setRun i { r with taken := true })

namespace FollowsTurns

variable {R : Session → List Turn → Session → Prop} (h : FollowsTurns R)
include h

theorem turnsOf (is : List Nat) (s : Session) :
    R s (s.turnsOf is) (is.foldl (fun s i => s.turn i) s) := by
  induction is generalizing s with
  | nil => exact h.refl s
  | cons i is ih => exact h.trans (h.turn i s) (ih (s.turn i))

theorem turnAll (s : Session) : R s s.turnAllTurns s.turnAll :=
  h.turnsOf _ s

theorem settleWithin (turns : Nat) (s : Session) :
    R s (s.settleTurns turns) (s.settleWithin turns) := by
  induction turns generalizing s with
  | zero => exact h.refl s
  | succ turns ih =>
      unfold Session.settleWithin Session.settleTurns
      split
      · exact h.trans (h.turnAll s) (ih s.turnAll)
      · exact h.refl s

theorem settle (s : Session) : R s (s.settleTurns s.patience) s.settle :=
  h.settleWithin s.patience s

theorem moveTo (time : Nat) (s : Session) : R s (s.moveTurns time) (s.moveTo time) :=
  -- Setting the clock is no turn.
  h.trans (h.clock time s) (h.settle _)

theorem passWhile (goOn : Session → Nat → Bool) (turns : Nat) (s : Session) :
    R s (s.passTurns goOn turns) (s.passWhile goOn turns) := by
  induction turns generalizing s with
  | zero => exact h.refl s
  | succ turns ih =>
      rw [Session.passWhile, Session.passTurns]
      rcases s.nextWake? with _ | time
      · exact h.refl s
      · simp only
        split
        · exact h.trans (h.moveTo time s) (ih (s.moveTo time))
        · exact h.refl s

theorem passUntil (time : Nat) (s : Session) : R s (s.untilTurns time) (s.passUntil time) :=
  h.trans (h.passWhile _ s.patience s) (h.moveTo time _)

theorem advance (ms : Nat) (s : Session) : R s (s.advanceTurns ms) (s.advance ms) :=
  h.trans (h.settle s) (h.passUntil _ s.settle)

theorem finish (i : Nat) (s : Session) : R s (s.finishTurns i) (s.finish i).2 := by
  unfold Session.finish Session.finishTurns
  split
  · have hwait := h.trans (h.settle s)
      (h.passWhile (fun s _ => s.isRunning i) s.settle.patience s.settle)
    simp only
    split
    · next r hr =>
        -- Taking the tally is no turn either.
        have htaken := h.trans hwait (h.take hr)
        rw [List.append_nil] at htaken
        exact htaken
    · exact hwait
  · exact h.refl s

/-- A step outside of any run can change anything, but it takes no turn itself. -/
theorem execute {st : Step} (hperform : ∀ s : Session, R s [] (s.perform st).2) (s : Session) :
    R s (s.executeTurns st) (s.execute st).2 := by
  rw [Session.execute, Session.executeTurns]
  split
  · exact h.refl s
  · rcases st.wake? s.now with _ | time
    · exact hperform s
    · have hwait := h.trans (h.settle s) (h.passUntil time s.settle)
      have hdone := h.trans hwait (hperform _)
      rw [List.append_nil] at hdone
      exact hdone

/-- What holds of every event and its turns holds of every history. -/
theorem after {events : List Event}
    (hevents : ∀ e ∈ events, ∀ s : Session, R s (s.eventTurns e) (s.happen e)) (s : Session) :
    R s (s.turns events) (s.after events) := by
  induction events generalizing s with
  | nil => exact h.refl s
  | cons e events ih =>
      have hfirst := hevents e List.mem_cons_self s
      exact h.trans hfirst (ih (fun e' he' => hevents e' (List.mem_cons_of_mem e he')) _)

end FollowsTurns

end Session

end BehaviorGraph
