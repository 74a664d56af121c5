import BehaviorGraph.Proofs.TurnRecord
import Mathlib.Algebra.BigOperators.Group.List.Basic
import Mathlib.Algebra.Order.Field.Rat
import Mathlib.Algebra.Ring.Nat
/-!
# Timers

When delays end, for any timer that ends them.

The clock of a session counts milliseconds, and a delay ends at the first of them by which
it is over. Nothing about runs depends on that. A timer can have a clock of its own and end
a delay at any later tick, as long as it does not end it too early. A session that is run
by such a timer does what it always does, but that a run which comes to a delay sleeps until
the tick that the timer says; and with the timer of milliseconds it is the session that
there is anyway.

A timer fixes a timetable for every list of steps: the first is done at once, and each of
the others when the delays before it have ended, one after the other.

## Main definitions

* `Timer`, `Timer.milliseconds`: What ends delays, and what ends those of a session.
* `Timer.after`: The time at which a step is over that is done at a time.
* `Timer.timetable`, `Timer.due`: When steps are done that are done one after the other.
* `Session.turnBy`, `Session.happenBy`, `Session.afterBy`: A session run by a timer.
* `Session.turnsBy`: Its turns.

## Theorems

* `Timer.getElem?_timetable`: The time of a step comes from the steps before it.
* `Timer.add_sum_le`: No step is done before the delays before it are over.
* `Session.turnBy_milliseconds`, `Session.afterBy_milliseconds`,
  `Session.turnsBy_milliseconds`: The timer of a session.
-/

namespace BehaviorGraph

/-- What ends delays. That later times have later ticks is not asked for. -/
structure Timer where
  /-- The nanoseconds that the clock counts at a time. -/
  unit : Nat
  /-- What the clock shows when a delay ends that is over after some nanoseconds. -/
  tick : Nat → Nat
  /-- The clock gets on. -/
  unit_pos : 0 < unit
  /-- No delay ends before it is over. -/
  le_tick : ∀ ns, ns ≤ tick ns * unit

/-- The nanoseconds that a step takes. -/
def Step.duration (st : Step) : Nat :=
  st.nanoseconds?.getD 0

/-- A number of seconds that is missing, infinite, not positive or too large to be told is no
    time to wait for. -/
theorem Step.nanoseconds?_eq_none {st : Step}
    (h : ∀ x, st.floatParam? .seconds = some x →
      x.isFinite = false ∨ x.toRat ≤ 0 ∨ 2 ^ 64 ≤ x.toRat) :
    st.nanoseconds? = none := by
  unfold nanoseconds?
  split
  · rcases hseconds : st.floatParam? .seconds with _ | x
    · rfl
    · have hunusable : ¬(x.isFinite && 0 < x.toRat && x.toRat < (1 <<< 64 : Nat)) = true := by
        rcases h x hseconds with hinfinite | hsmall | hlarge
        · simp [hinfinite]
        · simp [not_lt.2 hsmall]
        · have hbound : ((1 <<< 64 : Nat) : Rat) = 2 ^ 64 := by decide +kernel
          simp only [hbound, not_lt.2 hlarge, decide_false, Bool.and_false]
          exact Bool.false_ne_true
      exact if_neg hunusable
  · rfl

namespace Timer

variable (T : Timer)

/-- The time at which a step is over that is done at a time. -/
def after (now : Nat) (st : Step) : Nat :=
  match st.nanoseconds? with
  | none => now
  | some ns => T.tick (now * T.unit + ns)

/-- The steps with the times at which they are done, if the first is done now and each of
    the others when the one before it is over. -/
def timetable : Nat → List Step → List (Step × Nat)
  | _, [] => []
  | now, st :: steps => (st, now) :: timetable (T.after now st) steps

theorem after_eq_self {now : Nat} {st : Step} (h : st.nanoseconds? = none) :
    T.after now st = now := by
  simp only [after, h]

/-- A step takes no less time than it says. -/
theorem add_duration_le (now : Nat) (st : Step) :
    now * T.unit + st.duration ≤ T.after now st * T.unit := by
  unfold after Step.duration
  rcases st.nanoseconds? with _ | ns
  · exact le_rfl
  · exact T.le_tick _

theorem le_after (now : Nat) (st : Step) : now ≤ T.after now st := by
  have hunits := (Nat.le_add_right _ st.duration).trans (T.add_duration_le now st)
  exact Nat.le_of_mul_le_mul_right hunits T.unit_pos

/-- The time at which a step is due, counting from nought: when the delays before it have
    ended, one after the other. -/
def due (start : Nat) (steps : List Step) (k : Nat) : Nat :=
  (steps.take k).foldl T.after start

theorem getElem?_timetable (start : Nat) (steps : List Step) (k : Nat) :
    (T.timetable start steps)[k]? = steps[k]?.map fun st => (st, T.due start steps k) := by
  induction steps generalizing start k with
  | nil => rfl
  | cons st steps ih =>
      cases k with
      | zero => rfl
      | succ k => exact ih (T.after start st) k

/-- Nothing is done before the start. -/
theorem le_of_mem_timetable {start : Nat} {steps : List Step} {x : Step × Nat}
    (hx : x ∈ T.timetable start steps) : start ≤ x.2 := by
  induction steps generalizing start with
  | nil => exact absurd hx List.not_mem_nil
  | cons st steps ih =>
      rcases List.mem_cons.1 hx with rfl | hlater
      · exact le_rfl
      · exact (T.le_after start st).trans (ih hlater)

/-- Delays that end one after the other take no less time than all of them say. -/
theorem add_sum_le (start : Nat) (steps : List Step) :
    start * T.unit + (steps.map Step.duration).sum ≤ steps.foldl T.after start * T.unit := by
  induction steps generalizing start with
  | nil => exact le_rfl
  | cons st steps ih =>
      have hfirst := T.add_duration_le start st
      have hothers := ih (T.after start st)
      rw [List.map_cons, List.sum_cons, List.foldl_cons]
      omega

/-- The timer of a session, which ends a delay at the next whole millisecond. -/
def milliseconds : Timer where
  unit := nanosecondsPerMillisecond
  tick ns := (ns + (nanosecondsPerMillisecond - 1)) / nanosecondsPerMillisecond
  unit_pos := by decide
  le_tick ns := by
    unfold nanosecondsPerMillisecond
    omega

/-- The delay of a run ends when the timer of milliseconds says. -/
theorem wake?_eq (st : Step) (now : Nat) :
    st.wake? now =
      if now < milliseconds.after now st then some (milliseconds.after now st) else none := by
  unfold Step.wake? after
  rcases st.nanoseconds? with _ | ns
  · simp
  · have htick : milliseconds.tick (now * milliseconds.unit + ns) =
        now + (ns + (nanosecondsPerMillisecond - 1)) / nanosecondsPerMillisecond := by
      simp only [milliseconds, nanosecondsPerMillisecond]
      omega
    simp only [htick]
    by_cases hns : 0 < ns
    · have hlater : 0 < (ns + (nanosecondsPerMillisecond - 1)) / nanosecondsPerMillisecond := by
        simp only [nanosecondsPerMillisecond]
        omega
      simp [Option.filter, hns, hlater]
    · -- A delay of no nanoseconds ends at once.
      have hnow : ¬0 < (ns + (nanosecondsPerMillisecond - 1)) / nanosecondsPerMillisecond := by
        simp only [nanosecondsPerMillisecond]
        omega
      simp [Option.filter, hns, hnow]

end Timer

namespace Session

variable (T : Timer)

/-- Let a run do one step, if it is ready, and sleep as long as the timer says. -/
def turnBy (i : Nat) (s : Session) : Session :=
  match s.runs[i]? with
  | none => s
  | some r =>
    match r.phase with
    | .ready [] => s.setRun i { r with phase := .finished }
    | .ready (st :: rest) =>
      if s.now < T.after s.now st then
        s.setRun i { r with phase := .asleep (T.after s.now st) rest }
      else
        let (result, s) := s.perform st
        s.setRun i { r with phase := .ready rest, tally := r.tally.record result }
    | _ => s

section Turns

variable {T} {s : Session} {i : Nat} {r : Run} {st : Step} {rest : List Step}

theorem turnBy_of_none (hnone : s.runs[i]? = none) : s.turnBy T i = s := by
  simp only [turnBy, hnone]

theorem turnBy_of_not_isReady (hr : s.runs[i]? = some r) (hready : r.isReady = false) :
    s.turnBy T i = s := by
  rcases hphase : r.phase with rest | ⟨wake, rest⟩ | _
  · simp [Run.isReady, hphase] at hready
  · simp only [turnBy, hr, hphase]
  · simp only [turnBy, hr, hphase]

theorem turnBy_of_nil (hr : s.runs[i]? = some r) (hphase : r.phase = .ready []) :
    s.turnBy T i = s.setRun i { r with phase := .finished } := by
  simp only [turnBy, hr, hphase]

theorem turnBy_of_lt (hr : s.runs[i]? = some r) (hphase : r.phase = .ready (st :: rest))
    (hlater : s.now < T.after s.now st) :
    s.turnBy T i = s.setRun i { r with phase := .asleep (T.after s.now st) rest } := by
  simp only [turnBy, hr, hphase, if_pos hlater]

theorem turnBy_of_not_lt (hr : s.runs[i]? = some r) (hphase : r.phase = .ready (st :: rest))
    (hlater : ¬s.now < T.after s.now st) :
    s.turnBy T i = (s.perform st).2.setRun i
      { r with phase := .ready rest, tally := r.tally.record (s.perform st).1 } := by
  simp only [turnBy, hr, hphase, if_neg hlater]

end Turns

/-- The session after an event, run by a timer. -/
def happenBy (e : Event) (s : Session) : Session :=
  match e with
  | .turn run => s.turnBy T run
  | e => s.happen e

/-- The session after some events, run by a timer. -/
def afterBy (s : Session) (events : List Event) : Session :=
  events.foldl (fun s e => s.happenBy T e) s

/-- The turns of a history of a session that is run by a timer. -/
def turnsBy : List Event → Session → List Turn
  | [], _ => []
  | e :: events, s => s.eventTurns e ++ turnsBy events (s.happenBy T e)

theorem turnBy_milliseconds (i : Nat) (s : Session) :
    s.turnBy .milliseconds i = s.turn i := by
  unfold turnBy turn
  rcases s.runs[i]? with _ | r
  · rfl
  · rcases hphase : r.phase with (_ | ⟨st, rest⟩) | ⟨wake, rest⟩ | _
    · simp only [hphase]
    · -- A step that takes time is one that ends later.
      simp only [hphase, Timer.wake?_eq]
      split
      · rfl
      · rfl
    · simp only [hphase]
    · simp only [hphase]

theorem happenBy_milliseconds (e : Event) (s : Session) :
    s.happenBy .milliseconds e = s.happen e := by
  cases e with
  | turn run => exact s.turnBy_milliseconds run
  | _ => rfl

theorem afterBy_milliseconds (s : Session) (events : List Event) :
    s.afterBy .milliseconds events = s.after events := by
  unfold afterBy after
  simp only [happenBy_milliseconds]

theorem turnsBy_milliseconds (events : List Event) (s : Session) :
    s.turnsBy .milliseconds events = s.turns events := by
  induction events generalizing s with
  | nil => rfl
  | cons e events ih => rw [turnsBy, turns, happenBy_milliseconds, ih]

end Session

end BehaviorGraph
