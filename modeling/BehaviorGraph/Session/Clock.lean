import BehaviorGraph.Session.Perform
/-!
# Runs and the Clock

How runs go on, and how time passes.

Runs that are ready take turns, one step at a time, until each is finished or
asleep in a delay; only then time passes. A delay is rounded to whole nanoseconds
and wakes at the next whole millisecond after it. A delay that rounds to nothing,
is not positive, or is too long to be told takes no time.

Every turn takes a run a step further, so as many turns are waited for as there
are steps left to do. An action can start another run, for which turns are kept
in reserve; two runs that start each other for ever are given up on.

## Main definitions

* `Step.nanoseconds?`: How long a delay takes.
* `Session.turn`: Let one run do one step.
* `Session.settle`: Let runs go on until none is ready.
* `Session.advance`: Let time pass.
* `Session.finish`: Wait for a run.
* `Session.execute`: Perform a single step, waiting if it is a delay.
-/

namespace BehaviorGraph

/-- The nanoseconds of a second. -/
def nanosecondsPerSecond : Nat :=
  1000000000

/-- The nanoseconds of a millisecond. -/
def nanosecondsPerMillisecond : Nat :=
  1000000

/-- The nanoseconds of a duration in seconds, unless it is not positive or too
    long to be told. -/
def Single.nanoseconds? (x : Single) : Option Nat :=
  if x.isFinite && 0 < x.toRat && x.toRat < (1 <<< 64 : Nat) then
    some (roundEven (x.toRat * nanosecondsPerSecond)).toNat
  else none

/-- The nanoseconds that a step waits for, if it is a delay. -/
def Step.nanoseconds? (st : Step) : Option Nat :=
  if st.type = .delay then (st.floatParam? .seconds).bind Single.nanoseconds? else none

/-- The time at which a step wakes that starts to wait now, if it waits at
    all. -/
def Step.wake? (st : Step) (now : Nat) : Option Nat :=
  (st.nanoseconds?.filter (0 < ·)).map fun ns =>
    now + (ns + (nanosecondsPerMillisecond - 1)) / nanosecondsPerMillisecond

/-- Count what became of a step. -/
def Tally.record (result : Except StepError StepOutcome) (t : Tally) : Tally :=
  match result with
  | .ok .applied => { t with executed := t.executed + 1 }
  | .ok .skipped => { t with skipped := t.skipped + 1 }
  | .error e =>
    if e.isUnresolved then { t with skipped := t.skipped + 1 }
    else { t with failed := t.failed + 1 }

namespace Run

/-- The run can do something. -/
def isReady (r : Run) : Bool :=
  match r.phase with
  | .ready _ => true
  | _ => false

/-- The run has done all its steps. -/
def isFinished (r : Run) : Bool :=
  match r.phase with
  | .finished => true
  | _ => false

/-- The number of turns until the run has finished, its delays aside. -/
def turnsLeft (r : Run) : Nat :=
  match r.phase with
  | .ready rest => rest.length + 1
  | .asleep _ rest => rest.length + 2
  | .finished => 0

/-- The time the run sleeps until. -/
def wake? (r : Run) : Option Nat :=
  match r.phase with
  | .asleep wake _ => some wake
  | _ => none

/-- End the run's delay if its time has come. -/
def awaken (now : Nat) (r : Run) : Run :=
  match r.phase with
  | .asleep wake rest =>
    if wake ≤ now then
      { r with phase := .ready rest, tally := r.tally.record (.ok .applied) }
    else r
  | _ => r

end Run

namespace Session

/-- Change where a run stands. -/
def setRun (i : Nat) (r : Run) (s : Session) : Session :=
  { s with runs := s.runs.set i r }

/-- Let a run do one step, if it is ready. -/
def turn (i : Nat) (s : Session) : Session :=
  match s.runs[i]? with
  | none => s
  | some r =>
    match r.phase with
    | .ready [] => s.setRun i { r with phase := .finished }
    | .ready (st :: rest) =>
      match st.wake? s.now with
      | some wake => s.setRun i { r with phase := .asleep wake rest }
      | none =>
        let (result, s) := s.perform st
        s.setRun i { r with phase := .ready rest, tally := r.tally.record result }
    | _ => s

/-- Let every run do one step. -/
def turnAll (s : Session) : Session :=
  (List.range s.runs.length).foldl (fun s i => s.turn i) s

/-- Let runs go on until none is ready, for a number of turns at most. -/
def settleWithin : Nat → Session → Session
  | 0, s => s
  | turns + 1, s => if s.runs.any Run.isReady then settleWithin turns s.turnAll else s

/-- The number of turns kept in reserve for runs that actions start. -/
def reserve : Nat :=
  1000000

/-- The number of turns that are waited for: one for every step left to do, one
    for every run to finish, and the reserve. -/
def patience (s : Session) : Nat :=
  s.runs.foldr (fun r turns => r.turnsLeft + turns) reserve

/-- Let runs go on until each is finished or asleep. -/
def settle (s : Session) : Session :=
  s.settleWithin s.patience

/-- Set the clock, and let the runs go on whose delays have ended. -/
def moveTo (time : Nat) (s : Session) : Session :=
  settle { s with now := time, runs := s.runs.map (Run.awaken time) }

/-- The time at which the next delay ends. -/
def nextWake? (s : Session) : Option Nat :=
  (s.runs.filterMap Run.wake?).min?

/-- Let time pass from one end of a delay to the next while a condition holds,
    for a number of turns at most. -/
def passWhile (goOn : Session → Nat → Bool) : Nat → Session → Session
  | 0, s => s
  | turns + 1, s =>
    match s.nextWake? with
    | none => s
    | some time => if goOn s time then passWhile goOn turns (s.moveTo time) else s

/-- Let time pass until a time, runs going on as their delays end. -/
def passUntil (time : Nat) (s : Session) : Session :=
  (s.passWhile (fun _ wake => wake ≤ time) s.patience).moveTo time

/-- Let runs go on, and then let time pass. -/
def advance (ms : Nat) (s : Session) : Session :=
  let s := s.settle
  s.passUntil (s.now + ms)

/-- Whether a run was started and has not done all its steps. -/
def isRunning (s : Session) (i : Nat) : Bool :=
  s.runs[i]?.any fun r => !r.isFinished

/-- Wait for a run, and take its tally. A run whose tally was taken before, or
    that does not exist, is not waited for. -/
def finish (i : Nat) (s : Session) : Option Tally × Session :=
  if s.runs[i]?.any fun r => !r.taken then
    let s := s.settle
    let s := s.passWhile (fun s _ => s.isRunning i) s.patience
    match s.runs[i]? with
    | some r => (some r.tally, s.setRun i { r with taken := true })
    | none => (none, s)
  else (none, s)

/-- The number of runs that were started and have not done all their steps. -/
def live (s : Session) : Nat :=
  s.runs.countP fun r => !r.isFinished

/-- Perform a single step outside of any run. Runs go on while it waits; without
    a scheduler, waiting fails. -/
def execute (st : Step) (s : Session) : Except StepError StepOutcome × Session :=
  if st.nanoseconds?.isSome && !s.scheduled then (.error (.failed st.node), s)
  else
    match st.wake? s.now with
    | none => s.perform st
    | some time => (s.settle.passUntil time).perform st

end Session

end BehaviorGraph
