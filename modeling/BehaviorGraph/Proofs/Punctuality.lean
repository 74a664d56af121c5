import BehaviorGraph.Proofs.Accounting
import BehaviorGraph.Proofs.SceneChanges
import BehaviorGraph.Proofs.Timers
/-!
# Punctual Runs

Delays belong to their own run.

A scheduler can let the runs that are ready take turns in any order. All it owes them is
that it does not let time pass while one of them is ready, and that the clock stops at each
end of a delay. Then a run keeps to a timetable that is fixed when it starts, by its own
delays alone, and whatever else goes on in the session does not show in it.

What carries this is a quantity that no event changes: the steps a run has done, each with
its time, and after them the timetable of those that it has left, from now on or from the
end of the delay that it is in. A run that is ready has a step to do now. If it does it, the
step moves from the timetable to the record; and the clock, which alone could spoil the
timetable, stands still until then.

## Main definitions

* `Event.isTimely`, `Session.isTimely`: The clock is set as a scheduler has to.
* `Session.beginning?`: When a run starts, and its steps.
* `Session.doneUnder`: The steps that a run does in a history, each where it is done.
* `Run.plan`: The steps that a run is going to do, with their times.
* `Run.KeepsTime`: A run goes on by its timetable.
* `Session.DoneWhenDue`: A run has done what was due, when it was due.

## Theorems

* `Session.keepsTime_happenBy`: A run keeps time in an event.
* `Session.keepsTime_of_beginning?`: And in a history, from its start on.
* `Session.done_when_due`: Each run does its steps when they are due.
-/

namespace BehaviorGraph

/-- A step that is done, with the time at which it is done. -/
def Dispatch.stamp (d : Dispatch) : Step × Nat :=
  (d.step, d.before.now)

/-- No run is ready. -/
def Session.isIdle (s : Session) : Bool :=
  s.runs.all fun r => !r.isReady

/-- The event leaves the clock alone, or sets it as a scheduler has to: not back, not while
    a run is ready, and not beyond the end of a delay. Whatever lets time pass for longer
    is a number of turns and such events. -/
def Event.isTimely (e : Event) (s : Session) : Bool :=
  match e with
  | .clock time => s.isIdle && s.now ≤ time && s.runs.all fun r => r.wake?.all (time ≤ ·)
  | .advance _ | .finish _ => false
  | .execute st => st.nanoseconds?.isNone
  | _ => true

namespace Session

variable (T : Timer)

/-- The clock is set in a history as a scheduler has to. -/
def isTimely : List Event → Session → Bool
  | [], _ => true
  | e :: events, s => e.isTimely s && isTimely events (s.happenBy T e)

/-- The time at which a run starts in a history, or at which it is there already, and the
    steps that it has. -/
def beginning? (i : Nat) : List Event → Session → Option (Nat × List Step)
  | [], s => s.runs[i]?.map fun r => (s.now, r.rest)
  | e :: events, s =>
    (s.runs[i]?.map fun r => (s.now, r.rest)).or (beginning? i events (s.happenBy T e))

/-- The steps that a run does in a history of a session that is run by a timer. -/
def doneUnder (i : Nat) (events : List Event) (s : Session) : List Dispatch :=
  dispatchesOf i (s.turnsBy T events)

theorem doneUnder_milliseconds (i : Nat) (events : List Event) (s : Session) :
    s.doneUnder .milliseconds i events = s.doneBy i events := by
  rw [doneUnder, turnsBy_milliseconds]
  rfl

end Session

/-! ### Plans -/

namespace Run

/-- The delay that the run is in, if any, ends later than now. -/
def SleepsOn (now : Nat) (r : Run) : Prop :=
  ∀ wake, r.wake? = some wake → now < wake

/-- The steps that a run is going to do, with the times at which it is going to do them. -/
def plan (T : Timer) (now : Nat) (r : Run) : List (Step × Nat) :=
  match r.phase with
  | .ready rest => T.timetable now rest
  | .asleep wake rest => T.timetable wake rest
  | .finished => []

/-- What a run that is not ready has left, it does later. -/
theorem lt_of_mem_plan {T : Timer} {now : Nat} {r : Run} (hsleeps : r.SleepsOn now)
    (hready : r.isReady = false) {x : Step × Nat} (hx : x ∈ r.plan T now) : now < x.2 := by
  unfold plan at hx
  rcases hphase : r.phase with rest | ⟨wake, rest⟩ | _
  · simp [isReady, hphase] at hready
  · rw [hphase] at hx
    have hwake : now < wake := hsleeps wake (by simp only [wake?, hphase])
    exact hwake.trans_le (T.le_of_mem_timetable hx)
  · rw [hphase] at hx
    exact absurd hx List.not_mem_nil

theorem le_of_mem_plan {T : Timer} {now : Nat} {r : Run} (hsleeps : r.SleepsOn now)
    {x : Step × Nat} (hx : x ∈ r.plan T now) : now ≤ x.2 := by
  rcases hready : r.isReady with _ | _
  · exact (lt_of_mem_plan hsleeps hready hx).le
  · rcases isReady_iff.1 hready with ⟨rest, hphase⟩
    simp only [plan, hphase] at hx
    exact T.le_of_mem_timetable hx

/-- A run goes on from where it stands at a time to another place at another time, and does
    meanwhile what it is to do until then. -/
structure KeepsTime (T : Timer) (now : Nat) (r : Run) (done : List Dispatch) (now' : Nat)
    (r' : Run) : Prop where
  /-- What it does, and what it is going to do then, is what it was going to do. -/
  plan : done.map Dispatch.stamp ++ r'.plan T now' = r.plan T now
  /-- It does not oversleep. -/
  sleeps : r.SleepsOn now → r'.SleepsOn now'
  /-- The clock is not set back. -/
  clock : now ≤ now'
  /-- What it does, it has done by then. -/
  past : ∀ d ∈ done, d.before.now ≤ now'

variable {T : Timer} {now now' now'' : Nat} {r r' r'' : Run} {done done' : List Dispatch}

theorem KeepsTime.refl (T : Timer) (now : Nat) (r : Run) : r.KeepsTime T now [] now r :=
  ⟨rfl, id, le_rfl, fun _ hd => absurd hd List.not_mem_nil⟩

theorem KeepsTime.trans (h : r.KeepsTime T now done now' r')
    (h' : r'.KeepsTime T now' done' now'' r'') :
    r.KeepsTime T now (done ++ done') now'' r'' where
  plan := by rw [List.map_append, List.append_assoc, h'.plan, h.plan]
  sleeps := h'.sleeps ∘ h.sleeps
  clock := h.clock.trans h'.clock
  past d hd := by
    rcases List.mem_append.1 hd with hfirst | hthen
    · exact (h.past d hfirst).trans h'.clock
    · exact h'.past d hthen

/-- It only matters where the run stands. -/
theorem KeepsTime.of_phase (h : r.KeepsTime T now done now' r') (hphase : r''.phase = r.phase) :
    r''.KeepsTime T now done now' r' where
  plan := by
    rw [h.plan]
    simp only [Run.plan, hphase]
  sleeps hsleeps := by
    apply h.sleeps
    simpa only [SleepsOn, wake?, hphase] using hsleeps
  clock := h.clock
  past := h.past

/-- The clock is set while the run is not ready, and not beyond the end of its delay. -/
theorem KeepsTime.of_awaken (hready : r.isReady = false) (hclock : now ≤ now')
    (hwake : ∀ wake, r.wake? = some wake → now' ≤ wake) :
    r.KeepsTime T now [] now' (r.awaken now') := by
  have hplan : (r.awaken now').plan T now' = r.plan T now ∧ (r.awaken now').SleepsOn now' := by
    rcases hphase : r.phase with rest | ⟨wake, rest⟩ | _
    · simp [isReady, hphase] at hready
    · have hle : now' ≤ wake := hwake wake (by simp only [wake?, hphase])
      by_cases hover : wake ≤ now'
      · -- The delay ends just now.
        have hnow : now' = wake := le_antisymm hle hover
        simp [awaken, Run.plan, SleepsOn, wake?, hphase, hnow]
      · simp [awaken, Run.plan, SleepsOn, wake?, hphase, hover, lt_of_not_ge hover]
    · simp [awaken, Run.plan, SleepsOn, wake?, hphase]
  exact ⟨hplan.1, fun _ => hplan.2, hclock, fun d hd => absurd hd List.not_mem_nil⟩

variable {start k : Nat} {steps : List Step}

/-- What a run does that keeps time from its start on, it does when it is due. -/
theorem KeepsTime.due_of_done (h : KeepsTime T start { phase := .ready steps } done now r)
    {d : Dispatch} (hd : done[k]? = some d) :
    steps[k]? = some d.step ∧ d.before.now = T.due start steps k := by
  have hplan : done.map Dispatch.stamp ++ r.plan T now = T.timetable start steps := h.plan
  have hstamp : (done.map Dispatch.stamp)[k]? = some d.stamp := by
    rw [List.getElem?_map, hd, Option.map_some]
  have hentry : (T.timetable start steps)[k]? = some d.stamp := by
    rw [← hplan, List.getElem?_append_left (List.getElem?_eq_some_iff.1 hstamp).1, hstamp]
  rw [T.getElem?_timetable, Option.map_eq_some_iff] at hentry
  rcases hentry with ⟨st, hst, heq⟩
  rcases Prod.mk.inj heq with ⟨hstep, htime⟩
  exact ⟨hstep ▸ hst, htime.symm⟩

/-- What it has not done is part of its plan. -/
theorem KeepsTime.mem_plan_of_left
    (h : KeepsTime T start { phase := .ready steps } done now r) (hk : k < steps.length)
    (hleft : ¬k < done.length) : ∃ x ∈ r.plan T now, x.2 = T.due start steps k := by
  have hplan : done.map Dispatch.stamp ++ r.plan T now = T.timetable start steps := h.plan
  have hentry := T.getElem?_timetable start steps k
  rw [← hplan, List.getElem?_append_right (by simpa using hleft),
    List.getElem?_eq_getElem hk] at hentry
  exact ⟨_, List.mem_of_getElem? hentry, rfl⟩

end Run

namespace Session

variable {T : Timer} {s s' : Session} {i j : Nat} {r : Run}

/-! ### Others -/

/-- No time passes, and a run is left alone if it is there. -/
structure Spares (i : Nat) (s s' : Session) : Prop where
  /-- No time passes. -/
  now : s'.now = s.now
  /-- The run is left alone. -/
  stays : ∀ {r : Run}, s.runs[i]? = some r → s'.runs[i]? = some r
  /-- It can be started. -/
  begins : s.runs[i]? = none → ∀ {r : Run}, s'.runs[i]? = some r →
    ∃ steps, r = { phase := .ready steps }

theorem Spares.of_starts (hstarts : s.Starts s') (hnow : s'.now = s.now) : s.Spares i s' where
  now := hnow
  stays := hstarts.get_of_some
  begins hnone _ := hstarts.get_of_none hnone

theorem Spares.refl (i : Nat) (s : Session) : s.Spares i s :=
  .of_starts (.of_runs rfl) rfl

theorem Spares.setRun (h : s.Spares i s') (hj : j ≠ i) (r : Run) :
    s.Spares i (s'.setRun j r) := by
  have hsame : (s'.setRun j r).runs[i]? = s'.runs[i]? := List.getElem?_set_ne hj
  exact ⟨h.now, fun hr => hsame.trans (h.stays hr), fun hnone _ hr => h.begins hnone (hsame ▸ hr)⟩

theorem now_despawn (id : ObjectId) (s : Session) : (s.despawn id).2.now = s.now := by
  simp only [despawn, foldl_forget]

theorem now_unloadScene (scene : String) (s : Session) :
    (s.unloadScene scene).2.now = s.now := by
  simp only [unloadScene, sceneUnloaded, foldl_forgetWithScene]

theorem now_startRun (steps : List Step) (s : Session) : (s.startRun steps).2.now = s.now := by
  unfold startRun
  split
  · rfl
  · rfl

/-- No step takes time while it is performed. -/
theorem coversSteps_now : CoversSteps fun s s' => s'.now = s.now where
  refl _ := rfl
  trans h h' := h'.trans h
  switched _ := rfl
  logged _ _ := rfl
  startRun := now_startRun
  despawn := now_despawn

theorem spares_perform (i : Nat) (st : Step) (s : Session) : s.Spares i (s.perform st).2 :=
  .of_starts (s.starts_perform st) (coversSteps_now.perform st s)

theorem spares_turnBy (T : Timer) (hj : j ≠ i) (s : Session) : s.Spares i (s.turnBy T j) := by
  unfold turnBy
  split
  · exact .refl i s
  · split
    · exact (Spares.refl i s).setRun hj _
    · next st rest _ =>
        split
        · exact (Spares.refl i s).setRun hj _
        · exact (s.spares_perform i st).setRun hj _
    · exact .refl i s

/-! ### Turns -/

/-- A run that takes a turn does what it is to do now, if anything. -/
theorem keepsTime_turnBy (hr : s.runs[i]? = some r) :
    ∃ r', (s.turnBy T i).runs[i]? = some r' ∧
      r.KeepsTime T s.now (dispatchesOf i [⟨i, s⟩]) (s.turnBy T i).now r' := by
  have hidle : r.isReady = false → ∃ r', (s.turnBy T i).runs[i]? = some r' ∧
      r.KeepsTime T s.now [] (s.turnBy T i).now r' := by
    intro hready
    rw [turnBy_of_not_isReady hr hready]
    exact ⟨r, hr, .refl T s.now r⟩
  rw [dispatchesOf_of_some hr]
  obtain ⟨phase, tally, taken⟩ := r
  rcases phase with (_ | ⟨st, rest⟩) | ⟨wake, rest⟩ | _
  · rw [turnBy_of_nil hr rfl]
    refine ⟨_, getElem?_setRun_self hr _, rfl, fun _ _ hwake => ?_, le_rfl, fun d hd => ?_⟩
    · exact absurd hwake (by simp [Run.wake?])
    · exact absurd hd List.not_mem_nil
  · have hpast : ∀ d ∈ [Dispatch.mk i st s], d.before.now ≤ s.now := by
      intro d hd
      rw [List.mem_singleton.1 hd]
    by_cases hlater : s.now < T.after s.now st
    · -- The run falls asleep, and its timetable goes on when the delay ends.
      rw [turnBy_of_lt hr rfl hlater]
      refine ⟨_, getElem?_setRun_self hr _, rfl, fun _ wake hwake => ?_, le_rfl, hpast⟩
      rw [← Option.some.inj hwake]
      exact hlater
    · -- The step is over at once, and the run is still ready.
      have hnow : T.after s.now st = s.now := le_antisymm (not_lt.1 hlater) (T.le_after _ _)
      have hspares := s.spares_perform i st
      rw [turnBy_of_not_lt hr rfl hlater]
      refine ⟨_, getElem?_setRun_self (hspares.stays hr) _, ?_, fun _ _ hwake => ?_,
        hspares.now.ge, ?_⟩
      · simp only [Run.next?, Run.plan, Timer.timetable, hnow, setRun, hspares.now]
        rfl
      · exact absurd hwake (by simp [Run.wake?])
      · simp only [setRun, hspares.now]
        exact hpast
  · exact hidle rfl
  · exact hidle rfl

/-! ### Events -/

theorem execute_of_nanoseconds? {st : Step} (h : st.nanoseconds? = none) (s : Session) :
    s.execute st = s.perform st ∧ s.executeTurns st = [] := by
  have hwake : st.wake? s.now = none := by simp [Step.wake?, h]
  simp [execute, executeTurns, h, hwake]

/-- What is no turn of a run and does not set the clock leaves the run alone. -/
theorem spares_happenBy {e : Event} (htimely : e.isTimely s = true)
    (hclock : ∀ time, e ≠ .clock time) (hturn : e ≠ .turn i) :
    s.Spares i (s.happenBy T e) ∧ dispatchesOf i (s.eventTurns e) = [] := by
  cases e with
  | spawn id o => exact ⟨.of_starts (.of_runs rfl) rfl, rfl⟩
  | despawn id => exact ⟨.of_starts (.of_runs (s.runs_despawn id)) (s.now_despawn id), rfl⟩
  | loadScene scene objects => exact ⟨.of_starts (.of_runs rfl) rfl, rfl⟩
  | sceneLoaded scene => exact ⟨.of_starts (.of_runs rfl) rfl, rfl⟩
  | unloadScene scene =>
      exact ⟨.of_starts (.of_runs (s.runs_unloadScene scene)) (s.now_unloadScene scene), rfl⟩
  | shutdown => exact ⟨.of_starts (.of_runs rfl) rfl, rfl⟩
  | author library => exact ⟨.of_starts (.of_runs rfl) rfl, rfl⟩
  | bake graph => exact ⟨.of_starts (.of_runs rfl) rfl, rfl⟩
  | startFull graph =>
      exact ⟨.of_starts (coversSteps_starts.startRun _ s) (coversSteps_now.startRun _ s), rfl⟩
  | startFrom graph trigger =>
      exact ⟨.of_starts (coversSteps_starts.startRun _ s) (coversSteps_now.startRun _ s), rfl⟩
  | click id =>
      exact ⟨.of_starts (coversSteps_starts.fire _ id s) (coversSteps_now.fire _ id s), rfl⟩
  | tick keys actions =>
      exact ⟨.of_starts (coversSteps_starts.tick keys actions s)
        (coversSteps_now.tick keys actions s), rfl⟩
  | turn run =>
      have hother : run ≠ i := fun h => hturn (congrArg Event.turn h)
      exact ⟨spares_turnBy T hother s, dispatchesOf_of_ne hother s⟩
  | clock time => exact absurd rfl (hclock time)
  | advance ms => exact absurd htimely Bool.false_ne_true
  | finish run => exact absurd htimely Bool.false_ne_true
  | execute st =>
      rcases execute_of_nanoseconds? (Option.isNone_iff_eq_none.1 htimely) s with ⟨hdone, hturns⟩
      simp only [happenBy, happen, eventTurns, hdone, hturns]
      exact ⟨s.spares_perform i st, rfl⟩

theorem keepsTime_happenBy (T : Timer) {e : Event} (htimely : e.isTimely s = true)
    (hr : s.runs[i]? = some r) :
    ∃ r', (s.happenBy T e).runs[i]? = some r' ∧
      r.KeepsTime T s.now (dispatchesOf i (s.eventTurns e)) (s.happenBy T e).now r' := by
  by_cases hturn : e = .turn i
  · subst hturn
    exact keepsTime_turnBy hr
  · by_cases hclock : ∃ time, e = .clock time
    · rcases hclock with ⟨time, rfl⟩
      simp only [Event.isTimely, isIdle, Bool.and_eq_true, List.all_eq_true,
        decide_eq_true_eq] at htimely
      rcases htimely with ⟨⟨hidle, hlater⟩, hwakes⟩
      have hmem := List.mem_of_getElem? hr
      have hready : r.isReady = false := by simpa using hidle r hmem
      have hwake : ∀ wake, r.wake? = some wake → time ≤ wake := by
        intro wake hwake
        simpa [hwake] using hwakes r hmem
      refine ⟨r.awaken time, ?_, .of_awaken hready hlater hwake⟩
      simp only [happenBy, happen, List.getElem?_map, hr, Option.map_some]
    · have hspares := spares_happenBy (T := T) htimely (fun time he => hclock ⟨time, he⟩) hturn
      refine ⟨r, hspares.1.stays hr, ?_⟩
      rw [hspares.2, hspares.1.now]
      exact .refl T s.now r

/-- A run that is not there does nothing, and is ready once it has been started. -/
theorem begins_happenBy (T : Timer) {e : Event} (htimely : e.isTimely s = true)
    (hnone : s.runs[i]? = none) :
    dispatchesOf i (s.eventTurns e) = [] ∧
      ∀ r, (s.happenBy T e).runs[i]? = some r → r.isReady = true := by
  have habsent : ∀ s' : Session, s'.runs[i]? = none →
      ∀ r, s'.runs[i]? = some r → r.isReady = true := by
    intro s' hnone' r hr
    exact absurd (hnone'.symm.trans hr) (by simp)
  by_cases hturn : e = .turn i
  · subst hturn
    refine ⟨dispatchesOf_of_none hnone, habsent _ ?_⟩
    rw [happenBy, turnBy_of_none hnone]
    exact hnone
  · by_cases hclock : ∃ time, e = .clock time
    · rcases hclock with ⟨time, rfl⟩
      refine ⟨rfl, habsent _ ?_⟩
      simp only [happenBy, happen, List.getElem?_map, hnone, Option.map_none]
    · have hspares := spares_happenBy (T := T) htimely (fun time he => hclock ⟨time, he⟩) hturn
      refine ⟨hspares.2, fun r hr => ?_⟩
      rcases hspares.1.begins hnone hr with ⟨steps, rfl⟩
      rfl

/-! ### Histories -/

theorem keepsTime_afterBy (T : Timer) {events : List Event}
    (htimely : s.isTimely T events = true) (hr : s.runs[i]? = some r) :
    ∃ r', (s.afterBy T events).runs[i]? = some r' ∧
      r.KeepsTime T s.now (s.doneUnder T i events) (s.afterBy T events).now r' := by
  induction events generalizing s r with
  | nil => exact ⟨r, hr, .refl T s.now r⟩
  | cons e events ih =>
      simp only [isTimely, Bool.and_eq_true] at htimely
      rcases keepsTime_happenBy T htimely.1 hr with ⟨r', hr', hfirst⟩
      rcases ih htimely.2 hr' with ⟨r'', hr'', hthen⟩
      refine ⟨r'', hr'', ?_⟩
      rw [doneUnder, turnsBy, dispatchesOf_append]
      exact hfirst.trans hthen

theorem beginning?_of_some (T : Timer) (hr : s.runs[i]? = some r) (events : List Event) :
    s.beginning? T i events = some (s.now, r.rest) := by
  cases events with
  | nil => rw [beginning?, hr, Option.map_some]
  | cons e events => rw [beginning?, hr, Option.map_some, Option.some_or]

/-- A run keeps time from its start on. -/
theorem keepsTime_of_beginning? {events : List Event} {start : Nat} {steps : List Step}
    (htimely : s.isTimely T events = true)
    (hready : ∀ r, s.runs[i]? = some r → r.isReady = true)
    (hstart : s.beginning? T i events = some (start, steps)) :
    ∃ r, (s.afterBy T events).runs[i]? = some r ∧
      Run.KeepsTime T start { phase := .ready steps } (s.doneUnder T i events)
        (s.afterBy T events).now r := by
  induction events generalizing s with
  | nil =>
      rcases Option.map_eq_some_iff.1 hstart with ⟨r, hr, heq⟩
      rcases Prod.mk.inj heq with ⟨rfl, rfl⟩
      rcases Run.isReady_iff.1 (hready r hr) with ⟨rest, hphase⟩
      exact ⟨r, hr, (Run.KeepsTime.refl T s.now r).of_phase (by simp only [Run.rest, hphase])⟩
  | cons e events ih =>
      rcases hrun : s.runs[i]? with _ | r
      · -- It starts later, and has done nothing so far.
        simp only [isTimely, Bool.and_eq_true] at htimely
        rcases begins_happenBy T htimely.1 hrun with ⟨hnothing, hbegins⟩
        rw [beginning?, hrun, Option.map_none, Option.none_or] at hstart
        rw [doneUnder, turnsBy, dispatchesOf_append, hnothing, List.nil_append]
        exact ih htimely.2 hbegins hstart
      · rw [beginning?_of_some T hrun, Option.some.injEq] at hstart
        rcases Prod.mk.inj hstart with ⟨rfl, rfl⟩
        rcases keepsTime_afterBy T htimely hrun with ⟨r', hr', hkeeps⟩
        rcases Run.isReady_iff.1 (hready r hrun) with ⟨rest, hphase⟩
        exact ⟨r', hr', hkeeps.of_phase (by simp only [Run.rest, hphase])⟩

/-- Some steps that a run has done by now are those that were due, each done when it was
    due. -/
structure DoneWhenDue (T : Timer) (start : Nat) (steps : List Step) (done : List Dispatch)
    (s : Session) : Prop where
  /-- They are the first of the steps, each done when it is due. -/
  times : ∀ k d, done[k]? = some d →
    steps[k]? = some d.step ∧ d.before.now = T.due start steps k
  /-- What is done was due. -/
  past : ∀ k < done.length, T.due start steps k ≤ s.now
  /-- What was due before now is done. -/
  overdue : ∀ k < steps.length, T.due start steps k < s.now → k < done.length
  /-- What is due now is done once no run is ready. -/
  settled : s.isIdle = true → ∀ k < steps.length, T.due start steps k ≤ s.now →
    k < done.length

theorem DoneWhenDue.of_keepsTime {start : Nat} {steps : List Step} {done : List Dispatch}
    {s : Session} {r : Run} (hr : s.runs[i]? = some r)
    (h : Run.KeepsTime T start { phase := .ready steps } done s.now r) :
    DoneWhenDue T start steps done s := by
  have hsleeps : r.SleepsOn s.now := h.sleeps fun wake hwake => absurd hwake (by simp [Run.wake?])
  refine ⟨fun k d hd => h.due_of_done hd, fun k hk => ?_, fun k hk hdue => ?_,
    fun hidle k hk hdue => ?_⟩
  · have hd := List.getElem?_eq_getElem hk
    rw [← (h.due_of_done hd).2]
    exact h.past _ (List.mem_of_getElem? hd)
  · by_contra hleft
    rcases h.mem_plan_of_left hk hleft with ⟨x, hx, htime⟩
    have hlater := Run.le_of_mem_plan hsleeps hx
    omega
  · by_contra hleft
    rcases h.mem_plan_of_left hk hleft with ⟨x, hx, htime⟩
    have hready : r.isReady = false := by
      simpa using List.all_eq_true.1 hidle r (List.mem_of_getElem? hr)
    have hlater := Run.lt_of_mem_plan hsleeps hready hx
    omega

/-- Two records of the same steps have the same times, as far as both go. -/
theorem DoneWhenDue.stamp_eq {start : Nat} {steps : List Step} {done done₁ : List Dispatch}
    {s s₁ : Session} (h : DoneWhenDue T start steps done s)
    (h₁ : DoneWhenDue T start steps done₁ s₁) {k : Nat} {d d₁ : Dispatch}
    (hd : done[k]? = some d) (hd₁ : done₁[k]? = some d₁) : d₁.stamp = d.stamp := by
  rcases h.times k d hd with ⟨hstep, htime⟩
  rcases h₁.times k d₁ hd₁ with ⟨hstep₁, htime₁⟩
  rw [hstep, Option.some.injEq] at hstep₁
  exact Prod.ext hstep₁.symm (htime₁.trans htime.symm)

/-- When no run is ready, it is the time that decides how far a record goes. -/
theorem DoneWhenDue.length_le {start : Nat} {steps : List Step} {done done₁ : List Dispatch}
    {s s₁ : Session} (h : DoneWhenDue T start steps done s)
    (h₁ : DoneWhenDue T start steps done₁ s₁) (hidle : s.isIdle = true)
    (hnow : s₁.now ≤ s.now) : done₁.length ≤ done.length := by
  refine le_of_forall_lt fun k hk => ?_
  have hstep := (h₁.times k _ (List.getElem?_eq_getElem hk)).1
  exact h.settled hidle k (List.getElem?_eq_some_iff.1 hstep).1 ((h₁.past k hk).trans hnow)

/-- A run does its steps when they are due, whatever the timer, and whatever else goes on. A
    step is due when the delays before it have ended one after the other, from the start of
    the run on, and not before all of them are over. So it is done when it would be if the
    run were the only one. A delay of a number of seconds that is missing or no positive
    number, or too large to be told, adds nothing. -/
theorem done_when_due (T : Timer) {s : Session} {events : List Event} {i start : Nat}
    {steps : List Step} (htimely : s.isTimely T events = true)
    (hready : ∀ r, s.runs[i]? = some r → r.isReady = true)
    (hstart : s.beginning? T i events = some (start, steps)) :
    DoneWhenDue T start steps (s.doneUnder T i events) (s.afterBy T events) ∧
    (∀ (s₁ : Session) (events₁ : List Event), s₁.now = start →
      s₁.runs = [{ phase := .ready steps }] → s₁.isTimely T events₁ = true →
        DoneWhenDue T start steps (s₁.doneUnder T 0 events₁) (s₁.afterBy T events₁) ∧
        (∀ (k : Nat) (d d₁ : Dispatch), (s.doneUnder T i events)[k]? = some d →
          (s₁.doneUnder T 0 events₁)[k]? = some d₁ → d₁.stamp = d.stamp) ∧
        ((s.afterBy T events).isIdle = true → (s₁.afterBy T events₁).isIdle = true →
          (s₁.afterBy T events₁).now = (s.afterBy T events).now →
            (s₁.doneUnder T 0 events₁).length = (s.doneUnder T i events).length)) ∧
    (∀ k, start * T.unit + ((steps.take k).map Step.duration).sum ≤
      T.due start steps k * T.unit) ∧
    (∀ (st : Step) (now : Nat),
      (∀ x, st.floatParam? .seconds = some x →
        x.isFinite = false ∨ x.toRat ≤ 0 ∨ 2 ^ 64 ≤ x.toRat) →
      T.after now st = now) := by
  rcases keepsTime_of_beginning? htimely hready hstart with ⟨r, hr, hkeeps⟩
  have hdone := DoneWhenDue.of_keepsTime hr hkeeps
  refine ⟨hdone, ?_, fun k => T.add_sum_le start (steps.take k),
    fun st now hseconds => T.after_eq_self (Step.nanoseconds?_eq_none hseconds)⟩
  rintro s₁ events₁ rfl hruns htimely₁
  have hr₁ : s₁.runs[0]? = some { phase := .ready steps } := by rw [hruns, List.getElem?_cons_zero]
  rcases keepsTime_afterBy T htimely₁ hr₁ with ⟨r₁, hr₁', hkeeps₁⟩
  have hdone₁ := DoneWhenDue.of_keepsTime hr₁' hkeeps₁
  refine ⟨hdone₁, fun k d d₁ hd hd₁ => hdone.stamp_eq hdone₁ hd hd₁, ?_⟩
  intro hidle hidle₁ hnow
  exact le_antisymm (hdone.length_le hdone₁ hidle hnow.le) (hdone₁.length_le hdone hidle₁ hnow.ge)

/-- The steps of a run that has two delays, and waits for the second only. -/
def flash : List Step :=
  [{ type := .delay, node := ⟨"back"⟩, floats := .ofList [("seconds", .ofInt (-1))] },
   { type := .delay, node := ⟨"wait"⟩, floats := .ofList [("seconds", ⟨0x3dcccccd⟩)] },
   { type := .objects .on, node := ⟨"show"⟩, targets := ["toast"] }]

/-- A run that hides a toast after two seconds. -/
def toast : Session where
  supply := .minted
  world := .ofList [(⟨1⟩, { name := "Toast", scene := "Main" })]
  targets := .ofList [("toast", ⟨1⟩)]
  library := { graphs := [{ name := "flash", program := flash }] }
  runs :=
    [{ phase := .ready
         [{ type := .delay, node := ⟨"wait"⟩, floats := .ofList [("seconds", .ofInt 2)] },
          { type := .objects .off, node := ⟨"hide"⟩, targets := ["toast"] }] }]

/-- While it waits, another run is started, which waits for a tenth of a second. -/
def interleaved : List Event :=
  [.turn 0, .clock 100, .startFull ⟨0⟩, .turn 1, .turn 1, .clock 201, .turn 1, .turn 1,
    .clock 2000, .turn 0, .turn 0]

theorem done_when_due_toast :
    toast.isTimely .milliseconds interleaved = true ∧
      (∀ r, toast.runs[1]? = some r → r.isReady = true) ∧
      toast.beginning? .milliseconds 1 interleaved = some (100, flash) ∧
      2 < (toast.doneBy 1 interleaved).length ∧
      ∀ d, (toast.doneBy 1 interleaved)[2]? = some d → d.before.now = 201 := by
  have htimely : toast.isTimely .milliseconds interleaved = true := by decide +kernel
  have hready : ∀ r, toast.runs[1]? = some r → r.isReady = true := by
    intro r hr
    exact absurd hr (by simp [toast])
  have hstart : toast.beginning? .milliseconds 1 interleaved = some (100, flash) := by
    decide +kernel
  have hdue : Timer.milliseconds.due 100 flash 2 = 201 := by decide +kernel
  have hnow : (toast.afterBy .milliseconds interleaved).now = 2000 := by decide +kernel
  have hdone := (done_when_due .milliseconds htimely hready hstart).1
  rw [doneUnder_milliseconds] at hdone
  refine ⟨htimely, hready, hstart, hdone.overdue 2 (by decide) (by rw [hdue, hnow]; decide), ?_⟩
  intro d hd
  rw [(hdone.times 2 d hd).2, hdue]

end Session

end BehaviorGraph
