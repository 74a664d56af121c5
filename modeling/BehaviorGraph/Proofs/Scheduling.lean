import BehaviorGraph.Proofs.Independence
import BehaviorGraph.Proofs.Punctuality
/-!
# Time That Passes

A session lets time pass as a scheduler has to.

Letting time pass is more than setting the clock. The runs that are ready have to take their
turns first, and the clock stops at every end of a delay for those that wake then. All this
is done with patience for a number of turns, and a session that runs out of patience would
set the clock while a run is ready, or beyond the end of a delay. As long as actions start no
runs, that does not happen. Each time that all runs take a turn, those that are ready have one
less to take before they are finished or asleep; and each end of a delay takes one from the
turns that all runs have left, whatever they do then.

So time that passes is a history of turns and of timely settings of the clock, in which each
run does exactly the steps that are due by the end.

## Main definitions

* `Session.left`: The turns that all runs have left.
* `Session.GoesTimely`: A session goes on by turns and timely settings of the clock.
* `Session.Waits`: Nobody is ready, and all delays end later.

## Theorems

* `Session.isIdle_settle`: Runs that go on come to rest.
* `Session.left_moveTo_lt`: The end of a delay takes a turn from those that are left.
* `Session.Waits.passWhile`: There is patience for all ends of delays.
* `Session.advance_isTimely`: Letting time pass is timely.
* `Session.done_by_advance`: A run does the steps that are due meanwhile.
-/

namespace BehaviorGraph

theorem Run.turnsLeft_awaken_le (time : Nat) (r : Run) :
    (r.awaken time).turnsLeft ≤ r.turnsLeft := by
  unfold awaken
  rcases hphase : r.phase with rest | ⟨wake, rest⟩ | _
  · exact le_rfl
  · simp only
    split
    · simp [turnsLeft, hphase]
    · exact le_rfl
  · exact le_rfl

/-- A delay that ends takes a turn. -/
theorem Run.turnsLeft_awaken_lt {time : Nat} {r : Run} (h : r.wake? = some time) :
    (r.awaken time).turnsLeft < r.turnsLeft := by
  rcases hphase : r.phase with rest | ⟨wake, rest⟩ | _
  · simp [wake?, hphase] at h
  · have htime : wake = time := by simpa [wake?, hphase] using h
    simp [awaken, turnsLeft, hphase, htime]
  · simp [wake?, hphase] at h

namespace Session

variable {s s' s'' : Session} {ts ts' : List Turn} {i : Nat} {r : Run}

/-! ### Turns that are left -/

/-- A turn brings a run that is ready closer to its end or to a delay. -/
theorem turn_spends (hr : s.runs[i]? = some r) :
    ∃ r', (s.turn i).runs[i]? = some r' ∧ r'.readyTurns ≤ r.readyTurns - 1 ∧
      r'.turnsLeft ≤ r.turnsLeft := by
  rcases hphase : r.phase with (_ | ⟨st, rest⟩) | ⟨wake, rest⟩ | _
  · rw [turn_of_nil hr hphase]
    exact ⟨_, getElem?_setRun_self hr _, Nat.zero_le _, Nat.zero_le _⟩
  · rcases hwake : st.wake? s.now with _ | wake
    · rw [turn_of_perform hr hphase hwake]
      have hr' := (s.starts_perform st).get_of_some hr
      refine ⟨_, getElem?_setRun_self hr' _, ?_, ?_⟩
      · simp [Run.readyTurns, hphase]
      · simp [Run.turnsLeft, hphase]
    · rw [turn_of_wake hr hphase hwake]
      refine ⟨_, getElem?_setRun_self hr _, Nat.zero_le _, ?_⟩
      simp [Run.turnsLeft, hphase]
  · rw [turn_of_not_isReady hr (by simp [Run.isReady, hphase])]
    refine ⟨r, hr, ?_, le_rfl⟩
    simp [Run.readyTurns, hphase]
  · rw [turn_of_not_isReady hr (by simp [Run.isReady, hphase])]
    refine ⟨r, hr, ?_, le_rfl⟩
    simp [Run.readyTurns, hphase]

theorem turn_of_ne {j : Nat} (hj : j ≠ i) (hr : s.runs[i]? = some r) :
    (s.turn j).runs[i]? = some r := by
  rw [← turnBy_milliseconds]
  exact (spares_turnBy .milliseconds hj s).stays hr

/-- Each run has no more turns left than before. -/
def Tires (s s' : Session) : Prop :=
  ∀ (i : Nat) (r : Run), s.runs[i]? = some r →
    ∃ r', s'.runs[i]? = some r' ∧ r'.turnsLeft ≤ r.turnsLeft

theorem followsTurns_tires : FollowsTurns fun s _ s' => s.Tires s' where
  refl _ _ r hr := ⟨r, hr, le_rfl⟩
  trans h h' i _ hr := by
    rcases h i _ hr with ⟨r', hr', hle⟩
    rcases h' i _ hr' with ⟨r'', hr'', hle'⟩
    exact ⟨r'', hr'', hle'.trans hle⟩
  turn j s i r hr := by
    by_cases hj : j = i
    · subst hj
      rcases turn_spends hr with ⟨r', hr', -, hle⟩
      exact ⟨r', hr', hle⟩
    · exact ⟨r, turn_of_ne hj hr, le_rfl⟩
  clock time s i r hr := by
    refine ⟨r.awaken time, ?_, r.turnsLeft_awaken_le time⟩
    simp only [List.getElem?_map, hr, Option.map_some]
  take := by
    intro s j r hr i r₀ hr₀
    by_cases hj : j = i
    · subst hj
      rw [hr, Option.some.injEq] at hr₀
      subst hr₀
      exact ⟨_, getElem?_setRun_self hr _, le_rfl⟩
    · exact ⟨r₀, (List.getElem?_set_ne hj).trans hr₀, le_rfl⟩

/-- The turns that all runs have left. -/
def left (s : Session) : Nat :=
  (s.runs.map Run.turnsLeft).sum

theorem left_le_patience (s : Session) : s.left ≤ s.patience := by
  rw [left, patience]
  induction s.runs with
  | nil => exact Nat.zero_le _
  | cons r rs ih =>
      rw [List.map_cons, List.sum_cons, List.foldr_cons]
      exact Nat.add_le_add_left ih _

theorem Tires.left_le (h : s.Tires s') (hlength : s'.runs.length = s.runs.length) :
    s'.left ≤ s.left := by
  refine List.Forall₂.sum_le_sum (List.forall₂_iff_get.2 ⟨?_, fun k hk hk' => ?_⟩)
  · simpa using hlength
  · rw [List.length_map] at hk hk'
    rcases h k _ (List.getElem?_eq_getElem hk') with ⟨r', hr', hle⟩
    rw [List.getElem?_eq_getElem hk, Option.some.injEq] at hr'
    simpa [hr'] using hle

theorem exists_of_nextWake? {time : Nat} (h : s.nextWake? = some time) :
    (∃ r ∈ s.runs, r.wake? = some time) ∧
      ∀ r ∈ s.runs, ∀ wake, r.wake? = some wake → time ≤ wake := by
  rcases List.min?_eq_some_iff.1 h with ⟨hmem, hle⟩
  refine ⟨List.mem_filterMap.1 hmem, fun r hr wake hwake => ?_⟩
  exact hle wake (List.mem_filterMap.2 ⟨r, hr, hwake⟩)

/-- Whoever wakes has one turn less left then, and settling adds none. -/
theorem left_moveTo_lt (hquiet : s.QuietRuns) {time : Nat} (h : s.nextWake? = some time) :
    (s.moveTo time).left < s.left := by
  rcases (exists_of_nextWake? h).1 with ⟨r, hr, hwake⟩
  have hclock := followsTurns_carriesOut.clock time s hquiet
  have hsettles := followsTurns_carriesOut.settle _ hclock.quiet
  have htires : Tires _ (s.moveTo time) := followsTurns_tires.settle _
  refine (htires.left_le hsettles.length).trans_lt ?_
  rw [left, left, List.map_map]
  exact List.sum_lt_sum _ _ (fun r _ => r.turnsLeft_awaken_le time)
    ⟨r, hr, Run.turnsLeft_awaken_lt hwake⟩

/-- No run has been started, so each is one of those that were there. -/
theorem CarriesOut.exists_of_mem (h : s.CarriesOut ts s') {r' : Run} (hr' : r' ∈ s'.runs) :
    ∃ (i : Nat) (r : Run), s.runs[i]? = some r ∧ s'.runs[i]? = some r' := by
  rcases List.mem_iff_getElem?.1 hr' with ⟨i, hi⟩
  have hlt : i < s.runs.length := by
    rw [← h.length]
    exact (List.getElem?_eq_some_iff.1 hi).1
  exact ⟨i, s.runs[i], List.getElem?_eq_getElem hlt, hi⟩

/-! ### Coming to rest -/

theorem isIdle_eq (s : Session) : s.isIdle = !s.runs.any Run.isReady := by
  rw [isIdle, List.not_any_eq_all_not]

/-- Some turns, one after the other, bring each run closer to its end that takes one of them. -/
theorem turns_spend (is : List Nat) (hr : s.runs[i]? = some r) :
    ∃ r', (is.foldl (fun s i => s.turn i) s).runs[i]? = some r' ∧
      r'.readyTurns ≤ r.readyTurns ∧ (i ∈ is → r'.readyTurns ≤ r.readyTurns - 1) := by
  induction is generalizing s r with
  | nil => exact ⟨r, hr, le_rfl, fun hi => absurd hi List.not_mem_nil⟩
  | cons j is ih =>
      by_cases hj : j = i
      · subst hj
        rcases turn_spends hr with ⟨r', hr', hless, -⟩
        rcases ih hr' with ⟨r'', hr'', hle, -⟩
        exact ⟨r'', hr'', by omega, fun _ => hle.trans hless⟩
      · rcases ih (turn_of_ne hj hr) with ⟨r', hr', hle, hless⟩
        refine ⟨r', hr', hle, fun hi => hless ?_⟩
        exact (List.mem_cons.1 hi).resolve_left (Ne.symm hj)

theorem isIdle_settleWithin (turns : Nat) (hquiet : s.QuietRuns)
    (hturns : ∀ r ∈ s.runs, r.readyTurns ≤ turns) : (s.settleWithin turns).isIdle = true := by
  induction turns generalizing s with
  | zero =>
      refine List.all_eq_true.2 fun r hr => ?_
      rcases hphase : r.phase with rest | ⟨wake, rest⟩ | _
      · have hready := hturns r hr
        simp [Run.readyTurns, hphase] at hready
      · simp [Run.isReady, hphase]
      · simp [Run.isReady, hphase]
  | succ turns ih =>
      rw [settleWithin]
      split
      · have hcarries := followsTurns_carriesOut.turnAll s hquiet
        refine ih hcarries.quiet fun r' hr' => ?_
        rcases hcarries.exists_of_mem hr' with ⟨i, r, hr, hi⟩
        -- All that were there have taken a turn, this one among them.
        rcases turns_spend (List.range s.runs.length) hr with ⟨r'', hr'', -, hless⟩
        have hsame : r' = r'' := Option.some.inj (hi.symm.trans hr'')
        have hspent := hless (List.mem_range.2 (List.getElem?_eq_some_iff.1 hr).1)
        have hbefore := hturns r (List.mem_of_getElem? hr)
        rw [hsame]
        omega
      · next hnone =>
          rw [isIdle_eq]
          simpa using hnone

/-- Quiet runs that go on come to rest. -/
theorem isIdle_settle (hquiet : s.QuietRuns) : s.settle.isIdle = true :=
  isIdle_settleWithin s.patience hquiet fun r hr =>
    r.readyTurns_le.trans (turnsLeft_le_patience hr)

/-! ### Timely histories -/

theorem isTimely_append (T : Timer) (events later : List Event) (s : Session) :
    s.isTimely T (events ++ later) =
      (s.isTimely T events && (s.afterBy T events).isTimely T later) := by
  induction events generalizing s with
  | nil => rfl
  | cons e events ih =>
      rw [List.cons_append, isTimely, isTimely, ih, Bool.and_assoc]
      rfl

theorem turns_append (events later : List Event) (s : Session) :
    s.turns (events ++ later) = s.turns events ++ (s.after events).turns later := by
  induction events generalizing s with
  | nil => rfl
  | cons e events ih =>
      rw [List.cons_append, turns, turns, ih, List.append_assoc]
      rfl

/-- A session goes on to a later one by turns and timely settings of the clock. -/
def GoesTimely (s : Session) (ts : List Turn) (s' : Session) : Prop :=
  ∃ events : List Event, (∀ e ∈ events, e.goesOn = true) ∧
    s.isTimely .milliseconds events = true ∧ s.turns events = ts ∧ s.after events = s'

theorem GoesTimely.refl (s : Session) : s.GoesTimely [] s :=
  ⟨[], fun _ he => absurd he List.not_mem_nil, rfl, rfl, rfl⟩

theorem GoesTimely.trans (h : s.GoesTimely ts s') (h' : s'.GoesTimely ts' s'') :
    s.GoesTimely (ts ++ ts') s'' := by
  rcases h with ⟨events, hgo, htimely, rfl, rfl⟩
  rcases h' with ⟨events', hgo', htimely', rfl, rfl⟩
  refine ⟨events ++ events', fun e he => ?_, ?_, s.turns_append _ _, s.after_append _ _⟩
  · exact (List.mem_append.1 he).elim (hgo e) (hgo' e)
  · rw [isTimely_append, htimely, afterBy_milliseconds, htimely', Bool.and_self]

/-- One event. -/
theorem GoesTimely.single {e : Event} (hgo : e.goesOn = true) (htimely : e.isTimely s = true) :
    s.GoesTimely (s.eventTurns e) (s.happen e) := by
  refine ⟨[e], fun e' he' => ?_, ?_, ?_, rfl⟩
  · rw [List.mem_singleton.1 he', hgo]
  · rw [isTimely, isTimely, htimely, Bool.and_self]
  · rw [turns, turns, List.append_nil]

theorem goesTimely_turnsOf (is : List Nat) (s : Session) :
    s.GoesTimely (s.turnsOf is) (is.foldl (fun s i => s.turn i) s) := by
  induction is generalizing s with
  | nil => exact .refl s
  | cons i is ih =>
      have hturn : s.GoesTimely [⟨i, s⟩] (s.turn i) :=
        GoesTimely.single (e := .turn i) rfl rfl
      exact hturn.trans (ih (s.turn i))

theorem goesTimely_settleWithin (turns : Nat) (s : Session) :
    s.GoesTimely (s.settleTurns turns) (s.settleWithin turns) := by
  induction turns generalizing s with
  | zero => exact .refl s
  | succ turns ih =>
      rw [settleTurns, settleWithin]
      split
      · exact (goesTimely_turnsOf _ s).trans (ih s.turnAll)
      · exact .refl s

theorem GoesTimely.carriesOut (h : s.GoesTimely ts s') (hquiet : s.QuietRuns) :
    s.CarriesOut ts s' := by
  rcases h with ⟨events, hgo, -, rfl, rfl⟩
  exact carriesOut_after hgo hquiet

theorem GoesTimely.keepsTime (h : s.GoesTimely ts s') (hr : s.runs[i]? = some r) :
    ∃ r', s'.runs[i]? = some r' ∧
      r.KeepsTime .milliseconds s.now (dispatchesOf i ts) s'.now r' := by
  rcases h with ⟨events, -, htimely, rfl, rfl⟩
  rcases keepsTime_afterBy .milliseconds htimely hr with ⟨r', hr', hkeeps⟩
  rw [afterBy_milliseconds] at hr' hkeeps
  rw [doneUnder_milliseconds] at hkeeps
  exact ⟨r', hr', hkeeps⟩

/-- No run is in a delay that should have ended by now. -/
def NobodyOversleeps (s : Session) : Prop :=
  ∀ r ∈ s.runs, r.SleepsOn s.now

theorem GoesTimely.nobodyOversleeps (h : s.GoesTimely ts s') (hquiet : s.QuietRuns)
    (hsleeps : s.NobodyOversleeps) : s'.NobodyOversleeps := by
  intro r' hr'
  rcases (h.carriesOut hquiet).exists_of_mem hr' with ⟨i, r, hr, hi⟩
  rcases h.keepsTime hr with ⟨r'', hr'', hkeeps⟩
  have hsame : r' = r'' := Option.some.inj (hi.symm.trans hr'')
  rw [hsame]
  exact hkeeps.sleeps (hsleeps r (List.mem_of_getElem? hr))

/-! ### Time that passes -/

theorem now_turn (i : Nat) (s : Session) : (s.turn i).now = s.now := by
  -- Any other run shows that no time passes.
  rw [← turnBy_milliseconds]
  exact (spares_turnBy .milliseconds (Nat.succ_ne_self i).symm s).now

theorem now_settleWithin (turns : Nat) (s : Session) : (s.settleWithin turns).now = s.now := by
  induction turns generalizing s with
  | zero => rfl
  | succ turns ih =>
      rw [settleWithin]
      split
      · exact (ih s.turnAll).trans (coversSteps_now.foldl (fun s i => s.now_turn i) _ s)
      · rfl

/-- A session that waits for delays to end. -/
structure Waits (s : Session) : Prop where
  /-- No action that is called starts runs. -/
  quiet : s.QuietRuns
  /-- No run is ready. -/
  idle : s.isIdle = true
  /-- All delays end later. -/
  sleeps : s.NobodyOversleeps

/-- Quiet runs go on until the session waits. -/
theorem waits_settle (hquiet : s.QuietRuns) (hsleeps : s.NobodyOversleeps) : s.settle.Waits := by
  have htimely : s.GoesTimely _ s.settle := goesTimely_settleWithin s.patience s
  exact ⟨(htimely.carriesOut hquiet).quiet, isIdle_settle hquiet,
    htimely.nobodyOversleeps hquiet hsleeps⟩

/-- The clock is set to a time that is not beyond the end of a delay. -/
theorem Waits.moveTo (h : s.Waits) {time : Nat} (hlater : s.now ≤ time)
    (hwakes : ∀ r ∈ s.runs, ∀ wake, r.wake? = some wake → time ≤ wake) :
    s.GoesTimely (s.moveTurns time) (s.moveTo time) ∧ (s.moveTo time).Waits ∧
      (s.moveTo time).now = time := by
  have hevent : (Event.clock time).isTimely s = true := by
    simp only [Event.isTimely, Bool.and_eq_true, decide_eq_true_eq, List.all_eq_true]
    refine ⟨⟨h.idle, hlater⟩, fun r hr => ?_⟩
    rcases hwake : r.wake? with _ | wake
    · rfl
    · simpa using hwakes r hr wake hwake
  have hclock := GoesTimely.single (e := .clock time) rfl hevent
  refine ⟨hclock.trans (goesTimely_settleWithin _ _), ?_, now_settleWithin _ _⟩
  exact waits_settle (hclock.carriesOut h.quiet).quiet (hclock.nobodyOversleeps h.quiet h.sleeps)

/-- There is patience for all ends of delays. -/
theorem Waits.passWhile (goOn : Session → Nat → Bool) (turns : Nat) (h : s.Waits)
    (hturns : s.left ≤ turns) :
    s.GoesTimely (s.passTurns goOn turns) (s.passWhile goOn turns) ∧
      (s.passWhile goOn turns).Waits ∧
      ∀ time, (s.passWhile goOn turns).nextWake? = some time →
        goOn (s.passWhile goOn turns) time = false := by
  induction turns generalizing s with
  | zero =>
      refine ⟨.refl s, h, fun time htime => ?_⟩
      -- A run that is asleep would have turns left.
      have hless := left_moveTo_lt h.quiet htime
      omega
  | succ turns ih =>
      rw [Session.passTurns, Session.passWhile]
      rcases hnext : s.nextWake? with _ | time
      · refine ⟨.refl s, h, fun time htime => ?_⟩
        exact absurd (hnext.symm.trans htime) (by simp)
      · simp only
        split
        · rcases exists_of_nextWake? hnext with ⟨⟨r, hr, hwake⟩, hwakes⟩
          have hlater : s.now ≤ time := (h.sleeps r hr time hwake).le
          rcases h.moveTo hlater hwakes with ⟨htimely, hwaits, -⟩
          have hless := left_moveTo_lt h.quiet hnext
          rcases ih hwaits (by omega) with ⟨htimely', hrest⟩
          exact ⟨htimely.trans htimely', hrest⟩
        · next hstop =>
            refine ⟨.refl s, h, fun time' htime' => ?_⟩
            rw [← Option.some.inj (hnext.symm.trans htime')]
            simpa using hstop

/-- The clock does not go beyond the time that is waited for. -/
theorem now_passWhile_le {time : Nat} (turns : Nat) (s : Session) (hnow : s.now ≤ time) :
    (s.passWhile (fun _ wake => decide (wake ≤ time)) turns).now ≤ time := by
  induction turns generalizing s with
  | zero => exact hnow
  | succ turns ih =>
      rw [passWhile]
      rcases s.nextWake? with _ | wake
      · exact hnow
      · simp only
        split
        · next hwake =>
            refine ih (s.moveTo wake) ?_
            rw [moveTo, settle, now_settleWithin]
            exact of_decide_eq_true hwake
        · exact hnow

theorem Waits.passUntil (h : s.Waits) {time : Nat} (hlater : s.now ≤ time) :
    s.GoesTimely (s.untilTurns time) (s.passUntil time) ∧ (s.passUntil time).Waits ∧
      (s.passUntil time).now = time := by
  rcases h.passWhile (fun _ wake => decide (wake ≤ time)) s.patience s.left_le_patience with
    ⟨htimely, hwaits, hstop⟩
  have hnow := s.now_passWhile_le s.patience hlater
  -- The delays that are left end later than this.
  have hwakes : ∀ r ∈ (s.passWhile (fun _ wake => decide (wake ≤ time)) s.patience).runs,
      ∀ wake, r.wake? = some wake → time ≤ wake := by
    intro r hr wake hwake
    rcases hnext : (s.passWhile (fun _ wake => decide (wake ≤ time)) s.patience).nextWake?
      with _ | first
    · rw [nextWake?, List.min?_eq_none_iff, List.filterMap_eq_nil_iff] at hnext
      exact absurd (hwake.symm.trans (hnext r hr)) (by simp)
    · have hfirst : time < first := by simpa using hstop first hnext
      exact hfirst.le.trans ((exists_of_nextWake? hnext).2 r hr wake hwake)
  rcases hwaits.moveTo hnow hwakes with ⟨htimely', hrest⟩
  exact ⟨htimely.trans htimely', hrest⟩

/-- Time passes by turns and timely settings of the clock, and in the end the session waits
    again. -/
theorem advance_isTimely (hquiet : s.QuietRuns) (hsleeps : s.NobodyOversleeps) (ms : Nat) :
    s.GoesTimely (s.advanceTurns ms) (s.advance ms) ∧ (s.advance ms).Waits ∧
      (s.advance ms).now = s.now + ms := by
  have htimely : s.GoesTimely _ s.settle := goesTimely_settleWithin s.patience s
  have hnow : s.settle.now = s.now := now_settleWithin s.patience s
  rcases (waits_settle hquiet hsleeps).passUntil (Nat.le_add_right s.settle.now ms) with
    ⟨htimely', hwaits, hthen⟩
  refine ⟨htimely.trans htimely', hwaits, ?_⟩
  rw [← hnow]
  exact hthen

/-- While time passes, a run does the steps that are due by then, and no others. -/
theorem done_by_advance {steps : List Step} (hquiet : s.QuietRuns)
    (hsleeps : s.NobodyOversleeps) (hr : s.runs[i]? = some r)
    (hphase : r.phase = .ready steps) (ms : Nat) :
    DoneWhenDue .milliseconds s.now steps (dispatchesOf i (s.advanceTurns ms)) (s.advance ms) ∧
      ∀ k < steps.length, k < (dispatchesOf i (s.advanceTurns ms)).length ↔
        Timer.milliseconds.due s.now steps k ≤ s.now + ms := by
  rcases advance_isTimely hquiet hsleeps ms with ⟨htimely, hwaits, hnow⟩
  rcases htimely.keepsTime hr with ⟨r', hr', hkeeps⟩
  have hstart : Run.KeepsTime .milliseconds s.now { phase := .ready steps } _ _ r' :=
    hkeeps.of_phase hphase.symm
  have hdone := DoneWhenDue.of_keepsTime hr' hstart
  refine ⟨hdone, fun k hk => ?_⟩
  rw [← hnow]
  exact ⟨hdone.past k, hdone.settled hwaits.idle k hk⟩

end Session

end BehaviorGraph
