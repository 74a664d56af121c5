import BehaviorGraph.Proofs.Fates
import BehaviorGraph.Proofs.RunReach
import BehaviorGraph.Proofs.SoloRun
import BehaviorGraph.Proofs.TurnRecord
/-!
# Runs Account for Their Steps

A run that is finished has done every step it was started with, and counted each.

Runs have nothing in common but the session. What a run does can change everything that
another one is going to find, and so can scenes that come and go; but neither touches the
steps that the other run has left, or its tally. So a run can be followed by itself
through a history, from one of its turns to the next. What it has left gets shorter by the
step that it does, and its tally is that of the steps done so far. A run that is asleep has
done its delay already but not counted it, which makes for the only difference between
its `account` and its tally.

A run can begin with the history, or in the middle of it. Either way the steps that it
takes its first turn with are those it was started with, since nobody else changes them.

## Main definitions

* `Run.account`: What a run has done.
* `Run.GoesOn`: A run goes from where it stands to another place by some turns.
* `Session.snapshot?`: The steps that a run has when it takes its first turn.
* `Session.Starts`: Nothing has happened to runs but that some were started.

## Theorems

* `Session.starts_perform`, `Session.starts_happen`: Steps and scenes leave runs alone.
* `Session.followsTurns_follows`: Each run goes on by its own turns only.
* `Session.finished_run_accounts`: A run that is finished accounts for its steps.
-/

namespace BehaviorGraph

namespace Run

/-- A run that has not begun: it is ready to do the first of its steps, and has counted
    nothing. -/
structure IsFresh (r : Run) : Prop where
  /-- It is ready. -/
  phase : r.phase = .ready r.rest
  /-- It has counted nothing. -/
  tally : r.tally = {}

/-- What a run has done, a delay included that it is in. -/
def account (r : Run) : Tally :=
  match r.phase with
  | .asleep _ _ => r.tally.count .executed
  | .ready _ | .finished => r.tally

end Run

/-- What becomes of a step that is done. -/
def Dispatch.fate (d : Dispatch) : Fate :=
  d.step.fate d.before.targets d.before.layers d.before.world

/-- The step calls an action, and that goes wrong. -/
def Dispatch.callFails (d : Dispatch) : Bool :=
  (d.before.called d.step).any fun a => !(d.before.call a).1

theorem Dispatch.callFails_iff (d : Dispatch) : d.callFails = true ↔ d.fate = .failed :=
  (Session.fate_eq_failed_iff d.step d.before).symm

/-- What is counted as failed are the steps whose action went wrong. -/
theorem Dispatch.failed_countAll (ds : List Dispatch) :
    (({} : Tally).countAll (ds.map Dispatch.fate)).failed = ds.countP Dispatch.callFails := by
  rw [Tally.countAll_eq]
  simp only [Nat.zero_add, List.count_eq_countP, List.countP_map]
  refine List.countP_congr fun d _ => ?_
  rw [Dispatch.callFails_iff]
  exact beq_iff_eq

theorem Dispatch.skipped_countAll (ds : List Dispatch) :
    (({} : Tally).countAll (ds.map Dispatch.fate)).skipped =
      ds.countP fun d => d.fate = .skipped := by
  rw [Tally.countAll_eq]
  simp only [Nat.zero_add, List.count_eq_countP, List.countP_map]
  refine List.countP_congr fun d _ => ?_
  rw [decide_eq_true_iff]
  exact beq_iff_eq

/-- The steps that one run does in some turns. -/
def dispatchesOf (i : Nat) (ts : List Turn) : List Dispatch :=
  (ts.filterMap Turn.dispatch?).filter fun d => d.run = i

/-- The steps that a run has left when it takes the first of some turns. -/
def firstRest? (i : Nat) (ts : List Turn) : Option (List Step) :=
  ts.findSome? fun t => if t.run = i then t.mover?.map Run.rest else none

theorem dispatchesOf_append (i : Nat) (ts ts' : List Turn) :
    dispatchesOf i (ts ++ ts') = dispatchesOf i ts ++ dispatchesOf i ts' := by
  simp [dispatchesOf]

/-- Nobody takes part in the turns of others. -/
theorem dispatchesOf_of_ne {i j : Nat} (hj : j ≠ i) (s : Session) :
    dispatchesOf i [⟨j, s⟩] = [] := by
  simp only [dispatchesOf, Turn.dispatch?, List.filterMap_cons, List.filterMap_nil]
  rcases (Turn.mover? ⟨j, s⟩).bind Run.next? with _ | st
  · rfl
  · simp [hj]

theorem dispatchesOf_of_none {s : Session} {i : Nat} (hnone : s.runs[i]? = none) :
    dispatchesOf i [⟨i, s⟩] = [] := by
  rw [dispatchesOf, List.filterMap_cons, Turn.dispatch?_eq_none hnone]
  rfl

theorem dispatchesOf_of_some {s : Session} {i : Nat} {r : Run} (hr : s.runs[i]? = some r) :
    dispatchesOf i [⟨i, s⟩] = (r.next?.map fun st => Dispatch.mk i st s).toList := by
  rw [dispatchesOf, List.filterMap_cons, Turn.dispatch?_eq hr]
  rcases r.next? with _ | st
  · rfl
  · simp

theorem firstRest?_append (i : Nat) (ts ts' : List Turn) :
    firstRest? i (ts ++ ts') = (firstRest? i ts).or (firstRest? i ts') :=
  List.findSome?_append

/-! ### Following a run -/

namespace Run

/-- A run goes from where it stands to another place, taking its part in some turns. -/
structure GoesOn (i : Nat) (r : Run) (ts : List Turn) (r' : Run) : Prop where
  /-- It does the first of its steps, and has left the others. -/
  order : (dispatchesOf i ts).map Dispatch.step ++ r'.rest = r.rest
  /-- It counts what becomes of the steps that it does. -/
  account : r'.account = r.account.countAll ((dispatchesOf i ts).map Dispatch.fate)
  /-- It takes its first turn from where it stands. -/
  first : ∀ steps, firstRest? i ts = some steps → steps = r.rest
  /-- Without a turn it does nothing. -/
  idle : firstRest? i ts = none → r'.rest = r.rest ∧ r'.isFinished = r.isFinished
  /-- Once it is finished it stays so. -/
  stays : r.isFinished = true → r'.isFinished = true

variable {i : Nat} {r r' r'' : Run} {ts ts' : List Turn}

/-- A run that takes no turn changes in ways that do not concern its steps. -/
theorem GoesOn.of_no_turn (hrest : r'.rest = r.rest) (haccount : r'.account = r.account)
    (hfinished : r'.isFinished = r.isFinished) : r.GoesOn i [] r' := by
  refine ⟨hrest, haccount, ?_, fun _ => ⟨hrest, hfinished⟩, hfinished.trans⟩
  intro steps hsteps
  exact absurd hsteps (by simp [firstRest?])

theorem GoesOn.refl (i : Nat) (r : Run) : r.GoesOn i [] r :=
  .of_no_turn rfl rfl rfl

theorem GoesOn.trans (h : r.GoesOn i ts r') (h' : r'.GoesOn i ts' r'') :
    r.GoesOn i (ts ++ ts') r'' where
  order := by rw [dispatchesOf_append, List.map_append, List.append_assoc, h'.order, h.order]
  account := by
    rw [dispatchesOf_append, List.map_append, Tally.countAll_append, ← h.account, h'.account]
  first steps hsteps := by
    rw [firstRest?_append] at hsteps
    rcases hfirst : firstRest? i ts with _ | rest
    · -- The first turn is among the later ones, and nothing was done before it.
      rw [hfirst, Option.none_or] at hsteps
      rw [h'.first steps hsteps, (h.idle hfirst).1]
    · rw [hfirst, Option.some_or, Option.some.injEq] at hsteps
      rw [← hsteps]
      exact h.first rest hfirst
  idle hnone := by
    rw [firstRest?_append, Option.or_eq_none_iff] at hnone
    rcases h.idle hnone.1 with ⟨hrest, hfinished⟩
    rcases h'.idle hnone.2 with ⟨hrest', hfinished'⟩
    exact ⟨hrest'.trans hrest, hfinished'.trans hfinished⟩
  stays hfinished := h'.stays (h.stays hfinished)

/-- The turn of another run. -/
theorem GoesOn.of_other {j : Nat} (hj : j ≠ i) (r : Run) (s : Session) :
    r.GoesOn i [⟨j, s⟩] r := by
  have hnone := dispatchesOf_of_ne hj s
  have hfirst : firstRest? i [⟨j, s⟩] = none := by
    simp [firstRest?, hj]
  refine ⟨by rw [hnone]; rfl, by rw [hnone]; rfl, ?_, fun _ => ⟨rfl, rfl⟩, id⟩
  intro steps hsteps
  rw [hfirst] at hsteps
  exact absurd hsteps (by simp)

/-- A turn of the run itself. -/
theorem GoesOn.of_turn {s : Session} (hr : s.runs[i]? = some r)
    (horder : r.next?.toList ++ r'.rest = r.rest)
    (haccount : r'.account = r.account.countAll
      (r.next?.toList.map (Step.fate s.targets s.layers s.world)))
    (hstays : r.isFinished = true → r'.isFinished = true) : r.GoesOn i [⟨i, s⟩] r' := by
  have hfirst : firstRest? i [⟨i, s⟩] = some r.rest := by
    simp [firstRest?, Turn.mover?, hr]
  have hdispatched := dispatchesOf_of_some hr
  refine ⟨?_, ?_, ?_, ?_, hstays⟩
  · rw [hdispatched, ← horder]
    cases r.next? <;> rfl
  · rw [hdispatched, haccount]
    cases r.next? <;> rfl
  · intro steps hsteps
    rw [hfirst, Option.some.injEq] at hsteps
    exact hsteps.symm
  · intro hnone
    rw [hfirst] at hnone
    exact absurd hnone (by simp)

/-- Waking up counts the delay that the account has counted already. -/
theorem GoesOn.of_awaken (i : Nat) (r : Run) (time : Nat) : r.GoesOn i [] (r.awaken time) := by
  obtain ⟨phase, tally, taken⟩ := r
  rcases phase with steps | ⟨wake, steps⟩ | _
  · exact .refl i _
  · by_cases htime : wake ≤ time
    · have hawake : awaken time ⟨.asleep wake steps, tally, taken⟩ =
          ⟨.ready steps, tally.record (.ok .applied), taken⟩ := if_pos htime
      rw [hawake]
      exact .of_no_turn rfl rfl rfl
    · have hasleep : awaken time ⟨.asleep wake steps, tally, taken⟩ =
          ⟨.asleep wake steps, tally, taken⟩ := if_neg htime
      rw [hasleep]
      exact .refl i _
  · exact .refl i _

/-- A run that goes on until it is finished does all its steps. -/
theorem GoesOn.done (h : r.GoesOn i ts r') (hfinished : r'.isFinished = true) :
    (dispatchesOf i ts).map Dispatch.step = r.rest ∧
      r'.tally = r.account.countAll ((dispatchesOf i ts).map Dispatch.fate) := by
  have hphase := isFinished_iff.1 hfinished
  have horder := h.order
  have haccount := h.account
  simp only [Run.rest, hphase, List.append_nil] at horder
  simp only [Run.account, hphase] at haccount
  exact ⟨horder, haccount⟩

/-- It takes a first turn, and has all its steps then. -/
theorem GoesOn.firstRest?_eq (h : r.GoesOn i ts r') (hfresh : r.IsFresh)
    (hfinished : r'.isFinished = true) : firstRest? i ts = some r.rest := by
  rcases hfirst : firstRest? i ts with _ | steps
  · have hsame := (h.idle hfirst).2
    rw [hfinished] at hsame
    simp [isFinished, hfresh.phase] at hsame
  · rw [h.first steps hfirst]

end Run

/-! ### What steps and scenes do to runs -/

namespace Session

/-- Nothing has happened to runs but that some were started. -/
def Starts (s s' : Session) : Prop :=
  ∃ started : List (List Step),
    s'.runs = s.runs ++ started.map fun steps => { phase := .ready steps }

theorem Starts.of_runs {s s' : Session} (h : s'.runs = s.runs) : s.Starts s' :=
  ⟨[], by rw [h, List.map_nil, List.append_nil]⟩

theorem Starts.trans {s s' s'' : Session} (h : s.Starts s') (h' : s'.Starts s'') :
    s.Starts s'' := by
  rcases h with ⟨started, hruns⟩
  rcases h' with ⟨started', hruns'⟩
  exact ⟨started ++ started', by rw [hruns', hruns, List.map_append, List.append_assoc]⟩

theorem Starts.get_of_some {s s' : Session} (h : s.Starts s') {i : Nat} {r : Run}
    (hr : s.runs[i]? = some r) : s'.runs[i]? = some r := by
  rcases h with ⟨started, hruns⟩
  rw [hruns, List.getElem?_append_left (List.getElem?_eq_some_iff.1 hr).1, hr]

theorem Starts.get_of_none {s s' : Session} (h : s.Starts s') {i : Nat} {r : Run}
    (hnone : s.runs[i]? = none) (hr : s'.runs[i]? = some r) :
    ∃ steps, r = { phase := .ready steps } := by
  rcases h with ⟨started, hruns⟩
  rw [hruns, List.getElem?_append_right (List.getElem?_eq_none_iff.1 hnone),
    List.getElem?_map, Option.map_eq_some_iff] at hr
  rcases hr with ⟨steps, -, hsteps⟩
  exact ⟨steps, hsteps.symm⟩

theorem runs_foldl {α : Type} {f : Session → α → Session} (hf : ∀ s x, (f s x).runs = s.runs)
    (xs : List α) (s : Session) : (xs.foldl f s).runs = s.runs := by
  induction xs generalizing s with
  | nil => rfl
  | cons x xs ih => rw [List.foldl_cons, ih, hf]

theorem runs_despawn (id : ObjectId) (s : Session) : (s.despawn id).2.runs = s.runs := by
  have hforget : ∀ (s : Session) (e : ObjectId × SceneObject),
      (s.forget e.1 e.2).runs = s.runs := fun _ _ => rfl
  exact runs_foldl hforget _ _

theorem runs_unloadScene (scene : String) (s : Session) :
    (s.unloadScene scene).2.runs = s.runs := by
  have hforget : ∀ (s : Session) (e : ObjectId × SceneObject),
      (s.forgetWithScene e.1 e.2).runs = s.runs := fun _ _ => rfl
  exact runs_foldl hforget _ _

theorem coversSteps_starts : CoversSteps Starts where
  refl _ := .of_runs rfl
  trans := Starts.trans
  switched _ := .of_runs rfl
  logged _ _ := .of_runs rfl
  startRun steps s := by
    unfold Session.startRun
    split
    · exact ⟨[steps], rfl⟩
    · exact .of_runs rfl
  despawn id s := .of_runs (s.runs_despawn id)

/-- Whatever a step does, other runs are left alone. -/
theorem starts_perform (st : Step) (s : Session) : s.Starts (s.perform st).2 :=
  coversSteps_starts.perform st s

/-! ### Runs in a history -/

/-- From a session to a later one, a run goes on by its own turns; and it begins, if it
    was not there, with all its steps. -/
structure Follows (i : Nat) (s : Session) (ts : List Turn) (s' : Session) : Prop where
  /-- A run goes on. -/
  goesOn : ∀ {r : Run}, s.runs[i]? = some r → ∃ r', s'.runs[i]? = some r' ∧ r.GoesOn i ts r'
  /-- A run begins. -/
  begins : s.runs[i]? = none → ∀ {r' : Run}, s'.runs[i]? = some r' →
    ∃ steps, Run.GoesOn i { phase := .ready steps } ts r'
  /-- No run has taken a turn, so that it is as if any run had stayed where it is. -/
  absent : s'.runs[i]? = none → ∀ r : Run, r.GoesOn i ts r

section Follows

variable {i : Nat} {s s' s'' : Session} {ts ts' : List Turn}

theorem Follows.trans (h : Follows i s ts s') (h' : Follows i s' ts' s'') :
    Follows i s (ts ++ ts') s'' where
  goesOn := by
    intro r hr
    rcases h.goesOn hr with ⟨r', hr', hgoes⟩
    rcases h'.goesOn hr' with ⟨r'', hr'', hgoes'⟩
    exact ⟨r'', hr'', hgoes.trans hgoes'⟩
  begins := by
    intro hnone r'' hr''
    -- The run begins in the first part or in the second.
    rcases hrun : s'.runs[i]? with _ | r'
    · rcases h'.begins hrun hr'' with ⟨steps, hgoes⟩
      exact ⟨steps, (h.absent hrun _).trans hgoes⟩
    · rcases h.begins hnone hrun with ⟨steps, hgoes⟩
      rcases h'.goesOn hrun with ⟨r, hr, hgoes'⟩
      rw [hr'', Option.some.injEq] at hr
      subst hr
      exact ⟨steps, hgoes.trans hgoes'⟩
  absent := by
    intro hnone r
    have hnone' : s'.runs[i]? = none := by
      by_contra hsome
      rcases Option.ne_none_iff_exists'.1 hsome with ⟨r', hr'⟩
      rcases h'.goesOn hr' with ⟨r'', hr'', -⟩
      rw [hnone] at hr''
      exact absurd hr'' (by simp)
    exact (h.absent hnone' r).trans (h'.absent hnone r)

theorem Follows.of_starts (h : s.Starts s') (hsame : s''.runs[i]? = s'.runs[i]?) :
    Follows i s [] s'' where
  goesOn := by
    intro r hr
    exact ⟨r, by rw [hsame, h.get_of_some hr], .refl i r⟩
  begins := by
    intro hnone r' hr'
    rw [hsame] at hr'
    rcases h.get_of_none hnone hr' with ⟨steps, rfl⟩
    exact ⟨steps, .refl i _⟩
  absent := fun _ r => .refl i r

/-- A change of each run where it stands. -/
theorem Follows.of_map {f : Run → Run} (hf : ∀ r : Run, r.GoesOn i [] (f r))
    (hruns : s'.runs[i]? = s.runs[i]?.map f) : Follows i s [] s' where
  goesOn := by
    intro r hr
    exact ⟨f r, by rw [hruns, hr, Option.map_some], hf r⟩
  begins := by
    intro hnone r' hr'
    rw [hruns, hnone] at hr'
    exact absurd hr' (by simp)
  absent := fun _ r => .refl i r

/-- The turn of another run, which can start runs on its way. -/
theorem Follows.of_other {j : Nat} (hj : j ≠ i) (s : Session) :
    Follows i s [⟨j, s⟩] (s.turn j) := by
  have hidle : Follows i s [⟨j, s⟩] s := by
    refine ⟨fun {r} hr => ⟨r, hr, .of_other hj r s⟩, ?_, fun _ r => .of_other hj r s⟩
    intro hnone r hr
    rw [hnone] at hr
    exact absurd hr (by simp)
  have hset : ∀ (s' : Session) (r : Run), s.Starts s' → Follows i s [] (s'.setRun j r) :=
    fun s' r hstarts => .of_starts hstarts (List.getElem?_set_ne hj)
  have hrefl : Follows i s [] s := .of_starts (.of_runs rfl) rfl
  refine hidle.trans ?_
  rcases hrecord : Turn.dispatch? ⟨j, s⟩ with _ | d
  · rcases turn_of_dispatch?_eq_none hrecord with hturn | ⟨r, -, -, hturn⟩
    · rw [hturn]
      exact hrefl
    · rw [hturn]
      exact hset s _ (.of_runs rfl)
  · rcases turn_of_dispatch? hrecord with
      ⟨-, -, r, rest, -, -, ⟨-, hturn⟩ | ⟨wake, -, hturn⟩⟩
    · rw [hturn]
      exact hset _ _ (s.starts_perform d.step)
    · rw [hturn]
      exact hset s _ (.of_runs rfl)

/-- The turn of the run itself. -/
theorem goesOn_turn {r : Run} (hr : s.runs[i]? = some r) :
    ∃ r', (s.turn i).runs[i]? = some r' ∧ r.GoesOn i [⟨i, s⟩] r' := by
  obtain ⟨phase, tally, taken⟩ := r
  rcases phase with (_ | ⟨st, rest⟩) | ⟨wake, rest⟩ | _
  · rw [turn_of_nil hr rfl]
    exact ⟨_, getElem?_setRun_self hr _, .of_turn hr rfl rfl fun _ => rfl⟩
  · rcases hwake : st.wake? s.now with _ | wake
    · rw [turn_of_perform hr rfl hwake]
      -- The step may start other runs, which stand behind this one.
      have hr' := (s.starts_perform st).get_of_some hr
      refine ⟨_, getElem?_setRun_self hr' _, .of_turn hr rfl ?_ fun hfinished => ?_⟩
      · exact record_perform st s tally
      · exact absurd hfinished Bool.false_ne_true
    · -- The delay is counted as soon as the run falls asleep.
      have hfate : st.fate s.targets s.layers s.world = .executed := by
        simp only [Step.fate, Step.type_of_wake? hwake]
      rw [turn_of_wake hr rfl hwake]
      refine ⟨_, getElem?_setRun_self hr _, .of_turn hr rfl ?_ fun hfinished => ?_⟩
      · simp only [Run.next?, Option.toList_some, List.map_cons, List.map_nil, hfate]
        rfl
      · exact absurd hfinished Bool.false_ne_true
  · rw [turn_of_not_isReady hr rfl]
    exact ⟨_, hr, .of_turn hr rfl rfl id⟩
  · rw [turn_of_not_isReady hr rfl]
    exact ⟨_, hr, .of_turn hr rfl rfl id⟩

theorem Follows.of_turn (i : Nat) (s : Session) : Follows i s [⟨i, s⟩] (s.turn i) := by
  rcases hrun : s.runs[i]? with _ | r
  · -- Whatever stands in place of the run, nothing is done.
    have hnobody : ∀ r : Run, r.GoesOn i [⟨i, s⟩] r := by
      intro r
      have hdispatched := dispatchesOf_of_none hrun
      have hmover : Turn.mover? ⟨i, s⟩ = none := hrun
      refine ⟨by rw [hdispatched]; rfl, by rw [hdispatched]; rfl, ?_, fun _ => ⟨rfl, rfl⟩, id⟩
      simp [firstRest?, hmover]
    rw [turn_of_none hrun]
    refine ⟨fun {r} hr => ⟨r, hr, hnobody r⟩, ?_, fun _ r => hnobody r⟩
    intro hnone r hr
    rw [hnone] at hr
    exact absurd hr (by simp)
  · rcases goesOn_turn hrun with ⟨r', hr', hgoes⟩
    refine ⟨?_, ?_, ?_⟩
    · intro r'' hr''
      rw [hrun, Option.some.injEq] at hr''
      subst hr''
      exact ⟨r', hr', hgoes⟩
    · intro hnone
      rw [hrun] at hnone
      exact absurd hnone (by simp)
    · intro hnone
      rw [hr'] at hnone
      exact absurd hnone (by simp)

end Follows

/-- Each run goes on by its own turns. -/
theorem followsTurns_follows (i : Nat) : FollowsTurns (Follows i) where
  refl s := .of_starts (.of_runs rfl) rfl
  trans := Follows.trans
  turn j s := by
    by_cases hj : j = i
    · subst hj
      exact .of_turn j s
    · exact .of_other hj s
  clock time s := .of_map (fun r => .of_awaken i r time) List.getElem?_map
  take := by
    intro s j r hr
    by_cases hj : j = i
    · subst hj
      have htake : ∀ r : Run, r.GoesOn j [] { r with taken := true } :=
        fun r => .of_no_turn rfl rfl rfl
      refine .of_map htake ?_
      rw [hr, Option.map_some]
      exact getElem?_setRun_self hr _
    · exact .of_starts (.of_runs rfl) (List.getElem?_set_ne hj)

theorem follows_of_starts {s s' : Session} (i : Nat) (h : s.Starts s') : Follows i s [] s' :=
  .of_starts h rfl

/-- Whatever happens, each run goes on by its own turns. -/
theorem follows_happen (i : Nat) (e : Event) (s : Session) :
    Follows i s (s.eventTurns e) (s.happen e) := by
  have hfollows := followsTurns_follows i
  cases e with
  | spawn id o => exact follows_of_starts i (.of_runs rfl)
  | despawn id => exact follows_of_starts i (.of_runs (s.runs_despawn id))
  | loadScene scene objects => exact follows_of_starts i (.of_runs rfl)
  | sceneLoaded scene => exact follows_of_starts i (.of_runs rfl)
  | unloadScene scene => exact follows_of_starts i (.of_runs (s.runs_unloadScene scene))
  | shutdown => exact follows_of_starts i (.of_runs rfl)
  | author library => exact follows_of_starts i (.of_runs rfl)
  | bake graph => exact follows_of_starts i (.of_runs rfl)
  | startFull graph => exact follows_of_starts i (coversSteps_starts.startRun _ s)
  | startFrom graph trigger => exact follows_of_starts i (coversSteps_starts.startRun _ s)
  | click id => exact follows_of_starts i (coversSteps_starts.fire _ id s)
  | tick keys actions => exact follows_of_starts i (coversSteps_starts.tick keys actions s)
  | turn run => exact hfollows.turn run s
  | clock time => exact hfollows.clock time s
  | advance ms => exact hfollows.advance ms s
  | finish run => exact hfollows.finish run s
  | execute st => exact hfollows.execute (fun s => follows_of_starts i (s.starts_perform st)) s

/-- Waiting for a run that is finished, whose tally was not taken, gives its tally. -/
theorem finish_of_finished {s : Session} {i : Nat} {r : Run} (hr : s.runs[i]? = some r)
    (hfinished : r.isFinished = true) (htaken : r.taken = false) :
    (s.finish i).1 = some r.tally := by
  have hwaits : (s.runs[i]?.any fun r => !r.taken) = true := by
    simp [hr, htaken]
  have hfollows := followsTurns_follows i
  have hwait := hfollows.trans (hfollows.settle s)
    (hfollows.passWhile (fun s _ => s.isRunning i) s.settle.patience s.settle)
  rcases hwait.goesOn hr with ⟨r', hr', hgoes⟩
  -- A run without steps does nothing, so it counts nothing either.
  have hphase := Run.isFinished_iff.1 hfinished
  rcases hgoes.done (hgoes.stays hfinished) with ⟨hnothing, htally⟩
  simp only [Run.rest, hphase, List.map_eq_nil_iff] at hnothing
  simp only [Run.account, hphase, hnothing] at htally
  rw [finish, if_pos hwaits]
  simp only [hr', htally]
  rfl

/-- The steps that a run has left when it takes its first turn in a history. -/
def snapshot? (i : Nat) (events : List Event) (s : Session) : Option (List Step) :=
  firstRest? i (s.turns events)

/-- A run goes on in a history, or begins in it. -/
theorem follows_after (i : Nat) (events : List Event) (s : Session) :
    Follows i s (s.turns events) (s.after events) :=
  (followsTurns_follows i).after (fun e _ => follows_happen i e) s

/-- The steps that a run does in a history. -/
def doneBy (i : Nat) (events : List Event) (s : Session) : List Dispatch :=
  (s.dispatches events).filter fun d => d.run = i

/-- A run that is finished, and had not begun before a history, has done each of its steps
    once and in order, and counted it once. It counts as failed the steps whose action went
    wrong, and as skipped those that reported a reference leading nowhere. Its tally is what
    those get who wait for it. -/
theorem finished_run_accounts {s : Session} {i : Nat} {events : List Event} {r : Run}
    (hfresh : ∀ r₀, s.runs[i]? = some r₀ → r₀.IsFresh)
    (hrun : (s.after events).runs[i]? = some r) (hfinished : r.isFinished = true) :
    ∃ steps, s.snapshot? i events = some steps ∧
      (∀ r₀, s.runs[i]? = some r₀ → r₀.rest = steps) ∧
      (s.doneBy i events).map Dispatch.step = steps ∧
      r.tally.executed + r.tally.skipped + r.tally.failed = steps.length ∧
      r.tally.failed = (s.doneBy i events).countP Dispatch.callFails ∧
      r.tally.skipped = (s.doneBy i events).countP (fun d => d.fate = .skipped) ∧
      (∀ d ∈ s.doneBy i events, ∀ e, (d.before.perform d.step).1 = .error e →
        e.isUnresolved = true → d.fate = .skipped) ∧
      (r.taken = false → ((s.after events).finish i).1 = some r.tally) := by
  have hfollows := s.follows_after i events
  -- Wherever the run begins, it has all its steps before it.
  have hgoes : ∃ r₀ : Run, r₀.IsFresh ∧ (∀ r₁, s.runs[i]? = some r₁ → r₁ = r₀) ∧
      r₀.GoesOn i (s.turns events) r := by
    rcases hstart : s.runs[i]? with _ | r₀
    · rcases hfollows.begins hstart hrun with ⟨steps, hgoes⟩
      exact ⟨_, ⟨rfl, rfl⟩, fun _ hr => absurd hr (by simp), hgoes⟩
    · rcases hfollows.goesOn hstart with ⟨r', hr', hgoes⟩
      rw [hrun, Option.some.injEq] at hr'
      subst hr'
      exact ⟨r₀, hfresh r₀ hstart, fun _ hr => (Option.some.inj hr).symm, hgoes⟩
  rcases hgoes with ⟨r₀, hbegin, hsame, hgoes⟩
  have hsnapshot := hgoes.firstRest?_eq hbegin hfinished
  rcases hgoes.done hfinished with ⟨horder, htally⟩
  have hnothing : r₀.account = {} := by
    simp only [Run.account, hbegin.phase, hbegin.tally]
  rw [hnothing] at htally
  refine ⟨r₀.rest, hsnapshot, fun r₁ hr₁ => by rw [hsame r₁ hr₁], horder, ?_, ?_, ?_, ?_,
    finish_of_finished hrun hfinished⟩
  · have hlength : (s.doneBy i events).length = r₀.rest.length := by
      rw [← horder, List.length_map]
      rfl
    have hsteps := Tally.steps_countAll ((s.doneBy i events).map Dispatch.fate) {}
    rw [List.length_map, hlength] at hsteps
    rw [htally]
    exact hsteps.trans (Nat.zero_add _)
  · rw [htally, Dispatch.failed_countAll]
    rfl
  · rw [htally, Dispatch.skipped_countAll]
    rfl
  · intro d _ e he hunresolved
    exact (fate_of_error he).trans (if_pos hunresolved)

/-- Two runs of a house with a siren and a vase. The first calls an action that fails,
    twice, and hides the vase in between; but before it gets there, the other run has the
    vase removed, and while it waits after that, the house is unloaded. -/
def alarm : List Event :=
  [.author
      { graphs :=
          [{ name := "alarm"
             nodes :=
               [.ofKind ⟨"wail"⟩ (.call (some ⟨1⟩) "Siren" "wail"),
                .ofKind ⟨"hide"⟩ (.objects .off [some ⟨2⟩]),
                .ofKind ⟨"wait"⟩ (.delay (.ofInt 1)),
                .ofKind ⟨"again"⟩ (.call (some ⟨1⟩) "Siren" "wail")] },
            { name := "chores", nodes := [.ofKind ⟨"sweep"⟩ (.call (some ⟨1⟩) "" "sweep")] }] },
    .spawn ⟨1⟩
      { name := "Siren", scene := "House"
        actions := ⟨.ofList
          [(("Siren", "wail"), [.log "wail", .fail]), (("Broom", "sweep"), [.despawn ⟨2⟩])]⟩ },
    .spawn ⟨2⟩ { name := "Vase", scene := "House" },
    .bake ⟨0⟩, .bake ⟨1⟩, .startFull ⟨0⟩, .startFull ⟨1⟩,
    .turn 0, .turn 1, .turn 0, .turn 0, .unloadScene "House", .clock 1000, .turn 0, .turn 0]

theorem finished_run_accounts_of_alarm :
    (∀ r₀, (start {} .minted true).runs[0]? = some r₀ → r₀.IsFresh) ∧
      ((start {} .minted true).after alarm).runs[0]? =
        some { phase := .finished, tally := { executed := 1, skipped := 2, failed := 1 } } ∧
      (((start {} .minted true).after alarm).finish 0).1 =
        some { executed := 1, skipped := 2, failed := 1 } ∧
      ((start {} .minted true).doneBy 0 alarm).countP Dispatch.callFails = 1 ∧
      ∃ steps, (start {} .minted true).snapshot? 0 alarm = some steps ∧ steps.length = 4 ∧
        ((start {} .minted true).doneBy 0 alarm).map Dispatch.step = steps := by
  have hfresh : ∀ r₀, (start {} .minted true).runs[0]? = some r₀ → r₀.IsFresh :=
    fun _ hr => absurd hr (by simp [start])
  have hrun : ((start {} .minted true).after alarm).runs[0]? =
      some { phase := .finished, tally := { executed := 1, skipped := 2, failed := 1 } } := by
    decide +kernel
  rcases finished_run_accounts hfresh hrun rfl with
    ⟨steps, hsnapshot, -, horder, htotal, hfailed, -, -, hsummary⟩
  exact ⟨hfresh, hrun, hsummary rfl, hfailed.symm, steps, hsnapshot, htotal.symm, horder⟩

end Session

end BehaviorGraph
