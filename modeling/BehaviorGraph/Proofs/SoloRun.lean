import BehaviorGraph.Proofs.QuietSteps
import BehaviorGraph.Proofs.TurnRecord
import Mathlib.Algebra.Order.BigOperators.Group.List
import Mathlib.Algebra.Order.Group.Nat
/-!
# A Run of Its Own

A run that has a quiet session to itself does its steps in order, whatever delays
lie between them.

The scheduler knows nothing of the order of steps. It lets every run take turns
until none is ready, moves the clock to the next end of a delay, and starts
again; and it gives up after a number of turns. So two things are carried along.
The first is the course that the run is going to end with, its `ending`: the
meaning of the steps that remain, from where the session is. No turn and no move
of the clock changes it, except that the calls made so far drop out of it. The
second is a number of turns. A turn brings a ready run closer to its end or into a
delay, the end of a delay brings it closer to its end, and there is patience for
all of them.

What a run calls leaves no trace in a session but what the actions write to the
log, so the calls are read off the turns as they are taken.

## Main definitions

* `Session.turnCalls`, `Session.settleCalls`, `Session.passCalls`,
  `Session.finishCalls`: The actions that are called meanwhile.
* `Course.after`: A course with calls made before it.
* `Session.Solo`: All runs but one are finished, and that one calls quiet actions only.
* `Session.ending`: The course that a run is going to end with.
* `Session.Advances`: A session got closer to the same ending.

## Theorems

* `Session.Solo.turn`: One turn of the run.
* `Session.Solo.turnAll_eq`: A turn of every run is a turn of the run.
* `Session.Solo.settle`: The run settles.
* `Session.Solo.moveTo`: A delay ends.
* `Session.Solo.passWhile`: Time passes until the run is finished.
* `Session.Solo.finish`: Waiting for the run gives its ending.
-/

namespace BehaviorGraph

namespace Session

/-! ### Calls -/

/-- The action that a turn of a run calls. -/
def turnCalls (i : Nat) (s : Session) : List Action :=
  match s.runs[i]? with
  | none => []
  | some r =>
    match r.phase with
    | .ready (st :: _) => if (st.wake? s.now).isSome then [] else s.called st
    | _ => []

/-- The actions that turns of some runs call, one after the other. -/
def turnsCalls : List Nat → Session → List Action
  | [], _ => []
  | i :: is, s => s.turnCalls i ++ turnsCalls is (s.turn i)

/-- The actions that a turn of every run calls. -/
def turnAllCalls (s : Session) : List Action :=
  turnsCalls (List.range s.runs.length) s

/-- The actions that are called while runs go on, for a number of turns at
    most. -/
def settleCalls : Nat → Session → List Action
  | 0, _ => []
  | turns + 1, s =>
    if s.runs.any Run.isReady then s.turnAllCalls ++ settleCalls turns s.turnAll else []

/-- The actions that are called when the clock is set. -/
def moveCalls (time : Nat) (s : Session) : List Action :=
  let s := { s with now := time, runs := s.runs.map (Run.awaken time) }
  settleCalls s.patience s

/-- The actions that are called while time passes, for a number of turns at
    most. -/
def passCalls (goOn : Session → Nat → Bool) : Nat → Session → List Action
  | 0, _ => []
  | turns + 1, s =>
    match s.nextWake? with
    | none => []
    | some time =>
      if goOn s time then s.moveCalls time ++ passCalls goOn turns (s.moveTo time) else []

/-- The actions that are called while a run is waited for. -/
def finishCalls (i : Nat) (s : Session) : List Action :=
  if s.runs[i]?.any fun r => !r.taken then
    settleCalls s.patience s ++
      passCalls (fun s _ => s.isRunning i) s.settle.patience s.settle
  else []

end Session

/-! ### Courses and calls made before -/

namespace Course

/-- The course with some calls made before it. -/
def after (calls : List Action) (c : Course) : Course :=
  { c with called := calls ++ c.called }

@[simp]
theorem after_nil (c : Course) : c.after [] = c :=
  rfl

theorem after_append (calls calls' : List Action) (c : Course) :
    c.after (calls ++ calls') = (c.after calls').after calls := by
  simp [after]

theorem switch_after (f : World → Nat × World) (calls : List Action) (c : Course) :
    (c.after calls).switch f = (c.switch f).after calls := by
  by_cases h : 0 < (f c.world).1
  · simp [switch, after, h, pass]
  · simp [switch, after, h, skip]

theorem call_after (a : Option Action) (calls : List Action) (c : Course) :
    (c.after calls).call a = (c.call a).after calls := by
  cases a with
  | none => rfl
  | some a =>
      simp only [call, after]
      split
      · simp [fault]
      · simp [pass]

end Course

namespace Step

variable (targets : Targets) (layers : Layers)

theorem carryOut_after (st : Step) (calls : List Action) (c : Course) :
    st.carryOut targets layers (c.after calls) = (st.carryOut targets layers c).after calls := by
  unfold carryOut
  cases st.type with
  | click => rfl
  | key => rfl
  | layers switch => exact c.switch_after _ calls
  | objects switch => exact c.switch_after _ calls
  | delay => rfl
  | call => exact c.call_after _ calls

theorem carryOutAll_after (steps : List Step) (calls : List Action) (c : Course) :
    carryOutAll targets layers steps (c.after calls) =
      (carryOutAll targets layers steps c).after calls := by
  unfold carryOutAll
  induction steps generalizing c with
  | nil => rfl
  | cons st steps ih => rw [List.foldl_cons, List.foldl_cons, carryOut_after, ih]

/-- A step that waits is a delay. -/
theorem type_of_wake? {st : Step} {now wake : Nat} (h : st.wake? now = some wake) :
    st.type = .delay := by
  by_contra hne
  simp [wake?, nanoseconds?, hne] at h

theorem carryOut_of_wake? {st : Step} {now wake : Nat} (h : st.wake? now = some wake)
    (c : Course) : st.carryOut targets layers c = c.pass := by
  simp only [carryOut, type_of_wake? h]

end Step

theorem Run.isReady_iff {r : Run} : r.isReady = true ↔ ∃ rest, r.phase = .ready rest := by
  rcases hphase : r.phase with rest | ⟨wake, rest⟩ | _
  · simp [isReady, hphase]
  · simp [isReady, hphase]
  · simp [isReady, hphase]

theorem Run.isFinished_iff {r : Run} : r.isFinished = true ↔ r.phase = .finished := by
  rcases hphase : r.phase with rest | ⟨wake, rest⟩ | _
  · simp [isFinished, hphase]
  · simp [isFinished, hphase]
  · simp [isFinished, hphase]

/-- The steps that a run has left. -/
def Run.rest (r : Run) : List Step :=
  match r.phase with
  | .ready rest | .asleep _ rest => rest
  | .finished => []

theorem Run.rest_awaken (r : Run) (time : Nat) : (r.awaken time).rest = r.rest := by
  unfold awaken
  rcases hphase : r.phase with rest | ⟨wake, rest⟩ | _
  · rfl
  · simp only
    split
    · simp only [Run.rest, hphase]
    · rfl
  · rfl

/-- The number of turns until a run is finished or in a delay. -/
def Run.readyTurns (r : Run) : Nat :=
  match r.phase with
  | .ready rest => rest.length + 1
  | .asleep _ _ | .finished => 0

theorem Run.readyTurns_le (r : Run) : r.readyTurns ≤ r.turnsLeft := by
  rcases hphase : r.phase with rest | ⟨wake, rest⟩ | _
  · simp [readyTurns, turnsLeft, hphase]
  · simp [readyTurns, hphase]
  · simp [readyTurns, hphase]

/-- A list in which only one place has something to pick. -/
theorem filterMap_eq_toList {α β : Type} {f : α → Option β} {l : List α} {i : Nat} {a : α}
    (h : l[i]? = some a) (hothers : ∀ j b, l[j]? = some b → j ≠ i → f b = none) :
    l.filterMap f = (f a).toList := by
  induction l generalizing i with
  | nil => simp at h
  | cons b l ih =>
      cases i with
      | zero =>
          have hrest : l.filterMap f = [] := by
            rw [List.filterMap_eq_nil_iff]
            intro c hc
            rcases List.mem_iff_getElem?.1 hc with ⟨j, hj⟩
            exact hothers (j + 1) c hj (by omega)
          rw [List.getElem?_cons_zero, Option.some.injEq] at h
          subst h
          rcases hb : f b with _ | x
          · rw [List.filterMap_cons_none hb, hrest]
            rfl
          · rw [List.filterMap_cons_some hb, hrest]
            rfl
      | succ i =>
          have hb : f b = none := hothers 0 b rfl (by omega)
          rw [List.filterMap_cons_none hb]
          apply ih h
          intro j c hj hne
          exact hothers (j + 1) c hj (by omega)

namespace Session

/-! ### Solo sessions -/

/-- A run has the session to itself: the others are finished, and no action that it calls
    touches the world. -/
structure Solo (i : Nat) (r : Run) (s : Session) : Prop where
  /-- The run. -/
  run : s.runs[i]? = some r
  /-- The others are finished. -/
  alone : ∀ j r', s.runs[j]? = some r' → j ≠ i → r'.isFinished = true
  /-- What it calls is quiet. -/
  quiet : s.CallsQuietly r.rest

/-- The course that a run is going to end with if it has the session to itself:
    what its remaining steps mean, from where the session is. -/
def ending (s : Session) (r : Run) : Course :=
  match r.phase with
  | .ready rest => Step.carryOutAll s.targets s.layers rest (s.course r.tally)
  | .asleep _ rest => Step.carryOutAll s.targets s.layers rest (s.course r.tally).pass
  | .finished => s.course r.tally

/-- A run went on in a session of its own, calling some actions on the way, and is
    going to end with the same course, no more turns away. -/
structure Advances (i : Nat) (s : Session) (r : Run) (calls : List Action) (s' : Session)
    (r' : Run) : Prop where
  /-- The run still has the session to itself. -/
  solo : s'.Solo i r'
  /-- The calls are those that have dropped out of the ending. -/
  ending : s.ending r = (s'.ending r').after calls
  /-- The end is no further away. -/
  turns : r'.turnsLeft ≤ r.turnsLeft

theorem Solo.advances_refl {i : Nat} {r : Run} {s : Session} (h : s.Solo i r) :
    s.Advances i r [] s r :=
  ⟨h, rfl, Nat.le_refl _⟩

theorem Advances.trans {i : Nat} {s s' s'' : Session} {r r' r'' : Run} {calls calls' : List Action}
    (h : s.Advances i r calls s' r') (h' : s'.Advances i r' calls' s'' r'') :
    s.Advances i r (calls ++ calls') s'' r'' := by
  refine ⟨h'.solo, ?_, Nat.le_trans h'.turns h.turns⟩
  rw [h.ending, h'.ending, Course.after_append]

theorem Solo.lt_length {i : Nat} {r : Run} {s : Session} (h : s.Solo i r) :
    i < s.runs.length :=
  (List.getElem?_eq_some_iff.1 h.run).1

/-- Changing where the run stands, so that it has some of its steps left, leaves the others
    finished. -/
theorem Solo.setRun {i : Nat} {r : Run} {s : Session} (h : s.Solo i r) {r' : Run}
    (hrest : r'.rest ⊆ r.rest) : (s.setRun i r').Solo i r' := by
  refine ⟨?_, ?_, fun st hst => h.quiet st (hrest hst)⟩
  · exact getElem?_setRun_self h.run r'
  · intro j r'' hj hne
    rw [Session.setRun, List.getElem?_set_ne (Ne.symm hne)] at hj
    exact h.alone j r'' hj hne

/-! ### Turns -/

section Turns

variable {i : Nat} {r : Run} {s : Session}

/-- A run that is asleep or finished calls nothing. -/
theorem turnCalls_of_not_isReady (hr : s.runs[i]? = some r) (h : r.isReady = false) :
    s.turnCalls i = [] := by
  unfold turnCalls
  rw [hr]
  rcases hphase : r.phase with rest | ⟨wake, rest⟩ | _
  · simp [Run.isReady, hphase] at h
  · simp [hphase]
  · simp [hphase]

theorem turnCalls_of_nil (hr : s.runs[i]? = some r) (h : r.phase = .ready []) :
    s.turnCalls i = [] := by
  simp [turnCalls, hr, h]

theorem turnCalls_of_wake {st : Step} {rest : List Step} {wake : Nat}
    (hr : s.runs[i]? = some r) (h : r.phase = .ready (st :: rest))
    (hwake : st.wake? s.now = some wake) : s.turnCalls i = [] := by
  simp [turnCalls, hr, h, hwake]

theorem turnCalls_of_perform {st : Step} {rest : List Step} (hr : s.runs[i]? = some r)
    (h : r.phase = .ready (st :: rest)) (hwake : st.wake? s.now = none) :
    s.turnCalls i = s.called st := by
  simp [turnCalls, hr, h, hwake]

/-- Performing the next step of the run leads on. -/
theorem Solo.perform {st : Step} {rest : List Step} (h : s.Solo i r)
    (hphase : r.phase = .ready (st :: rest)) :
    s.Advances i r (s.called st)
      ((s.perform st).2.setRun i
        { r with phase := .ready rest, tally := r.tally.record (s.perform st).1 })
      { r with phase := .ready rest, tally := r.tally.record (s.perform st).1 } := by
  have hrest : r.rest = st :: rest := by
    simp only [Run.rest, hphase]
  have hquiet : ∀ a ∈ s.called st, a.all Effect.isQuiet = true :=
    h.quiet st (by rw [hrest]; exact List.mem_cons_self)
  have hspec := perform_spec hquiet r.tally
  have hcalled := s.called_carryOut r.tally st
  have hactions := Step.actions_carryOut s.targets s.layers st (s.course r.tally)
  -- Everything is said in terms of the course that the step leads to.
  rw [hspec.session, hspec.tally, ← hcalled]
  have hending : s.ending r = Step.carryOutAll s.targets s.layers rest
      (st.carryOut s.targets s.layers (s.course r.tally)) := by
    simp only [ending, hphase, Step.carryOutAll, List.foldl_cons]
  generalize st.carryOut s.targets s.layers (s.course r.tally) = c at hactions hending ⊢
  have hsolo : Solo i r { s with world := c.world, log := c.log } :=
    ⟨h.run, h.alone, h.quiet.congr rfl hactions⟩
  refine ⟨hsolo.setRun ?_, ?_, ?_⟩
  · rw [hrest]
    exact List.subset_cons_self st rest
  · -- The call drops out of the course, which starts anew behind it.
    have hsplit :
        c = Course.after c.called { world := c.world, log := c.log, tally := c.tally } := by
      simp [Course.after]
    rw [hending, hsplit, Step.carryOutAll_after]
    simp only [Course.after, List.append_nil]
    rfl
  · simp [Run.turnsLeft, hphase]

/-- A turn of the run does its next step, or puts it to sleep, or finishes it. If
    the run was ready, that is one turn less. -/
theorem Solo.turn (h : s.Solo i r) :
    ∃ r', s.Advances i r (s.turnCalls i) (s.turn i) r' ∧
      (r.isReady = true → r'.readyTurns < r.readyTurns) := by
  rcases hready : r.isReady with _ | _
  · rw [turn_of_not_isReady h.run hready, turnCalls_of_not_isReady h.run hready]
    exact ⟨r, h.advances_refl, fun hfalse => absurd hfalse (by decide)⟩
  · rcases Run.isReady_iff.1 hready with ⟨rest, hphase⟩
    cases rest with
    | nil =>
        rw [turn_of_nil h.run hphase, turnCalls_of_nil h.run hphase]
        refine ⟨{ r with phase := .finished }, ⟨h.setRun (List.nil_subset _), ?_, ?_⟩, ?_⟩
        · simp only [ending, hphase]
          rfl
        · simp only [Run.turnsLeft, Nat.zero_le]
        · simp [Run.readyTurns, hphase]
    | cons st rest =>
        -- The step puts the run to sleep if it is a delay that takes time.
        rcases hwake : st.wake? s.now with _ | wake
        · rw [turn_of_perform h.run hphase hwake, turnCalls_of_perform h.run hphase hwake]
          refine ⟨_, h.perform hphase, ?_⟩
          simp [Run.readyTurns, hphase]
        · rw [turn_of_wake h.run hphase hwake, turnCalls_of_wake h.run hphase hwake]
          refine ⟨{ r with phase := .asleep wake rest }, ⟨h.setRun ?_, ?_, ?_⟩, ?_⟩
          · rw [show r.rest = st :: rest by simp only [Run.rest, hphase]]
            exact List.subset_cons_self st rest
          · simp only [ending, hphase, Step.carryOutAll, List.foldl_cons]
            rw [Step.carryOut_of_wake? _ _ hwake]
            rfl
          · simp [Run.turnsLeft, hphase]
          · simp [Run.readyTurns, hphase]

/-- Of turns of different runs, those of the run itself are the only ones in which
    anything is done. -/
theorem Solo.turns {js : List Nat} (h : s.Solo i r) (hn : js.Nodup) :
    js.foldl (fun s j => s.turn j) s = (if i ∈ js then s.turn i else s) ∧
      turnsCalls js s = if i ∈ js then s.turnCalls i else [] := by
  induction js generalizing s r with
  | nil => exact ⟨rfl, rfl⟩
  | cons j js ih =>
      rw [List.nodup_cons] at hn
      rw [List.foldl_cons, turnsCalls]
      by_cases hj : j = i
      · -- The turn of the run. It has no other among those that follow.
        subst hj
        rcases h.turn with ⟨r', hadv, -⟩
        rcases ih hadv.solo hn.2 with ⟨hrest, hcalls⟩
        rw [if_neg hn.1] at hrest hcalls
        rw [hrest, hcalls]
        simp
      · have hidle : s.turn j = s ∧ s.turnCalls j = [] := by
          rcases hrun : s.runs[j]? with _ | r'
          · exact ⟨turn_of_none hrun, by simp only [turnCalls, hrun]⟩
          · have hphase := Run.isFinished_iff.1 (h.alone j r' hrun hj)
            have hready : r'.isReady = false := by simp [Run.isReady, hphase]
            exact ⟨turn_of_not_isReady hrun hready, turnCalls_of_not_isReady hrun hready⟩
        rcases ih h hn.2 with ⟨hrest, hcalls⟩
        rw [hidle.1, hidle.2, hrest, hcalls]
        simp [List.mem_cons, Ne.symm hj]

/-- A turn of every run is a turn of the run. -/
theorem Solo.turnAll_eq (h : s.Solo i r) :
    s.turnAll = s.turn i ∧ s.turnAllCalls = s.turnCalls i := by
  rcases h.turns (List.nodup_range (n := s.runs.length)) with ⟨hall, hcalls⟩
  rw [if_pos (List.mem_range.2 h.lt_length)] at hall hcalls
  exact ⟨hall, hcalls⟩

theorem Solo.any_isReady (h : s.Solo i r) : s.runs.any Run.isReady = r.isReady := by
  rcases hready : r.isReady with _ | _
  · rw [List.any_eq_false]
    intro r' hr'
    rcases List.mem_iff_getElem?.1 hr' with ⟨j, hj⟩
    by_cases hji : j = i
    · subst hji
      rw [h.run] at hj
      cases hj
      simp [hready]
    · simp [Run.isReady, Run.isFinished_iff.1 (h.alone j r' hj hji)]
  · exact List.any_eq_true.2 ⟨r, List.mem_of_getElem? h.run, hready⟩

/-- The run goes on until it is finished or in a delay. -/
theorem Solo.settleWithin (turns : Nat) (h : s.Solo i r) (hturns : r.readyTurns ≤ turns) :
    ∃ r', s.Advances i r (settleCalls turns s) (s.settleWithin turns) r' ∧
      r'.isReady = false := by
  induction turns generalizing s r with
  | zero =>
      refine ⟨r, h.advances_refl, ?_⟩
      rcases hphase : r.phase with rest | ⟨wake, rest⟩ | _
      · simp [Run.readyTurns, hphase] at hturns
      · simp [Run.isReady, hphase]
      · simp [Run.isReady, hphase]
  | succ turns ih =>
      rw [Session.settleWithin, settleCalls, h.any_isReady]
      rcases hready : r.isReady with _ | _
      · exact ⟨r, h.advances_refl, hready⟩
      · -- One turn has been spent, and there is one less to spend.
        rcases h.turn with ⟨r', hadv, hless⟩
        have hless' := hless hready
        rcases ih hadv.solo (by omega) with ⟨r'', hrest, hdone⟩
        rw [h.turnAll_eq.1, h.turnAll_eq.2]
        exact ⟨r'', hadv.trans hrest, hdone⟩

/-! ### Delays -/

/-- There is patience for all turns of each run. -/
theorem turnsLeft_le_patience {r : Run} (hr : r ∈ s.runs) : r.turnsLeft ≤ s.patience := by
  rw [patience]
  -- The turns in reserve come on top, however many they are.
  generalize reserve = turns
  revert hr
  induction s.runs with
  | nil => exact fun hr => absurd hr List.not_mem_nil
  | cons r' rs ih =>
      intro hr
      rw [List.foldr_cons]
      rcases List.mem_cons.1 hr with rfl | hr
      · exact Nat.le_add_right _ _
      · exact Nat.le_trans (ih hr) (Nat.le_add_left _ _)

theorem Solo.turnsLeft_le_patience (h : s.Solo i r) : r.turnsLeft ≤ s.patience :=
  Session.turnsLeft_le_patience (List.mem_of_getElem? h.run)

theorem Solo.settle (h : s.Solo i r) :
    ∃ r', s.Advances i r (settleCalls s.patience s) s.settle r' ∧ r'.isReady = false := by
  rw [Session.settle]
  exact h.settleWithin s.patience (Nat.le_trans r.readyTurns_le h.turnsLeft_le_patience)

/-- The clock moves on, and the run wakes if it is time. -/
theorem Solo.awaken (h : s.Solo i r) (time : Nat) :
    s.Advances i r [] { s with now := time, runs := s.runs.map (Run.awaken time) }
      (r.awaken time) := by
  refine ⟨⟨?_, ?_, fun st hst => h.quiet st (r.rest_awaken time ▸ hst)⟩, ?_, ?_⟩
  · rw [List.getElem?_map, h.run]
    rfl
  · intro j r' hj hne
    rw [List.getElem?_map, Option.map_eq_some_iff] at hj
    rcases hj with ⟨r'', hr'', rfl⟩
    have hphase := Run.isFinished_iff.1 (h.alone j r'' hr'' hne)
    simp [Run.isFinished, Run.awaken, hphase]
  · -- Waking up is no step, so what the run ends with is the same.
    rcases hphase : r.phase with rest | ⟨wake, rest⟩ | _
    · simp only [Run.awaken, hphase]
      rfl
    · by_cases htime : wake ≤ time
      · simp only [Run.awaken, hphase, if_pos htime, ending]
        rfl
      · simp only [Run.awaken, hphase, if_neg htime]
        rfl
    · simp only [Run.awaken, hphase]
      rfl
  · rcases hphase : r.phase with rest | ⟨wake, rest⟩ | _
    · simp [Run.awaken, hphase]
    · by_cases htime : wake ≤ time
      · simp [Run.awaken, hphase, htime, Run.turnsLeft]
      · simp [Run.awaken, hphase, htime]
    · simp [Run.awaken, hphase]

theorem Solo.moveTo (h : s.Solo i r) (time : Nat) :
    ∃ r', s.Advances i r (s.moveCalls time) (s.moveTo time) r' ∧ r'.isReady = false ∧
      r'.turnsLeft ≤ (r.awaken time).turnsLeft := by
  -- Setting the clock calls nothing; what wakes then goes on until it rests again.
  have hawake := h.awaken time
  rcases hawake.solo.settle with ⟨r', hadv, hdone⟩
  have hboth := hawake.trans hadv
  rw [List.nil_append] at hboth
  rw [Session.moveTo, moveCalls]
  exact ⟨r', hboth, hdone, hadv.turns⟩

/-- The run is the only one that can be asleep. -/
theorem Solo.nextWake?_eq (h : s.Solo i r) : s.nextWake? = r.wake? := by
  have hothers : ∀ j r', s.runs[j]? = some r' → j ≠ i → r'.wake? = none := by
    intro j r' hj hne
    simp [Run.wake?, Run.isFinished_iff.1 (h.alone j r' hj hne)]
  rw [nextWake?, filterMap_eq_toList h.run hothers]
  rcases r.wake? with _ | wake
  · rfl
  · rfl

/-- Time passes until the run is finished. -/
theorem Solo.passWhile (turns : Nat) (h : s.Solo i r) (hready : r.isReady = false)
    (hturns : r.turnsLeft ≤ turns) :
    ∃ r', s.Advances i r (passCalls (fun s _ => s.isRunning i) turns s)
        (s.passWhile (fun s _ => s.isRunning i) turns) r' ∧ r'.phase = .finished := by
  induction turns generalizing s r with
  | zero =>
      refine ⟨r, h.advances_refl, ?_⟩
      rcases hphase : r.phase with rest | ⟨wake, rest⟩ | _
      · simp [Run.turnsLeft, hphase] at hturns
      · simp [Run.turnsLeft, hphase] at hturns
      · rfl
  | succ turns ih =>
      rw [Session.passWhile, passCalls, h.nextWake?_eq]
      rcases hphase : r.phase with rest | ⟨wake, rest⟩ | _
      · simp [Run.isReady, hphase] at hready
      · -- The run is asleep: the clock moves to the end of its delay.
        have hrunning : s.isRunning i = true := by
          simp [isRunning, h.run, Run.isFinished, hphase]
        have hcloser : (r.awaken wake).turnsLeft < r.turnsLeft := by
          simp [Run.awaken, hphase, Run.turnsLeft]
        rcases h.moveTo wake with ⟨r', hadv, hready', hless⟩
        rcases ih hadv.solo hready' (by omega) with ⟨r'', hrest, hfinished⟩
        simp only [Run.wake?, hphase, hrunning, ↓reduceIte]
        exact ⟨r'', hadv.trans hrest, hfinished⟩
      · simp only [Run.wake?, hphase]
        exact ⟨r, h.advances_refl, hphase⟩

/-- A run that has nothing left to do ends where the session is. -/
theorem Advances.of_finished {s' : Session} {r' : Run} {calls : List Action}
    (h : s.Advances i r calls s' r') (hr : r'.phase = .finished) :
    r'.tally = (s.ending r).tally ∧ s'.world = (s.ending r).world ∧
      s'.log = (s.ending r).log ∧ calls = (s.ending r).called := by
  have hending : s.ending r = (s'.course r'.tally).after calls := by
    rw [h.ending, ending.eq_def s' r', hr]
  rw [hending]
  refine ⟨rfl, rfl, rfl, ?_⟩
  simp [Course.after, course]

/-- Waiting for a run whose tally was not taken, once it is known where that
    leads. The session it leads to is a variable here, since the number of turns
    waited for is too large to be unfolded. -/
theorem finish_of_run {ended : Session} {r' : Run}
    (hwaits : (s.runs[i]?.any fun r => !r.taken) = true)
    (hended : s.settle.passWhile (fun s _ => s.isRunning i) s.settle.patience = ended)
    (h : ended.Solo i r') (hr : r'.phase = .finished) :
    (s.finish i).1 = some r'.tally ∧ (s.finish i).2.world = ended.world ∧
      (s.finish i).2.log = ended.log ∧ (s.finish i).2.isRunning i = false := by
  have hfinish : s.finish i = (some r'.tally, ended.setRun i { r' with taken := true }) := by
    rw [Session.finish, if_pos hwaits]
    simp only [hended, h.run]
  rw [hfinish]
  refine ⟨rfl, rfl, rfl, ?_⟩
  have hset : (ended.setRun i { r' with taken := true }).Solo i { r' with taken := true } :=
    h.setRun (List.Subset.refl r'.rest)
  rw [isRunning, hset.run]
  simp [Run.isFinished, hr]

/-- Waiting for a run that has the session to itself gives the course it was going
    to end with. -/
theorem Solo.finish (h : s.Solo i r) (htaken : r.taken = false) :
    (s.finish i).1 = some (s.ending r).tally ∧
      (s.finish i).2.world = (s.ending r).world ∧
      (s.finish i).2.log = (s.ending r).log ∧
      s.finishCalls i = (s.ending r).called ∧
      (s.finish i).2.isRunning i = false := by
  have hwaits : (s.runs[i]?.any fun r => !r.taken) = true := by
    rw [h.run]
    simp [htaken]
  -- Up to the first delay, from there to the end, and what is left at the end.
  rcases h.settle with ⟨r₁, hsettled, hready⟩
  rcases hsettled.solo.passWhile s.settle.patience hready hsettled.solo.turnsLeft_le_patience with
    ⟨r₂, hpassed, hfinished⟩
  rcases (hsettled.trans hpassed).of_finished hfinished with ⟨htally, hworld, hlog, hcalls⟩
  rcases finish_of_run hwaits rfl hpassed.solo hfinished with
    ⟨htally', hworld', hlog', hdone⟩
  refine ⟨?_, hworld'.trans hworld, hlog'.trans hlog, ?_, hdone⟩
  · rw [htally', htally]
  · rw [finishCalls, if_pos hwaits]
    exact hcalls

end Turns

end Session

end BehaviorGraph
