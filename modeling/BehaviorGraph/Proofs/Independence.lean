import BehaviorGraph.Proofs.Accounting
import BehaviorGraph.Proofs.FlagWrites
/-!
# Independence of Runs

Runs that go on side by side, and what each of them owes to the others.

Nothing that a quiet step changes tells what becomes of a step. That depends on targets,
layers, the objects and their actions, and all of these stay as they are while runs go on
and only switch objects or call quiet actions. So the tally that a run is going to end with
is settled before it goes on, whichever turns the others take, or whether there are others.

The world is another matter, since steps write into it, and some look at it before. A
history is one order of the steps of all runs, with the steps of each run in their own order.
Two such orders lead to the same world if steps of different runs can always change places:
the first step of one order is somewhere in the other one, behind steps of other runs only,
and can be moved to the front; what is left are two orders of the steps that are left.

## Main definitions

* `Session.QuietRuns`: No run calls an action that touches the world.
* `Session.CarriesOut`: Nothing has changed but what steps say that runs have done.
* `Session.outcome`: The tally that a run is going to end with.
* `Session.alone`: A run is the only one.
* `Session.Compatible`: Steps of different runs that write the same flag are alike.
* `Event.goesOn`: An event in which runs just go on.

## Theorems

* `foldl_eq_of_merges`: Two orders of changes of which some can change places.
* `Session.followsTurns_carriesOut`: What turns do to a session.
* `Session.CarriesOut.tally_eq`: The tally a run ends with.
* `Session.runs_independent`: Runs do not depend on each other.
-/

namespace BehaviorGraph

/-! ### Orders of changes -/

section Merges

variable {α ι σ : Type} [DecidableEq ι] {f : σ → α → σ} {P : σ → Prop}

/-- A change that can change places with all changes before it can be made first. -/
theorem foldl_append_cons_of_comm (hkeep : ∀ w x, P w → P (f w x)) {before after : List α} {x : α}
    (hcomm : ∀ y ∈ before, ∀ w, P w → f (f w y) x = f (f w x) y) {w : σ} (hw : P w) :
    (before ++ x :: after).foldl f w = (before ++ after).foldl f (f w x) := by
  induction before generalizing w with
  | nil => rfl
  | cons y before ih =>
      rw [List.cons_append, List.cons_append, List.foldl_cons, List.foldl_cons,
        ih (fun z hz => hcomm z (List.mem_cons_of_mem y hz)) (hkeep w y hw),
        hcomm y List.mem_cons_self w hw]

/-- Two orders of the changes that some runs make, each run making its own in one order,
    come to the same if changes of different runs can change places. -/
theorem foldl_eq_of_merges (run : α → ι) (hkeep : ∀ w x, P w → P (f w x)) {xs ys : List α}
    (hruns : ∀ i, ys.filter (fun x => run x = i) = xs.filter (fun x => run x = i))
    (hcomm : ∀ x ∈ xs, ∀ y ∈ xs, run x ≠ run y → ∀ w, P w → f (f w y) x = f (f w x) y)
    {w : σ} (hw : P w) : ys.foldl f w = xs.foldl f w := by
  induction xs generalizing ys w with
  | nil =>
      have hnil : ys = [] := by
        rw [List.eq_nil_iff_forall_not_mem]
        intro y hy
        have hmem : y ∈ ys.filter fun x => run x = run y := by simp [hy]
        rw [hruns] at hmem
        exact absurd hmem List.not_mem_nil
      rw [hnil]
  | cons x xs ih =>
      -- The change that comes first here is the first one of its run there.
      have hfirst := hruns (run x)
      rw [List.filter_cons_of_pos (by simp), List.filter_eq_cons_iff] at hfirst
      rcases hfirst with ⟨before, after, rfl, hbefore, -, hafter⟩
      have hother : ∀ y ∈ before, run x ≠ run y := by
        intro y hy hsame
        exact hbefore y hy (by simp [hsame])
      have hmem : ∀ y ∈ before, y ∈ x :: xs := by
        intro y hy
        have hy' : y ∈ (before ++ x :: after).filter fun z => run z = run y := by simp [hy]
        rw [hruns] at hy'
        exact (List.mem_filter.1 hy').1
      rw [List.foldl_cons, foldl_append_cons_of_comm hkeep
        (fun y hy => hcomm x List.mem_cons_self y (hmem y hy) (hother y hy)) hw]
      refine ih (fun i => ?_) ?_ (hkeep w x hw)
      · -- What is left are two orders of the changes that are left.
        by_cases hi : run x = i
        · subst hi
          have hnone : before.filter (fun y => run y = run x) = [] := by
            rw [List.filter_eq_nil_iff]
            exact hbefore
          rw [List.filter_append, hnone, List.nil_append, hafter]
        · have hrun := hruns i
          rw [List.filter_append, List.filter_cons_of_neg (by simpa using hi),
            List.filter_cons_of_neg (by simpa using hi)] at hrun
          rw [List.filter_append, hrun]
      · intro y hy z hz
        exact hcomm y (List.mem_cons_of_mem x hy) z (List.mem_cons_of_mem x hz)

end Merges

/-! ### Quiet turns -/

theorem Step.world_carryOut (targets : Targets) (layers : Layers) (st : Step) (c : Course) :
    (st.carryOut targets layers c).world = st.effect targets layers c.world := by
  unfold carryOut effect
  rcases st.type with _ | _ | s | s | _ | _
  · rfl
  · rfl
  · exact c.world_switch _
  · exact c.world_switch _
  · rfl
  · exact c.world_call _

namespace Session

/-- No run calls an action that touches the world. -/
def QuietRuns (s : Session) : Prop :=
  ∀ r ∈ s.runs, s.CallsQuietly r.rest

instance (s : Session) : Decidable s.QuietRuns :=
  inferInstanceAs (Decidable (∀ r ∈ s.runs, ∀ st ∈ r.rest, ∀ a ∈ s.called st,
    a.all Effect.isQuiet = true))

/-- What the steps do to a world that runs do in some turns, with the targets and layers
    of a session. -/
def effects (s : Session) (ts : List Turn) (w : World) : World :=
  (ts.filterMap Turn.dispatch?).foldl (fun w d => d.step.effect s.targets s.layers w) w

theorem awake_effects (s : Session) (ts : List Turn) (w : World) :
    (s.effects ts w).awake = w.awake := by
  unfold effects
  induction ts.filterMap Turn.dispatch? generalizing w with
  | nil => rfl
  | cons d ds ih => rw [List.foldl_cons, ih, Step.awake_effect]

theorem effects_append (s : Session) (ts ts' : List Turn) (w : World) :
    s.effects (ts ++ ts') w = s.effects ts' (s.effects ts w) := by
  simp only [effects, List.filterMap_append, List.foldl_append]

theorem effects_congr {s s' : Session} (htargets : s'.targets = s.targets)
    (hlayers : s'.layers = s.layers) (ts : List Turn) (w : World) :
    s'.effects ts w = s.effects ts w := by
  simp only [effects, htargets, hlayers]

/-- Turns have been taken in which runs did no more than their steps say. -/
structure CarriesOut (s : Session) (ts : List Turn) (s' : Session) : Prop where
  /-- Target ids stand for the same objects. -/
  targets : s'.targets = s.targets
  /-- Layers have the same groups. -/
  layers : s'.layers = s.layers
  /-- No run was started. -/
  length : s'.runs.length = s.runs.length
  /-- The world is what the steps have made of it. -/
  world : s'.world = s.effects ts s.world
  /-- Each step was done among the same objects, active or not. -/
  before : ∀ d ∈ ts.filterMap Turn.dispatch?,
    d.before.targets = s.targets ∧ d.before.layers = s.layers ∧
      d.before.world.awake = s.world.awake
  /-- The runs are still quiet. -/
  quiet : s'.QuietRuns

section CarriesOut

variable {s s' s'' : Session} {ts ts' : List Turn}

theorem CarriesOut.awake (h : s.CarriesOut ts s') : s'.world.awake = s.world.awake := by
  rw [h.world, awake_effects]

theorem CarriesOut.trans (h : s.CarriesOut ts s') (h' : s'.CarriesOut ts' s'') :
    s.CarriesOut (ts ++ ts') s'' where
  targets := h'.targets.trans h.targets
  layers := h'.layers.trans h.layers
  length := h'.length.trans h.length
  world := by rw [effects_append, ← h.world, ← effects_congr h.targets h.layers, h'.world]
  before d hd := by
    rw [List.filterMap_append, List.mem_append] at hd
    rcases hd with hd | hd
    · exact h.before d hd
    · rcases h'.before d hd with ⟨htargets, hlayers, hawake⟩
      exact ⟨htargets.trans h.targets, hlayers.trans h.layers, hawake.trans h.awake⟩
  quiet := h'.quiet

/-- A change that concerns only runs, each of which has some of its steps left. -/
theorem QuietRuns.of_runs (h : s.QuietRuns) (htargets : s'.targets = s.targets)
    (hawake : s'.world.awake = s.world.awake)
    (hruns : ∀ r' ∈ s'.runs, ∃ r ∈ s.runs, r'.rest ⊆ r.rest) : s'.QuietRuns := by
  intro r' hr'
  rcases hruns r' hr' with ⟨r, hr, hrest⟩
  have hcalls := (h r hr).congr htargets (World.actions_of_awake hawake)
  exact fun st hst => hcalls st (hrest hst)

theorem effects_turn {i : Nat} {r : Run} (hr : s.runs[i]? = some r) (w : World) :
    s.effects [⟨i, s⟩] w = r.next?.elim w fun st => st.effect s.targets s.layers w := by
  rw [effects, List.filterMap_cons, Turn.dispatch?_eq hr]
  rcases r.next? with _ | st
  · rfl
  · rfl

/-- Where a run stands changes, and with it the world and the log, as its step says. -/
theorem CarriesOut.of_turn {i : Nat} {r r' : Run} (hs : s.QuietRuns)
    (hr : s.runs[i]? = some r) (hrest : r'.rest ⊆ r.rest) {world : World}
    (hworld : world = r.next?.elim s.world fun st => st.effect s.targets s.layers s.world)
    (log : List String) :
    s.CarriesOut [⟨i, s⟩] (({ s with world, log } : Session).setRun i r') where
  targets := rfl
  layers := rfl
  length := List.length_set
  world := by rw [effects_turn hr, ← hworld]; rfl
  before d hd := by
    rw [List.filterMap_cons, Turn.dispatch?_eq hr] at hd
    rcases hnext : r.next? with _ | st
    · rw [hnext] at hd
      exact absurd hd List.not_mem_nil
    · rw [hnext] at hd
      rw [List.mem_singleton.1 hd]
      exact ⟨rfl, rfl, rfl⟩
  quiet := by
    have hawake : world.awake = s.world.awake := by
      rw [hworld, ← effects_turn hr, awake_effects]
    refine hs.of_runs rfl hawake fun r'' hr'' => ?_
    rcases List.mem_or_eq_of_mem_set hr'' with hold | rfl
    · exact ⟨r'', hold, List.Subset.refl _⟩
    · exact ⟨r, List.mem_of_getElem? hr, hrest⟩

/-- Nothing has changed but runs, each of which has some of its steps left. -/
theorem CarriesOut.of_runs (hs : s.QuietRuns) {runs : List Run} {now : Nat}
    (hlength : runs.length = s.runs.length)
    (hruns : ∀ r' ∈ runs, ∃ r ∈ s.runs, r'.rest ⊆ r.rest) :
    s.CarriesOut [] { s with runs, now } where
  targets := rfl
  layers := rfl
  length := hlength
  world := rfl
  before _ hd := absurd hd List.not_mem_nil
  quiet := hs.of_runs rfl rfl hruns

theorem carriesOut_turn (i : Nat) (hs : s.QuietRuns) : s.CarriesOut [⟨i, s⟩] (s.turn i) := by
  rcases hrecord : Turn.dispatch? ⟨i, s⟩ with _ | d
  · have hnobody : [Turn.mk i s].filterMap Turn.dispatch? = [] := by
      rw [List.filterMap_cons, hrecord]
      rfl
    rcases turn_of_dispatch?_eq_none hrecord with hturn | ⟨r, hr, hphase, hturn⟩
    · rw [hturn]
      refine ⟨rfl, rfl, rfl, ?_, ?_, hs⟩
      · rw [effects, hnobody]
        rfl
      · rw [hnobody]
        exact fun _ hd => absurd hd List.not_mem_nil
    · have hnext : r.next? = none := by simp only [Run.next?, hphase]
      rw [hturn]
      exact .of_turn hs hr (List.nil_subset _) (by rw [hnext]; rfl) s.log
  · rcases turn_of_dispatch? hrecord with ⟨-, -, r, rest, hr, hphase, hdone⟩
    have hnext : r.next? = some d.step := Run.next?_eq_some_iff.2 ⟨rest, hphase⟩
    have hrest : r.rest = d.step :: rest := by simp only [Run.rest, hphase]
    have hsub : rest ⊆ r.rest := by
      rw [hrest]
      exact List.subset_cons_self d.step rest
    rcases hdone with ⟨-, hturn⟩ | ⟨wake, hwake, hturn⟩
    · have hquiet : ∀ a ∈ s.called d.step, a.all Effect.isQuiet = true :=
        hs r (List.mem_of_getElem? hr) d.step (by rw [hrest]; exact List.mem_cons_self)
      rw [hturn, (perform_spec hquiet r.tally).session, Step.world_carryOut]
      refine .of_turn hs hr ?_ (by rw [hnext]; rfl) _
      exact hsub
    · -- A delay leaves the world as it is.
      have hworld :
          s.world = r.next?.elim s.world fun st => st.effect s.targets s.layers s.world := by
        simp only [hnext, Option.elim_some, Step.effect, Step.type_of_wake? hwake]
      rw [hturn]
      refine .of_turn hs hr ?_ hworld s.log
      exact hsub

end CarriesOut

/-- Whatever makes quiet runs go on, it does no more than their steps say. -/
theorem followsTurns_carriesOut :
    FollowsTurns fun s ts s' => s.QuietRuns → s.CarriesOut ts s' where
  refl s hs := .of_runs hs rfl fun r hr => ⟨r, hr, List.Subset.refl _⟩
  trans h h' hs := (h hs).trans (h' (h hs).quiet)
  turn i _ hs := carriesOut_turn i hs
  clock time s hs := by
    refine .of_runs hs (List.length_map _) fun r' hr' => ?_
    rcases List.mem_map.1 hr' with ⟨r, hr, rfl⟩
    exact ⟨r, hr, by rw [r.rest_awaken time]; exact List.Subset.refl _⟩
  take := by
    intro s i r hr hs
    refine .of_runs hs List.length_set fun r' hr' => ?_
    rcases List.mem_or_eq_of_mem_set hr' with hold | rfl
    · exact ⟨r', hold, List.Subset.refl _⟩
    · exact ⟨r, List.mem_of_getElem? hr, List.Subset.refl _⟩

end Session

/-- The event makes runs go on, and does nothing else. -/
def Event.goesOn : Event → Bool
  | .turn _ | .clock _ | .advance _ | .finish _ => true
  | _ => false

namespace Session

theorem carriesOut_happen {e : Event} (he : e.goesOn = true) {s : Session} (hs : s.QuietRuns) :
    s.CarriesOut (s.eventTurns e) (s.happen e) := by
  have hcarries := followsTurns_carriesOut
  cases e with
  | turn run => exact hcarries.turn run s hs
  | clock time => exact hcarries.clock time s hs
  | advance ms => exact hcarries.advance ms s hs
  | finish run => exact hcarries.finish run s hs
  | _ => cases he

theorem carriesOut_after {events : List Event} (hevents : ∀ e ∈ events, e.goesOn = true)
    {s : Session} (hs : s.QuietRuns) : s.CarriesOut (s.turns events) (s.after events) :=
  followsTurns_carriesOut.after (fun e he _ hs => carriesOut_happen (hevents e he) hs) s hs

/-! ### Tallies -/

/-- The tally that a run is going to end with: what it has done, and what becomes of the
    steps that it has left, as things stand. -/
def outcome (s : Session) (r : Run) : Tally :=
  r.account.countAll (r.rest.map (Step.fate s.targets s.layers s.world))

theorem CarriesOut.fates_eq {s s' : Session} {ts : List Turn} (h : s.CarriesOut ts s') (i : Nat) :
    (dispatchesOf i ts).map Dispatch.fate =
      ((dispatchesOf i ts).map Dispatch.step).map (Step.fate s.targets s.layers s.world) := by
  rw [List.map_map]
  refine List.map_congr_left fun d hd => ?_
  rcases h.before d (List.mem_of_mem_filter hd) with ⟨htargets, hlayers, hawake⟩
  rw [Dispatch.fate, htargets, hlayers, Step.fate_congr hawake]
  rfl

/-- The turns of the others make no difference to what a run counts. -/
theorem CarriesOut.tally_eq {s s' : Session} {ts : List Turn} {i : Nat} {r r' : Run}
    (h : s.CarriesOut ts s') (hgoes : r.GoesOn i ts r') (hfinished : r'.isFinished = true) :
    r'.tally = s.outcome r := by
  rcases hgoes.done hfinished with ⟨horder, htally⟩
  rw [htally, h.fates_eq, horder, outcome]

/-- The session with one run only, which nobody has waited for. -/
def alone (s : Session) (r : Run) : Session :=
  { s with runs := [{ r with taken := false }] }

/-- Who waits for a run gets the tally that the run then has. -/
theorem run_of_finish {s : Session} {i : Nat} {t : Tally} (h : (s.finish i).1 = some t) :
    ∃ r, (s.finish i).2.runs[i]? = some r ∧ r.tally = t := by
  unfold finish at h ⊢
  split at h
  · next hwaits =>
      rw [if_pos hwaits]
      simp only at h ⊢
      split at h
      · next r hr =>
          refine ⟨{ r with taken := true }, ?_, Option.some.inj h⟩
          exact getElem?_setRun_self hr _
      · exact absurd h (by simp)
  · exact absurd h (by simp)

/-- A run that is alone ends with the tally that it was going to end with. -/
theorem finish_alone {s : Session} {r : Run} (hquiet : s.CallsQuietly r.rest) :
    ((s.alone r).finish 0).1 = some (s.outcome r) := by
  have hsolo : (s.alone r).Solo 0 { r with taken := false } := by
    refine ⟨rfl, ?_, hquiet⟩
    intro j r' hj hne
    rw [alone, List.getElem?_singleton, if_neg hne] at hj
    exact absurd hj (by simp)
  have hruns : (s.alone r).QuietRuns := by
    intro r' hr'
    rw [List.mem_singleton.1 hr']
    exact hquiet
  rcases hsolo.finish rfl with ⟨hfinish, -, -, -, hdone⟩
  rcases run_of_finish hfinish with ⟨r', hr', htally⟩
  -- Waiting is an event like others, after which the run is finished.
  have hfinished : r'.isFinished = true := by
    simpa [isRunning, hr'] using hdone
  have hcarries := followsTurns_carriesOut.finish 0 (s.alone r) hruns
  rcases ((followsTurns_follows 0).finish 0 (s.alone r)).goesOn hsolo.run with
    ⟨r'', hr'', hgoes⟩
  rw [hr', Option.some.injEq] at hr''
  subst hr''
  rw [hfinish, ← htally, hcarries.tally_eq hgoes hfinished]
  rfl

/-! ### Worlds -/

/-- Steps of different runs that write the flag of one object both show or both hide. -/
def Compatible (s : Session) : Prop :=
  ∀ (i j : Nat) (r r' : Run), i ≠ j → s.runs[i]? = some r → s.runs[j]? = some r' →
    ∀ st ∈ r.rest, ∀ st' ∈ r'.rest, ∀ id ∈ st.writes s.targets s.layers,
      id ∈ st'.writes s.targets s.layers → s.world.contains id = true → st.Alike st'

/-- The steps that are done in some turns, each with the run that does it. -/
def stepsIn (ts : List Turn) : List (Nat × Step) :=
  (ts.filterMap Turn.dispatch?).map fun d => (d.run, d.step)

theorem effects_eq (s : Session) (ts : List Turn) (w : World) :
    s.effects ts w =
      (stepsIn ts).foldl (fun w x => x.2.effect s.targets s.layers w) w := by
  rw [effects, stepsIn, List.foldl_map]

/-- The steps that one run does among those of all. -/
theorem filter_stepsIn (i : Nat) (ts : List Turn) :
    (stepsIn ts).filter (fun x => x.1 = i) =
      ((dispatchesOf i ts).map Dispatch.step).map fun st => (i, st) := by
  rw [stepsIn, dispatchesOf, List.filter_map, List.map_map]
  refine List.map_congr_left fun d hd => ?_
  have hrun : d.run = i := by simpa using (List.mem_filter.1 hd).2
  simp [hrun]

/-- The steps that a run has left, if there is such a run. -/
def restOf (s : Session) (i : Nat) : List Step :=
  (s.runs[i]?.map Run.rest).getD []

/-- When all runs are finished, each has done the steps that it had left. -/
theorem filter_stepsIn_of_finished {s : Session} {events : List Event}
    (hcarries : s.CarriesOut (s.turns events) (s.after events))
    (hfinished : ∀ r ∈ (s.after events).runs, r.isFinished = true) (i : Nat) :
    (stepsIn (s.turns events)).filter (fun x => x.1 = i) =
      (s.restOf i).map fun st => (i, st) := by
  have hfollows := s.follows_after i events
  rw [filter_stepsIn, restOf]
  rcases hrun : s.runs[i]? with _ | r
  · -- No run has been started meanwhile.
    have hnone : (s.after events).runs[i]? = none := by
      rw [List.getElem?_eq_none_iff, hcarries.length]
      exact List.getElem?_eq_none_iff.1 hrun
    have hidle := (hfollows.absent hnone { phase := .finished }).order
    simp only [Run.rest, List.append_nil] at hidle
    rw [hidle]
    rfl
  · rcases hfollows.goesOn hrun with ⟨r', hr', hgoes⟩
    rw [(hgoes.done (hfinished r' (List.mem_of_getElem? hr'))).1]
    rfl

/-- A step that is done is one that its run had left. -/
theorem rest_of_mem_stepsIn {s : Session} {events : List Event}
    (hcarries : s.CarriesOut (s.turns events) (s.after events))
    (hfinished : ∀ r ∈ (s.after events).runs, r.isFinished = true) {x : Nat × Step}
    (hx : x ∈ stepsIn (s.turns events)) : ∃ r, s.runs[x.1]? = some r ∧ x.2 ∈ r.rest := by
  have hmem : x ∈ (stepsIn (s.turns events)).filter fun y => y.1 = x.1 := by simp [hx]
  rw [filter_stepsIn_of_finished hcarries hfinished, restOf] at hmem
  rcases List.mem_map.1 hmem with ⟨st, hst, hx'⟩
  have hstep : x.2 = st := by rw [← hx']
  rw [hstep]
  rcases hrun : s.runs[x.1]? with _ | r
  · rw [hrun] at hst
    exact absurd hst List.not_mem_nil
  · rw [hrun] at hst
    exact ⟨r, rfl, hst⟩

/-- Two histories in which all runs go on until they are finished lead to the same world,
    if the runs are compatible. -/
theorem Compatible.world_eq {s : Session} (h : s.Compatible) {events events' : List Event}
    (hcarries : s.CarriesOut (s.turns events) (s.after events))
    (hcarries' : s.CarriesOut (s.turns events') (s.after events'))
    (hfinished : ∀ r ∈ (s.after events).runs, r.isFinished = true)
    (hfinished' : ∀ r ∈ (s.after events').runs, r.isFinished = true) :
    (s.after events').world = (s.after events).world := by
  rw [hcarries.world, hcarries'.world, effects_eq, effects_eq]
  -- The objects stay the same on the way, which is what can change places depends on.
  have hkeep : ∀ (w : World) (x : Nat × Step), w.awake = s.world.awake →
      (x.2.effect s.targets s.layers w).awake = s.world.awake := by
    intro w x hw
    rw [Step.awake_effect, hw]
  refine foldl_eq_of_merges Prod.fst hkeep ?_ ?_ rfl
  · intro i
    rw [filter_stepsIn_of_finished hcarries hfinished,
      filter_stepsIn_of_finished hcarries' hfinished']
  · intro x hx y hy hne w hw
    rcases rest_of_mem_stepsIn hcarries hfinished hx with ⟨r, hr, hst⟩
    rcases rest_of_mem_stepsIn hcarries hfinished hy with ⟨r', hr', hst'⟩
    apply Step.effect_comm
    intro id hid hid' hthere
    rw [World.contains_congr hw] at hthere
    exact h x.1 y.1 r r' hne hr hr' x.2 hst y.2 hst' id hid hid' hthere

/-- Runs that go on side by side, calling no action that touches the world. Each that is
    finished has the tally that it would have alone; and if all of them are, and steps of
    different runs that write the same flag both show or both hide, the world is the same
    whichever turns they took. -/
theorem runs_independent {s : Session} {events : List Event} (hquiet : s.QuietRuns)
    (hevents : ∀ e ∈ events, e.goesOn = true) :
    (∀ (i : Nat) (r r' : Run), s.runs[i]? = some r → (s.after events).runs[i]? = some r' →
      r'.isFinished = true → ((s.alone r).finish 0).1 = some r'.tally) ∧
    (s.Compatible → (∀ r ∈ (s.after events).runs, r.isFinished = true) →
      ∀ events', (∀ e ∈ events', e.goesOn = true) →
        (∀ r ∈ (s.after events').runs, r.isFinished = true) →
          (s.after events').world = (s.after events).world) := by
  have hcarries := carriesOut_after hevents hquiet
  refine ⟨?_, ?_⟩
  · intro i r r' hr hr' hfinished
    rcases (s.follows_after i events).goesOn hr with ⟨r'', hr'', hgoes⟩
    rw [hr', Option.some.injEq] at hr''
    subst hr''
    rw [finish_alone (hquiet r (List.mem_of_getElem? hr)), hcarries.tally_eq hgoes hfinished]
  · intro hcompatible hfinished events' hevents' hfinished'
    exact hcompatible.world_eq hcarries (carriesOut_after hevents' hquiet) hfinished hfinished'

/-- Two runs, begun by two clicks. Both show the menu; then one flips the map and calls an
    action that fails, while the other waits for a second, hides the lamp and flips it. -/
def clicks : Session where
  supply := .minted
  world := .ofList
    [(⟨1⟩, { name := "Menu", scene := "Main", active := false }),
     (⟨2⟩, { name := "Map", scene := "Main",
             actions := ⟨.ofList [(("Map", "zoom"), [.log "zoom", .fail])]⟩ }),
     (⟨3⟩, { name := "Lamp", scene := "Main" })]
  targets := .ofList [("map", ⟨2⟩), ("lamp", ⟨3⟩)]
  layers := { groups := .ofList [("menu", [⟨1⟩])] }
  runs :=
    [{ phase := .ready
         [{ type := .layers .on, node := ⟨"show"⟩, layers := ["menu"] },
          { type := .objects .over, node := ⟨"flip"⟩, targets := ["map", "sea"] },
          { type := .call, node := ⟨"zoom"⟩, targets := ["map"]
            strings := .ofList [("method", "zoom")] }] },
     { phase := .ready
         [{ type := .layers .on, node := ⟨"show"⟩, layers := ["menu", "none"] },
          { type := .delay, node := ⟨"wait"⟩, floats := .ofList [("seconds", .ofInt 1)] },
          { type := .objects .off, node := ⟨"hide"⟩, targets := ["lamp"] },
          { type := .objects .over, node := ⟨"flip"⟩, targets := ["lamp"] }] }]

/-- The runs take turns one after the other. -/
def inTurns : List Event :=
  [.turn 0, .turn 1, .turn 0, .turn 1, .turn 0, .clock 1000, .turn 1, .turn 0, .turn 1, .turn 1]

/-- One run takes all its turns before the other one begins. -/
def oneByOne : List Event :=
  [.turn 1, .turn 1, .clock 1000, .turn 1, .turn 1, .turn 1, .turn 0, .turn 0, .turn 0, .turn 0]

theorem compatible_clicks : clicks.Compatible := by
  -- There are two runs, so what is to be shown is about the two pairs of them.
  have hpairs : ∀ (i j : Fin clicks.runs.length), i ≠ j →
      ∀ st ∈ clicks.runs[i].rest, ∀ st' ∈ clicks.runs[j].rest,
        ∀ id ∈ st.writes clicks.targets clicks.layers,
          id ∈ st'.writes clicks.targets clicks.layers → clicks.world.contains id = true →
            st.Alike st' := by
    decide +kernel
  intro i j r r' hij hr hr'
  rcases List.getElem?_eq_some_iff.1 hr with ⟨hi, rfl⟩
  rcases List.getElem?_eq_some_iff.1 hr' with ⟨hj, rfl⟩
  exact hpairs ⟨i, hi⟩ ⟨j, hj⟩ fun h => hij (congrArg Fin.val h)

theorem runs_independent_of_clicks :
    clicks.QuietRuns ∧ clicks.Compatible ∧ (∀ e ∈ inTurns, e.goesOn = true) ∧
      (∀ e ∈ oneByOne, e.goesOn = true) ∧
      (∀ r ∈ (clicks.after inTurns).runs, r.isFinished = true) ∧
      (∀ r ∈ (clicks.after oneByOne).runs, r.isFinished = true) ∧
      (clicks.after oneByOne).world = (clicks.after inTurns).world ∧
      ∃ r, clicks.runs[0]? = some r ∧ ((clicks.alone r).finish 0).1 =
        some { executed := 2, skipped := 0, failed := 1 } := by
  have hquiet : clicks.QuietRuns := by decide +kernel
  have hinTurns : ∀ e ∈ inTurns, e.goesOn = true := by decide
  have honeByOne : ∀ e ∈ oneByOne, e.goesOn = true := by decide
  have hdone : ∀ r ∈ (clicks.after inTurns).runs, r.isFinished = true := by decide +kernel
  have hdone' : ∀ r ∈ (clicks.after oneByOne).runs, r.isFinished = true := by decide +kernel
  have hrun : (clicks.after inTurns).runs[0]? =
      some { phase := .finished, tally := { executed := 2, skipped := 0, failed := 1 } } := by
    decide +kernel
  rcases runs_independent hquiet hinTurns with ⟨htallies, hworlds⟩
  exact ⟨hquiet, compatible_clicks, hinTurns, honeByOne, hdone, hdone',
    hworlds compatible_clicks hdone oneByOne honeByOne hdone', _, rfl, htallies 0 _ _ rfl hrun rfl⟩

end Session

end BehaviorGraph
