import BehaviorGraph.Proofs.QuietSteps
/-!
# What Becomes of a Step

How a step is counted, told from what it finds.

A run counts what performing a step reports. Whether that is success, nothing to act on,
or failure can be told from the targets, the layers and the objects that are there when
the step is performed, in every world, whatever its actions do. A step that switches takes
effect if one of its layers has groups, or one of its targets leads to an object that is
there. A step that calls an action takes effect unless the action fails, and is skipped if
there is no such action. Only failing is told from the action and not from the world: an
action fails when it is called, or never does, whatever else it changes.

So two worlds in which the same objects with the same actions stand behind targets and
layers let a step fare the same.

## Main definitions

* `Fate`: What can become of a step.
* `Step.fate`: What becomes of it.
* `Tally.count`, `Tally.countAll`: Counting fates.

## Theorems

* `Session.record_perform`: Performing a step is counted as its fate.
* `Session.fate_of_error`: What a step is counted as that reports an error.
* `Session.fate_eq_failed_iff`: A step fails if it calls an action and that goes wrong.
* `Tally.countAll_eq`, `Tally.steps_countAll`: What counting some fates comes to.
* `Step.fate_congr`: A step fares the same in worlds that differ in active flags.
-/

namespace BehaviorGraph

/-- What can become of a step. -/
inductive Fate where
  /-- It takes effect. -/
  | executed
  /-- It has nothing to act on. -/
  | skipped
  /-- It fails. -/
  | failed
deriving DecidableEq

/-- What becomes of a step that finds some targets, layers and objects. -/
def Step.fate (targets : Targets) (layers : Layers) (w : World) (st : Step) : Fate :=
  match st.type with
  | .click | .key => .skipped
  | .layers _ =>
    if st.layers.any fun name => !(layers.members name).isEmpty then .executed else .skipped
  | .objects _ =>
    if st.targets.any fun target => (targets.resolve? target).any w.contains then .executed
    else .skipped
  | .delay => .executed
  | .call =>
    match st.action? targets w with
    | none => .skipped
    | some a => if a.fails then .failed else .executed

/-! ### Counting -/

namespace Tally

/-- Count what became of a step. -/
def count (f : Fate) (t : Tally) : Tally :=
  match f with
  | .executed => { t with executed := t.executed + 1 }
  | .skipped => { t with skipped := t.skipped + 1 }
  | .failed => { t with failed := t.failed + 1 }

/-- Count what became of some steps. -/
def countAll (fs : List Fate) (t : Tally) : Tally :=
  fs.foldl (fun t f => t.count f) t

theorem countAll_append (fs fs' : List Fate) (t : Tally) :
    t.countAll (fs ++ fs') = (t.countAll fs).countAll fs' :=
  List.foldl_append

theorem countAll_eq (fs : List Fate) (t : Tally) :
    t.countAll fs =
      { executed := t.executed + fs.count .executed
        skipped := t.skipped + fs.count .skipped
        failed := t.failed + fs.count .failed } := by
  induction fs generalizing t with
  | nil => rfl
  | cons f fs ih =>
      have hfirst : t.countAll (f :: fs) = (t.count f).countAll fs := rfl
      rw [hfirst, ih]
      cases f <;> simp [count] <;> omega

/-- Every fate is counted once. -/
theorem steps_countAll (fs : List Fate) (t : Tally) :
    (t.countAll fs).steps = t.steps + fs.length := by
  induction fs generalizing t with
  | nil => rfl
  | cons f fs ih =>
      have hfirst : t.countAll (f :: fs) = (t.count f).countAll fs := rfl
      rw [hfirst, ih, List.length_cons]
      cases f <;> simp only [count, steps] <;> omega

end Tally

/-! ### Switching -/

theorem toNat_eq_ite (b : Bool) : b.toNat = if b then 1 else 0 := by
  cases b <;> rfl

theorem Layers.count_setVisibleAll (l : Layers) (visible : Bool) (names : List String) (w : World) :
    (l.setVisibleAll visible names w).1 = names.countP fun name => !(l.members name).isEmpty := by
  induction names generalizing w with
  | nil => rfl
  | cons name names ih =>
      simp only [setVisibleAll, setVisible, ih, List.countP_cons, toNat_eq_ite]

theorem Layers.count_toggle (l : Layers) (names : List String) (w : World) :
    (l.toggle names w).1 = names.countP fun name => !(l.members name).isEmpty := by
  induction names generalizing w with
  | nil => rfl
  | cons name names ih =>
      simp only [toggle, setVisible, ih, List.countP_cons, toNat_eq_ite]

/-- Layers are counted that have groups, however they are switched. -/
theorem Layers.count_switch (l : Layers) (s : Switch) (names : List String) (w : World) :
    (l.switch s names w).1 = names.countP fun name => !(l.members name).isEmpty := by
  rcases s with _ | _ | _
  · exact l.count_setVisibleAll true names w
  · exact l.count_setVisibleAll false names w
  · exact l.count_toggle names w

/-- Targets are counted that lead to objects, however these are switched. -/
theorem Targets.count_switch (t : Targets) (s : Switch) (targets : List String) (w : World) :
    (t.switch s targets w).1 =
      targets.countP fun target => (t.resolve? target).any w.contains := by
  induction targets generalizing w with
  | nil => rfl
  | cons target rest ih =>
      rcases hresolve : t.resolve? target with _ | id
      · simp only [Targets.switch, hresolve, ih, List.countP_cons, Option.any_none]
        rfl
      · -- Switching the first object does not make others come or go.
        have hthere : (w.switch s id).2.contains = w.contains := funext (w.contains_switch s id)
        simp only [Targets.switch, hresolve, ih, hthere, List.countP_cons, Option.any_some,
          World.switch_fst, toNat_eq_ite]

namespace Session

/-! ### Calling -/

/-- No effect fails but the one that says so. -/
theorem apply_fst (e : Effect) (s : Session) : (s.apply e).1 = decide (e ≠ .fail) := by
  cases e <;> rfl

/-- Whether an action fails does not depend on where it is called. -/
theorem call_fst (a : Action) (s : Session) : (s.call a).1 = !a.fails := by
  induction a generalizing s with
  | nil => rfl
  | cons e rest ih =>
      have heffect := s.apply_fst e
      rw [call]
      rcases happly : s.apply e with ⟨went, s'⟩
      rw [happly] at heffect
      cases went with
      | true =>
          have he : e ≠ .fail := by simpa using heffect
          simp [ih, Action.fails, he]
      | false =>
          have he : e = .fail := by simpa using heffect
          simp [Action.fails, he]

/-! ### Performing -/

theorem record_performLayers {st : Step} {switch : Switch} (htype : st.type = .layers switch)
    (s : Session) (t : Tally) :
    t.record (s.performLayers switch st).1 = t.count (st.fate s.targets s.layers s.world) := by
  unfold performLayers Step.fate
  simp only [htype, Layers.count_switch, List.countP_pos_iff, ← List.any_eq_true]
  split
  · rfl
  · rfl

theorem record_performObjects {st : Step} {switch : Switch} (htype : st.type = .objects switch)
    (s : Session) (t : Tally) :
    t.record (s.performObjects switch st).1 = t.count (st.fate s.targets s.layers s.world) := by
  unfold performObjects Step.fate
  simp only [htype, Targets.count_switch, List.countP_pos_iff, ← List.any_eq_true]
  split
  · next hempty =>
      rw [List.isEmpty_iff.1 hempty]
      rfl
  · -- That no target leads to an object is an error, which counts as skipping.
    split
    · rfl
    · rfl

theorem record_performCall {st : Step} (htype : st.type = .call) (s : Session) (t : Tally) :
    t.record (s.performCall st).1 = t.count (st.fate s.targets s.layers s.world) := by
  unfold performCall Step.fate
  rcases s.callee_cases st with ⟨a, ha, hcallee⟩ | ⟨hnone, e, he, hcallee⟩
  · have hcall := s.call_fst a
    simp only [htype, hcallee, ha]
    rcases hresult : s.call a with ⟨went, s'⟩
    rw [hresult] at hcall
    cases went with
    | true =>
        have hfails : a.fails = false := by simpa using hcall.symm
        simp only [hfails]
        rfl
    | false =>
        have hfails : a.fails = true := by simpa using hcall.symm
        simp only [hfails]
        rfl
  · simp only [htype, hcallee, hnone, Tally.record, he]
    rfl

/-- Performing a step is counted as its fate, whatever it does to the session. -/
theorem record_perform (st : Step) (s : Session) (t : Tally) :
    t.record (s.perform st).1 = t.count (st.fate s.targets s.layers s.world) := by
  unfold perform
  rcases htype : st.type with _ | _ | switch | switch | _ | _
  · simp only [Step.fate, htype]
    rfl
  · simp only [Step.fate, htype]
    rfl
  · exact s.record_performLayers htype t
  · exact s.record_performObjects htype t
  · simp only [Step.fate, htype]
    rfl
  · exact s.record_performCall htype t

/-- A step that reports an error is skipped if a reference leads nowhere, and has failed
    otherwise. -/
theorem fate_of_error {st : Step} {s : Session} {e : StepError}
    (h : (s.perform st).1 = .error e) :
    st.fate s.targets s.layers s.world = if e.isUnresolved then .skipped else .failed := by
  have hrecord := record_perform st s {}
  rw [h] at hrecord
  unfold Tally.record at hrecord
  -- The two counts show the same number going up.
  rcases hfate : st.fate s.targets s.layers s.world with _ | _ | _ <;>
    rcases hunresolved : e.isUnresolved with _ | _ <;>
      simp [hfate, hunresolved, Tally.count] at hrecord ⊢

/-- A step fails exactly if it calls an action and that goes wrong. -/
theorem fate_eq_failed_iff (st : Step) (s : Session) :
    st.fate s.targets s.layers s.world = .failed ↔
      (s.called st).any (fun a => !(s.call a).1) = true := by
  unfold Step.fate called
  rcases htype : st.type with _ | _ | switch | switch | _ | _
  · simp
  · simp
  · simp only [reduceCtorEq, ↓reduceIte, List.any_nil]
    split <;> simp
  · simp only [reduceCtorEq, ↓reduceIte, List.any_nil]
    split <;> simp
  · simp
  · rcases st.action? s.targets s.world with _ | a
    · simp
    · rcases hfails : a.fails with _ | _ <;> simp [call_fst, hfails]

end Session

/-- A step fares the same among the same objects, active or not. -/
theorem Step.fate_congr {w w' : World} (h : w'.awake = w.awake) (targets : Targets)
    (layers : Layers) (st : Step) : st.fate targets layers w' = st.fate targets layers w := by
  have hthere : w'.contains = w.contains := by
    funext id
    rw [← World.contains_awake, h, World.contains_awake]
  have haction : st.action? targets w' = st.action? targets w := by
    simp only [action?, World.action?_congr (World.actions_of_awake h)]
  simp only [fate, hthere, haction]

end BehaviorGraph
