import BehaviorGraph.Proofs.Independence
import BehaviorGraph.Proofs.Punctuality
import BehaviorGraph.Proofs.Toggling
/-!
# What a Step Leaves Alone

The part of a session that a step cannot have changed.

A step that calls no action, or a quiet one, can only write active flags and lines of the
log, and it writes the flags of the objects that it switches: the groups of its layers or
those behind its targets. This is more than is needed when some of its names lead nowhere.
Such a name is passed over and the rest is switched, so what is reported and what is written
have to be compared. A step is not applied exactly if it comes to nothing for every one of its
names. None of the objects that it would switch exists then, so the world is what it was,
down to the last flag.

A delay does nothing either, but time passes while it lasts, and then the runs go on. What
changes meanwhile is their doing. Where all runs are finished only the clock moves.

## Theorems

* `World.Confined.eq_self`, `World.Confined.mem_of_get?_ne`: What a confined change leaves
  alone.
* `Step.effect_eq_self`: A step that is not executed does nothing to the world.
* `Session.perform_eq`, `Session.perform_eq_applied`: What performing a step changes, and when
  it is applied.
* `Session.passUntil_of_live`: Without runs, time that passes moves the clock.
* `Session.execute_frame`: What a single step leaves alone.
-/

namespace BehaviorGraph

namespace World

/-- Worlds of the same objects differ in the flags only. -/
theorem eq_mapValues_of_awake {w w' : World} (h : w'.awake = w.awake) :
    w' = w.mapValues fun id o => { o with active := w'.isActive id } := by
  calc
    w' = w'.awake.mapValues fun id o => { o with active := w'.isActive id } :=
      w'.awake_mapValues_isActive.symm
    _ = w.awake.mapValues fun id o => { o with active := w'.isActive id } := by rw [h]
    _ = w.mapValues fun id o => { o with active := w'.isActive id } := by
      -- Whether objects are woken before they get their flags makes no difference.
      ext1
      simp only [awake, OrderedMap.mapValues, List.map_map]
      rfl

namespace Confined

variable {ids : List ObjectId} {f : World → World} {w : World}

/-- A change to objects that do not exist is none. -/
theorem eq_self (h : Confined ids f) (hgone : ∀ id ∈ ids, w.contains id = false) : f w = w :=
  eq_of_isActive (h.awake w) fun id => h.unseen (hgone id)

/-- An object that has changed is one that the change is confined to. -/
theorem mem_of_get?_ne (h : Confined ids f) {id : ObjectId} (hne : (f w).get? id ≠ w.get? id) :
    id ∈ ids := by
  by_contra hid
  exact hne (get?_congr (h.awake w) (h.frame w id hid))

end Confined

end World

namespace Step

variable {targets : Targets} {layers : Layers} {st : Step}

/-- The objects that a step switches are the groups of its layers, or those behind its
    targets. -/
theorem mem_writes_iff {id : ObjectId} :
    id ∈ st.writes targets layers ↔
      (∃ switch, st.type = .layers switch ∧
        ∃ name ∈ st.layers, ∃ key, layers.parse? name = some key ∧ id ∈ layers.groupsOf key) ∨
      ∃ switch, st.type = .objects switch ∧
        ∃ target ∈ st.targets, targets.resolve? target = some id := by
  unfold writes
  rcases st.type with _ | _ | switch | switch | _ | _
  · simp
  · simp
  · simp [Layers.mem_members_iff]
  · simp
  · simp
  · simp

/-- Where a step is not executed, none of the objects exists that it would switch. -/
theorem contains_of_mem_writes {w : World} (h : st.fate targets layers w ≠ .executed)
    {id : ObjectId} (hid : id ∈ st.writes targets layers) : w.contains id = false := by
  unfold fate at h
  rcases mem_writes_iff.1 hid with ⟨switch, htype, name, hname, hkey⟩ |
    ⟨switch, htype, target, htarget, hresolve⟩
  · -- A layer with a group would have been enough.
    exfalso
    have hmember : id ∈ layers.members name := Layers.mem_members_iff.2 hkey
    have hany : (st.layers.any fun name => !(layers.members name).isEmpty) = true := by
      rw [List.any_eq_true]
      exact ⟨name, hname, by simpa using List.ne_nil_of_mem hmember⟩
    simp [htype, hany] at h
  · by_contra hthere
    have hany : (st.targets.any fun target => (targets.resolve? target).any w.contains) =
        true := by
      rw [List.any_eq_true]
      exact ⟨target, htarget, by simpa [hresolve] using hthere⟩
    simp [htype, hany] at h

/-- A step that is not executed does nothing to the world. -/
theorem effect_eq_self {w : World} (h : st.fate targets layers w ≠ .executed) :
    st.effect targets layers w = w :=
  (st.confined_effect targets layers).eq_self fun _ => contains_of_mem_writes h

end Step

namespace Session

variable {s : Session} {st : Step}

/-! ### Performing -/

/-- Nothing changes but what the step switches, and the log. -/
theorem perform_eq (hquiet : ∀ a ∈ s.called st, a.all Effect.isQuiet = true) :
    (s.perform st).2 =
      { s with
        world := st.effect s.targets s.layers s.world
        log := (s.perform st).2.log } := by
  have hperforms := (perform_spec hquiet {}).session
  rw [Step.world_carryOut] at hperforms
  rw [hperforms]
  rfl

theorem perform_eq_applied (h : st.fate s.targets s.layers s.world = .executed) :
    (s.perform st).1 = .ok .applied := by
  -- Only what is applied is counted as executed.
  have hrecord := record_perform st s {}
  rw [h] at hrecord
  unfold Tally.record at hrecord
  rcases hresult : (s.perform st).1 with e | _ | _
  · rcases hunresolved : e.isUnresolved with _ | _ <;>
      simp [hresult, hunresolved, Tally.count] at hrecord
  · rfl
  · simp [hresult, Tally.count] at hrecord

/-! ### Waiting -/

theorem settleWithin_of_not_ready (h : s.runs.any Run.isReady = false) (turns : Nat) :
    s.settleWithin turns = s := by
  cases turns with
  | zero => rfl
  | succ turns => rw [settleWithin, if_neg (by simp [h])]

theorem isFinished_of_live (h : s.live = 0) {r : Run} (hr : r ∈ s.runs) :
    r.phase = .finished := by
  have hfinished := List.countP_eq_zero.1 h r hr
  rw [← Run.isFinished_iff]
  simpa using hfinished

theorem settle_of_live (h : s.live = 0) : s.settle = s := by
  apply settleWithin_of_not_ready
  rw [List.any_eq_false]
  intro r hr
  simp [Run.isReady, isFinished_of_live h hr]

/-- Where all runs are finished, time that passes moves the clock and nothing else. -/
theorem passUntil_of_live (h : s.live = 0) (time : Nat) :
    s.passUntil time = { s with now := time } := by
  have hnext : s.nextWake? = none := by
    have hnone : s.runs.filterMap Run.wake? = [] := by
      rw [List.filterMap_eq_nil_iff]
      intro r hr
      simp [Run.wake?, isFinished_of_live h hr]
    rw [nextWake?, hnone]
    rfl
  have hpass : ∀ goOn turns, s.passWhile goOn turns = s := by
    intro goOn turns
    cases turns with
    | zero => rfl
    | succ turns => rw [passWhile, hnext]
  have hawaken : s.runs.map (Run.awaken time) = s.runs := by
    refine (List.map_congr_left fun r hr => ?_).trans (List.map_id _)
    simp [Run.awaken, isFinished_of_live h hr]
  have hsettle : ({ s with now := time } : Session).settle = { s with now := time } :=
    settle_of_live h
  rw [passUntil, hpass, moveTo, hawaken, hsettle]

/-- A delay takes effect when its time has passed. Without a scheduler it fails, and nothing
    has happened. -/
theorem execute_delay (htype : st.type = .delay) (s : Session) :
    ((s.execute st).2 = s ∨
      (s.execute st).1 = .ok .applied ∧ ∃ time, (s.execute st).2 = s.settle.passUntil time) := by
  have hperform : ∀ s : Session, s.perform st = (.ok .applied, s) := by
    intro s
    rw [perform, htype]
  unfold execute
  split
  · exact Or.inl rfl
  · rcases st.wake? s.now with _ | time
    · exact Or.inl (congrArg Prod.snd (hperform s))
    · have hlast := hperform (s.settle.passUntil time)
      exact Or.inr ⟨congrArg Prod.fst hlast, time, congrArg Prod.snd hlast⟩

/-! ### Single steps -/

/-- A step that is no delay, and calls no action but a quiet one, changes nothing but the world
    and the log, and of the world nothing but active flags: those of groups of the layers that
    its names mean, or of the objects that its targets lead to. A delay changes nothing; runs go
    on while it lasts, or where all are finished, the clock moves. And unless a step is
    applied, the world is what it was. -/
theorem execute_frame (s : Session) (st : Step)
    (hquiet : ∀ a ∈ s.called st, a.all Effect.isQuiet = true) :
    let s' := (s.execute st).2
    (st.type ≠ .delay →
      s' = { s with world := s'.world, log := s'.log } ∧
      (s'.world = s.world.mapValues fun id o => { o with active := s'.world.isActive id }) ∧
      ∀ id, s'.world.get? id ≠ s.world.get? id →
        (∃ switch, st.type = .layers switch ∧ ∃ name ∈ st.layers, ∃ key,
          s.layers.parse? name = some key ∧ id ∈ s.layers.groupsOf key) ∨
        ∃ switch, st.type = .objects switch ∧
          ∃ target ∈ st.targets, s.targets.resolve? target = some id) ∧
    (st.type = .delay → (s' = s ∨ ∃ time, s' = s.settle.passUntil time) ∧
      (s.live = 0 → s' = { s with now := s'.now })) ∧
    ((s.execute st).1 ≠ .ok .applied → s'.world = s.world) := by
  intro s'
  by_cases htype : st.type = .delay
  · have hdelay := execute_delay htype s
    refine ⟨fun hother => absurd htype hother, fun _ => ⟨?_, fun hlive => ?_⟩, fun hresult => ?_⟩
    · exact hdelay.imp_right And.right
    · rcases hdelay with hsame | ⟨-, time, hpass⟩
      · rw [show s' = s from hsame]
      · rw [show s' = _ from hpass, settle_of_live hlive, passUntil_of_live hlive]
    · rcases hdelay with hsame | ⟨happlied, -⟩
      · rw [show s' = s from hsame]
      · exact absurd happlied hresult
  · have hexecute : s.execute st = s.perform st :=
      (execute_of_nanoseconds? (by rw [Step.nanoseconds?, if_neg htype]) s).1
    have hs' : s' = (s.perform st).2 := congrArg Prod.snd hexecute
    have hworld : s'.world = st.effect s.targets s.layers s.world := by
      rw [hs', perform_eq hquiet]
    have hconfined := st.confined_effect s.targets s.layers
    refine ⟨fun _ => ⟨?_, ?_, fun id hne => ?_⟩, fun hdelay => absurd hdelay htype,
      fun hresult => ?_⟩
    · rw [hworld, hs']
      exact perform_eq hquiet
    · rw [hworld]
      exact World.eq_mapValues_of_awake (hconfined.awake s.world)
    · rw [hworld] at hne
      exact Step.mem_writes_iff.1 (hconfined.mem_of_get?_ne hne)
    · -- What is executed is applied, so this step is not executed.
      rw [hexecute] at hresult
      rw [hworld]
      exact Step.effect_eq_self fun hfate => hresult (perform_eq_applied hfate)

/-- An action that writes to the log before it fails leaves its line there, and the world as it
    was. -/
theorem execute_frame_of_clicks :
    let zoom : Step :=
      { type := .call, node := ⟨"zoom"⟩, targets := ["map"],
        strings := .ofList [("method", "zoom")] }
    (∀ a ∈ clicks.called zoom, a.all Effect.isQuiet = true) ∧
      (clicks.execute zoom).1 = .error (.failed ⟨"zoom"⟩) ∧
      (clicks.execute zoom).2 = { clicks with log := ["zoom"] } := by
  intro zoom
  have hquiet : ∀ a ∈ clicks.called zoom, a.all Effect.isQuiet = true := by decide +kernel
  have hfails : (clicks.execute zoom).1 = .error (.failed ⟨"zoom"⟩) := by decide +kernel
  have hlog : (clicks.execute zoom).2.log = ["zoom"] := by decide +kernel
  rcases execute_frame clicks zoom hquiet with ⟨hother, -, hunless⟩
  have hworld : (clicks.execute zoom).2.world = clicks.world := by
    apply hunless
    rw [hfails]
    simp
  refine ⟨hquiet, hfails, ?_⟩
  rw [(hother (by decide)).1, hworld, hlog]

end Session

end BehaviorGraph
