import BehaviorGraph.Proofs.SoloRun
import BehaviorGraph.Session.Frame
/-!
# Baking Keeps the Meaning

A graph that is baked in a session and then run in full does what the graph means.

Nothing is asked of the graph. Its ids may repeat or be blank, its edges may dangle
or run in circles, and its nodes may refer to objects that do not exist, or to one
object many times. Something is asked of the scene: that target ids tell objects
apart and that the ids to be minted are fresh, which is `Stage.Sound`; that actions
keep to themselves; and that no other run is under way.

The proof puts the halves together. The steps of the program render the nodes that
take part, against the stage that baking ends with. Run on its own, the program ends
with what its steps mean, which is what the nodes mean in that stage's world. And that
world is the one the graph was authored for, but for tags, which have no meaning.

## Theorems

* `Session.extends_bake`: Baking changes nothing but tags.
* `Session.fullSteps_bake`: The steps of a full run are those just compiled.
* `Session.carryOut_program`: The program means what the graph means.
* `Session.bake_then_run`: Baking keeps the meaning of a graph.
-/

namespace BehaviorGraph

theorem Library.get_set (l : Library) (r : GraphRef) (g : Graph) :
    (l.set r g).get r = if r.index < l.graphs.length then g else missing := by
  unfold set get
  by_cases h : r.index < l.graphs.length
  · rw [if_pos h, List.getElem?_set_self h]
    rfl
  · rw [if_neg h, List.getElem?_eq_none (by simpa using h)]
    rfl

namespace Session

variable (s : Session) (graph : GraphRef)

/-- A full run of a graph that was just baked does the steps that its nodes were
    compiled to. -/
theorem fullSteps_bake :
    ((s.bake graph).2.library.get graph).fullSteps =
      (compileAll (Stage.context graph) (s.library.get graph).compileNodes
        s.toStage).1.filterMap Prod.snd := by
  have hget : (s.bake graph).2.library.get graph =
      (s.library.set graph ((s.library.get graph).bake (Stage.context graph) s.toStage).2.1).get
        graph := rfl
  rw [hget, Library.get_set]
  by_cases h : graph.index < s.library.graphs.length
  · rw [if_pos h]
    rfl
  · -- A reference to no graph stands for one without nodes, which has no steps.
    have hmissing : s.library.get graph = Library.missing := by
      rw [Library.get, List.getElem?_eq_none (by simpa using h)]
      rfl
    rw [if_neg h, hmissing]
    rfl

/-- The full run of a graph that was just baked. -/
def bakedRun : Run where
  phase := .ready ((s.bake graph).2.library.get graph).fullSteps

/-- Baking changes nothing in the world but tags, and keeps what is held. -/
theorem extends_bake : s.toStage.Extends (s.bake graph).2.toStage :=
  (Stage.coversBakes_extends graph).compileAll (s.library.get graph).compileNodes s.toStage

/-- Starting the full run of a graph that was just baked. -/
theorem startFull_bake (hscheduled : s.scheduled = true) :
    (s.bake graph).2.startFull graph =
      (some s.runs.length,
        { (s.bake graph).2 with runs := s.runs ++ [s.bakedRun graph] }) := by
  have hbaked : (s.bake graph).2.scheduled = true := hscheduled
  rw [startFull, startRun, if_pos hbaked]
  rfl

/-- A full run that is started after baking, when no other run is under way, has
    the session to itself. -/
theorem solo_startFull (hscheduled : s.scheduled = true)
    (hidle : ∀ r ∈ s.runs, r.isFinished = true) (hquiet : s.world.isQuiet = true) :
    ((s.bake graph).2.startFull graph).2.Solo s.runs.length (s.bakedRun graph) := by
  rw [s.startFull_bake graph hscheduled]
  refine ⟨List.getElem?_concat_length, ?_, callsQuietly_of_isQuiet ?_ _⟩
  · -- Any other run was there before.
    intro j r hj hne
    have hlt : j < (s.runs ++ [s.bakedRun graph]).length := (List.getElem?_eq_some_iff.1 hj).1
    rw [List.length_append, List.length_singleton] at hlt
    have hold : s.runs[j]? = some r := by
      rw [← hj]
      exact (List.getElem?_append_left (by omega)).symm
    exact hidle r (List.mem_of_getElem? hold)
  · -- Baking writes tags, and no action.
    have hactions : (s.bake graph).2.world.actions = s.world.actions := by
      rw [← World.actions_untagged, (s.extends_bake graph).untagged, World.actions_untagged]
    rw [World.isQuiet_congr hactions]
    exact hquiet

/-- The course that the program of a graph that was just baked ends with is what the
    graph means in the world it was authored for, but for tags. -/
theorem carryOut_program {s : Session} {graph : GraphRef}
    (hsound : s.toStage.Sound (s.bake graph).2.minted) :
    (Step.carryOutAll (s.bake graph).2.targets s.layers
        ((s.bake graph).2.library.get graph).fullSteps
        { world := (s.bake graph).2.world, log := s.log }).untagged =
      ((s.library.get graph).carryOut s.layers { world := s.world, log := s.log }).untagged := by
  have hrenders := compileAll_renders graph (s.library.get graph).compileNodes hsound
    (Nat.le_refl _)
  have hsteps := carryOutAll_eq_of_renders hrenders s.layers
    (c := { world := (s.bake graph).2.world, log := s.log }) rfl
  have hworld := (s.extends_bake graph).untagged
  -- From steps to nodes, and from the tagged world to the one that was authored.
  calc (Step.carryOutAll (s.bake graph).2.targets s.layers
          ((s.bake graph).2.library.get graph).fullSteps
          { world := (s.bake graph).2.world, log := s.log }).untagged
      = ((s.library.get graph).carryOut s.layers
          { world := (s.bake graph).2.world, log := s.log }).untagged := by
        rw [fullSteps_bake]
        exact congrArg Course.untagged hsteps
    _ = (s.library.get graph).carryOut s.layers
          { world := (s.bake graph).2.world.untagged, log := s.log } := by
        rw [← Graph.carryOut_untagged]
        rfl
    _ = (s.library.get graph).carryOut s.layers { world := s.world.untagged, log := s.log } := by
        rw [hworld]
    _ = ((s.library.get graph).carryOut s.layers { world := s.world, log := s.log }).untagged := by
        rw [← Graph.carryOut_untagged]
        rfl

/-- Baking keeps the meaning of a graph. If a graph is baked and its full run is
    started and waited for, with no other run under way, then the run is finished and its
    tally is the one the graph means; every object has the active flag that the graph
    means it to have, and the world is the one it means but for tags; and what was
    logged, and which actions were called, is what it means as well. -/
theorem bake_then_run (hscheduled : s.scheduled = true)
    (hidle : ∀ r ∈ s.runs, r.isFinished = true) (hquiet : s.world.isQuiet = true)
    (hsound : s.toStage.Sound (s.bake graph).2.minted) :
    let started := ((s.bake graph).2.startFull graph).2
    let ended := (started.finish s.runs.length).2
    let meaning := (s.library.get graph).carryOut s.layers { world := s.world, log := s.log }
    ((s.bake graph).2.startFull graph).1 = some s.runs.length ∧
      (started.finish s.runs.length).1 = some meaning.tally ∧
      ended.isRunning s.runs.length = false ∧
      (∀ id, (ended.world.get? id).map SceneObject.active =
        (meaning.world.get? id).map SceneObject.active) ∧
      ended.world.untagged = meaning.world.untagged ∧
      ended.log = meaning.log ∧
      started.finishCalls s.runs.length = meaning.called := by
  intro started ended meaning
  have hstart := s.startFull_bake graph hscheduled
  have hsolo := s.solo_startFull graph hscheduled hidle hquiet
  rcases hsolo.finish rfl with ⟨htally, hworld, hlog, hcalls, hdone⟩
  -- What the run ends with is what the steps mean, and so what the graph means.
  have hending : started.ending (s.bakedRun graph) =
      Step.carryOutAll (s.bake graph).2.targets s.layers
        ((s.bake graph).2.library.get graph).fullSteps
        { world := (s.bake graph).2.world, log := s.log } := by
    simp only [started, hstart]
    rfl
  have hmeaning : (started.ending (s.bakedRun graph)).untagged = meaning.untagged := by
    rw [hending]
    exact carryOut_program hsound
  have huntagged : ended.world.untagged = meaning.world.untagged := by
    rw [hworld, ← Course.world_untagged, hmeaning, Course.world_untagged]
  refine ⟨?_, ?_, hdone, ?_, huntagged, ?_, ?_⟩
  · rw [hstart]
  · rw [htally, ← Course.tally_untagged, hmeaning, Course.tally_untagged]
  · intro id
    rw [← World.active_untagged, huntagged, World.active_untagged]
  · rw [hlog, ← Course.log_untagged, hmeaning, Course.log_untagged]
  · rw [hcalls, ← Course.called_untagged, hmeaning, Course.called_untagged]

/-- A button that carries no target id and has an action, a panel that carries
    one, and a graph in which one node has a blank id. -/
def rehearsal : Session where
  supply := .minted
  world := .ofList
    [(⟨1⟩, { name := "Button", scene := "Main", active := false,
             actions := ⟨.ofList [(("Door", "open"), [.log "opened"])]⟩ }),
     (⟨2⟩, { name := "Panel", scene := "Main", targetId := some "panel" })]
  library :=
    { graphs :=
        [{ name := "doors"
           nodes :=
             [.ofKind ⟨"start"⟩ (.click (some ⟨1⟩)),
              .ofKind ⟨"flip"⟩ (.objects .over [some ⟨1⟩, some ⟨2⟩, none, some ⟨1⟩, some ⟨3⟩]),
              .ofKind ⟨"open"⟩ (.call (some ⟨1⟩) "" " open "),
              .ofKind ⟨" "⟩ (.objects .on [some ⟨1⟩])]
           edges := [{ source := ⟨"start"⟩, target := ⟨"open"⟩ }] }] }

theorem bake_then_run_rehearsal :
    rehearsal.scheduled = true ∧ (∀ r ∈ rehearsal.runs, r.isFinished = true) ∧
      rehearsal.world.isQuiet = true ∧
      rehearsal.toStage.Sound (rehearsal.bake ⟨0⟩).2.minted ∧
      (((rehearsal.bake ⟨0⟩).2.startFull ⟨0⟩).2.finish 0).1 =
        some { executed := 2, skipped := 1, failed := 0 } ∧
      ((((rehearsal.bake ⟨0⟩).2.startFull ⟨0⟩).2.finish 0).2.world.get? ⟨2⟩).map
        SceneObject.active = some false ∧
      ((rehearsal.bake ⟨0⟩).2.startFull ⟨0⟩).2.finishCalls 0 = [[.log "opened"]] := by
  have hscheduled : rehearsal.scheduled = true := rfl
  have hidle : ∀ r ∈ rehearsal.runs, r.isFinished = true := by decide
  have hquiet : rehearsal.world.isQuiet = true := by decide +kernel
  have hsound : rehearsal.toStage.Sound (rehearsal.bake ⟨0⟩).2.minted :=
    Stage.sound_of_nodup (by decide +kernel)
  rcases rehearsal.bake_then_run ⟨0⟩ hscheduled hidle hquiet hsound with
    ⟨-, htally, -, hactive, -, -, hcalls⟩
  refine ⟨hscheduled, hidle, hquiet, hsound, ?_, ?_, ?_⟩
  · exact htally.trans (by decide +kernel)
  · exact (hactive ⟨2⟩).trans (by decide +kernel)
  · exact hcalls.trans (by decide +kernel)

end Session

end BehaviorGraph
