import BehaviorGraph.Proofs.SceneChanges
import Mathlib.Data.List.Infix
/-!
# The Life of a Target Id

A target id that a program was given never leads to another object than the one it was
given for.

Programs are kept while objects come and go. What a target id resolves to at a later
time depends on every event in between: new objects are registered, some under the
ids that they bring along; other graphs are baked and mint ids; objects go and have
their ids forgotten; and a shutdown forgets all of them. Two things hold through all of
it. The record stays truthful, so an id that resolves at all resolves to an object that
carries it; and if no two objects ever carry one id, that is the object it was given
for. And an object that stays goes on holding its id, unless there was a shutdown and
nothing has registered the object since.

## Main definitions

* `Session.TellsApart`: No two objects ever carry one target id.
* `Session.registers`: An event registers an object that is there.
* `Session.isCurrent`: No shutdown has come since an object was last registered.
* `Session.Keeps`: An object that is still there carries and holds what it did.
* `Session.Stands`: An object has its target id, if it is there and registered.

## Theorems

* `Session.truthful_after`: The record is truthful after every history.
* `Session.keeps_happen`: What an event that is no shutdown keeps.
* `Session.holds_happen_of_registers`: What a registration brings back.
* `Session.Stands.happen`, `Session.Stands.after`: How long an object holds its target id.
* `Session.resolve?_bake`: What target ids stand for right after a bake.
* `Session.target_ids_last`: What they stand for from then on.
-/

namespace BehaviorGraph

open Stage (carriedId?)

theorem Targets.get?_of_resolve? {t : Targets} {target : String} {id : ObjectId}
    (h : t.resolve? target = some id) : t.get? target = some id := by
  unfold resolve? at h
  split at h
  · exact absurd h (by simp)
  · exact h

namespace Session

/-- No two objects ever carry one target id, be it at different times. -/
def TellsApart (s : Session) (events : List Event) : Prop :=
  ∀ past past', past <+: events → past' <+: events → ∀ id id' target,
    (s.after past).Carries id target → (s.after past').Carries id' target → id = id'

theorem TellsApart.unshared {s : Session} {events : List Event} (h : s.TellsApart events)
    {past : List Event} (hpast : past <+: events) : (s.after past).toStage.Unshared :=
  fun id id' target => h past past hpast hpast id id' target

/-- The target ids that are ever carried, with the objects that carry them. -/
def everCarried (s : Session) (events : List Event) : List (String × ObjectId) :=
  events.inits.flatMap fun past =>
    (s.after past).world.entries.filterMap fun e =>
      (carriedId? e.2).map fun target => (target, e.1)

theorem mem_everCarried {s : Session} {events past : List Event} (hpast : past <+: events)
    {id : ObjectId} {target : String} (h : (s.after past).Carries id target) :
    (target, id) ∈ s.everCarried events := by
  rcases h.exists_entry with ⟨o, ho, htarget⟩
  refine List.mem_flatMap.2 ⟨past, (List.mem_inits _ _).2 hpast, ?_⟩
  exact List.mem_filterMap.2 ⟨(id, o), ho, by rw [htarget]; rfl⟩

/-- Whether objects are told apart can be computed. -/
theorem tellsApart_of_everCarried {s : Session} {events : List Event}
    (h : ∀ c ∈ s.everCarried events, ∀ c' ∈ s.everCarried events, c.1 = c'.1 → c.2 = c'.2) :
    s.TellsApart events := by
  intro past past' hpast hpast' id id' target hid hid'
  exact h _ (mem_everCarried hpast hid) _ (mem_everCarried hpast' hid') rfl

/-! ### A truthful record -/

theorem coversRuns_truthful :
    CoversRuns fun s s' => s.toStage.Truthful → s'.toStage.Truthful where
  trans h h' hs := h' (h hs)
  calm hcalm hs := hcalm.truthful hs
  despawn id s hs := (s.despawn_drops id).truthful hs

theorem truthful_happen {e : Event} {s : Session} (hfresh : (s.world.keys ++ e.spawned).Nodup)
    (h : s.toStage.Truthful) : (s.happen e).toStage.Truthful := by
  cases outcome_happen hfresh with
  | comes hadmits => exact hadmits.truthful h
  | goes hdrops => exact hdrops.truthful h
  | bakes graph hbake =>
      rw [hbake]
      exact (s.tags_bake graph).truthful h
  | forgets hshutdown =>
      -- Nothing stands for anything.
      rw [hshutdown]
      intro target id hget
      exact absurd hget (by simp [happen, shutdown])
  | runs hruns => exact hruns _ coversRuns_truthful h

theorem truthful_after {s : Session} (hempty : s.world.keys = []) (h : s.toStage.Truthful)
    {events : List Event} (hfresh : (events.flatMap Event.spawned).Nodup) :
    (s.after events).toStage.Truthful := by
  induction events using List.reverseRecOn with
  | nil => exact h
  | append_singleton events e ih =>
      have hnew := fresh_after hempty hfresh
      rw [List.flatMap_append] at hfresh
      rw [after_concat]
      exact truthful_happen hnew (ih hfresh.of_append_left)

/-- A target id that an object carries at some time resolves to that object or to
    nothing whenever the record is truthful. -/
theorem TellsApart.resolve? {s : Session} {events past past' : List Event}
    (h : s.TellsApart events) (hpast : past <+: events) (hpast' : past' <+: events)
    (htruthful : (s.after past').toStage.Truthful) {id : ObjectId} {target : String}
    (hcarries : (s.after past).Carries id target) :
    (s.after past').targets.resolve? target = some id ∨
      (s.after past').targets.resolve? target = none := by
  rcases hresolve : (s.after past').targets.resolve? target with _ | id'
  · exact Or.inr rfl
  · -- Whatever the target id resolves to carries it, and so it is the object.
    have hlater := htruthful target id' (Targets.get?_of_resolve? hresolve)
    exact Or.inl (congrArg some (h past past' hpast hpast' id id' target hcarries hlater).symm)

/-! ### What is kept -/

/-- An object that is still there was there before, and carries and holds what it did. -/
structure Keeps (id : ObjectId) (s s' : Session) : Prop where
  /-- It was there before. -/
  contains : s'.world.contains id = true → s.world.contains id = true
  /-- It carries what it did. -/
  carries : s'.world.contains id = true → ∀ {target}, s.Carries id target → s'.Carries id target
  /-- It holds what it did. -/
  holds : s'.world.contains id = true → ∀ {target},
    s.toStage.Holds id target → s'.toStage.Holds id target

theorem Keeps.trans {id : ObjectId} {s s' s'' : Session} (h : Keeps id s s')
    (h' : Keeps id s' s'') : Keeps id s s'' := by
  refine ⟨fun hid => h.contains (h'.contains hid), ?_, ?_⟩
  · intro hid target hcarries
    exact h'.carries hid (h.carries (h'.contains hid) hcarries)
  · intro hid target hheld
    exact h'.holds hid (h.holds (h'.contains hid) hheld)

theorem Calm.keeps {s s' : Session} (h : s.Calm s') (id : ObjectId) : Keeps id s s' := by
  refine ⟨?_, fun _ _ hcarries => h.carries_iff.2 hcarries, fun _ _ hheld => ?_⟩
  · intro hid
    rw [← World.contains_awake, h.awake, World.contains_awake] at hid
    exact hid
  · refine ⟨h.carries_iff.2 hheld.carries, ?_⟩
    rw [h.targets]
    exact hheld.stands

theorem Drops.keeps {s s' : Session} {gone : List (ObjectId × SceneObject)}
    (h : s.Drops s' gone) (id : ObjectId) : Keeps id s s' := by
  have hcarries : s'.world.contains id = true → ∀ {target},
      s.Carries id target → s'.Carries id target := by
    intro hid target hcarries
    rw [OrderedMap.contains_iff] at hid
    rcases List.mem_map.1 hid with ⟨⟨id', o⟩, ho, rfl⟩
    -- The object that is there now was there before.
    rw [Stage.Carries, OrderedMap.get?_eq_some_iff.2 (h.mem_entries.1 ho).1] at hcarries
    exact Stage.carries_iff.2 ⟨o, ho, hcarries⟩
  refine ⟨?_, hcarries, fun hid _ hheld => h.holds (hcarries hid hheld.carries) hheld.stands⟩
  intro hid
  rw [OrderedMap.contains_iff] at hid ⊢
  exact h.keys_sublist.subset hid

theorem coversRuns_keeps (id : ObjectId) : CoversRuns (Keeps id) where
  trans h h' := h.trans h'
  calm hcalm := hcalm.keeps id
  despawn id' s := (s.despawn_drops id').keeps id

/-- An event that is no shutdown keeps what an object holds that is not new. -/
theorem keeps_happen {e : Event} {s : Session} (hfresh : (s.world.keys ++ e.spawned).Nodup)
    (hrunning : e ≠ .shutdown) (hunshared : (s.happen e).toStage.Unshared) {id : ObjectId}
    (hold : id ∉ e.spawned) : Keeps id s (s.happen e) := by
  cases outcome_happen hfresh with
  | comes hadmits hspawned =>
      refine ⟨?_, fun _ _ hcarries => hadmits.carries hcarries, fun _ _ hheld => ?_⟩
      · intro hid
        rw [OrderedMap.contains_iff, OrderedMap.keys, hadmits.entries, List.map_append,
          hspawned, List.mem_append] at hid
        exact OrderedMap.contains_iff.2 (hid.resolve_right hold)
      · exact hadmits.holds hunshared (hadmits.carries hheld.carries) (Or.inl hheld.stands)
  | goes hdrops => exact hdrops.keeps id
  | bakes graph hbake =>
      rw [hbake] at hunshared ⊢
      have htags := s.tags_bake graph
      refine ⟨?_, fun _ _ hcarries => htags.carries hcarries,
        fun _ _ hheld => htags.holds hunshared hheld⟩
      intro hid
      rw [← htags.keeps.contains]
      exact hid
  | forgets hshutdown => exact absurd hshutdown hrunning
  | runs hruns => exact hruns _ (coversRuns_keeps id)

/-! ### Bakes -/

/-- What stands on the left of a list of pairs has a partner. -/
theorem exists_of_forall₂ {α β : Type} {R : α → β → Prop} {as : List α} {bs : List β}
    (h : List.Forall₂ R as bs) {a : α} (ha : a ∈ as) : ∃ b ∈ bs, R a b := by
  induction h with
  | nil => exact absurd ha List.not_mem_nil
  | cons hab _ ih =>
      rcases List.mem_cons.1 ha with rfl | htail
      · exact ⟨_, List.mem_cons_self, hab⟩
      · rcases ih htail with ⟨b, hb, hR⟩
        exact ⟨b, List.mem_cons_of_mem _ hb, hR⟩

/-- Target ids that name objects resolve to those that are there. -/
theorem map_resolve?_of_names {s : Stage} {ids : List ObjectId} {targets : List String}
    (h : s.Names ids targets) :
    targets.map s.targets.resolve? = (ids.filter s.world.contains).map some := by
  rw [← List.forall₂_eq_eq_eq, List.forall₂_map_left_iff, List.forall₂_map_right_iff]
  exact h.flip.imp fun target id hheld => hheld.resolve?

/-- The nodes that a bake compiles to steps, in their order. -/
def bakedNodes (s : Session) (graph : GraphRef) : List Node :=
  (s.library.get graph).compileNodes.filter Node.takesPart

/-- Right after a bake, the steps of the program render the nodes. -/
theorem renders_bake {s : Session} {graph : GraphRef}
    (hunshared : (s.bake graph).2.toStage.Unshared) :
    List.Forall₂ (Node.Renders (s.bake graph).2.toStage) (s.bakedNodes graph)
      ((s.bake graph).2.library.get graph).fullSteps := by
  rw [fullSteps_bake]
  exact compileAll_renders graph _ ((s.tags_bake graph).sound hunshared) (Nat.le_refl _)

/-- Right after a bake, the target ids of a step resolve to the objects that exist among
    those that its node refers to. -/
theorem resolve?_bake {s : Session} {graph : GraphRef}
    (hunshared : (s.bake graph).2.toStage.Unshared) :
    List.Forall₂
      (fun n st => st.node = n.id ∧ st.type = n.type ∧
        st.targets.map (s.bake graph).2.targets.resolve? =
          (n.kind.referents.filter s.world.contains).map some)
      (s.bakedNodes graph) ((s.bake graph).2.library.get graph).fullSteps := by
  -- Baking neither adds objects nor takes them away.
  have hcontains : s.world.contains = (s.bake graph).2.world.contains :=
    funext fun id => ((s.tags_bake graph).keeps.contains id).symm
  refine (renders_bake hunshared).imp fun n st hst => ?_
  rw [hcontains]
  refine ⟨?_, ?_, map_resolve?_of_names hst.names⟩
  · rw [hst.step_eq]
    exact (n.header_step _).1
  · rw [hst.step_eq]
    exact (n.header_step _).2.1

/-- Every target id of a program that was just baked is held by an object. -/
theorem exists_holds_bake {s : Session} {graph : GraphRef}
    (hunshared : (s.bake graph).2.toStage.Unshared) {st : Step}
    (hst : st ∈ ((s.bake graph).2.library.get graph).fullSteps) {target : String}
    (htarget : target ∈ st.targets) : ∃ id, (s.bake graph).2.toStage.Holds id target := by
  rcases exists_of_forall₂ (renders_bake hunshared).flip hst with ⟨n, -, hn⟩
  rcases exists_of_forall₂ hn.names.flip htarget with ⟨id, -, hheld⟩
  exact ⟨id, hheld⟩

/-! ### Registrations -/

/-- The event registers the object, if it is there: its scene is registered, or a graph is
    baked that refers to it. -/
def registers (s : Session) (id : ObjectId) : Event → Bool
  | .sceneLoaded scene | .loadScene scene _ => (s.world.get? id).any (·.scene = scene)
  | .bake graph => (s.bakedNodes graph).any fun n => id ∈ n.kind.referents
  | _ => false

/-- An object that is registered holds the target id that it carries. -/
theorem holds_happen_of_registers {e : Event} {s : Session}
    (hfresh : (s.world.keys ++ e.spawned).Nodup) (hunshared : (s.happen e).toStage.Unshared)
    {id : ObjectId} {target : String} (hcarries : s.Carries id target)
    (h : s.registers id e = true) : (s.happen e).toStage.Holds id target := by
  rcases hcarries.exists_entry with ⟨o, ho, htarget⟩
  -- If the scene is registered, the object is on the list.
  have hlisted : ∀ scene, (s.world.get? id).any (·.scene = scene) = true →
      (id, o) ∈ s.world.inScene scene := by
    intro scene hscene
    rw [OrderedMap.get?_eq_some_iff.2 ho] at hscene
    exact List.mem_filter.2 ⟨ho, hscene⟩
  cases e with
  | sceneLoaded scene =>
      have hadmits := s.sceneLoaded_admits scene
      exact hadmits.holds hunshared (hadmits.carries hcarries)
        (Or.inr ⟨o, hlisted scene h, htarget⟩)
  | loadScene scene objects =>
      have hadmits := loadScene_admits hfresh scene
      exact hadmits.holds hunshared (hadmits.carries hcarries)
        (Or.inr ⟨o, List.mem_append_left _ (hlisted scene h), htarget⟩)
  | bake graph =>
      -- The step of a node that refers to the object carries the id that it holds.
      rw [registers, List.any_eq_true] at h
      rcases h with ⟨n, hn, hid⟩
      have hlater : (s.happen (.bake graph)).Carries id target :=
        (s.tags_bake graph).carries hcarries
      have hthere := Stage.contains_of_carries hlater
      rcases exists_of_forall₂ (renders_bake hunshared) hn with ⟨st, -, hrenders⟩
      have hreferent := List.mem_filter.2 ⟨of_decide_eq_true hid, hthere⟩
      rcases exists_of_forall₂ hrenders.names hreferent with ⟨target', -, hheld⟩
      rw [hlater.unique hheld.carries]
      exact hheld
  | _ => exact absurd h (by simp [registers])

/-- Whether an object still counts as registered after an event. -/
def staysCurrent (s : Session) (id : ObjectId) (current : Bool) : Event → Bool
  | .shutdown => false
  | e => current || s.registers id e

/-- Whether no shutdown has come since an object was last registered, given whether it
    counted as registered before. -/
def isCurrent (id : ObjectId) : Bool → Session → List Event → Bool
  | current, _, [] => current
  | current, s, e :: events =>
    isCurrent id (s.staysCurrent id current e) (s.happen e) events

/-- An object that is there carries a target id, and holds it if it counts as
    registered. -/
structure Stands (id : ObjectId) (target : String) (current : Bool) (s : Session) : Prop where
  /-- It carries the target id. -/
  carries : s.world.contains id = true → s.Carries id target
  /-- It holds the target id if it counts as registered. -/
  holds : current = true → s.world.contains id = true → s.toStage.Holds id target

/-- An event leaves an object with the target id that it carries, and what the event does
    to the record is what makes the object count as registered or not. -/
theorem Stands.happen {id : ObjectId} {target : String} {current : Bool} {e : Event}
    {s : Session} (h : Stands id target current s) (hfresh : (s.world.keys ++ e.spawned).Nodup)
    (hunshared : (s.happen e).toStage.Unshared) (hold : id ∉ e.spawned) :
    Stands id target (s.staysCurrent id current e) (s.happen e) := by
  by_cases hrunning : e = .shutdown
  · subst hrunning
    exact ⟨h.carries, fun hstays => absurd hstays (by simp [staysCurrent])⟩
  · have hkeeps := keeps_happen hfresh hrunning hunshared hold
    refine ⟨fun hid => hkeeps.carries hid (h.carries (hkeeps.contains hid)),
      fun hstays hid => ?_⟩
    have hwhy : current = true ∨ s.registers id e = true := by
      cases e with
      | shutdown => exact absurd rfl hrunning
      | _ => simpa [staysCurrent] using hstays
    have hbefore := hkeeps.contains hid
    rcases hwhy with hcurrent | hregisters
    · exact hkeeps.holds hid (h.holds hcurrent hbefore)
    · exact holds_happen_of_registers hfresh hunshared (h.carries hbefore) hregisters

/-- An object that is there at the end of a history has its target id, and holds it unless
    there was a shutdown and nothing has registered the object since. -/
theorem Stands.after {id : ObjectId} {target : String} {current : Bool} {later : List Event}
    {s : Session} (h : Stands id target current s)
    (hfresh : (s.world.keys ++ later.flatMap Event.spawned).Nodup)
    (hunshared : ∀ past, past <+: later → (s.after past).toStage.Unshared)
    (hold : id ∉ later.flatMap Event.spawned) :
    Stands id target (isCurrent id current s later) (s.after later) := by
  induction later generalizing s current with
  | nil => exact h
  | cons e later ih =>
      rw [List.flatMap_cons, ← List.append_assoc] at hfresh
      rw [List.flatMap_cons, List.mem_append, not_or] at hold
      have hnew : (s.world.keys ++ e.spawned).Nodup := hfresh.of_append_left
      have hnow : (s.happen e).toStage.Unshared := hunshared [e] ⟨later, rfl⟩
      refine ih (h.happen hnew hnow hold.1) ?_ ?_ hold.2
      · exact hfresh.sublist ((keys_happen_sublist hnew).append_right _)
      · intro past hpast
        exact hunshared (e :: past) (List.cons_prefix_cons.2 ⟨rfl, hpast⟩)

/-- A compiled reference never leads to another object. Take any history in which the
    ids of spawned objects are new and no two objects ever carry one target id, and any
    bake in it. Right after the bake, the program has a step for each node that takes
    part, and its target ids resolve to the objects that exist among those that the node
    refers to, in their order. From then on, each of these ids resolves to that object or
    to nothing; and it resolves to the object if that is there and no shutdown has come
    since it was last registered. -/
theorem target_ids_last (config : Settings) (supply : Nat → ObjectId) (scheduled : Bool)
    {before later : List Event} {graph : GraphRef}
    (hfresh : ((before ++ .bake graph :: later).flatMap Event.spawned).Nodup)
    (hapart : (start config supply scheduled).TellsApart (before ++ .bake graph :: later)) :
    let s := (start config supply scheduled).after before
    let baked := (s.bake graph).2
    let ended := baked.after later
    List.Forall₂
        (fun n st => st.node = n.id ∧ st.type = n.type ∧
          st.targets.map baked.targets.resolve? =
            (n.kind.referents.filter s.world.contains).map some)
        (s.bakedNodes graph) (baked.library.get graph).fullSteps ∧
      ∀ st ∈ (baked.library.get graph).fullSteps, ∀ target ∈ st.targets,
        ∃ id, baked.targets.resolve? target = some id ∧
          (ended.targets.resolve? target = some id ∨ ended.targets.resolve? target = none) ∧
          (ended.world.contains id = true → isCurrent id true baked later = true →
            ended.targets.resolve? target = some id) := by
  intro s baked ended
  have hempty : (start config supply scheduled).world.keys = [] := rfl
  have hbaked : (start config supply scheduled).after (before ++ [.bake graph]) = baked := by
    rw [after_concat]
    rfl
  have hended : (start config supply scheduled).after (before ++ .bake graph :: later) = ended := by
    rw [after_append]
    rfl
  have hsplit : before ++ .bake graph :: later = (before ++ [.bake graph]) ++ later := by simp
  have hpast : before ++ [.bake graph] <+: before ++ .bake graph :: later :=
    ⟨later, hsplit.symm⟩
  have hunshared := hapart.unshared hpast
  rw [hbaked] at hunshared
  refine ⟨resolve?_bake hunshared, fun st hst target htarget => ?_⟩
  rcases exists_holds_bake hunshared hst htarget with ⟨id, hheld⟩
  refine ⟨id, hheld.resolve?, ?_, fun hthere hcurrent => ?_⟩
  · have hcarries : baked.Carries id target := hheld.carries
    have htruthful := truthful_after hempty (truthful_start config supply scheduled) hfresh
    rw [← hbaked] at hcarries
    rw [← hended]
    exact hapart.resolve? hpast (List.prefix_refl _) htruthful hcarries
  · have hkeys : (baked.world.keys ++ later.flatMap Event.spawned).Nodup := by
      rw [hsplit, List.flatMap_append] at hfresh
      rw [← hbaked]
      exact hfresh.sublist ((keys_after_sublist hempty hfresh.of_append_left).append_right _)
    have hstands : Stands id target true baked := ⟨fun _ => hheld.carries, fun _ _ => hheld⟩
    refine ((hstands.after hkeys ?_ ?_).holds hcurrent hthere).resolve?
    · intro past hle
      rw [← hbaked, ← after_append]
      refine hapart.unshared ?_
      rw [hsplit]
      exact (List.prefix_append_right_inj _).2 hle
    · -- The object was spawned before, and no object is spawned twice.
      intro hagain
      have hmem := OrderedMap.contains_iff.1 (Stage.contains_of_carries hheld.carries)
      exact (List.nodup_append.1 hkeys).2.2 id hmem id hagain rfl

/-- A door without a target id and a lamp with one, and two graphs: one refers to both and
    to an object that does not exist, the other to objects that are still to come. -/
def doorAndLamp : List Event :=
  [.author
      { graphs :=
          [{ name := "night"
             nodes := [.ofKind ⟨"toggle"⟩ (.objects .over [some ⟨2⟩, some ⟨9⟩, some ⟨1⟩])] },
            { name := "day", nodes := [.ofKind ⟨"show"⟩ (.objects .on [some ⟨3⟩, some ⟨4⟩])] }] },
    .spawn ⟨1⟩ { name := "Door", scene := "House" },
    .spawn ⟨2⟩ { name := "Lamp", scene := "House", targetId := some "lamp" }]

/-- After the first graph was baked, another scene comes, its objects are tagged, the
    lamp goes, everything is forgotten, and the scene of the door is registered again. -/
def dayBreak : List Event :=
  [.loadScene "Garden"
      [(⟨3⟩, { name := "Gate", scene := "Garden", targetId := some "gate" }),
        (⟨4⟩, { name := "Hedge", scene := "Garden" })],
    .bake ⟨1⟩, .startFull ⟨1⟩, .turn 0, .despawn ⟨2⟩, .shutdown, .unloadScene "Garden",
    .sceneLoaded "House"]

/-- The session in which the first graph has just been baked. -/
def litHouse : Session :=
  (((start {} .minted true).after doorAndLamp).bake ⟨0⟩).2

theorem target_ids_of_doorAndLamp_last :
    ((doorAndLamp ++ .bake ⟨0⟩ :: dayBreak).flatMap Event.spawned).Nodup ∧
      (start {} .minted true).TellsApart (doorAndLamp ++ .bake ⟨0⟩ :: dayBreak) ∧
      litHouse.targets.resolve? (ObjectId.minted 0).toString = some ⟨1⟩ ∧
      (litHouse.after dayBreak).world.contains ⟨1⟩ = true ∧
      isCurrent ⟨1⟩ true litHouse dayBreak = true ∧
      (litHouse.after dayBreak).targets.resolve? (ObjectId.minted 0).toString = some ⟨1⟩ := by
  have hfresh : ((doorAndLamp ++ .bake ⟨0⟩ :: dayBreak).flatMap Event.spawned).Nodup := by
    decide +kernel
  have hapart : (start {} .minted true).TellsApart (doorAndLamp ++ .bake ⟨0⟩ :: dayBreak) :=
    tellsApart_of_everCarried (by decide +kernel)
  have hfirst : litHouse.targets.resolve? (ObjectId.minted 0).toString = some ⟨1⟩ := by
    decide +kernel
  have hthere : (litHouse.after dayBreak).world.contains ⟨1⟩ = true := by decide +kernel
  have hcurrent : isCurrent ⟨1⟩ true litHouse dayBreak = true := by decide +kernel
  have hwritten : ∃ st ∈ (litHouse.library.get ⟨0⟩).fullSteps,
      (ObjectId.minted 0).toString ∈ st.targets := by
    decide +kernel
  rcases hwritten with ⟨st, hst, htarget⟩
  rcases (target_ids_last {} .minted true hfresh hapart).2 st hst _ htarget with
    ⟨id, hid, -, hlast⟩
  have hdoor : id = ⟨1⟩ := Option.some.inj (hid.symm.trans hfirst)
  rw [hdoor] at hlast
  exact ⟨hfresh, hapart, hfirst, hthere, hcurrent, hlast hthere hcurrent⟩

end Session

end BehaviorGraph
