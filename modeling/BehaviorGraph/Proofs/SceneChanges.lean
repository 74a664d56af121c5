import BehaviorGraph.Proofs.BakeMeaning
import BehaviorGraph.Proofs.Histories
import BehaviorGraph.Proofs.Registries
import BehaviorGraph.Proofs.RunReach
import BehaviorGraph.Proofs.Subtrees
import BehaviorGraph.Proofs.TagRecord
/-!
# How Scenes Change

Objects come in three ways and go in two, and each way registers or forgets them a
little differently. Here the differences are settled once, and what is left to tell
apart of the events of a history are five kinds.

Whoever comes is put at the end of the world, and then a list of objects is registered:
just the new one if an object is spawned, and all objects of the scene if a scene is
loaded, the new ones among them. Registering what is registered already does no harm,
so `Admits` covers the three.

Whoever goes takes its registrations with it. An object that is removed takes its
descendants along, whatever scenes they belong to, and each is unbound by its id; a scene
that is unloaded has its keys unbound by the scene noted with them. As long as the note
is right, both mean that the keys of those who went are unbound and no others, and
`Drops` covers the two.

## Main definitions

* `Session.Admits`: Objects came and some were registered.
* `Session.Drops`: Objects went and their registrations with them.
* `Event.enlists`: Whether an event registers objects.
* `Event.coveredByRuns`: Whether an event does no more than runs do.
* `Session.Remains`: What is left after an event that registers none.
* `Session.Outcome`: What an event makes of a session.

## Theorems

* `Session.spawn_admits`, `Session.loadScene_admits`, `Session.sceneLoaded_admits`: Coming.
* `Session.despawn_drops`, `Session.unloadScene_drops`: Going.
* `Session.runs_happen`, `Session.remains_happen`: Events that register no objects.
* `Session.outcome_happen`: Every event is of one of the five kinds.
* `Session.keys_after_sublist`: Which objects there are after a history.
-/

namespace BehaviorGraph

open Stage (carriedId?)

namespace OrderedMap

variable {κ ν : Type} [DecidableEq κ]

/-- An entry is told from others by its key. -/
theorem key_mem_iff {m : OrderedMap κ ν} {es : List (κ × ν)} (hes : es ⊆ m.entries) {e : κ × ν}
    (he : e ∈ m.entries) : e.1 ∈ es.map Prod.fst ↔ e ∈ es := by
  constructor
  · intro hkey
    rcases List.mem_map.1 hkey with ⟨e', he', heq⟩
    have hsame : m.get? e.1 = some e'.2 := by
      rw [get?_eq_some_iff, ← heq]
      exact hes he'
    have hvalue : e.2 = e'.2 := by
      rw [get?_eq_some_iff.2 he] at hsame
      exact Option.some.inj hsame
    rw [Prod.ext heq.symm hvalue]
    exact he'
  · exact fun hmem => List.mem_map.2 ⟨e, hmem, rfl⟩

end OrderedMap

namespace Session

/-! ### Coming -/

/-- The new objects came, and those on the list were registered. -/
structure Admits (s s' : Session) (new listed : List (ObjectId × SceneObject)) : Prop where
  /-- The new objects are the last ones. -/
  entries : s'.world.entries = s.world.entries ++ new
  /-- All that is registered is there. -/
  listed_subset : listed ⊆ s'.world.entries
  /-- The target ids are registered. -/
  targets : s'.targets = (s.targets.assignAll listed).2
  /-- The objects have joined their layers. -/
  layers : s'.layers = (s.layers.joinAll listed).2
  /-- The keys are bound. -/
  bindings : s'.bindings = (s.bindings.bindTriggers s.library s'.world (listed.map Prod.fst)).2

theorem Admits.mem_entries {s s' : Session} {new listed : List (ObjectId × SceneObject)}
    (h : s.Admits s' new listed) {e : ObjectId × SceneObject} :
    e ∈ s'.world.entries ↔ e ∈ s.world.entries ∨ e ∈ new := by
  rw [h.entries, List.mem_append]

theorem spawn_admits {id : ObjectId} {s : Session} (h : id ∉ s.world.keys) (o : SceneObject) :
    s.Admits (s.spawn id o) [(id, o)] [(id, o)] := by
  have hentries : (s.spawn id o).world.entries = s.world.entries ++ [(id, o)] :=
    OrderedMap.entries_insert_of_notMem h
  refine ⟨hentries, ?_, rfl, rfl, rfl⟩
  rw [hentries]
  exact List.subset_append_right _ _

theorem sceneLoaded_admits (scene : String) (s : Session) :
    s.Admits (s.sceneLoaded scene).2 [] (s.world.inScene scene) :=
  ⟨(List.append_nil _).symm, List.filter_subset_self _, rfl, rfl, rfl⟩

/-- Loading a scene registers what belonged to it before, and the new objects that do. -/
theorem loadScene_admits {objects : List (ObjectId × SceneObject)} {s : Session}
    (h : (s.world.keys ++ objects.map Prod.fst).Nodup) (scene : String) :
    s.Admits (s.loadScene scene objects).2 objects
      (s.world.inScene scene ++ objects.filter fun e => e.2.scene = scene) := by
  have hentries : (s.loadScene scene objects).2.world.entries = s.world.entries ++ objects :=
    OrderedMap.entries_foldl_insert h
  have hlisted : s.world.inScene scene ++ objects.filter (fun e => e.2.scene = scene) =
      (s.loadScene scene objects).2.world.inScene scene := by
    rw [World.inScene, World.inScene, hentries, List.filter_append]
  rw [hlisted]
  exact ⟨hentries, List.filter_subset_self _, rfl, rfl, rfl⟩

/-! ### Going -/

/-- The objects that are gone went, and their registrations with them. Which bindings to
    keys are dropped is told for those whose note of the scene is right. -/
structure Drops (s s' : Session) (gone : List (ObjectId × SceneObject)) : Prop where
  /-- They were there. -/
  gone_subset : gone ⊆ s.world.entries
  /-- The others stay, in their order. -/
  entries : s'.world.entries = s.world.entries.filter (· ∉ gone)
  /-- Their target ids are forgotten. -/
  targets : s'.targets = s.targets.releaseAll gone
  /-- They have left their layers. -/
  layers : s'.layers = s.layers.leaveAll (gone.map Prod.fst)
  /-- Their keys are unbound. -/
  bindings : ∃ keep : KeyBinding → Bool,
    (∀ key, s'.bindings.ofKey key = (s.bindings.ofKey key).filter keep) ∧
      ∀ k o, (k.object, o) ∈ s.world.entries → k.scene = o.scene →
        (keep k = true ↔ (k.object, o) ∉ gone)

theorem Drops.mem_entries {s s' : Session} {gone : List (ObjectId × SceneObject)}
    (h : s.Drops s' gone) {e : ObjectId × SceneObject} :
    e ∈ s'.world.entries ↔ e ∈ s.world.entries ∧ e ∉ gone := by
  rw [h.entries, List.mem_filter, decide_eq_true_eq]

/-- What is there after objects went was there before. -/
theorem Drops.get?_of_get? {s s' : Session} {gone : List (ObjectId × SceneObject)}
    (h : s.Drops s' gone) {id : ObjectId} {o : SceneObject} (ho : s'.world.get? id = some o) :
    s.world.get? id = some o :=
  OrderedMap.get?_eq_some_iff.2 (h.mem_entries.1 (OrderedMap.get?_eq_some_iff.1 ho)).1

theorem foldl_forget (gone : List (ObjectId × SceneObject)) (s : Session) :
    gone.foldl (fun s e => s.forget e.1 e.2) s =
      { s with
        targets := s.targets.releaseAll gone
        layers := s.layers.leaveAll (gone.map Prod.fst)
        bindings := s.bindings.unbindAll (gone.map Prod.fst) } := by
  induction gone generalizing s with
  | nil => rfl
  | cons e gone ih => exact ih (s.forget e.1 e.2)

theorem foldl_forgetWithScene (gone : List (ObjectId × SceneObject)) (s : Session) :
    gone.foldl (fun s e => s.forgetWithScene e.1 e.2) s =
      { s with
        targets := s.targets.releaseAll gone
        layers := s.layers.leaveAll (gone.map Prod.fst) } := by
  induction gone generalizing s with
  | nil => rfl
  | cons e gone ih => exact ih (s.forgetWithScene e.1 e.2)

theorem despawn_drops (id : ObjectId) (s : Session) :
    s.Drops (s.despawn id).2 (s.world.despawn id).1 := by
  unfold despawn
  simp only [foldl_forget]
  refine ⟨?_, World.entries_despawn id s.world, rfl, rfl,
    fun k => k.object ∉ (s.world.despawn id).1.map Prod.fst, ?_, ?_⟩
  · intro e he
    exact (World.mem_despawn.1 he).2.2
  · intro key
    exact Bindings.ofKey_unbindAll _ _ key
  · intro k o hmem _
    -- Whether an object goes is decided by its id.
    have hgone : k.object ∈ (s.world.despawn id).1.map Prod.fst ↔
        (k.object, o) ∈ (s.world.despawn id).1 :=
      OrderedMap.key_mem_iff (fun e he => (World.mem_despawn.1 he).2.2) hmem
    simp [hgone]

theorem unloadScene_drops (scene : String) (s : Session) :
    s.Drops (s.unloadScene scene).2 (s.world.inScene scene) := by
  unfold unloadScene World.unloadScene
  simp only [foldl_forgetWithScene]
  refine ⟨List.filter_subset_self _, ?_, rfl, rfl, fun k => !decide (k.scene = scene), ?_, ?_⟩
  · apply List.filter_congr
    intro e he
    simp [World.inScene, he]
  · intro key
    exact Bindings.ofKey_unbind _ _ key
  · intro k o hmem hscene
    simp [World.inScene, hmem, hscene]

/-! ### The start of a session -/

/-- The settings bind input actions, and no keys. -/
theorem ofKey_start (config : Settings) (supply : Nat → ObjectId) (scheduled : Bool) (key : Key) :
    (start config supply scheduled).bindings.ofKey key = [] := by
  have hkeys : ∀ (es : List (String × String)) (b : Bindings),
      (es.foldl (fun b e => b.bindAction e.1 e.2) b).ofKey key = b.ofKey key := by
    intro es
    induction es with
    | nil => exact fun _ => rfl
    | cons e es ih => exact fun b => ih (b.bindAction e.1 e.2)
  exact hkeys _ _

/-! ### Target ids -/

theorem truthful_start (config : Settings) (supply : Nat → ObjectId) (scheduled : Bool) :
    (start config supply scheduled).toStage.Truthful :=
  fun _ _ hget => absurd hget (by simp [start])

theorem Calm.carries_iff {s s' : Session} (h : s.Calm s') {id : ObjectId} {target : String} :
    s'.Carries id target ↔ s.Carries id target := by
  rw [Stage.Carries, Stage.Carries, World.bind_get?_of_awake h.awake fun _ => rfl]

theorem Calm.truthful {s s' : Session} (h : s.Calm s') (hs : s.toStage.Truthful) :
    s'.toStage.Truthful := by
  intro target id hget
  rw [h.targets] at hget
  exact h.carries_iff.2 (hs target id hget)

/-- A target id that goes on standing for an object is not that of one that is gone. -/
theorem Drops.truthful {s s' : Session} {gone : List (ObjectId × SceneObject)}
    (h : s.Drops s' gone) (hs : s.toStage.Truthful) : s'.toStage.Truthful := by
  intro target id hget
  rw [h.targets, Targets.get?_releaseAll] at hget
  rcases (hs target id hget.1).exists_entry with ⟨o, ho, htarget⟩
  refine Stage.carries_iff.2 ⟨o, h.mem_entries.2 ⟨ho, fun hgone => ?_⟩, htarget⟩
  exact hget.2 _ hgone ⟨rfl, Stage.targetId_of_carriedId? htarget⟩

/-- An object that stays goes on holding its target id. -/
theorem Drops.holds {s s' : Session} {gone : List (ObjectId × SceneObject)} (h : s.Drops s' gone)
    {id : ObjectId} {target : String} (hlater : s'.Carries id target)
    (hstands : s.targets.get? target = some id) : s'.toStage.Holds id target := by
  refine ⟨hlater, ?_⟩
  rcases hlater.exists_entry with ⟨o, ho, -⟩
  rcases h.mem_entries.1 ho with ⟨hthere, hstays⟩
  rw [h.targets, Targets.get?_releaseAll]
  refine ⟨hstands, ?_⟩
  rintro e hgone ⟨hid, -⟩
  exact hstays ((OrderedMap.key_mem_iff h.gone_subset hthere).1 (List.mem_map.2 ⟨e, hgone, hid⟩))

theorem Admits.carries {s s' : Session} {new listed : List (ObjectId × SceneObject)}
    (h : s.Admits s' new listed) {id : ObjectId} {target : String}
    (hcarries : s.Carries id target) : s'.Carries id target := by
  rcases hcarries.exists_entry with ⟨o, ho, htarget⟩
  exact Stage.carries_iff.2 ⟨o, h.mem_entries.2 (Or.inl ho), htarget⟩

theorem Admits.truthful {s s' : Session} {new listed : List (ObjectId × SceneObject)}
    (h : s.Admits s' new listed) (hs : s.toStage.Truthful) : s'.toStage.Truthful := by
  intro target id hget
  rw [h.targets] at hget
  rcases Targets.of_get?_assignAll hget with hbefore | ⟨o, ho, htarget⟩
  · exact h.carries (hs target id hbefore)
  · exact Stage.carries_iff.2 ⟨o, h.listed_subset ho, htarget⟩

/-- As long as target ids are not shared, an object holds the one it carries if it did
    before or is registered now. -/
theorem Admits.holds {s s' : Session} {new listed : List (ObjectId × SceneObject)}
    (h : s.Admits s' new listed) (hunshared : s'.toStage.Unshared) {id : ObjectId}
    {target : String} (hcarries : s'.Carries id target)
    (hwhy : s.targets.get? target = some id ∨
      ∃ o, (id, o) ∈ listed ∧ carriedId? o = some target) :
    s'.toStage.Holds id target := by
  refine ⟨hcarries, ?_⟩
  rw [h.targets]
  refine Targets.get?_assignAll_of ?_ hwhy
  -- Of those registered, only the object itself carries the target id.
  intro e he htarget
  have hother := Stage.carries_iff.2 ⟨e.2, h.listed_subset he, htarget⟩
  exact hunshared e.1 id target hother hcarries

/-- Baking asks for target ids and attaches click triggers. -/
theorem tags_bake (s : Session) (graph : GraphRef) : s.toStage.Tags (s.bake graph).2.toStage :=
  (Stage.coversBakes_tags graph).compileAll (s.library.get graph).compileNodes s.toStage

/-! ### Events -/

end Session

/-- Whether an event registers objects, be they new or not. -/
def Event.enlists : Event → Bool
  | spawn _ _ | loadScene _ _ | sceneLoaded _ => true
  | _ => false

/-- Whether an event does to a session nothing but what its runs are allowed to do. -/
def Event.coveredByRuns : Event → Bool
  | spawn _ _ | loadScene _ _ | sceneLoaded _ | unloadScene _ | shutdown | bake _ => false
  | _ => true

namespace Session

/-- What is left of a session after an event that registers no objects. -/
inductive Remains (e : Event) (s s' : Session) : Prop where
  /-- Objects go. -/
  | goes {gone : List (ObjectId × SceneObject)} (hdrops : s.Drops s' gone)
  /-- A graph is baked. -/
  | bakes (graph : GraphRef) (he : e = .bake graph) (hbake : s' = (s.bake graph).2)
  /-- Everything is forgotten. -/
  | forgets (he : e = .shutdown) (hshutdown : s' = s.shutdown)
  /-- The runs of the session go on, or the graphs are edited. -/
  | runs (hruns : ∀ R, CoversRuns R → R s s')

/-- What holds of calm changes and of removals, holds of all that such an event does. -/
theorem runs_happen {e : Event} (h : e.coveredByRuns = true) (s : Session) :
    ∀ R, CoversRuns R → R s (s.happen e) := by
  intro R hR
  cases e with
  | spawn id o => cases h
  | loadScene scene objects => cases h
  | sceneLoaded scene => cases h
  | unloadScene scene => cases h
  | shutdown => cases h
  | bake graph => cases h
  | despawn id => exact hR.despawn id s
  | author library => exact hR.calm ⟨rfl, rfl, rfl, rfl⟩
  | startFull graph => exact hR.steps.startRun _ s
  | startFrom graph trigger => exact hR.steps.startRun _ s
  | click id => exact hR.steps.fire _ id s
  | tick keys actions => exact hR.steps.tick keys actions s
  | turn run => exact hR.turn run s
  | clock time => exact hR.calm ⟨rfl, rfl, rfl, rfl⟩
  | advance ms => exact hR.advance ms s
  | finish run => exact hR.finish run s
  | execute st => exact hR.execute st s

theorem remains_happen {e : Event} (h : e.enlists = false) (s : Session) :
    Remains e s (s.happen e) := by
  cases e with
  | spawn id o => cases h
  | loadScene scene objects => cases h
  | sceneLoaded scene => cases h
  | despawn id => exact .goes (despawn_drops id s)
  | unloadScene scene => exact .goes (unloadScene_drops scene s)
  | shutdown => exact .forgets rfl rfl
  | bake graph => exact .bakes graph rfl rfl
  | _ => exact .runs (runs_happen rfl s)

/-- What an event makes of a session, by the kind of event. -/
inductive Outcome (e : Event) (s s' : Session) : Prop where
  /-- Objects come. What is registered was there before, or is new; all new objects are
      registered unless a scene is loaded with objects of another. -/
  | comes {new there own : List (ObjectId × SceneObject)}
      (hadmits : s.Admits s' new (there ++ own)) (hspawned : new.map Prod.fst = e.spawned)
      (hthere : there ⊆ s.world.entries) (hown : e.staysInScene = true → own = new)
  /-- Objects go. -/
  | goes {gone : List (ObjectId × SceneObject)} (hdrops : s.Drops s' gone)
  /-- A graph is baked. -/
  | bakes (graph : GraphRef) (hbake : s' = (s.bake graph).2)
  /-- Everything is forgotten. -/
  | forgets (hshutdown : e = .shutdown)
  /-- The runs of the session go on, or the graphs are edited. -/
  | runs (hruns : ∀ R, CoversRuns R → R s s')

/-- Every event is of one of the five kinds, as long as the ids of new objects are
    new. -/
theorem outcome_happen {e : Event} {s : Session} (h : (s.world.keys ++ e.spawned).Nodup) :
    Outcome e s (s.happen e) := by
  rcases henlists : e.enlists with _ | _
  · cases remains_happen henlists s with
    | goes hdrops => exact .goes hdrops
    | bakes graph _ hbake => exact .bakes graph hbake
    | forgets hshutdown => exact .forgets hshutdown
    | runs hruns => exact .runs hruns
  · cases e with
    | spawn id o =>
        have hnew : id ∉ s.world.keys := by
          intro hmem
          exact (List.nodup_append.1 h).2.2 id hmem id (List.mem_singleton_self id) rfl
        have hadmits : s.Admits (s.spawn id o) [(id, o)] ([] ++ [(id, o)]) := spawn_admits hnew o
        exact .comes hadmits rfl (List.nil_subset _) fun _ => rfl
    | loadScene scene objects =>
        refine .comes (loadScene_admits h scene) rfl (List.filter_subset_self _) fun hstays => ?_
        rw [List.filter_eq_self]
        simpa [Event.staysInScene] using hstays
    | sceneLoaded scene =>
        have hadmits := s.sceneLoaded_admits scene
        rw [← List.append_nil (s.world.inScene scene)] at hadmits
        exact .comes hadmits rfl (List.filter_subset_self _) fun _ => rfl
    | _ => cases henlists

/-- Baking neither adds objects nor takes them away. -/
theorem keys_bake (s : Session) (graph : GraphRef) :
    (s.bake graph).2.world.keys = s.world.keys := by
  have huntagged : ∀ w : World, w.untagged.keys = w.keys := fun w => OrderedMap.keys_mapValues _ w
  rw [← huntagged, (s.extends_bake graph).untagged, huntagged]

theorem Drops.keys_sublist {s s' : Session} {gone : List (ObjectId × SceneObject)}
    (h : s.Drops s' gone) : s'.world.keys.Sublist s.world.keys := by
  rw [OrderedMap.keys, h.entries]
  exact List.filter_sublist.map _

theorem coversRuns_keys_sublist :
    CoversRuns fun s s' => s'.world.keys.Sublist s.world.keys where
  trans h h' := h'.trans h
  calm hcalm := by
    have hawake : ∀ w : World, w.awake.keys = w.keys := fun w => OrderedMap.keys_mapValues _ w
    rw [← hawake, hcalm.awake, hawake]
  despawn id s := (s.despawn_drops id).keys_sublist

/-- The objects of the world are among those that were there and those that came, in
    their order. -/
theorem keys_happen_sublist {e : Event} {s : Session} (h : (s.world.keys ++ e.spawned).Nodup) :
    (s.happen e).world.keys.Sublist (s.world.keys ++ e.spawned) := by
  have hleft := List.sublist_append_left s.world.keys e.spawned
  cases outcome_happen h with
  | comes hadmits hspawned =>
      rw [OrderedMap.keys, hadmits.entries, List.map_append, hspawned]
      exact List.Sublist.refl _
  | goes hdrops => exact hdrops.keys_sublist.trans hleft
  | bakes graph hbake =>
      rw [hbake, keys_bake]
      exact hleft
  | forgets hshutdown =>
      rw [hshutdown]
      exact List.sublist_append_left _ _
  | runs hruns => exact (hruns _ coversRuns_keys_sublist).trans hleft

/-- After a history that began without objects, the world has only objects that were
    spawned, in the order in which that happened. -/
theorem keys_after_sublist {s : Session} (hempty : s.world.keys = []) {events : List Event}
    (h : (events.flatMap Event.spawned).Nodup) :
    (s.after events).world.keys.Sublist (events.flatMap Event.spawned) := by
  induction events using List.reverseRecOn with
  | nil => simp [hempty]
  | append_singleton events e ih =>
      rw [List.flatMap_append, List.flatMap_singleton] at h ⊢
      have hkeys := (ih h.of_append_left).append_right e.spawned
      rw [after_concat]
      exact (keys_happen_sublist (h.sublist hkeys)).trans hkeys

/-- The next event of a history spawns objects with new ids. -/
theorem fresh_after {s : Session} (hempty : s.world.keys = []) {events : List Event} {e : Event}
    (h : ((events ++ [e]).flatMap Event.spawned).Nodup) :
    ((s.after events).world.keys ++ e.spawned).Nodup := by
  rw [List.flatMap_append, List.flatMap_singleton] at h
  exact h.sublist ((keys_after_sublist hempty h.of_append_left).append_right e.spawned)

end Session

end BehaviorGraph
