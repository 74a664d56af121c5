import BehaviorGraph.Proofs.SceneChanges
/-!
# Registering Under Any Id

What an event registers, whatever was registered before.

An id can be spawned a second time. The world then replaces the object, but the
registries are only written to, and what they hold of the object that was replaced stays
as it is. So nothing can be told from the world alone. What can be told is how each registry
differs from what it was: a target id stands for the last object that was registered
under it, or for what it stood for before; and layers and keys have gained the objects that
were registered, and lost none.

Objects that go take their registrations with them, as far as the world knows of these,
and all other events leave the registries to themselves. `Session.Change` sorts events by
this, for all of them and not only for those that spawn new ids.

## Main definitions

* `latest?`: The last value that a record has under a key.
* `Event.arrivals`, `Event.enlisted`: What an event spawns, and what it registers.
* `Bindings.Binds`: A key is bound to an object.
* `Session.Enlists`: Objects came and some were registered.
* `Session.Change`: What an event makes of a session.

## Theorems

* `World.get?_foldl_spawn`: The last object that was spawned under an id counts.
* `Targets.get?_assignAll`: So does the last one that was registered under a target id.
* `Layers.mem_groupsOf_joinAll`: Layers gain groups.
* `Bindings.binds_bindTriggers`: Keys gain objects.
* `Session.change_happen`: Every event makes one of the changes.
-/

namespace BehaviorGraph

open Stage (carriedId?)

/-! ### Records -/

section Latest

variable {κ ν : Type} [DecidableEq κ]

/-- The last value under a key of a record that is written from front to back. -/
def latest? (key : κ) (record : List (κ × ν)) : Option ν :=
  ((record.filter fun e => e.1 = key).getLast?).map Prod.snd

@[simp]
theorem latest?_nil (key : κ) : latest? key ([] : List (κ × ν)) = none :=
  rfl

theorem latest?_append (key : κ) (record later : List (κ × ν)) :
    latest? key (record ++ later) = (latest? key later).or (latest? key record) := by
  rw [latest?, List.filter_append, List.getLast?_append, Option.map_or]
  rfl

theorem latest?_cons (key : κ) (e : κ × ν) (record : List (κ × ν)) :
    latest? key (e :: record) =
      (latest? key record).or (if e.1 = key then some e.2 else none) := by
  rw [← List.singleton_append, latest?_append]
  congr 1
  by_cases h : e.1 = key
  · simp [latest?, h]
  · simp [latest?, h]

theorem mem_of_latest? {key : κ} {record : List (κ × ν)} {v : ν}
    (h : latest? key record = some v) : (key, v) ∈ record := by
  rw [latest?, Option.map_eq_some_iff] at h
  rcases h with ⟨e, he, rfl⟩
  have hmem := List.mem_filter.1 (List.mem_of_getLast? he)
  rw [← of_decide_eq_true hmem.2]
  exact hmem.1

theorem latest?_eq_none_iff {key : κ} {record : List (κ × ν)} :
    latest? key record = none ↔ ∀ e ∈ record, e.1 ≠ key := by
  rw [latest?, Option.map_eq_none_iff, List.getLast?_eq_none_iff, List.filter_eq_nil_iff]
  simp only [decide_eq_true_eq, ne_eq]

theorem exists_latest? {key : κ} {record : List (κ × ν)} {v : ν} (h : (key, v) ∈ record) :
    ∃ w, latest? key record = some w := by
  rw [← Option.isSome_iff_exists, Option.isSome_iff_ne_none, ne_eq, latest?_eq_none_iff]
  exact fun hnone => hnone _ h rfl

end Latest

/-! ### Objects that come -/

namespace World

theorem get?_foldl_spawn (es : List (ObjectId × SceneObject)) (w : World) (id : ObjectId) :
    (es.foldl (fun w e => World.spawn e.1 e.2 w) w).get? id = (latest? id es).or (w.get? id) := by
  induction es generalizing w with
  | nil => rfl
  | cons e es ih =>
      rw [List.foldl_cons, ih, latest?_cons, Option.or_assoc, spawn, OrderedMap.get?_insert]
      congr 1
      by_cases h : e.1 = id
      · rw [if_pos h.symm, if_pos h]
        rfl
      · rw [if_neg (Ne.symm h), if_neg h]
        rfl

end World

namespace Event

/-- The objects that an event spawns, in their order. -/
def arrivals : Event → List (ObjectId × SceneObject)
  | spawn id o => [(id, o)]
  | loadScene _ objects => objects
  | _ => []

theorem spawned_eq (e : Event) : e.spawned = e.arrivals.map Prod.fst := by
  cases e <;> rfl

/-- The objects that an event registers, in the world that it leaves behind. -/
def enlisted (w : World) : Event → List (ObjectId × SceneObject)
  | spawn id o => [(id, o)]
  | sceneLoaded scene | loadScene scene _ => w.inScene scene
  | _ => []

end Event

/-! ### Target ids -/

namespace Targets

/-- The target ids that some objects ask to be registered under. -/
def asked (es : List (ObjectId × SceneObject)) : List (String × ObjectId) :=
  es.filterMap fun e => (carriedId? e.2).map fun target => (target, e.1)

theorem mem_asked {es : List (ObjectId × SceneObject)} {target : String} {id : ObjectId} :
    (target, id) ∈ asked es ↔ ∃ o, (id, o) ∈ es ∧ carriedId? o = some target := by
  simp only [asked, List.mem_filterMap, Option.map_eq_some_iff, Prod.mk.injEq]
  constructor
  · rintro ⟨e, he, target', htarget, rfl, rfl⟩
    exact ⟨e.2, he, htarget⟩
  · rintro ⟨o, ho, htarget⟩
    exact ⟨(id, o), ho, target, htarget, rfl, rfl⟩

/-- A target id stands for the object that was registered last under it. -/
theorem get?_assignAll (es : List (ObjectId × SceneObject)) (t : Targets) (target : String) :
    (t.assignAll es).2.get? target = (latest? target (asked es)).or (t.get? target) := by
  induction es generalizing t with
  | nil => rfl
  | cons e es ih =>
      rw [assignAll_cons, ih, get?_assignFor]
      rcases hown : carriedId? e.2 with _ | own
      · simp [asked, hown]
      · have hsplit : asked (e :: es) = (own, e.1) :: asked es := by simp [asked, hown]
        rw [hsplit, latest?_cons, Option.or_assoc]
        congr 1
        by_cases h : own = target
        · simp [h]
        · simp [h]

end Targets

/-! ### Layers -/

namespace Layers

theorem mem_grouped {l : Layers} {key : String} {es : List (ObjectId × SceneObject)}
    {id : ObjectId} :
    id ∈ l.grouped key es ↔ ∃ o, (id, o) ∈ es ∧ o.layerGroup.bind l.parse? = some key := by
  simp only [grouped, List.mem_map, List.mem_filter, decide_eq_true_eq]
  constructor
  · rintro ⟨e, ⟨he, hkey⟩, rfl⟩
    exact ⟨e.2, he, hkey⟩
  · rintro ⟨o, ho, hkey⟩
    exact ⟨(id, o), ⟨ho, hkey⟩, rfl⟩

theorem mem_groupsOf_joinAll {es : List (ObjectId × SceneObject)} {l : Layers} {key : String}
    {id : ObjectId} :
    id ∈ (l.joinAll es).2.groupsOf key ↔
      id ∈ l.groupsOf key ∨ ∃ o, (id, o) ∈ es ∧ o.layerGroup.bind l.parse? = some key := by
  rw [groupsOf_joinAll, List.mem_append, mem_unseen, mem_grouped]
  tauto

end Layers

/-! ### Keys -/

namespace Bindings

/-- The key is bound to the object. -/
def Binds (b : Bindings) (key : Key) (id : ObjectId) : Prop :=
  ∃ k ∈ b.ofKey key, k.object = id

instance (b : Bindings) (key : Key) (id : ObjectId) : Decidable (b.Binds key id) :=
  inferInstanceAs (Decidable (∃ k ∈ b.ofKey key, k.object = id))

theorem mem_ofKey_bind {b : Bindings} {key key' : Key} {k k' : KeyBinding} :
    k' ∈ (b.bind key k).ofKey key' ↔
      k' ∈ b.ofKey key' ∨ (key' = key ∧ k' = k ∧ ¬b.Binds key k.object) := by
  have hfree : (b.ofKey key).any (·.object = k.object) = false ↔ ¬b.Binds key k.object := by
    simp [Binds]
  rw [ofKey_bind]
  split
  · next hnew =>
      rw [hfree] at hnew
      rw [List.mem_append, List.mem_singleton, hnew.1]
      simp only [true_and, hnew.2, not_false_eq_true, and_true]
  · next hold =>
      rw [hfree] at hold
      tauto

theorem binds_bind {b : Bindings} {key key' : Key} {k : KeyBinding} {id : ObjectId} :
    (b.bind key k).Binds key' id ↔ b.Binds key' id ∨ (key' = key ∧ k.object = id) := by
  constructor
  · rintro ⟨k', hk', rfl⟩
    rcases mem_ofKey_bind.1 hk' with hold | ⟨hkey, rfl, -⟩
    · exact Or.inl ⟨k', hold, rfl⟩
    · exact Or.inr ⟨hkey, rfl⟩
  · rintro (⟨k', hk', rfl⟩ | ⟨rfl, rfl⟩)
    · exact ⟨k', mem_ofKey_bind.2 (Or.inl hk'), rfl⟩
    · -- Either the key was bound to the object before, or it is now.
      by_cases hbound : b.Binds key' k.object
      · rcases hbound with ⟨k', hk', hobject⟩
        exact ⟨k', mem_ofKey_bind.2 (Or.inl hk'), hobject⟩
      · exact ⟨k, mem_ofKey_bind.2 (Or.inr ⟨rfl, rfl, hbound⟩), rfl⟩

theorem binds_bindTrigger {graphs : Library} {w : World} {id id' : ObjectId} {b : Bindings}
    {key : Key} :
    (b.bindTrigger graphs w id).2.Binds key id' ↔
      b.Binds key id' ∨ (id = id' ∧ (w.get? id).bind graphs.triggerKey? = some key) := by
  rw [bindTrigger_eq]
  rcases w.get? id with _ | o
  · simp
  · rcases hkey : graphs.triggerKey? o with _ | own
    · simp [hkey]
    · simp only [hkey, Option.elim_some, Option.bind_some, binds_bind, Option.some.injEq]
      tauto

theorem binds_bindTriggers {graphs : Library} {w : World} {ids : List ObjectId} {id : ObjectId}
    {b : Bindings} {key : Key} :
    (b.bindTriggers graphs w ids).2.Binds key id ↔
      b.Binds key id ∨ (id ∈ ids ∧ (w.get? id).bind graphs.triggerKey? = some key) := by
  induction ids generalizing b with
  | nil => simp [bindTriggers]
  | cons id' ids ih =>
      rw [bindTriggers_cons, ih, binds_bindTrigger, List.mem_cons]
      -- The first object of the list may be the one in question, or come again later.
      constructor
      · rintro ((hold | ⟨rfl, hkey⟩) | ⟨hmem, hkey⟩)
        · exact Or.inl hold
        · exact Or.inr ⟨Or.inl rfl, hkey⟩
        · exact Or.inr ⟨Or.inr hmem, hkey⟩
      · rintro (hold | ⟨rfl | hmem, hkey⟩)
        · exact Or.inl (Or.inl hold)
        · exact Or.inl (Or.inr ⟨rfl, hkey⟩)
        · exact Or.inr ⟨hmem, hkey⟩

/-- A binding was made just now, for an object of the world and with its scene, or it was
    there before. -/
theorem of_mem_ofKey_bindTriggers {graphs : Library} {w : World} {ids : List ObjectId}
    {b : Bindings} {key : Key} {k : KeyBinding}
    (h : k ∈ (b.bindTriggers graphs w ids).2.ofKey key) :
    k ∈ b.ofKey key ∨
      (k.object ∈ ids ∧ ∃ o, w.get? k.object = some o ∧ k.scene = o.scene ∧
        graphs.triggerKey? o = some key) := by
  revert h
  refine bindTriggers_induction (P := fun b' => k ∈ b'.ofKey key → _) Or.inl ?_
  intro b' id o own hid hget hkey hb hmem
  rcases mem_ofKey_bind.1 hmem with hold | ⟨rfl, rfl, -⟩
  · exact hb hold
  · exact Or.inr ⟨hid, o, hget, rfl, hkey⟩

/-- No binding is lost by making others. -/
theorem ofKey_subset_bindTriggers (graphs : Library) (w : World) (ids : List ObjectId)
    (b : Bindings) (key : Key) : b.ofKey key ⊆ (b.bindTriggers graphs w ids).2.ofKey key := by
  refine bindTriggers_induction (P := fun b' => b.ofKey key ⊆ b'.ofKey key)
    (List.Subset.refl _) ?_
  exact fun b' id o own _ _ _ hb k hk => mem_ofKey_bind.2 (Or.inl (hb hk))

end Bindings

/-! ### Changes -/

namespace Session

/-- Objects came, and those on the list were registered. -/
structure Enlists (s s' : Session) (new listed : List (ObjectId × SceneObject)) : Prop where
  /-- The new objects were spawned one after the other. -/
  world : s'.world = new.foldl (fun w e => World.spawn e.1 e.2 w) s.world
  /-- The graphs are the same. -/
  library : s'.library = s.library
  /-- All that is registered is there. -/
  listed_subset : listed ⊆ s'.world.entries
  /-- The target ids are registered. -/
  targets : s'.targets = (s.targets.assignAll listed).2
  /-- The objects have joined their layers. -/
  layers : s'.layers = (s.layers.joinAll listed).2
  /-- The keys are bound. -/
  bindings : s'.bindings = (s.bindings.bindTriggers s.library s'.world (listed.map Prod.fst)).2

theorem Enlists.get? {s s' : Session} {new listed : List (ObjectId × SceneObject)}
    (h : s.Enlists s' new listed) (id : ObjectId) :
    s'.world.get? id = (latest? id new).or (s.world.get? id) := by
  rw [h.world, World.get?_foldl_spawn]

/-- An object that is not among the new ones is what it was. -/
theorem Enlists.get?_of_notMem {s s' : Session} {new listed : List (ObjectId × SceneObject)}
    (h : s.Enlists s' new listed) {id : ObjectId} (hid : id ∉ new.map Prod.fst) :
    s'.world.get? id = s.world.get? id := by
  have hnone : latest? id new = none :=
    latest?_eq_none_iff.2 fun e he heq => hid (List.mem_map.2 ⟨e, he, heq⟩)
  rw [h.get?, hnone, Option.none_or]

/-- Each id stands on the list with the object that there is. -/
theorem Enlists.get?_of_mem {s s' : Session} {new listed : List (ObjectId × SceneObject)}
    (h : s.Enlists s' new listed) {id : ObjectId} {o : SceneObject} (ho : (id, o) ∈ listed) :
    s'.world.get? id = some o :=
  OrderedMap.get?_eq_some_iff.2 (h.listed_subset ho)

theorem Enlists.binds_iff {s s' : Session} {new listed : List (ObjectId × SceneObject)}
    (h : s.Enlists s' new listed) {key : Key} {id : ObjectId} :
    s'.bindings.Binds key id ↔ s.bindings.Binds key id ∨
      (id ∈ listed.map Prod.fst ∧ (s'.world.get? id).bind s'.library.triggerKey? = some key) := by
  rw [h.bindings, Bindings.binds_bindTriggers, h.library]

/-- Registering declares no layers. -/
theorem Enlists.parse? {s s' : Session} {new listed : List (ObjectId × SceneObject)}
    (h : s.Enlists s' new listed) : s'.layers.parse? = s.layers.parse? := by
  refine Layers.parse?_congr ?_
  rw [h.layers]
  exact Layers.declared_joinAll _ _

theorem spawn_enlists (id : ObjectId) (o : SceneObject) (s : Session) :
    s.Enlists (s.spawn id o) [(id, o)] [(id, o)] := by
  refine ⟨rfl, rfl, ?_, rfl, rfl, rfl⟩
  intro e he
  rw [List.mem_singleton.1 he]
  have hget : (s.spawn id o).world.get? id = some o := by
    rw [show (s.spawn id o).world = s.world.insert id o from rfl, OrderedMap.get?_insert,
      if_pos rfl]
  exact OrderedMap.get?_eq_some_iff.1 hget

theorem loadScene_enlists (scene : String) (objects : List (ObjectId × SceneObject))
    (s : Session) :
    s.Enlists (s.loadScene scene objects).2 objects
      ((s.loadScene scene objects).2.world.inScene scene) :=
  ⟨rfl, rfl, List.filter_subset_self _, rfl, rfl, rfl⟩

theorem sceneLoaded_enlists (scene : String) (s : Session) :
    s.Enlists (s.sceneLoaded scene).2 [] (s.world.inScene scene) :=
  ⟨rfl, rfl, List.filter_subset_self _, rfl, rfl, rfl⟩

theorem enlists_happen {e : Event} (h : e.enlists = true) (s : Session) :
    s.Enlists (s.happen e) e.arrivals (e.enlisted (s.happen e).world) := by
  cases e with
  | spawn id o => exact spawn_enlists id o s
  | loadScene scene objects => exact loadScene_enlists scene objects s
  | sceneLoaded scene => exact sceneLoaded_enlists scene s
  | _ => cases h

/-- What an event makes of a session, whatever ids it spawns. -/
inductive Change (e : Event) (s s' : Session) : Prop where
  /-- Objects come and are registered. -/
  | enlists (henlists : s.Enlists s' e.arrivals (e.enlisted s'.world))
  /-- Objects go. -/
  | goes {gone : List (ObjectId × SceneObject)} (hdrops : s.Drops s' gone)
      (hnew : e.arrivals = []) (hlisted : e.enlisted s'.world = [])
  /-- A graph is baked. -/
  | bakes (graph : GraphRef) (he : e = .bake graph) (hbake : s' = (s.bake graph).2)
  /-- Everything is forgotten. -/
  | forgets (he : e = .shutdown) (hshutdown : s' = s.shutdown)
  /-- The runs of the session go on, or the graphs are edited. -/
  | runs (hruns : ∀ R, CoversRuns R → R s s') (hnew : e.arrivals = [])
      (hlisted : e.enlisted s'.world = [])

theorem change_happen (e : Event) (s : Session) : Change e s (s.happen e) := by
  rcases henlists : e.enlists with _ | _
  · have hnew : e.arrivals = [] := by
      cases e with
      | spawn id o => cases henlists
      | loadScene scene objects => cases henlists
      | _ => rfl
    have hlisted : e.enlisted (s.happen e).world = [] := by
      cases e with
      | spawn id o => cases henlists
      | loadScene scene objects => cases henlists
      | sceneLoaded scene => cases henlists
      | _ => rfl
    cases remains_happen henlists s with
    | goes hdrops => exact .goes hdrops hnew hlisted
    | bakes graph he hbake => exact .bakes graph he hbake
    | forgets he hshutdown => exact .forgets he hshutdown
    | runs hruns => exact .runs hruns hnew hlisted
  · exact .enlists (enlists_happen henlists s)

end Session

end BehaviorGraph
