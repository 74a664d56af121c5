import BehaviorGraph.Proofs.Enlisting
/-!
# Spawning an Id Again

What is registered about an object that takes the place of another.

The world replaces the object, and the new one is registered for what its components ask
for. Nobody forgets what the old one was registered for. So the old target id still stands
for the id, the object is still a group of the old layer, and the old key is still
bound to it, with the scene that was noted then. All of this is left over when the object
goes, except where the new object happens to ask for the same.

That is the only exception. After an object was spawned, the registries have nothing about
its id but what it asks for exactly if they had nothing else before; loading a scene can
make good for some target ids, because other objects of the scene may take them over. And
once the registries have nothing else, they follow the object for as long as its id is not
spawned again, and nothing is left of it when it is removed or its scene is unloaded.

## Main definitions

* `Session.OnlyAsked`: Nothing is registered but what an object asks for.
* `Session.AllAsked`: All that an object asks for is registered.
* `Session.Traced`: What is registered about an object goes with it.
* `Session.NoTrace`: Nothing is registered about an id.

## Theorems

* `Session.Enlists.onlyAsked_iff`, `Session.Enlists.allAsked`: What registering leaves.
* `Session.Traced.happen`, `Session.Traced.after`: How long registrations are traced.
* `Session.respawn_replaces_iff`: When an object that is spawned again replaces what was
  registered.
* `Session.respawn_leaves_registrations`: A menu that is spawned again as a map.
-/

namespace BehaviorGraph

open Stage (carriedId?)

namespace Session

/-- Apart from some target ids that others may take, nothing is registered about the
    object but what its components ask for. -/
structure OnlyAsked (taken : List String) (id : ObjectId) (o : SceneObject) (s : Session) :
    Prop where
  /-- Only its own target id stands for it. -/
  targets : ∀ target, target ∉ taken → s.targets.get? target = some id →
    carriedId? o = some target
  /-- It is a group of its own layer only. -/
  groups : ∀ key, id ∈ s.layers.groupsOf key → o.layerGroup.bind s.layers.parse? = some key
  /-- Only the key that its trigger names is bound to it, and its scene is noted. -/
  keys : ∀ key, ∀ k ∈ s.bindings.ofKey key, k.object = id →
    s.library.triggerKey? o = some key ∧ k.scene = o.scene

/-- Apart from some target ids that others may take, all that the components of the object
    ask for is registered. -/
structure AllAsked (taken : List String) (id : ObjectId) (o : SceneObject) (s : Session) :
    Prop where
  /-- Its target id stands for it. -/
  targets : ∀ target, target ∉ taken → carriedId? o = some target →
    s.targets.get? target = some id
  /-- It is a group of its layer. -/
  groups : ∀ key, o.layerGroup.bind s.layers.parse? = some key → id ∈ s.layers.groupsOf key
  /-- The key that its trigger names is bound to it. -/
  keys : ∀ key, s.library.triggerKey? o = some key → s.bindings.Binds key id

/-- Nothing is registered about the id. -/
structure NoTrace (id : ObjectId) (s : Session) : Prop where
  /-- No target id stands for it. -/
  targets : ∀ target, s.targets.get? target ≠ some id
  /-- It is a group of no layer. -/
  groups : ∀ key, id ∉ s.layers.groupsOf key
  /-- No key is bound to it. -/
  keys : ∀ key, ¬s.bindings.Binds key id

/-! ### Registering -/

/-- The target ids that objects other than the given one ask for. -/
def takenFrom (id : ObjectId) (listed : List (ObjectId × SceneObject)) : List String :=
  (listed.filter (·.1 ≠ id)).filterMap fun e => carriedId? e.2

theorem mem_takenFrom {id : ObjectId} {listed : List (ObjectId × SceneObject)} {target : String} :
    target ∈ takenFrom id listed ↔
      ∃ e ∈ listed, e.1 ≠ id ∧ carriedId? e.2 = some target := by
  simp [takenFrom, and_assoc]

namespace Enlists

variable {s s' : Session} {new listed : List (ObjectId × SceneObject)}
  (h : s.Enlists s' new listed) {id : ObjectId} {o : SceneObject} (ho : (id, o) ∈ listed)
include h ho

/-- An id stands on the list with one object. -/
theorem eq_of_mem {o' : SceneObject} (ho' : (id, o') ∈ listed) : o' = o := by
  have hget := h.get?_of_mem ho'
  rw [h.get?_of_mem ho] at hget
  exact (Option.some.inj hget).symm

/-- A target id that the registered object does not ask for stands for it exactly if it did
    before and no other object took it. -/
theorem get?_iff_of_ne {target : String} (hother : carriedId? o ≠ some target) :
    s'.targets.get? target = some id ↔
      s.targets.get? target = some id ∧ target ∉ takenFrom id listed := by
  rw [h.targets, Targets.get?_assignAll, mem_takenFrom]
  -- Whoever registered last under the target id, it was not the object.
  rcases hlast : latest? target (Targets.asked listed) with _ | id'
  · rw [Option.none_or]
    refine ⟨fun hget => ⟨hget, ?_⟩, And.left⟩
    rintro ⟨e, he, -, htarget⟩
    exact latest?_eq_none_iff.1 hlast _ (Targets.mem_asked.2 ⟨e.2, he, htarget⟩) rfl
  · rw [Option.some_or, Option.some.injEq]
    rcases Targets.mem_asked.1 (mem_of_latest? hlast) with ⟨o', ho', htarget⟩
    constructor
    · rintro rfl
      rw [h.eq_of_mem ho ho'] at htarget
      exact absurd htarget hother
    · rintro ⟨-, hfree⟩
      by_contra hne
      exact hfree ⟨(id', o'), ho', hne, htarget⟩

/-- Registering leaves only what a registered object asks for exactly if there was nothing
    else before, except for target ids that other registered objects take. -/
theorem onlyAsked_iff : s'.OnlyAsked [] id o ↔ s.OnlyAsked (takenFrom id listed) id o := by
  constructor
  · -- Registering takes nothing away, so what there was before is still there.
    intro hafter
    refine ⟨fun target htaken hget => ?_, fun key hmem => ?_, fun key k hk hobject => ?_⟩
    · by_contra hother
      exact hother (hafter.targets target List.not_mem_nil
        ((h.get?_iff_of_ne ho hother).2 ⟨hget, htaken⟩))
    · have hlater : id ∈ s'.layers.groupsOf key := by
        rw [h.layers, Layers.mem_groupsOf_joinAll]
        exact Or.inl hmem
      rw [← h.parse?]
      exact hafter.groups key hlater
    · have hlater : k ∈ s'.bindings.ofKey key := by
        rw [h.bindings]
        exact Bindings.ofKey_subset_bindTriggers _ _ _ _ _ hk
      rw [← h.library]
      exact hafter.keys key k hlater hobject
  · -- What is new about the object is what it asks for itself.
    intro hbefore
    refine ⟨fun target _ hget => ?_, fun key hmem => ?_, fun key k hk hobject => ?_⟩
    · by_contra hother
      rcases (h.get?_iff_of_ne ho hother).1 hget with ⟨hold, hfree⟩
      exact hother (hbefore.targets target hfree hold)
    · rw [h.layers, Layers.mem_groupsOf_joinAll] at hmem
      rw [h.parse?]
      rcases hmem with hold | ⟨o', ho', hkey⟩
      · exact hbefore.groups key hold
      · rw [← h.eq_of_mem ho ho']
        exact hkey
    · rw [h.bindings] at hk
      rw [h.library]
      rcases Bindings.of_mem_ofKey_bindTriggers hk with hold | ⟨-, o', hget, hscene, hkey⟩
      · exact hbefore.keys key k hold hobject
      · -- The binding was made for the object itself.
        rw [hobject, h.get?_of_mem ho] at hget
        rw [Option.some.inj hget]
        exact ⟨hkey, hscene⟩

/-- A registered object is registered for all that it asks for, except for target ids
    that other registered objects take. -/
theorem allAsked : s'.AllAsked (takenFrom id listed) id o := by
  refine ⟨fun target hfree htarget => ?_, fun key hkey => ?_, fun key hkey => ?_⟩
  · rw [h.targets]
    refine Targets.get?_assignAll_of (fun e he he' => ?_) (Or.inr ⟨o, ho, htarget⟩)
    by_contra hne
    exact hfree (mem_takenFrom.2 ⟨e, he, hne, he'⟩)
  · rw [h.layers, Layers.mem_groupsOf_joinAll]
    rw [h.parse?] at hkey
    exact Or.inr ⟨o, ho, hkey⟩
  · rw [h.binds_iff, h.get?_of_mem ho]
    exact Or.inr ⟨List.mem_map.2 ⟨(id, o), ho, rfl⟩, hkey⟩

end Enlists

/-! ### Registrations that go with the object -/

/-- What is registered about the object is told by the world: it is there as long as
    anything is registered, it carries the target ids that stand for it, and its scene,
    which is noted with its keys, is the given one. -/
structure Traced (id : ObjectId) (scene : String) (s : Session) : Prop where
  /-- Its scene is the given one. -/
  inScene : ∀ o, s.world.get? id = some o → o.scene = scene
  /-- It carries the target ids that stand for it. -/
  targets : ∀ target, s.targets.get? target = some id → s.Carries id target
  /-- It is there if it is a group. -/
  groups : ∀ key, id ∈ s.layers.groupsOf key → s.world.contains id = true
  /-- It is there if a key is bound to it, and the scene that is noted is the given one. -/
  keys : ∀ key, ∀ k ∈ s.bindings.ofKey key, k.object = id →
    s.world.contains id = true ∧ k.scene = scene

/-- Nothing is left of an object that is gone. -/
theorem Traced.noTrace {id : ObjectId} {scene : String} {s : Session} (h : s.Traced id scene)
    (hgone : s.world.contains id = false) : s.NoTrace id := by
  refine ⟨fun target hget => ?_, fun key hmem => ?_, fun key ⟨k, hk, hobject⟩ => ?_⟩
  · have hthere := Stage.contains_of_carries (h.targets target hget)
    rw [hgone] at hthere
    exact Bool.false_ne_true hthere
  · have hthere := h.groups key hmem
    rw [hgone] at hthere
    exact Bool.false_ne_true hthere
  · have hthere := (h.keys key k hk hobject).1
    rw [hgone] at hthere
    exact Bool.false_ne_true hthere

theorem OnlyAsked.traced {id : ObjectId} {o : SceneObject} {s : Session}
    (h : s.OnlyAsked [] id o) (ho : s.world.get? id = some o) : s.Traced id o.scene := by
  have hthere : s.world.contains id = true := by
    rw [OrderedMap.contains, ho]
    rfl
  refine ⟨fun o' ho' => ?_, fun target hget => ?_, fun _ _ => hthere,
    fun key k hk hobject => ⟨hthere, (h.keys key k hk hobject).2⟩⟩
  · rw [ho] at ho'
    rw [Option.some.inj ho']
  · rw [Stage.Carries, ho]
    exact h.targets target List.not_mem_nil hget

theorem Traced.calm {id : ObjectId} {scene : String} {s s' : Session} (h : s.Traced id scene)
    (hcalm : s.Calm s') : s'.Traced id scene := by
  have hcontains : s'.world.contains id = s.world.contains id := by
    rw [← World.contains_awake, hcalm.awake, World.contains_awake]
  refine ⟨fun o ho => ?_, fun target hget => ?_, fun key hmem => ?_, fun key k hk hobject => ?_⟩
  · have hscene := World.bind_get?_of_awake hcalm.awake (f := fun o => some o.scene)
      (fun _ => rfl) id
    rw [ho] at hscene
    rcases Option.bind_eq_some_iff.1 hscene.symm with ⟨o', ho', heq⟩
    rw [← Option.some.inj heq]
    exact h.inScene o' ho'
  · rw [hcalm.targets] at hget
    exact hcalm.carries_iff.2 (h.targets target hget)
  · rw [hcalm.layers] at hmem
    rw [hcontains]
    exact h.groups key hmem
  · rw [hcalm.bindings] at hk
    rw [hcontains]
    exact h.keys key k hk hobject

theorem Traced.drops {id : ObjectId} {scene : String} {s s' : Session} (h : s.Traced id scene)
    {gone : List (ObjectId × SceneObject)} (hdrops : s.Drops s' gone) : s'.Traced id scene := by
  -- An object that was there stays unless it is among those that are gone.
  have hstays : ∀ {o}, (id, o) ∈ s.world.entries → (id, o) ∉ gone →
      s'.world.contains id = true := fun ho hstay =>
    OrderedMap.contains_iff.2 (OrderedMap.mem_keys_of_mem (hdrops.mem_entries.2 ⟨ho, hstay⟩))
  have hthere : s.world.contains id = true → ∃ o, (id, o) ∈ s.world.entries := by
    intro hid
    rcases Option.isSome_iff_exists.1 hid with ⟨o, ho⟩
    exact ⟨o, OrderedMap.get?_eq_some_iff.1 ho⟩
  refine ⟨fun o ho => ?_, fun target hget => ?_, fun key hmem => ?_, fun key k hk hobject => ?_⟩
  · exact h.inScene o (hdrops.get?_of_get? ho)
  · rw [hdrops.targets, Targets.get?_releaseAll] at hget
    rcases (h.targets target hget.1).exists_entry with ⟨o, ho, htarget⟩
    refine Stage.carries_iff.2 ⟨o, hdrops.mem_entries.2 ⟨ho, fun hgone => ?_⟩, htarget⟩
    exact hget.2 _ hgone ⟨rfl, Stage.targetId_of_carriedId? htarget⟩
  · rw [hdrops.layers, Layers.groupsOf_leaveAll, List.mem_filter, decide_eq_true_eq] at hmem
    rcases hthere (h.groups key hmem.1) with ⟨o, ho⟩
    exact hstays ho fun hgone => hmem.2 (List.mem_map.2 ⟨(id, o), hgone, rfl⟩)
  · -- A binding goes with its object, since the scene that is noted is right.
    rcases hdrops.bindings with ⟨keep, hkeys, hkeep⟩
    rw [hkeys, List.mem_filter] at hk
    rcases h.keys key k hk.1 hobject with ⟨hid, hscene⟩
    rcases hthere hid with ⟨o, ho⟩
    have hnoted : k.scene = o.scene :=
      hscene.trans (h.inScene o (OrderedMap.get?_eq_some_iff.2 ho)).symm
    rw [← hobject] at ho hstays ⊢
    exact ⟨hstays ho ((hkeep k o ho hnoted).1 hk.2), hscene⟩

end Session

/-! ### Bakes -/

namespace Stage

theorem TruthfulOf.tag {id : ObjectId} {s : Stage} (h : s.TruthfulOf id) (id' : ObjectId) :
    (s.tag id').2.TruthfulOf id := by
  rcases tag_cases id' s with ⟨-, htag⟩ | ⟨target, hcarries, htag⟩ | ⟨hthere, hnone, htag⟩
  · rw [htag]
    exact h
  · rw [htag]
    exact h.register hcarries
  · rw [htag]
    refine TruthfulOf.register (fun target hget => ?_) (carries_mint_self hthere)
    exact carries_mint_of_carries hnone (h target hget)

theorem coversBakes_truthfulOf (id : ObjectId) (graph : GraphRef) :
    CoversBakes graph fun s s' => s.TruthfulOf id → s'.TruthfulOf id where
  refl _ h := h
  trans h h' hs := h' (h hs)
  tag id' _ h := h.tag id'
  bindClick id' node s h := fun target hget =>
    (s.carries_bindClick graph id' node id target).2 (h target hget)

end Stage

namespace Session

theorem Traced.bake {id : ObjectId} {scene : String} {s : Session} (h : s.Traced id scene)
    (graph : GraphRef) : (s.bake graph).2.Traced id scene := by
  have hkeeps := (s.tags_bake graph).keeps
  have hcontains : (s.bake graph).2.world.contains id = s.world.contains id := hkeeps.contains id
  refine ⟨fun o ho => ?_, ?_, fun key hmem => ?_, fun key k hk hobject => ?_⟩
  · have hsame := World.get?_untagged (s.bake graph).2.world id
    have huntagged : (s.bake graph).2.world.untagged = s.world.untagged := hkeeps.untagged
    rw [huntagged, World.get?_untagged, ho] at hsame
    rcases Option.map_eq_some_iff.1 hsame with ⟨o', ho', heq⟩
    have hscene : o'.untagged.scene = o.untagged.scene := by rw [heq]
    exact hscene.symm.trans (h.inScene o' ho')
  · exact (Stage.coversBakes_truthfulOf id graph).compileAll _ s.toStage h.targets
  · rw [hcontains]
    exact h.groups key hmem
  · rw [hcontains]
    exact h.keys key k hk hobject

theorem Traced.enlists {id : ObjectId} {scene : String} {s s' : Session} (h : s.Traced id scene)
    {new listed : List (ObjectId × SceneObject)} (henlists : s.Enlists s' new listed)
    (hold : id ∉ new.map Prod.fst) : s'.Traced id scene := by
  have hget := henlists.get?_of_notMem hold
  have hcontains : s'.world.contains id = s.world.contains id := by
    rw [OrderedMap.contains, OrderedMap.contains, hget]
  have hlisted : ∀ {o}, (id, o) ∈ listed → s'.world.contains id = true := by
    intro o ho
    rw [OrderedMap.contains, henlists.get?_of_mem ho]
    rfl
  refine ⟨fun o ho => ?_, fun target htarget => ?_, fun key hmem => ?_, fun key k hk hobject => ?_⟩
  · rw [hget] at ho
    exact h.inScene o ho
  · rw [henlists.targets] at htarget
    rcases Targets.of_get?_assignAll htarget with hbefore | ⟨o, ho, hcarries⟩
    · have hcarries := h.targets target hbefore
      rw [Stage.Carries, ← hget] at hcarries
      exact hcarries
    · rw [Stage.Carries, henlists.get?_of_mem ho]
      exact hcarries
  · rw [henlists.layers, Layers.mem_groupsOf_joinAll] at hmem
    rcases hmem with hbefore | ⟨o, ho, -⟩
    · rw [hcontains]
      exact h.groups key hbefore
    · exact hlisted ho
  · rw [henlists.bindings] at hk
    rcases Bindings.of_mem_ofKey_bindTriggers hk with hbefore | ⟨hmem, o, ho, hscene, -⟩
    · rw [hcontains]
      exact h.keys key k hbefore hobject
    · -- The scene that is noted is the object's.
      rw [hobject] at hmem ho
      rcases List.mem_map.1 hmem with ⟨⟨id', o'⟩, ho', rfl⟩
      rw [hget] at ho
      exact ⟨hlisted ho', hscene.trans (h.inScene o ho)⟩

theorem coversRuns_traced (id : ObjectId) (scene : String) :
    CoversRuns fun s s' => s.Traced id scene → s'.Traced id scene where
  trans h h' hs := h' (h hs)
  calm hcalm hs := hs.calm hcalm
  despawn id' s hs := hs.drops (s.despawn_drops id')

/-- Registrations go on being traced until the id is spawned again. -/
theorem Traced.happen {id : ObjectId} {scene : String} {s : Session} (h : s.Traced id scene)
    {e : Event} (hold : id ∉ e.spawned) : (s.happen e).Traced id scene := by
  cases change_happen e s with
  | enlists henlists =>
      rw [Event.spawned_eq] at hold
      exact h.enlists henlists hold
  | goes hdrops => exact h.drops hdrops
  | bakes graph _ hbake =>
      rw [hbake]
      exact h.bake graph
  | forgets _ hshutdown =>
      -- Nothing is registered any more.
      rw [hshutdown]
      refine ⟨h.inScene, fun target hget => ?_, fun key hmem => ?_, fun key k hk => ?_⟩
      · exact absurd hget (by simp [shutdown])
      · exact absurd hmem List.not_mem_nil
      · exact absurd hk List.not_mem_nil
  | runs hruns => exact hruns _ (coversRuns_traced id scene) h

theorem Traced.after {id : ObjectId} {scene : String} {s : Session} (h : s.Traced id scene)
    {later : List Event} (hold : ∀ e ∈ later, id ∉ e.spawned) :
    (s.after later).Traced id scene := by
  induction later generalizing s with
  | nil => exact h
  | cons e later ih =>
      rw [List.forall_mem_cons] at hold
      exact ih (h.happen hold.1) hold.2

/-! ### Going -/

theorem contains_despawn_self (id : ObjectId) (s : Session) :
    (s.despawn id).2.world.contains id = false := by
  rw [Bool.eq_false_iff, ne_eq, OrderedMap.contains_iff, OrderedMap.keys, List.mem_map]
  rintro ⟨⟨id', o⟩, ho, rfl⟩
  rcases (s.despawn_drops id').mem_entries.1 ho with ⟨hthere, hstays⟩
  have hself : id' ∈ s.world.subtree id' := by
    rw [World.subtree, walk]
    exact List.mem_cons_self
  refine hstays (World.mem_despawn.2 ⟨?_, hself, hthere⟩)
  exact OrderedMap.contains_iff.2 (OrderedMap.mem_keys_of_mem hthere)

/-- Nothing is left of an object that is removed. -/
theorem Traced.noTrace_despawn {id : ObjectId} {scene : String} {s : Session}
    (h : s.Traced id scene) : (s.despawn id).2.NoTrace id :=
  (h.drops (s.despawn_drops id)).noTrace (contains_despawn_self id s)

/-- Nothing is left of an object whose scene is unloaded. -/
theorem Traced.noTrace_unloadScene {id : ObjectId} {scene : String} {s : Session}
    (h : s.Traced id scene) : (s.unloadScene scene).2.NoTrace id := by
  have hdrops := s.unloadScene_drops scene
  refine (h.drops hdrops).noTrace ?_
  rw [Bool.eq_false_iff, ne_eq, OrderedMap.contains_iff, OrderedMap.keys, List.mem_map]
  rintro ⟨⟨id', o⟩, ho, rfl⟩
  rcases hdrops.mem_entries.1 ho with ⟨hthere, hstays⟩
  refine hstays (List.mem_filter.2 ⟨hthere, ?_⟩)
  exact decide_eq_true (h.inScene o (OrderedMap.get?_eq_some_iff.2 hthere))

/-! ### Together -/

/-- When an object that is spawned under an id replaces all that was registered about the
    id. What it asks for is registered in any case. Nothing else is registered exactly if
    nothing else was before; if it comes with its scene, apart from the target ids that
    other objects of the scene take over. And if nothing else is registered, then nothing
    is left, at any later time before the id is spawned again, when the object is
    removed or its scene is unloaded. -/
theorem respawn_replaces_iff (s : Session) (id : ObjectId) (o : SceneObject) :
    (((s.spawn id o).OnlyAsked [] id o ↔ s.OnlyAsked [] id o) ∧
      (s.spawn id o).AllAsked [] id o) ∧
    (∀ objects, let loaded := (s.loadScene o.scene objects).2
      let taken := takenFrom id (loaded.world.inScene o.scene)
      loaded.world.get? id = some o →
        (loaded.OnlyAsked [] id o ↔ s.OnlyAsked taken id o) ∧ loaded.AllAsked taken id o) ∧
    ∀ now : Session, now.world.get? id = some o → now.OnlyAsked [] id o →
      ∀ later, (∀ e ∈ later, id ∉ e.spawned) →
        ((now.after later).despawn id).2.NoTrace id ∧
          ((now.after later).unloadScene o.scene).2.NoTrace id := by
  refine ⟨?_, ?_, ?_⟩
  · have henlists := spawn_enlists id o s
    have hself : (id, o) ∈ [(id, o)] := List.mem_singleton_self _
    have htaken : takenFrom id [(id, o)] = [] := by simp [takenFrom]
    have honly := henlists.onlyAsked_iff hself
    have hall := henlists.allAsked hself
    rw [htaken] at honly hall
    exact ⟨honly, hall⟩
  · intro objects loaded taken hget
    have henlists := loadScene_enlists o.scene objects s
    have hself : (id, o) ∈ loaded.world.inScene o.scene :=
      List.mem_filter.2 ⟨OrderedMap.get?_eq_some_iff.1 hget, decide_eq_true rfl⟩
    exact ⟨henlists.onlyAsked_iff hself, henlists.allAsked hself⟩
  · -- From here on the world tells what is registered.
    intro now hget honly later hold
    have htraced := (honly.traced hget).after hold
    exact ⟨htraced.noTrace_despawn, htraced.noTrace_unloadScene⟩

/-- A menu that carries a target id, is a group of a layer and has a key. -/
def menuObject : SceneObject :=
  { name := "Menu", scene := "Main", targetId := some "menu", layerGroup := some "HUD"
    keyTrigger := some ⟨⟨0⟩, ⟨"open"⟩⟩ }

/-- A session without objects, and a graph whose trigger names a key. -/
def keySession : Session :=
  (start {} .minted true).after
    [.author
      { graphs := [{ name := "keys", nodes := [.ofKind ⟨"open"⟩ (.key (some .escape))] }] }]

/-- Nothing is left of a menu that is spawned under a new id, once its scene is unloaded. -/
theorem menu_leaves_no_trace :
    let s := keySession.spawn ⟨1⟩ menuObject
    s.OnlyAsked [] ⟨1⟩ menuObject ∧ s.bindings.Binds .escape ⟨1⟩ ∧
      (s.unloadScene "Main").2.NoTrace ⟨1⟩ := by
  intro s
  -- Nothing at all is registered before.
  have hnothing : keySession.OnlyAsked [] ⟨1⟩ menuObject := by
    refine ⟨fun target _ hget => absurd hget (by simp [keySession, happen, start]),
      fun key hmem => absurd hmem List.not_mem_nil, fun key k hk => ?_⟩
    rw [show keySession.bindings.ofKey key = [] from ofKey_start {} .minted true key] at hk
    exact absurd hk List.not_mem_nil
  rcases respawn_replaces_iff keySession ⟨1⟩ menuObject with ⟨⟨honly, hall⟩, -, hlater⟩
  have hnow : s.OnlyAsked [] ⟨1⟩ menuObject := honly.2 hnothing
  refine ⟨hnow, hall.keys .escape (by decide +kernel), ?_⟩
  exact (hlater s rfl hnow [] (by simp)).2

/-- The map that is spawned in place of the menu, in another scene and without a key. -/
def mapObject : SceneObject :=
  { name := "Map", scene := "World", targetId := some "map", layerGroup := some "Maps" }

/-- A respawn does not replace what was registered. The map still has the target id, the
    layer and the key of the menu; and after the map's scene was unloaded, the target id
    and the key are still there. -/
theorem respawn_leaves_registrations :
    (keySession.spawn ⟨1⟩ menuObject).world.contains ⟨1⟩ = true ∧
      (let s := (keySession.spawn ⟨1⟩ menuObject).spawn ⟨1⟩ mapObject
       s.targets.resolve? "menu" = some ⟨1⟩ ∧ s.layers.members "HUD" = [⟨1⟩] ∧
        s.bindings.Binds .escape ⟨1⟩ ∧ ¬s.OnlyAsked [] ⟨1⟩ mapObject ∧
        (s.unloadScene "World").2.world.contains ⟨1⟩ = false ∧
        (s.unloadScene "World").2.targets.resolve? "menu" = some ⟨1⟩ ∧
        (s.unloadScene "World").2.bindings.Binds .escape ⟨1⟩) := by
  have hmenu : ((keySession.spawn ⟨1⟩ menuObject).spawn ⟨1⟩ mapObject).targets.get? "menu" =
      some ⟨1⟩ := by
    decide +kernel
  refine ⟨by decide +kernel, by decide +kernel, by decide +kernel, by decide +kernel,
    fun honly => ?_, by decide +kernel, by decide +kernel, by decide +kernel⟩
  exact absurd (honly.targets "menu" List.not_mem_nil hmenu) (by decide +kernel)

end Session

end BehaviorGraph
