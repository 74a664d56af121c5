import BehaviorGraph.Proofs.SceneChanges
import BehaviorGraph.Proofs.TagRecord
import Mathlib.Data.List.Infix
/-!
# Registrations Stay in Step

What is registered about objects is what the objects say of themselves.

A session keeps three registries beside its world. Target ids stand for the objects
that carry them, layers have the objects as groups that name them, and keys are bound to
objects that have key triggers. `Registered` says that all three are in step with the
world: nothing is registered that should not be, and, except for keys, nothing is
missing. Keys cannot be complete, because they are read from graphs that may be edited
or loaded after the object was bound.

Each of the ways in which a session can change keeps this, and so does a whole
history. Registering has one condition, that no two objects carry one target id once the
event is over; and forgetting everything is left out, since the objects stay.

## Main definitions

* `World.lasting`: What neither baking nor switching changes.
* `Bindings.Fits`: Keys are bound to objects of the world that have key triggers.
* `Session.Registered`: The registries are in step with the world.
* `Session.isGroupOf`: An object of the world names a layer.

## Theorems

* `Session.Registered.calm`, `Session.Registered.drops`, `Session.Registered.bake`,
  `Session.Registered.admits`: Each kind of change keeps the registries in step.
* `Session.Registered.happen`: And so does an event.
* `Session.registrations_in_step`: The registries are in step with the world after
  every history.
-/

namespace BehaviorGraph

open Stage (carriedId?)

/-! ### What lasts -/

/-- The object without active flag, target id and click trigger. -/
def SceneObject.lasting (o : SceneObject) : SceneObject :=
  { o with active := true, targetId := none, clickTrigger := none }

namespace World

/-- The world without active flags, target ids and click triggers. -/
def lasting (w : World) : World :=
  w.mapValues fun _ o => o.lasting

theorem get?_lasting (w : World) (id : ObjectId) :
    w.lasting.get? id = (w.get? id).map SceneObject.lasting :=
  OrderedMap.get?_mapValues _ w id

theorem lasting_untagged (w : World) : w.untagged.lasting = w.lasting := by
  ext1
  simp [lasting, untagged, OrderedMap.mapValues, SceneObject.untagged, SceneObject.lasting]

theorem lasting_awake (w : World) : w.awake.lasting = w.lasting := by
  ext1
  simp [lasting, awake, OrderedMap.mapValues, SceneObject.lasting]

theorem lasting_of_untagged {w w' : World} (h : w'.untagged = w.untagged) :
    w'.lasting = w.lasting := by
  rw [← lasting_untagged, h, lasting_untagged]

theorem lasting_of_awake {w w' : World} (h : w'.awake = w.awake) : w'.lasting = w.lasting := by
  rw [← lasting_awake, h, lasting_awake]

/-- An object that is there has the same scene and components, but for tags, as long as
    what lasts is the same. -/
theorem exists_entry_of_lasting {w w' : World} (h : w'.lasting = w.lasting) {id : ObjectId}
    {o : SceneObject} (ho : (id, o) ∈ w.entries) :
    ∃ o', (id, o') ∈ w'.entries ∧ o'.lasting = o.lasting := by
  have hget : w'.lasting.get? id = some o.lasting := by
    rw [h, get?_lasting, OrderedMap.get?_eq_some_iff.2 ho]
    rfl
  rw [get?_lasting, Option.map_eq_some_iff] at hget
  rcases hget with ⟨o', ho', heq⟩
  exact ⟨o', OrderedMap.get?_eq_some_iff.1 ho', heq⟩

end World

namespace Layers

theorem grouped_lasting (l : Layers) (key : String) (w : World) :
    l.grouped key w.lasting.entries = l.grouped key w.entries := by
  simp only [grouped, World.lasting, OrderedMap.mapValues, List.filter_map, List.map_map]
  rfl

theorem grouped_of_lasting {w w' : World} (h : w'.lasting = w.lasting) (l : Layers)
    (key : String) : l.grouped key w'.entries = l.grouped key w.entries := by
  rw [← grouped_lasting, h, grouped_lasting]

end Layers

/-! ### Keys -/

namespace Bindings

/-- Keys are bound to objects of the world that have key triggers, to each once, and
    the scene that is noted is theirs. -/
structure Fits (w : World) (b : Bindings) : Prop where
  /-- Whatever is bound is there. -/
  bound : ∀ key, ∀ k ∈ b.ofKey key, ∃ o,
    (k.object, o) ∈ w.entries ∧ o.keyTrigger.isSome = true ∧ k.scene = o.scene
  /-- No object is bound to a key twice. -/
  once : ∀ key, ((b.ofKey key).map (·.object)).Nodup

theorem Fits.of_lasting {w w' : World} {b : Bindings} (h : b.Fits w)
    (hworld : w'.lasting = w.lasting) : b.Fits w' := by
  refine ⟨fun key k hk => ?_, h.once⟩
  rcases h.bound key k hk with ⟨o, ho, htrigger, hscene⟩
  rcases World.exists_entry_of_lasting hworld ho with ⟨o', ho', hsame⟩
  have htrigger' : o'.lasting.keyTrigger = o.lasting.keyTrigger := by rw [hsame]
  have hscene' : o'.lasting.scene = o.lasting.scene := by rw [hsame]
  refine ⟨o', ho', ?_, hscene.trans hscene'.symm⟩
  rw [← htrigger]
  exact congrArg Option.isSome htrigger'

theorem Fits.mono {w w' : World} {b : Bindings} (h : b.Fits w) (hworld : w.entries ⊆ w'.entries) :
    b.Fits w' := by
  refine ⟨fun key k hk => ?_, h.once⟩
  rcases h.bound key k hk with ⟨o, ho, hrest⟩
  exact ⟨o, hworld ho, hrest⟩

theorem Fits.bind {w : World} {b : Bindings} (h : b.Fits w) {id : ObjectId} {o : SceneObject}
    (ho : (id, o) ∈ w.entries) (htrigger : o.keyTrigger.isSome = true) (key : Key) :
    (b.bind key ⟨id, o.scene⟩).Fits w := by
  refine ⟨fun key' k hk => ?_, nodup_ofKey_bind h.once key _⟩
  rw [ofKey_bind] at hk
  split at hk
  · rcases List.mem_append.1 hk with hold | hnew
    · exact h.bound key k hold
    · rw [List.mem_singleton.1 hnew]
      exact ⟨o, ho, htrigger, rfl⟩
  · exact h.bound key' k hk

theorem Fits.bindTriggers {w : World} {b : Bindings} (h : b.Fits w) (graphs : Library)
    (ids : List ObjectId) : (b.bindTriggers graphs w ids).2.Fits w := by
  refine bindTriggers_induction (P := Fits w) h fun b' id o key _ hget hkey hb => ?_
  -- Only a trigger names a key.
  rcases Option.bind_eq_some_iff.1 hkey with ⟨trigger, htrigger, -⟩
  exact hb.bind (OrderedMap.get?_eq_some_iff.1 hget) (by rw [htrigger]; rfl) key

end Bindings

/-! ### The invariant -/

namespace Session

/-- The registries are in step with the world. -/
structure Registered (s : Session) : Prop where
  /-- Target ids stand for objects that carry them. -/
  truthful : s.toStage.Truthful
  /-- All target ids that are carried stand for their carriers. -/
  complete : s.toStage.Complete
  /-- Layers have the groups that name them, in their order. -/
  groups : ∀ key, s.layers.groupsOf key = s.layers.grouped key s.world.entries
  /-- Keys are bound to objects that have key triggers. -/
  keys : s.bindings.Fits s.world

/-- The keys of objects that go are unbound, and the others stay. -/
theorem Drops.fits {s s' : Session} {gone : List (ObjectId × SceneObject)} (h : s.Drops s' gone)
    (hs : s.bindings.Fits s.world) : s'.bindings.Fits s'.world := by
  rcases h.bindings with ⟨keep, hkeys, hkeep⟩
  refine ⟨fun key k hk => ?_, fun key => ?_⟩
  · rw [hkeys, List.mem_filter] at hk
    rcases hs.bound key k hk.1 with ⟨o, ho, htrigger, hscene⟩
    exact ⟨o, h.mem_entries.2 ⟨ho, (hkeep k o ho hscene).1 hk.2⟩, htrigger, hscene⟩
  · rw [hkeys]
    exact (hs.once key).sublist (List.filter_sublist.map _)

theorem Admits.fits {s s' : Session} {new listed : List (ObjectId × SceneObject)}
    (h : s.Admits s' new listed) (hs : s.bindings.Fits s.world) : s'.bindings.Fits s'.world := by
  rw [h.bindings]
  refine Bindings.Fits.bindTriggers (hs.mono fun e he => ?_) s.library _
  exact h.mem_entries.2 (Or.inl he)

theorem Registered.calm {s s' : Session} (h : s.Registered) (hcalm : s.Calm s') :
    s'.Registered := by
  have hlasting := World.lasting_of_awake hcalm.awake
  refine ⟨hcalm.truthful h.truthful, ?_, ?_, ?_⟩
  · intro id target hlater
    refine ⟨hlater, ?_⟩
    rw [hcalm.targets]
    exact (h.complete id target (hcalm.carries_iff.1 hlater)).stands
  · intro key
    rw [hcalm.layers, h.groups, Layers.grouped_of_lasting hlasting]
  · rw [hcalm.bindings]
    exact h.keys.of_lasting hlasting

theorem Registered.drops {s s' : Session} (h : s.Registered)
    {gone : List (ObjectId × SceneObject)} (hdrops : s.Drops s' gone) : s'.Registered := by
  refine ⟨hdrops.truthful h.truthful, ?_, ?_, ?_⟩
  · intro id target hlater
    rcases hlater.exists_entry with ⟨o, ho, htarget⟩
    have hearlier := Stage.carries_iff.2 ⟨o, (hdrops.mem_entries.1 ho).1, htarget⟩
    exact hdrops.holds hlater (h.complete id target hearlier).stands
  · intro key
    have hdeclared : s'.layers.declared = s.layers.declared := by
      rw [hdrops.layers]
      exact Layers.declared_leaveAll _ _
    rw [Layers.grouped_congr hdeclared, hdrops.layers, Layers.groupsOf_leaveAll, h.groups,
      hdrops.entries, Layers.grouped, Layers.grouped, List.filter_map, List.filter_filter,
      List.filter_filter]
    congr 1
    apply List.filter_congr
    intro e he
    have hsame := OrderedMap.key_mem_iff hdrops.gone_subset he
    simp only [Function.comp_apply, hsame, Bool.and_comm]
  · exact hdrops.fits h.keys

theorem Registered.bake {s : Session} (h : s.Registered) {graph : GraphRef}
    (hunshared : (s.bake graph).2.toStage.Unshared) : (s.bake graph).2.Registered := by
  have htags := s.tags_bake graph
  have hlasting := World.lasting_of_untagged htags.keeps.untagged
  refine ⟨htags.truthful h.truthful, htags.complete hunshared h.complete, ?_, ?_⟩
  · intro key
    have hgroups := h.groups key
    rw [← Layers.grouped_of_lasting hlasting] at hgroups
    exact hgroups
  · exact h.keys.of_lasting hlasting

theorem Registered.admits {s s' : Session} (h : s.Registered)
    {new there : List (ObjectId × SceneObject)} (hadmits : s.Admits s' new (there ++ new))
    (hthere : there ⊆ s.world.entries) (hunshared : s'.toStage.Unshared) : s'.Registered := by
  refine ⟨hadmits.truthful h.truthful, ?_, ?_, ?_⟩
  · intro id target hcarries
    refine hadmits.holds hunshared hcarries ?_
    rcases hcarries.exists_entry with ⟨o, ho, htarget⟩
    rcases hadmits.mem_entries.1 ho with hold | hnew
    · exact Or.inl (h.complete id target (Stage.carries_iff.2 ⟨o, hold, htarget⟩)).stands
    · exact Or.inr ⟨o, List.mem_append_right there hnew, htarget⟩
  · intro key
    have hdeclared : s'.layers.declared = s.layers.declared := by
      rw [hadmits.layers]
      exact Layers.declared_joinAll _ _
    -- The groups that are there are seen, and the new ones are not.
    have hseen : s.layers.grouped key there ⊆ s.layers.groupsOf key := by
      rw [h.groups]
      exact List.map_subset _ (List.filter_subset _ hthere)
    have hnew : (s.layers.groupsOf key ++ s.layers.grouped key new).Nodup := by
      rw [h.groups, ← Layers.grouped_append, ← hadmits.entries]
      exact s'.world.nodup.sublist (List.filter_sublist.map _)
    rw [Layers.grouped_congr hdeclared, hadmits.layers, Layers.groupsOf_joinAll,
      Layers.grouped_append, unseen_append, unseen_eq_nil hseen, List.nil_append,
      List.nil_append, unseen_eq_self hnew, h.groups, hadmits.entries, Layers.grouped_append]
  · exact hadmits.fits h.keys

/-- Whatever the runs do, the registries stay in step. -/
theorem coversRuns_registered : CoversRuns fun s s' => s.Registered → s'.Registered where
  trans h h' hs := h' (h hs)
  calm hcalm hs := hs.calm hcalm
  despawn id s hs := hs.drops (s.despawn_drops id)

/-- An event keeps the registries in step. -/
theorem Registered.happen {s : Session} (h : s.Registered) {e : Event}
    (hfresh : (s.world.keys ++ e.spawned).Nodup) (hrunning : e ≠ .shutdown)
    (hscene : e.staysInScene = true) (hunshared : (s.happen e).toStage.Unshared) :
    (s.happen e).Registered := by
  cases outcome_happen hfresh with
  | comes hadmits _ hthere hown =>
      rw [hown hscene] at hadmits
      exact h.admits hadmits hthere hunshared
  | goes hdrops => exact h.drops hdrops
  | bakes graph hbake =>
      rw [hbake] at hunshared ⊢
      exact h.bake hunshared
  | forgets hshutdown => exact absurd hshutdown hrunning
  | runs hruns => exact hruns _ coversRuns_registered h

/-! ### Histories -/

theorem registered_start (config : Settings) (supply : Nat → ObjectId) (scheduled : Bool) :
    (start config supply scheduled).Registered := by
  refine ⟨truthful_start config supply scheduled, ?_, fun _ => rfl, ?_, ?_⟩
  · intro id target hcarries
    rcases hcarries.exists_entry with ⟨o, ho, -⟩
    exact absurd ho List.not_mem_nil
  · intro key k hk
    rw [ofKey_start] at hk
    exact absurd hk List.not_mem_nil
  · intro key
    rw [ofKey_start]
    exact List.nodup_nil

/-- A part of a list without repetitions is what its members pick from the list. -/
theorem filter_eq_filter_of_sublist {α : Type} [DecidableEq α] {xs ys : List α} {keep : α → Bool}
    (h : xs.Sublist ys) (hnodup : ys.Nodup) (hkeep : ∀ y ∈ ys, keep y = true → y ∈ xs) :
    ys.filter keep = xs.filter keep := by
  induction h with
  | slnil => rfl
  | @cons xs ys y h ih =>
      rw [List.nodup_cons] at hnodup
      have hy : ¬keep y = true := fun hy =>
        hnodup.1 (h.subset (hkeep y List.mem_cons_self hy))
      rw [List.filter_cons_of_neg hy]
      exact ih hnodup.2 fun z hz => hkeep z (List.mem_cons_of_mem y hz)
  | @cons_cons xs ys y h ih =>
      rw [List.nodup_cons] at hnodup
      have hrest := ih hnodup.2 fun z hz hkept => by
        have hne : z ≠ y := by
          rintro rfl
          exact hnodup.1 hz
        exact (List.mem_cons.1 (hkeep z (List.mem_cons_of_mem y hz) hkept)).resolve_left hne
      rw [List.filter_cons, List.filter_cons, hrest]

/-- The object exists, and the layer it names is the one that the name means. -/
def isGroupOf (s : Session) (name : String) (id : ObjectId) : Bool :=
  match s.layers.parse? name with
  | none => false
  | some key => ((s.world.get? id).bind SceneObject.layerGroup).bind s.layers.parse? = some key

/-- The groups of a layer are told by asking every object that may be there. -/
theorem Registered.members_eq {s : Session} (h : s.Registered) {ids : List ObjectId}
    (hkeys : s.world.keys.Sublist ids) (hnodup : ids.Nodup) (name : String) :
    s.layers.members name = ids.filter (s.isGroupOf name) := by
  rw [Layers.members_eq]
  unfold isGroupOf
  rcases s.layers.parse? name with _ | key
  · simp
  · simp only [Option.elim_some]
    rw [h.groups, Layers.grouped, filter_eq_filter_of_sublist hkeys hnodup, OrderedMap.keys,
      List.filter_map]
    · congr 1
      apply List.filter_congr
      intro e he
      simp [OrderedMap.get?_eq_some_iff.2 he]
    · intro id _ hkept
      rw [← OrderedMap.contains_iff, OrderedMap.contains]
      rcases hget : s.world.get? id with _ | o
      · simp [hget] at hkept
      · rfl

/-- A history keeps the registries in step. -/
theorem Registered.after {s : Session} (h : s.Registered) (hempty : s.world.keys = [])
    {events : List Event} (hfresh : (events.flatMap Event.spawned).Nodup)
    (hrunning : Event.shutdown ∉ events) (hscenes : ∀ e ∈ events, e.staysInScene = true)
    (hunshared : ∀ past, past <+: events → (s.after past).toStage.Unshared) :
    (s.after events).Registered := by
  induction events using List.reverseRecOn with
  | nil => exact h
  | append_singleton events e ih =>
      have hnew := fresh_after hempty hfresh
      have hlast : e ∈ events ++ [e] := List.mem_append_right events (List.mem_singleton_self e)
      have hnow := hunshared _ (List.prefix_refl _)
      rw [List.flatMap_append] at hfresh
      rw [after_concat] at hnow ⊢
      refine Registered.happen (ih hfresh.of_append_left ?_ ?_ ?_) hnew ?_ (hscenes e hlast) hnow
      · exact fun hmem => hrunning (List.mem_append_left [e] hmem)
      · exact fun e' he' => hscenes e' (List.mem_append_left [e] he')
      · exact fun past hpast => hunshared past (hpast.trans (List.prefix_append events [e]))
      · rintro rfl
        exact hrunning hlast

/-- Registrations stay in step with the scene, whatever happens to it. After every
    history without a shutdown, in which the ids of spawned objects are new, scenes are
    loaded with objects of their own, and no two objects carry one target id at any
    time: target ids stand for the objects that carry them and for no others; the groups of
    a layer are the objects that are there and name it, in the order they were spawned;
    and keys are bound to objects that are there and have key triggers, with their scenes
    noted, and each object once. -/
theorem registrations_in_step (config : Settings) (supply : Nat → ObjectId) (scheduled : Bool)
    {events : List Event} (hfresh : (events.flatMap Event.spawned).Nodup)
    (hrunning : Event.shutdown ∉ events) (hscenes : ∀ e ∈ events, e.staysInScene = true)
    (hunshared : ∀ past, past <+: events →
      ((start config supply scheduled).after past).toStage.Unshared) :
    let s := (start config supply scheduled).after events
    (∀ target id, s.targets.get? target = some id ↔ s.Carries id target) ∧
      (∀ name, s.layers.members name =
        (events.flatMap Event.spawned).filter (s.isGroupOf name)) ∧
      (∀ key, ∀ k ∈ s.bindings.ofKey key, ∃ o, s.world.get? k.object = some o ∧
        o.keyTrigger.isSome = true ∧ k.scene = o.scene) ∧
      ∀ key, ((s.bindings.ofKey key).map (·.object)).Nodup := by
  intro s
  have hempty : (start config supply scheduled).world.keys = [] := rfl
  have hstep : s.Registered :=
    (registered_start config supply scheduled).after hempty hfresh hrunning hscenes hunshared
  refine ⟨?_, ?_, ?_, hstep.keys.once⟩
  · exact fun target id => ⟨hstep.truthful target id, fun h => (hstep.complete id target h).stands⟩
  · exact hstep.members_eq (keys_after_sublist hempty hfresh) hfresh
  · intro key k hk
    rcases hstep.keys.bound key k hk with ⟨o, ho, hrest⟩
    exact ⟨o, OrderedMap.get?_eq_some_iff.2 ho, hrest⟩

/-- A menu with a window in one scene, and a map with a marker in another. The key
    opens the menu; running the graph tags the window and the marker and closes the window,
    and then the second scene is unloaded. -/
def menuAndMap : List Event :=
  [.author
      { graphs :=
          [{ name := "menu"
             nodes :=
               [.ofKind ⟨"open"⟩ (.key (some .escape)),
                .ofKind ⟨"mark"⟩ (.objects .over [some ⟨2⟩, some ⟨4⟩]),
                .ofKind ⟨"close"⟩ (.call (some ⟨1⟩) "" "close")] }] },
    .spawn ⟨1⟩
      { name := "Menu", scene := "Main", targetId := some "menu", layerGroup := some "HUD"
        keyTrigger := some ⟨⟨0⟩, ⟨"open"⟩⟩
        actions := ⟨.ofList [(("Menu", "close"), [.despawn ⟨2⟩])]⟩ },
    .spawn ⟨2⟩ { name := "Window", scene := "Main", layerGroup := some "hud" },
    .loadScene "World"
      [(⟨3⟩, { name := "Map", scene := "World", targetId := some "map", layerGroup := some " Hud "
               keyTrigger := some ⟨⟨0⟩, ⟨"open"⟩⟩ }),
        (⟨4⟩, { name := "Marker", scene := "World", parent := some ⟨3⟩
                layerGroup := some "hud" })],
    .bake ⟨0⟩, .startFull ⟨0⟩, .turn 0, .turn 0, .turn 0, .sceneLoaded "Main",
    .unloadScene "World", .spawn ⟨5⟩ { name := "Clock", scene := "Main", layerGroup := some "HUD" }]

/-- The session in which menu and map come and go, with one layer declared. -/
def hudSession : Session :=
  start { layers := ["HUD"] } .minted true

theorem registrations_of_menuAndMap :
    (menuAndMap.flatMap Event.spawned).Nodup ∧ Event.shutdown ∉ menuAndMap ∧
      (∀ e ∈ menuAndMap, e.staysInScene = true) ∧
      (∀ past, past <+: menuAndMap →
        (hudSession.after past).toStage.Unshared) ∧
      (hudSession.after menuAndMap).targets.get? "menu" = some ⟨1⟩ ∧
      (hudSession.after menuAndMap).targets.get? "map" ≠ some ⟨3⟩ ∧
      (hudSession.after menuAndMap).layers.members "hud" = [⟨1⟩, ⟨5⟩] ∧
      (((hudSession.after menuAndMap).bindings.ofKey .escape).map (·.object)).Nodup := by
  have hfresh : (menuAndMap.flatMap Event.spawned).Nodup := by decide +kernel
  have hrunning : Event.shutdown ∉ menuAndMap := by simp [menuAndMap]
  have hscenes : ∀ e ∈ menuAndMap, e.staysInScene = true := by decide +kernel
  have hcarried : ∀ past ∈ menuAndMap.inits,
      (hudSession.after past).toStage.carried.Nodup := by
    decide +kernel
  have hunshared : ∀ past, past <+: menuAndMap →
      (hudSession.after past).toStage.Unshared :=
    fun past hpast => Stage.unshared_of_nodup (hcarried past ((List.mem_inits _ _).2 hpast))
  rcases registrations_in_step { layers := ["HUD"] } .minted true hfresh hrunning hscenes
    hunshared with ⟨htargets, hgroups, -, honce⟩
  refine ⟨hfresh, hrunning, hscenes, hunshared, (htargets "menu" ⟨1⟩).2 ?_,
    fun hget => absurd ((htargets "map" ⟨3⟩).1 hget) ?_,
    (hgroups "hud").trans (by decide +kernel), honce .escape⟩
  · unfold Stage.Carries
    decide +kernel
  · unfold Stage.Carries
    decide +kernel

end Session

end BehaviorGraph
