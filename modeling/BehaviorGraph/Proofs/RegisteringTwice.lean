import BehaviorGraph.Proofs.Rebaking
import BehaviorGraph.Proofs.Unloading
/-!
# Registering a Scene Twice

A scene that is registered again right away leaves everything as it is.

There are three registries, and each has its own way with what it holds already. A target id is
written over, so several objects that carry the same one displace each other on the second
pass as they did on the first. It is the last of them that counts both times, and since no target
id is new any more, none changes its place. A layer lets nobody join twice, and a key is not
bound twice to an object, so there the second pass finds nothing to do at all.

What is counted differs just as much. Target ids are counted that are not blank, and triggers that
name a key, whether or not they are registered already. Of layers, only groups that are new are
counted, and on the second pass there are none.

## Theorems

* `Targets.assignAll_again`: Target ids that are written over by themselves.
* `Layers.joinAll_again`: Groups that have joined already.
* `Bindings.bindTriggers_again`: Keys that are bound already.
* `Session.sceneLoaded_again`: All three.
-/

namespace BehaviorGraph

open Stage (carriedId?)

/-! ### Target ids -/

namespace Targets

variable {es : List (ObjectId × SceneObject)} {t : Targets}

/-- How many target ids are accepted does not depend on those that are registered already. -/
theorem count_assignAll (es : List (ObjectId × SceneObject)) (t : Targets) :
    (t.assignAll es).1 = es.countP fun e => (carriedId? e.2).isSome := by
  induction es generalizing t with
  | nil => rfl
  | cons e es ih =>
      have hstep : (t.assignAll (e :: es)).1 =
          ((t.assignFor e.1 e.2).2.assignAll es).1 + (t.assignFor e.1 e.2).1.toNat := rfl
      rw [hstep, ih, assignFor_eq, List.countP_cons]
      cases (carriedId? e.2).isSome <;> rfl

/-- Writing over target ids adds none. -/
theorem keys_assignAll_of_mem
    (h : ∀ e ∈ es, ∀ target, carriedId? e.2 = some target → target ∈ t.keys) :
    (t.assignAll es).2.keys = t.keys := by
  induction es generalizing t with
  | nil => rfl
  | cons e es ih =>
      -- The first object writes over a key, so the others find the same keys.
      have hkeys : (t.assignFor e.1 e.2).2.keys = t.keys := by
        rw [assignFor_eq]
        rcases hown : carriedId? e.2 with _ | own
        · rfl
        · rw [Option.elim_some, OrderedMap.keys_insert, if_pos (h e List.mem_cons_self own hown)]
      rw [assignAll_cons, ih, hkeys]
      intro e' he'
      rw [hkeys]
      exact h e' (List.mem_cons_of_mem e he')

theorem mem_keys_assignAll {e : ObjectId × SceneObject} {target : String} (he : e ∈ es)
    (h : carriedId? e.2 = some target) : target ∈ (t.assignAll es).2.keys := by
  rcases exists_latest? (mem_asked.2 ⟨e.2, he, h⟩) with ⟨id, hid⟩
  have hget : (t.assignAll es).2.get? target = some id := by
    rw [get?_assignAll, hid, Option.some_or]
  exact OrderedMap.mem_keys_of_mem (OrderedMap.get?_eq_some_iff.1 hget)

/-- Registering objects under their target ids again changes none, and accepts as many. -/
theorem assignAll_again (es : List (ObjectId × SceneObject)) (t : Targets) :
    (t.assignAll es).2.assignAll es = t.assignAll es := by
  refine Prod.ext ?_ (OrderedMap.eq_of_get? ?_ fun target => ?_)
  · rw [count_assignAll, count_assignAll]
  · exact keys_assignAll_of_mem fun e he target => mem_keys_assignAll he
  · -- The object that was registered last stands under the target id, once and twice.
    rw [get?_assignAll, get?_assignAll, ← Option.or_assoc, Option.or_self]

end Targets

/-! ### Layers -/

namespace Layers

variable {es : List (ObjectId × SceneObject)} {l : Layers}

/-- An object that is a group of its layer, or names none, does not join. -/
theorem joinFor_of_mem {id : ObjectId} {o : SceneObject}
    (h : ∀ key, o.layerGroup.bind l.parse? = some key → id ∈ l.groupsOf key) :
    l.joinFor id o = (false, l) := by
  unfold joinFor join
  rcases ho : o.layerGroup with _ | name
  · rfl
  rcases hname : l.parse? name with _ | key
  · simp only [hname]
  · have hmem : id ∈ (l.groups.get? key).getD [] := h key (by rw [ho, Option.bind_some, hname])
    simp only [hname, hmem, if_true]

theorem joinAll_of_mem
    (h : ∀ e ∈ es, ∀ key, e.2.layerGroup.bind l.parse? = some key → e.1 ∈ l.groupsOf key) :
    l.joinAll es = (0, l) := by
  induction es with
  | nil => rfl
  | cons e es ih =>
      simp only [joinAll, joinFor_of_mem (h e List.mem_cons_self),
        ih fun e' he' => h e' (List.mem_cons_of_mem e he'), Bool.toNat_false, Nat.add_zero]

/-- Registering objects again, nobody joins a layer. -/
theorem joinAll_again (es : List (ObjectId × SceneObject)) (l : Layers) :
    (l.joinAll es).2.joinAll es = (0, (l.joinAll es).2) := by
  refine joinAll_of_mem fun e he key hkey => ?_
  -- Names mean what they meant on the first pass, on which the object has joined.
  rw [parse?_congr (declared_joinAll es l)] at hkey
  exact mem_groupsOf_joinAll.2 (Or.inr ⟨e.2, he, hkey⟩)

end Layers

/-! ### Keys -/

namespace Bindings

variable {graphs : Library} {w : World} {ids : List ObjectId} {b : Bindings}

theorem bind_of_binds {key : Key} {k : KeyBinding} (h : b.Binds key k.object) :
    b.bind key k = b := by
  have hbound : (b.ofKey key).any (·.object = k.object) = true := by simpa [Binds] using h
  simp only [bind, hbound, if_true]

theorem key_bindTrigger (graphs : Library) (w : World) (id : ObjectId) (b : Bindings) :
    (b.bindTrigger graphs w id).1 = (w.get? id).bind graphs.triggerKey? := by
  unfold bindTrigger Library.triggerKey?
  rcases w.get? id with _ | o
  · rfl
  · rw [Option.bind_some]
    simp only
    cases o.keyTrigger.bind graphs.keyOf? <;> rfl

/-- How many objects have a key does not depend on those that are bound already. -/
theorem count_bindTriggers (graphs : Library) (w : World) (ids : List ObjectId) (b : Bindings) :
    (b.bindTriggers graphs w ids).1 =
      ids.countP fun id => ((w.get? id).bind graphs.triggerKey?).isSome := by
  induction ids generalizing b with
  | nil => rfl
  | cons id ids ih =>
      have hstep : (b.bindTriggers graphs w (id :: ids)).1 =
          ((b.bindTrigger graphs w id).2.bindTriggers graphs w ids).1 +
            (b.bindTrigger graphs w id).1.isSome.toNat := rfl
      rw [hstep, ih, key_bindTrigger, List.countP_cons]
      cases ((w.get? id).bind graphs.triggerKey?).isSome <;> rfl

/-- Binding objects to keys that they are bound to changes nothing. -/
theorem bindTriggers_of_binds
    (h : ∀ id ∈ ids, ∀ key, (w.get? id).bind graphs.triggerKey? = some key → b.Binds key id) :
    (b.bindTriggers graphs w ids).2 = b := by
  -- As long as the bindings are the same, the next object is bound in them already.
  refine bindTriggers_induction (P := fun b' => b' = b) rfl ?_
  rintro _ id o key hid hget hkey rfl
  exact bind_of_binds (h id hid key (by rw [hget, Option.bind_some, hkey]))

/-- Binding objects to their keys again binds none, and finds as many keys. -/
theorem bindTriggers_again (graphs : Library) (w : World) (ids : List ObjectId) (b : Bindings) :
    (b.bindTriggers graphs w ids).2.bindTriggers graphs w ids = b.bindTriggers graphs w ids := by
  refine Prod.ext ?_ (bindTriggers_of_binds fun id hid key hkey => ?_)
  · rw [count_bindTriggers, count_bindTriggers]
  · exact binds_bindTriggers.2 (Or.inr ⟨hid, hkey⟩)

end Bindings

/-! ### Scenes -/

namespace Session

/-- Registering a scene again right after it was registered leaves the session exactly as it is.
    As many target ids and keys are counted as before, and no groups. This is so whatever the
    session is: target ids may be shared or blank, objects inactive, triggers without use, and
    objects of the scene may have been registered before or may be registered elsewhere. -/
theorem sceneLoaded_again (scene : String) (s : Session) :
    (s.sceneLoaded scene).2.sceneLoaded scene =
      ({ (s.sceneLoaded scene).1 with groups := 0 }, (s.sceneLoaded scene).2) := by
  -- The world and the graphs stay, so the second pass goes over the same objects.
  have hpass : ∀ s : Session, s.sceneLoaded scene =
      ({ targets := (s.targets.assignAll (s.world.inScene scene)).1
         groups := (s.layers.joinAll (s.world.inScene scene)).1
         keys := (s.bindings.bindTriggers s.library s.world
            ((s.world.inScene scene).map Prod.fst)).1 },
       { s with
          targets := (s.targets.assignAll (s.world.inScene scene)).2
          layers := (s.layers.joinAll (s.world.inScene scene)).2
          bindings := (s.bindings.bindTriggers s.library s.world
            ((s.world.inScene scene).map Prod.fst)).2 }) := fun _ => rfl
  simp only [hpass, Targets.assignAll_again, Layers.joinAll_again, Bindings.bindTriggers_again]

end Session

end BehaviorGraph
