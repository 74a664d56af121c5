import BehaviorGraph.Proofs.Enlisting
import BehaviorGraph.Proofs.Registrations
/-!
# Unloading a Scene Undoes Loading It

A scene that is loaded and unloaded again leaves nothing behind.

Loading makes three passes over the objects, one for each registry, and unloading takes back
what they did in three different ways: a target id is given up by the object that it stands
for, an object leaves whatever layers it is in, and keys lose the bindings that have the
scene noted. None of them looks at what the passes added. That they undo them all the same
rests on what the registries hold to begin with. If they only speak of objects that are
there, then none of their entries is taken for one of a new object, and everything else goes.

The order of entries needs care, as does the last element that goes: a layer that is new
loses its key with its last group, but a layer without groups that was there before would
lose it too. There is no such layer, and no such key: `Tidy` is kept by every event.

So each registry is followed by the part of it that stays. Registering writes to other
entries only, and forgetting leaves this part, which is all that there was.

## Main definitions

* `OrderedMap.prune`, `OrderedMap.Filled`: Taking elements out of lists, and no empty ones.
* `Targets.stays`: An entry that is not given up.
* `Session.Tidy`: No layer and no key stands without objects.
* `Session.InStep`: What is registered is about objects that are there.

## Theorems

* `OrderedMap.prune_insert`, `OrderedMap.retain_insert`: What stays when others come.
* `Targets.releaseAll_assignAll`, `Layers.leaveAll_joinAll`,
  `Bindings.unbindScene_bindTriggers`: One registry, there and back.
* `Session.InStep.happen`, `Session.inStep_after`: Histories keep the registries in step.
* `Session.unloadScene_loadScene`: A scene, there and back.
-/

namespace BehaviorGraph

open Stage (carriedId?)

/-! ### Maps -/

namespace OrderedMap

variable {κ ν α : Type}

theorem entries_retain (keep : κ → ν → Bool) (m : OrderedMap κ ν) :
    (m.retain keep).entries = m.entries.filter fun e => keep e.1 e.2 :=
  rfl

theorem retain_eq_self {keep : κ → ν → Bool} {m : OrderedMap κ ν}
    (h : ∀ e ∈ m.entries, keep e.1 e.2 = true) : m.retain keep = m := by
  ext1
  exact List.filter_eq_self.2 h

theorem retain_retain (keep keep' : κ → ν → Bool) (m : OrderedMap κ ν) :
    (m.retain keep').retain keep = m.retain fun k v => keep k v && keep' k v := by
  ext1
  exact List.filter_filter

/-- Take elements out of every list of a map, and drop the keys whose lists have become
    empty. -/
def prune (keep : α → Bool) (m : OrderedMap κ (List α)) : OrderedMap κ (List α) :=
  (m.mapValues fun _ xs => xs.filter keep).retain fun _ xs => !xs.isEmpty

/-- No key stands without elements. -/
def Filled (m : OrderedMap κ (List α)) : Prop :=
  ∀ e ∈ m.entries, e.2 ≠ []

theorem filled_prune (keep : α → Bool) (m : OrderedMap κ (List α)) : (m.prune keep).Filled := by
  intro e he
  have hkept := (List.mem_filter.1 he).2
  simpa using hkept

/-- If nothing is taken out, the map stays. -/
theorem prune_eq_self {keep : α → Bool} {m : OrderedMap κ (List α)} (hfilled : m.Filled)
    (h : ∀ e ∈ m.entries, ∀ x ∈ e.2, keep x = true) : m.prune keep = m := by
  have hmap : (m.mapValues fun _ xs => xs.filter keep) = m := by
    ext1
    refine (List.map_congr_left fun e he => ?_).trans (List.map_id _)
    exact Prod.ext rfl (List.filter_eq_self.2 (h e he))
  rw [prune, hmap]
  refine retain_eq_self fun e he => ?_
  simpa using hfilled e he

theorem entries_prune (keep : α → Bool) (m : OrderedMap κ (List α)) :
    (m.prune keep).entries = m.entries.filterMap fun e =>
      if (e.2.filter keep).isEmpty then none else some (e.1, e.2.filter keep) := by
  have hentries : (m.prune keep).entries = (m.entries.map fun e =>
      (e.1, e.2.filter keep)).filter fun e => !e.2.isEmpty := rfl
  rw [hentries, List.filter_map, ← List.filterMap_eq_map, List.filterMap_filter]
  refine List.filterMap_congr fun e _ => ?_
  rcases hkept : e.2.filter keep with _ | ⟨x, xs⟩ <;> simp [hkept]

theorem prune_prune (keep keep' : α → Bool) (m : OrderedMap κ (List α)) :
    (m.prune keep').prune keep = m.prune fun x => keep x && keep' x := by
  ext1
  rw [entries_prune, entries_prune, entries_prune, List.filterMap_filterMap]
  refine List.filterMap_congr fun e _ => ?_
  -- A list that has become empty before stays so.
  rw [← List.filter_filter]
  rcases hkept : e.2.filter keep' with _ | ⟨x, xs⟩
  · rfl
  · rfl

variable [DecidableEq κ]

theorem Filled.insert {m : OrderedMap κ (List α)} (h : m.Filled) (k : κ) {xs : List α}
    (hxs : xs ≠ []) : (m.insert k xs).Filled := by
  rintro ⟨k', xs'⟩ he
  have hget := get?_eq_some_iff.2 he
  rw [get?_insert] at hget
  split at hget
  · rw [← Option.some.inj hget]
    exact hxs
  · exact h _ (get?_eq_some_iff.1 hget)

theorem entries_insert_of_mem {k : κ} {v : ν} {m : OrderedMap κ ν} (h : k ∈ m.keys) :
    (m.insert k v).entries = m.entries.map fun e => (e.1, if e.1 = k then v else e.2) := by
  rw [insert, dif_pos h]
  rfl

/-- What is put at the end of a list and taken out again is as if it had never been there. -/
theorem prune_insert {keep : α → Bool} {x : α} (hx : keep x = false) (k : κ)
    (m : OrderedMap κ (List α)) :
    (m.insert k ((m.get? k).getD [] ++ [x])).prune keep = m.prune keep := by
  ext1
  rw [entries_prune, entries_prune]
  by_cases hk : k ∈ m.keys
  · rw [entries_insert_of_mem hk, List.filterMap_map]
    refine List.filterMap_congr fun e he => ?_
    rw [Function.comp_apply]
    by_cases hkey : e.1 = k
    · have hget : m.get? k = some e.2 := by
        rw [← hkey]
        exact get?_eq_some_iff.2 he
      simp [hkey, hget, hx]
    · simp [hkey]
  · rw [entries_insert_of_notMem hk, List.filterMap_append, get?_eq_none_iff.2 hk]
    simp [hx]

/-- Writing an entry that is not retained changes nothing, unless it takes the place of one that
    is. -/
theorem retain_insert {keep : κ → ν → Bool} {k : κ} {v : ν} {m : OrderedMap κ ν}
    (hnew : keep k v = false) (hold : ∀ v', m.get? k = some v' → keep k v' = false) :
    (m.insert k v).retain keep = m.retain keep := by
  ext1
  rw [entries_retain, entries_retain]
  by_cases hk : k ∈ m.keys
  · rw [entries_insert_of_mem hk, List.filter_map]
    have hgone : ∀ e ∈ m.entries, e.1 = k → keep e.1 e.2 = false := by
      intro e he hkey
      rw [hkey]
      exact hold e.2 (get?_eq_some_iff.2 (by rw [← hkey]; exact he))
    have hsame : ∀ e ∈ m.entries, keep e.1 (if e.1 = k then v else e.2) = keep e.1 e.2 := by
      intro e he
      by_cases hkey : e.1 = k
      · rw [if_pos hkey, hgone e he hkey, hkey, hnew]
      · rw [if_neg hkey]
    rw [List.filter_congr (p := _ ∘ _) hsame]
    refine (List.map_congr_left fun e he => ?_).trans (List.map_id _)
    have hkept := List.mem_filter.1 he
    have hkey : e.1 ≠ k := fun hkey => by
      rw [hgone e hkept.1 hkey] at hkept
      exact absurd hkept.2 (by simp)
    rw [if_neg hkey]
    rfl
  · rw [entries_insert_of_notMem hk, List.filter_append]
    simp [hnew]

end OrderedMap

/-! ### Target ids -/

namespace Targets

/-- An entry that stays when the target ids of some objects are forgotten: it is not one of
    theirs. -/
def stays (es : List (ObjectId × SceneObject)) (target : String) (id : ObjectId) : Bool :=
  !es.any fun e => e.1 = id && e.2.targetId = some target

theorem stays_singleton (id : ObjectId) (o : SceneObject) (target : String) (id' : ObjectId) :
    stays [(id, o)] target id' = true ↔ ¬(id = id' ∧ o.targetId = some target) := by
  simp [stays, imp_iff_not_or]

theorem releaseFor_eq_retain (id : ObjectId) (o : SceneObject) (t : Targets) :
    t.releaseFor id o = t.retain (stays [(id, o)]) := by
  unfold releaseFor
  rcases ho : o.targetId with _ | own
  · symm
    refine OrderedMap.retain_eq_self fun e _ => ?_
    rw [stays_singleton, ho]
    simp
  · simp only
    split
    · next hstands =>
        ext1
        refine List.filter_congr fun e he => ?_
        -- The entry that goes is the one under the object's target id.
        have hget : t.get? e.1 = some e.2 := OrderedMap.get?_eq_some_iff.2 he
        rw [Bool.eq_iff_iff, decide_eq_true_eq, stays_singleton, ho]
        constructor
        · rintro hne ⟨-, heq⟩
          exact hne (Option.some.inj heq).symm
        · rintro hother heq
          rw [heq, hstands] at hget
          exact hother ⟨Option.some.inj hget, by rw [heq]⟩
    · next hother =>
        symm
        refine OrderedMap.retain_eq_self fun e he => ?_
        rw [stays_singleton, ho]
        rintro ⟨heq, htarget⟩
        rw [heq, Option.some.inj htarget] at hother
        exact hother (OrderedMap.get?_eq_some_iff.2 he)

theorem releaseAll_eq_retain (es : List (ObjectId × SceneObject)) (t : Targets) :
    t.releaseAll es = t.retain (stays es) := by
  induction es generalizing t with
  | nil => exact (OrderedMap.retain_eq_self fun _ _ => rfl).symm
  | cons e es ih =>
      have hstep : t.releaseAll (e :: es) = (t.releaseFor e.1 e.2).releaseAll es := rfl
      rw [hstep, ih, releaseFor_eq_retain, OrderedMap.retain_retain]
      congr 1
      funext target id
      simp [stays, Bool.and_comm]

/-- The target id that an object carries is accepted, and stands for it. -/
theorem assignFor_eq (id : ObjectId) (o : SceneObject) (t : Targets) :
    t.assignFor id o =
      ((carriedId? o).isSome, (carriedId? o).elim t fun target => t.insert target id) := by
  rcases ho : o.targetId with _ | own
  · simp [assignFor, carriedId?, ho]
  · rcases hblank : Text.isBlank own with _ | _
    · simp [assignFor, assign, carriedId?, ho, hblank, Option.filter]
    · simp [assignFor, assign, carriedId?, ho, hblank, Option.filter]

/-- Registering objects whose entries do not stay changes nothing of what stays, unless it takes
    a target id from another object. -/
theorem retain_assignAll {keep : String → ObjectId → Bool} {es : List (ObjectId × SceneObject)}
    {t : Targets} (h : ∀ e ∈ es, ∀ target, carriedId? e.2 = some target → keep target e.1 = false ∧
      ∀ id, t.get? target = some id → keep target id = false) :
    (t.assignAll es).2.retain keep = t.retain keep := by
  induction es generalizing t with
  | nil => rfl
  | cons e es ih =>
      have hfirst := h e List.mem_cons_self
      simp only [assignAll_cons, assignFor_eq]
      rcases hown : carriedId? e.2 with _ | own
      · exact ih fun e' he' => h e' (List.mem_cons_of_mem e he')
      · rw [Option.elim_some, ih, OrderedMap.retain_insert (hfirst own hown).1 (hfirst own hown).2]
        intro e' he' target htarget
        have hlater := h e' (List.mem_cons_of_mem e he') target htarget
        refine ⟨hlater.1, fun id hget => ?_⟩
        rw [OrderedMap.get?_insert] at hget
        split at hget
        · next heq =>
            rw [heq, ← Option.some.inj hget]
            exact (hfirst own hown).1
        · exact hlater.2 id hget

/-- Forgetting the target ids of some objects undoes registering them, if none of these was
    registered and nothing stood for the objects. -/
theorem releaseAll_assignAll {es : List (ObjectId × SceneObject)} {t : Targets}
    (hnew : ∀ e ∈ es, ∀ target, carriedId? e.2 = some target → t.get? target = none)
    (hother : ∀ e ∈ es, ∀ target, t.get? target ≠ some e.1) :
    (t.assignAll es).2.releaseAll es = t := by
  rw [releaseAll_eq_retain, retain_assignAll]
  · refine OrderedMap.retain_eq_self fun e he => ?_
    rw [stays, Bool.not_eq_true', List.any_eq_false]
    intro e' he' hsame
    rw [Bool.and_eq_true, decide_eq_true_eq] at hsame
    refine hother e' he' e.1 ?_
    rw [hsame.1]
    exact OrderedMap.get?_eq_some_iff.2 he
  · intro e he target htarget
    refine ⟨?_, fun id hget => ?_⟩
    · rw [stays, Bool.not_eq_false', List.any_eq_true]
      exact ⟨e, he, by simp [Stage.targetId_of_carriedId? htarget]⟩
    · rw [hnew e he target htarget] at hget
      exact absurd hget (by simp)

end Targets

/-! ### Layers -/

namespace Layers

theorem leave_eq (id : ObjectId) (l : Layers) :
    l.leave id = { l with groups := l.groups.prune (· ≠ id) } :=
  rfl

/-- Several objects leave as if at once. -/
theorem leaveAll_eq (ids : List ObjectId) {l : Layers} (h : l.groups.Filled) :
    l.leaveAll ids = { l with groups := l.groups.prune (· ∉ ids) } := by
  induction ids generalizing l with
  | nil =>
      have hsame : l.groups.prune (· ∉ ([] : List ObjectId)) = l.groups :=
        OrderedMap.prune_eq_self h fun _ _ _ _ => by simp
      rw [hsame]
      rfl
  | cons id ids ih =>
      have hstep : l.leaveAll (id :: ids) = (l.leave id).leaveAll ids := rfl
      rw [hstep, ih (OrderedMap.filled_prune _ _), leave_eq]
      simp only [OrderedMap.prune_prune]
      congr 2
      funext x
      simp [Bool.and_comm]

theorem filled_leaveAll (ids : List ObjectId) {l : Layers} (h : l.groups.Filled) :
    (l.leaveAll ids).groups.Filled := by
  rw [leaveAll_eq ids h]
  exact OrderedMap.filled_prune _ _

theorem filled_joinFor (id : ObjectId) (o : SceneObject) {l : Layers} (h : l.groups.Filled) :
    (l.joinFor id o).2.groups.Filled := by
  unfold joinFor join
  split
  · exact h
  · split
    · exact h
    · simp only
      split
      · exact h
      · exact h.insert _ (List.append_ne_nil_of_right_ne_nil _ (List.cons_ne_nil id []))

theorem filled_joinAll (es : List (ObjectId × SceneObject)) {l : Layers} (h : l.groups.Filled) :
    (l.joinAll es).2.groups.Filled := by
  induction es generalizing l with
  | nil => exact h
  | cons e es ih => exact ih (filled_joinFor e.1 e.2 h)

/-- Of the groups that are kept nothing is changed by others that join. -/
theorem prune_joinFor {keep : ObjectId → Bool} {id : ObjectId} (hid : keep id = false)
    (o : SceneObject) (l : Layers) :
    (l.joinFor id o).2.groups.prune keep = l.groups.prune keep := by
  unfold joinFor join
  split
  · rfl
  · split
    · rfl
    · simp only
      split
      · rfl
      · exact OrderedMap.prune_insert hid _ _

theorem prune_joinAll {keep : ObjectId → Bool} {es : List (ObjectId × SceneObject)}
    (h : ∀ e ∈ es, keep e.1 = false) (l : Layers) :
    (l.joinAll es).2.groups.prune keep = l.groups.prune keep := by
  induction es generalizing l with
  | nil => rfl
  | cons e es ih =>
      have hrest := ih (fun e' he' => h e' (List.mem_cons_of_mem e he')) (l.joinFor e.1 e.2).2
      exact hrest.trans (prune_joinFor (h e List.mem_cons_self) e.2 l)

/-- Leaving undoes joining, for objects that were no groups before. -/
theorem leaveAll_joinAll {es : List (ObjectId × SceneObject)} {l : Layers} (h : l.groups.Filled)
    (hother : ∀ e ∈ es, ∀ key, e.1 ∉ l.groupsOf key) :
    (l.joinAll es).2.leaveAll (es.map Prod.fst) = l := by
  have hgroups : (l.joinAll es).2.groups.prune (· ∉ es.map Prod.fst) = l.groups := by
    rw [prune_joinAll]
    · refine OrderedMap.prune_eq_self h fun e he id hid => ?_
      have hget : l.groupsOf e.1 = e.2 := by
        rw [groupsOf, OrderedMap.get?_eq_some_iff.2 he]
        rfl
      rw [decide_eq_true_eq, List.mem_map]
      rintro ⟨e', he', rfl⟩
      exact hother e' he' e.1 (by rw [hget]; exact hid)
    · intro e he
      simpa using ⟨e.2, he⟩
  calc (l.joinAll es).2.leaveAll (es.map Prod.fst)
      = { declared := (l.joinAll es).2.declared, groups := l.groups } := by
        rw [leaveAll_eq _ (filled_joinAll es h), hgroups]
    _ = l := by rw [declared_joinAll]

end Layers

/-! ### Keys -/

namespace Bindings

theorem unbind_eq (doomed : KeyBinding → Bool) (b : Bindings) :
    (b.unbind doomed).2 = { b with keys := b.keys.prune fun k => !doomed k } :=
  rfl

theorem filled_unbindAll (ids : List ObjectId) {b : Bindings} (h : b.keys.Filled) :
    (b.unbindAll ids).keys.Filled := by
  induction ids generalizing b with
  | nil => exact h
  | cons id ids ih => exact ih (OrderedMap.filled_prune _ _)

theorem filled_bind {b : Bindings} (h : b.keys.Filled) (key : Key) (k : KeyBinding) :
    (b.bind key k).keys.Filled := by
  unfold bind
  simp only
  split
  · exact h
  · exact h.insert key (List.append_ne_nil_of_right_ne_nil _ (List.cons_ne_nil k []))

theorem filled_bindTriggers (graphs : Library) (w : World) (ids : List ObjectId) {b : Bindings}
    (h : b.keys.Filled) : (b.bindTriggers graphs w ids).2.keys.Filled :=
  bindTriggers_induction (P := fun b => b.keys.Filled) h
    fun _ _ _ key _ _ _ hb => filled_bind hb key _

/-- Binding changes nothing of the bindings that are kept, nor of input actions. -/
theorem prune_bind (keep : KeyBinding → Bool) {k : KeyBinding} (hk : keep k = false) (key : Key)
    (b : Bindings) :
    (b.bind key k).keys.prune keep = b.keys.prune keep ∧ (b.bind key k).actions = b.actions := by
  unfold bind
  simp only
  split
  · exact ⟨rfl, rfl⟩
  · exact ⟨OrderedMap.prune_insert hk key b.keys, rfl⟩

/-- Unbinding a scene undoes binding objects of it, if no key was bound to the scene. -/
theorem unbindScene_bindTriggers {graphs : Library} {w : World} {ids : List ObjectId}
    {scene : String} {b : Bindings} (h : b.keys.Filled)
    (hids : ∀ id ∈ ids, ∀ o, w.get? id = some o → o.scene = scene)
    (hother : ∀ key, ∀ k ∈ b.ofKey key, k.scene ≠ scene) :
    ((b.bindTriggers graphs w ids).2.unbindScene scene).2 = b := by
  have hpruned : (b.bindTriggers graphs w ids).2.keys.prune (fun k => !decide (k.scene = scene)) =
      b.keys.prune (fun k => !decide (k.scene = scene)) ∧
      (b.bindTriggers graphs w ids).2.actions = b.actions := by
    refine bindTriggers_induction (P := fun b' => b'.keys.prune _ = b.keys.prune _ ∧
      b'.actions = b.actions) ⟨rfl, rfl⟩ ?_
    intro b' id o key hid hget _ hb
    have hdoomed : (!decide (o.scene = scene)) = false := by
      simp [hids id hid o hget]
    rcases prune_bind (fun k => !decide (k.scene = scene)) (k := ⟨id, o.scene⟩) hdoomed key b' with
      ⟨hkeys, hactions⟩
    exact ⟨hkeys.trans hb.1, hactions.trans hb.2⟩
  have hkeys : b.keys.prune (fun k => !decide (k.scene = scene)) = b.keys := by
    refine OrderedMap.prune_eq_self h fun e he k hk => ?_
    have hget : b.ofKey e.1 = e.2 := by
      rw [ofKey, OrderedMap.get?_eq_some_iff.2 he]
      rfl
    simpa using hother e.1 k (by rw [hget]; exact hk)
  calc ((b.bindTriggers graphs w ids).2.unbindScene scene).2
      = { keys := b.keys, actions := (b.bindTriggers graphs w ids).2.actions } := by
        rw [unbindScene, unbind_eq, hpruned.1, hkeys]
    _ = b := by rw [hpruned.2]

end Bindings

/-! ### Sessions -/

namespace Session

/-- No layer and no key stands in the registries without objects. -/
structure Tidy (s : Session) : Prop where
  /-- Each layer has groups. -/
  groups : s.layers.groups.Filled
  /-- Each key has objects that are bound to it. -/
  keys : s.bindings.keys.Filled

/-- What is registered is about objects that are there. -/
structure InStep (s : Session) : Prop where
  /-- Target ids stand for objects that carry them. -/
  truthful : s.toStage.Truthful
  /-- The groups of layers are there. -/
  groups : ∀ key, ∀ id ∈ s.layers.groupsOf key, s.world.contains id = true
  /-- Keys are bound to objects that are there, with their scenes noted. -/
  keys : s.bindings.Fits s.world
  /-- There are no empty entries. -/
  tidy : s.Tidy

/-- What is registered is not about objects that are yet to come. -/
theorem InStep.not_about {s : Session} (h : s.InStep) {id : ObjectId} (hid : id ∉ s.world.keys) :
    (∀ target, s.targets.get? target ≠ some id) ∧ ∀ key, id ∉ s.layers.groupsOf key := by
  rw [← OrderedMap.contains_iff] at hid
  exact ⟨fun target hget => hid (Stage.contains_of_carries (h.truthful target id hget)),
    fun key hmem => hid (h.groups key id hmem)⟩

/-- No key is bound to a scene that has no objects. -/
theorem InStep.scene_ne {s : Session} (h : s.InStep) {scene : String}
    (hnone : s.world.inScene scene = []) (key : Key) (k : KeyBinding)
    (hk : k ∈ s.bindings.ofKey key) : k.scene ≠ scene := by
  rcases h.keys.bound key k hk with ⟨o, ho, -, hscene⟩
  rw [hscene]
  intro heq
  have hmem : (k.object, o) ∈ s.world.inScene scene :=
    List.mem_filter.2 ⟨ho, decide_eq_true heq⟩
  rw [hnone] at hmem
  exact List.not_mem_nil hmem

/-- What unloading a scene makes of a session, if the objects of the scene are known. -/
theorem unloadScene_eq {s : Session} {scene : String} {gone : List (ObjectId × SceneObject)}
    (h : s.world.inScene scene = gone) :
    s.unloadScene scene = (gone.length, { s with
      world := s.world.retain fun _ o => o.scene ≠ scene
      targets := s.targets.releaseAll gone
      layers := s.layers.leaveAll (gone.map Prod.fst)
      bindings := (s.bindings.unbindScene scene).2 }) := by
  unfold unloadScene World.unloadScene
  simp only [foldl_forgetWithScene, h]
  rfl

/-! ### Histories -/

theorem tidy_start (config : Settings) (supply : Nat → ObjectId) (scheduled : Bool) :
    (start config supply scheduled).Tidy := by
  refine ⟨fun _ he => absurd he List.not_mem_nil, ?_⟩
  have hkeys : ∀ (es : List (String × String)) (b : Bindings), b.keys.Filled →
      (es.foldl (fun b e => b.bindAction e.1 e.2) b).keys.Filled := by
    intro es
    induction es with
    | nil => exact fun _ h => h
    | cons e es ih => exact fun b h => ih (b.bindAction e.1 e.2) h
  exact hkeys _ _ fun _ he => absurd he List.not_mem_nil

theorem Tidy.despawn {s : Session} (h : s.Tidy) (id : ObjectId) : (s.despawn id).2.Tidy := by
  unfold Session.despawn
  simp only [foldl_forget]
  exact ⟨Layers.filled_leaveAll _ h.groups, Bindings.filled_unbindAll _ h.keys⟩

theorem Tidy.sceneLoaded {s : Session} (h : s.Tidy) (scene : String) :
    (s.sceneLoaded scene).2.Tidy :=
  ⟨Layers.filled_joinAll _ h.groups, Bindings.filled_bindTriggers _ _ _ h.keys⟩

theorem coversRuns_tidy : CoversRuns fun s s' => s.Tidy → s'.Tidy where
  trans h h' hs := h' (h hs)
  calm hcalm hs := ⟨by rw [hcalm.layers]; exact hs.groups, by rw [hcalm.bindings]; exact hs.keys⟩
  despawn id _ hs := hs.despawn id

/-- An event leaves no empty entries behind. -/
theorem Tidy.happen {s : Session} (h : s.Tidy) (e : Event) : (s.happen e).Tidy := by
  have hR := coversRuns_tidy
  cases e with
  | spawn id o =>
      refine ⟨Layers.filled_joinFor id o h.groups, ?_⟩
      exact Bindings.filled_bindTriggers s.library (s.world.spawn id o) [id] h.keys
  | despawn id => exact h.despawn id
  | loadScene scene objects =>
      have hspawned : Tidy { s with
          world := objects.foldl (fun w e => World.spawn e.1 e.2 w) s.world } :=
        ⟨h.groups, h.keys⟩
      exact hspawned.sceneLoaded scene
  | sceneLoaded scene => exact h.sceneLoaded scene
  | unloadScene scene =>
      refine ⟨?_, ?_⟩
      · have hlayers := (unloadScene_drops scene s).layers
        rw [Session.happen, hlayers]
        exact Layers.filled_leaveAll _ h.groups
      · exact OrderedMap.filled_prune _ _
  | shutdown =>
      exact ⟨fun _ he => absurd he List.not_mem_nil, fun _ he => absurd he List.not_mem_nil⟩
  | author library => exact ⟨h.groups, h.keys⟩
  | bake graph => exact ⟨h.groups, h.keys⟩
  | startFull graph => exact hR.steps.startRun _ s h
  | startFrom graph trigger => exact hR.steps.startRun _ s h
  | click id => exact hR.steps.fire _ id s h
  | tick keys actions => exact hR.steps.tick keys actions s h
  | turn run => exact hR.turn run s h
  | clock time => exact ⟨h.groups, h.keys⟩
  | advance ms => exact hR.advance ms s h
  | finish run => exact hR.finish run s h
  | execute st => exact hR.execute st s h

/-- Registries that are in step with the world hold nothing about objects that are gone. -/
theorem Registered.inStep {s : Session} (h : s.Registered) (htidy : s.Tidy) : s.InStep := by
  refine ⟨h.truthful, fun key id hid => ?_, h.keys, htidy⟩
  rw [h.groups, Layers.mem_grouped] at hid
  rcases hid with ⟨o, ho, -⟩
  exact OrderedMap.contains_iff.2 (OrderedMap.mem_keys_of_mem ho)

theorem inStep_start (config : Settings) (supply : Nat → ObjectId) (scheduled : Bool) :
    (start config supply scheduled).InStep :=
  (registered_start config supply scheduled).inStep (tidy_start config supply scheduled)

theorem InStep.calm {s s' : Session} (h : s.InStep) (hcalm : s.Calm s') : s'.InStep := by
  have hlasting := World.lasting_of_awake hcalm.awake
  refine ⟨hcalm.truthful h.truthful, ?_, ?_, coversRuns_tidy.calm hcalm h.tidy⟩
  · intro key id hid
    rw [hcalm.layers] at hid
    rw [← World.contains_awake, hcalm.awake, World.contains_awake]
    exact h.groups key id hid
  · rw [hcalm.bindings]
    exact h.keys.of_lasting hlasting

theorem InStep.drops {s s' : Session} (h : s.InStep) {gone : List (ObjectId × SceneObject)}
    (hdrops : s.Drops s' gone) (htidy : s'.Tidy) : s'.InStep := by
  refine ⟨hdrops.truthful h.truthful, fun key id hid => ?_, hdrops.fits h.keys, htidy⟩
  rw [hdrops.layers, Layers.groupsOf_leaveAll, List.mem_filter, decide_eq_true_eq] at hid
  rcases List.mem_map.1 (OrderedMap.contains_iff.1 (h.groups key id hid.1)) with ⟨e, he, rfl⟩
  refine OrderedMap.contains_iff.2 (List.mem_map_of_mem (hdrops.mem_entries.2 ⟨he, ?_⟩))
  exact fun hgone => hid.2 (List.mem_map_of_mem hgone)

theorem InStep.admits {s s' : Session} (h : s.InStep) {new listed : List (ObjectId × SceneObject)}
    (hadmits : s.Admits s' new listed) (htidy : s'.Tidy) : s'.InStep := by
  refine ⟨hadmits.truthful h.truthful, fun key id hid => ?_, hadmits.fits h.keys, htidy⟩
  rw [hadmits.layers, Layers.mem_groupsOf_joinAll] at hid
  rw [OrderedMap.contains_iff]
  rcases hid with hold | ⟨o, ho, -⟩
  · rcases List.mem_map.1 (OrderedMap.contains_iff.1 (h.groups key id hold)) with ⟨e, he, rfl⟩
    exact List.mem_map_of_mem (hadmits.mem_entries.2 (Or.inl he))
  · exact OrderedMap.mem_keys_of_mem (hadmits.listed_subset ho)

theorem InStep.bake {s : Session} (h : s.InStep) (graph : GraphRef) : (s.bake graph).2.InStep := by
  have htags := s.tags_bake graph
  refine ⟨htags.truthful h.truthful, fun key id hid => ?_,
    h.keys.of_lasting (World.lasting_of_untagged htags.keeps.untagged), h.tidy.happen (.bake graph)⟩
  rw [htags.keeps.contains]
  exact h.groups key id hid

theorem coversRuns_inStep : CoversRuns fun s s' => s.InStep → s'.InStep where
  trans h h' hs := h' (h hs)
  calm hcalm hs := hs.calm hcalm
  despawn id s hs := hs.drops (s.despawn_drops id) (hs.tidy.despawn id)

/-- An event registers nothing about objects that are not there, and forgets what is registered
    about those that go. -/
theorem InStep.happen {s : Session} (h : s.InStep) {e : Event}
    (hfresh : (s.world.keys ++ e.spawned).Nodup) : (s.happen e).InStep := by
  have htidy := h.tidy.happen e
  cases outcome_happen hfresh with
  | comes hadmits => exact h.admits hadmits htidy
  | goes hdrops => exact h.drops hdrops htidy
  | bakes graph hbake =>
      rw [hbake]
      exact h.bake graph
  | forgets hshutdown =>
      -- Nothing is registered any more.
      rw [hshutdown] at htidy ⊢
      refine ⟨fun _ _ hget => ?_, fun _ _ hid => absurd hid List.not_mem_nil,
        ⟨fun _ _ hk => absurd hk List.not_mem_nil, fun _ => List.nodup_nil⟩, htidy⟩
      exact absurd hget (by simp [Session.happen, shutdown])
  | runs hruns => exact hruns _ coversRuns_inStep h

/-- After every history in which the ids of new objects are new, what is registered is about
    objects that are there. -/
theorem inStep_after (config : Settings) (supply : Nat → ObjectId) (scheduled : Bool)
    {events : List Event} (hfresh : (events.flatMap Event.spawned).Nodup) :
    ((start config supply scheduled).after events).InStep := by
  induction events using List.reverseRecOn with
  | nil => exact inStep_start config supply scheduled
  | append_singleton events e ih =>
      have hempty : (start config supply scheduled).world.keys = [] := rfl
      have hnew := fresh_after hempty hfresh
      rw [List.flatMap_append] at hfresh
      rw [after_concat]
      exact (ih hfresh.of_append_left).happen hnew

/-! ### There and back -/

/-- Unloading a scene undoes loading it. Whatever is registered is about objects that are there,
    none of the scene among them; then objects of the scene come whose ids are new, and whose
    target ids are registered for nobody, though they may share them. Loading the scene with
    these objects and unloading it again gives back their number and the session as it was:
    objects, target ids, layers with their groups and keys with what is bound to them, all in
    their order. -/
theorem unloadScene_loadScene {s : Session} (h : s.InStep) {scene : String}
    (hnone : s.world.inScene scene = []) {objects : List (ObjectId × SceneObject)}
    (hscene : ∀ e ∈ objects, e.2.scene = scene)
    (hfresh : (s.world.keys ++ objects.map Prod.fst).Nodup)
    (htargets : ∀ e ∈ objects, ∀ target, carriedId? e.2 = some target →
      s.targets.get? target = none) :
    (s.loadScene scene objects).2.unloadScene scene = (objects.length, s) := by
  have hentries : (s.loadScene scene objects).2.world.entries = s.world.entries ++ objects :=
    (s.loadScene_admits hfresh scene).entries
  have hnew : objects.filter (fun e => e.2.scene = scene) = objects :=
    List.filter_eq_self.2 fun e he => decide_eq_true (hscene e he)
  have hlisted : (s.loadScene scene objects).2.world.inScene scene = objects := by
    rw [World.inScene, hentries, List.filter_append, hnew]
    exact congrArg (· ++ objects) hnone
  have hworld : (s.loadScene scene objects).2.world.retain (fun _ o => o.scene ≠ scene) =
      s.world := by
    ext1
    rw [OrderedMap.entries_retain, hentries, List.filter_append]
    have hold : s.world.entries.filter (fun e => e.2.scene ≠ scene) = s.world.entries := by
      refine List.filter_eq_self.2 fun e he => ?_
      have hout := List.filter_eq_nil_iff.1 hnone e he
      simpa using hout
    have hgone : objects.filter (fun e => e.2.scene ≠ scene) = [] := by
      refine List.filter_eq_nil_iff.2 fun e he => ?_
      simp [hscene e he]
    rw [hold, hgone, List.append_nil]
  have hother : ∀ e ∈ objects, (∀ target, s.targets.get? target ≠ some e.1) ∧
      ∀ key, e.1 ∉ s.layers.groupsOf key := by
    intro e he
    refine h.not_about fun hmem => ?_
    exact (List.nodup_append.1 hfresh).2.2 _ hmem _ (List.mem_map_of_mem he) rfl
  have htargets' : (s.loadScene scene objects).2.targets.releaseAll objects = s.targets := by
    have heq : (s.loadScene scene objects).2.targets =
        (s.targets.assignAll ((s.loadScene scene objects).2.world.inScene scene)).2 := rfl
    rw [heq, hlisted]
    exact Targets.releaseAll_assignAll htargets fun e he => (hother e he).1
  have hlayers : (s.loadScene scene objects).2.layers.leaveAll (objects.map Prod.fst) =
      s.layers := by
    have heq : (s.loadScene scene objects).2.layers =
        (s.layers.joinAll ((s.loadScene scene objects).2.world.inScene scene)).2 := rfl
    rw [heq, hlisted]
    exact Layers.leaveAll_joinAll h.tidy.groups fun e he => (hother e he).2
  have hbindings : ((s.loadScene scene objects).2.bindings.unbindScene scene).2 = s.bindings := by
    refine Bindings.unbindScene_bindTriggers h.tidy.keys ?_ fun key k => h.scene_ne hnone key k
    -- An object that is bound in the pass is one of the scene.
    intro id hid o hget
    rcases List.mem_map.1 hid with ⟨e, he, rfl⟩
    rcases List.mem_filter.1 he with ⟨hthere, hin⟩
    have hsame : some e.2 = some o := (OrderedMap.get?_eq_some_iff.2 hthere).symm.trans hget
    rw [← Option.some.inj hsame]
    exact of_decide_eq_true hin
  rw [unloadScene_eq hlisted, hworld, htargets', hlayers, hbindings]
  rfl

/-- A main menu in a layer and bound to a key. -/
def mainMenu : List Event :=
  [.author
      { graphs :=
          [{ name := "keys"
             nodes := [.ofKind ⟨"open"⟩ (.key (some .escape)), .ofKind ⟨"map"⟩ (.key (some .space))] }] },
    .spawn ⟨1⟩
      { name := "Menu", scene := "Main", targetId := some "menu", layerGroup := some "HUD"
        keyTrigger := some ⟨⟨0⟩, ⟨"open"⟩⟩ }]

/-- A scene that adds to the layer and to the key of the main menu, and makes others; two of its
    objects carry one target id. -/
def mapScene : List (ObjectId × SceneObject) :=
  [(⟨2⟩, { name := "Map", scene := "World", targetId := some "map", layerGroup := some "HUD"
           keyTrigger := some ⟨⟨0⟩, ⟨"map"⟩⟩ }),
    (⟨3⟩, { name := "Marker", scene := "World", targetId := some "map", layerGroup := some "Maps"
            keyTrigger := some ⟨⟨0⟩, ⟨"open"⟩⟩ }),
    (⟨4⟩, { name := "Legend", scene := "World", targetId := some " ", parent := some ⟨2⟩ })]

theorem unloadScene_loadScene_mapScene :
    let s := (start {} .minted true).after mainMenu
    let loaded := (s.loadScene "World" mapScene).2
    s.InStep ∧ s.world.inScene "World" = [] ∧ (∀ e ∈ mapScene, e.2.scene = "World") ∧
      (s.world.keys ++ mapScene.map Prod.fst).Nodup ∧
      (∀ e ∈ mapScene, ∀ target, carriedId? e.2 = some target → s.targets.get? target = none) ∧
      loaded.layers.groupsOf "HUD" = [⟨1⟩, ⟨2⟩] ∧ loaded.targets.get? "map" = some ⟨3⟩ ∧
      loaded.unloadScene "World" = (3, s) := by
  intro s loaded
  have hstep : s.InStep := inStep_after {} .minted true (by decide +kernel)
  have hnone : s.world.inScene "World" = [] := by decide +kernel
  have hscene : ∀ e ∈ mapScene, e.2.scene = "World" := by decide +kernel
  have hfresh : (s.world.keys ++ mapScene.map Prod.fst).Nodup := by decide +kernel
  have hunused : ∀ e ∈ mapScene, ((carriedId? e.2).all fun target =>
      (s.targets.get? target).isNone) = true := by
    decide +kernel
  have htargets : ∀ e ∈ mapScene, ∀ target, carriedId? e.2 = some target →
      s.targets.get? target = none := by
    intro e he target htarget
    have hall := hunused e he
    rw [htarget] at hall
    exact Option.isNone_iff_eq_none.1 hall
  exact ⟨hstep, hnone, hscene, hfresh, htargets, by decide +kernel, by decide +kernel,
    unloadScene_loadScene hstep hnone hscene hfresh htargets⟩

end Session

end BehaviorGraph
