import BehaviorGraph.Proofs.BreadthFirst
import BehaviorGraph.Proofs.Switching
import BehaviorGraph.Session.Bake
import BehaviorGraph.Session.Registration
/-!
# Registries

What registering and forgetting objects does to the three registries of a session,
told by what can be read from them.

Target ids are read one at a time. Registering the ids of some objects writes over
whatever stood there, so the last object wins; forgetting an object takes its id back
only if the id still stands for it. Layers are read by their keys. A group joins at
the end, and only once; what a pass over some objects adds is what `unseen` adds, and an
object that leaves is gone from the groups of every key. Keys of the keyboard are read
likewise, except that a binding also notes a scene.

## Main definitions

* `Layers.groupsOf`: The groups under the key of a layer.
* `Layers.grouped`: The objects among some that name a layer.
* `Library.triggerKey?`: The key that the trigger of an object names.

## Theorems

* `Targets.of_get?_assignAll`, `Targets.get?_assignAll_of`: Registering target ids.
* `Targets.get?_releaseAll`: Forgetting the target ids of some objects.
* `Layers.groupsOf_joinAll`: Registering the groups of some objects.
* `Layers.groupsOf_leaveAll`: Forgetting some objects.
* `Bindings.bindTriggers_induction`: What binding objects one by one keeps.
* `Bindings.ofKey_unbind`: Unbinding objects.
-/

namespace BehaviorGraph

open Stage (carriedId?)

theorem unseen_eq_nil {α : Type} [DecidableEq α] {seen xs : List α} (h : xs ⊆ seen) :
    unseen seen xs = [] := by
  rw [List.eq_nil_iff_forall_not_mem]
  intro x hx
  rw [mem_unseen] at hx
  exact hx.2 (h hx.1)

theorem unseen_eq_self {α : Type} [DecidableEq α] {seen xs : List α} (h : (seen ++ xs).Nodup) :
    unseen seen xs = xs := by
  induction xs generalizing seen with
  | nil => rfl
  | cons x xs ih =>
      rw [List.nodup_middle, List.nodup_cons] at h
      have hx : x ∉ seen := fun hmem => h.1 (List.mem_append_left xs hmem)
      have hrest : ((x :: seen) ++ xs).Nodup := List.nodup_cons.2 h
      rw [unseen, if_neg hx, ih hrest]

/-- Taking elements out of every list of a map, and dropping the keys whose lists have
    become empty, is taking them out of what stands under each key. -/
theorem OrderedMap.getD_get?_prune {κ α : Type} [DecidableEq κ] (keep : α → Bool)
    (m : OrderedMap κ (List α)) (key : κ) :
    (((m.mapValues fun _ xs => xs.filter keep).retain fun _ xs => !xs.isEmpty).get? key).getD [] =
      ((m.get? key).getD []).filter keep := by
  rw [OrderedMap.get?_retain, OrderedMap.get?_mapValues]
  rcases m.get? key with _ | xs
  · rfl
  · rcases hrest : xs.filter keep with _ | ⟨x, rest⟩
    · simp only [Option.map_some, hrest]
      simp [Option.filter, hrest]
    · simp only [Option.map_some, hrest]
      simp [Option.filter, hrest]

namespace Targets

theorem assignAll_cons (e : ObjectId × SceneObject) (es : List (ObjectId × SceneObject))
    (t : Targets) : (t.assignAll (e :: es)).2 = ((t.assignFor e.1 e.2).2.assignAll es).2 :=
  rfl

theorem get?_assignFor (id : ObjectId) (o : SceneObject) (t : Targets) (target : String) :
    (t.assignFor id o).2.get? target =
      if carriedId? o = some target then some id else t.get? target := by
  rcases ho : o.targetId with _ | own
  · simp [assignFor, carriedId?, ho]
  · rcases hblank : Text.isBlank own with _ | _
    · simp [assignFor, assign, carriedId?, ho, hblank, OrderedMap.get?_insert, Option.filter,
        eq_comm]
    · simp [assignFor, assign, carriedId?, ho, hblank, Option.filter]

/-- What a target id stands for was registered just now, or before. -/
theorem of_get?_assignAll {es : List (ObjectId × SceneObject)} {t : Targets} {target : String}
    {id : ObjectId} (h : (t.assignAll es).2.get? target = some id) :
    t.get? target = some id ∨ ∃ o, (id, o) ∈ es ∧ carriedId? o = some target := by
  induction es generalizing t with
  | nil => exact Or.inl h
  | cons e es ih =>
      rw [assignAll_cons] at h
      rcases ih h with hbefore | ⟨o, ho, htarget⟩
      · rw [get?_assignFor] at hbefore
        split at hbefore
        · next hown =>
            have heq : e.1 = id := Option.some.inj hbefore
            exact Or.inr ⟨e.2, List.mem_cons.2 (Or.inl (Prod.ext heq.symm rfl)), hown⟩
        · exact Or.inl hbefore
      · exact Or.inr ⟨o, List.mem_cons_of_mem e ho, htarget⟩

/-- Where only one of the objects carries a target id, the id stands for that object
    afterwards; and it goes on standing for an object if no other carries it. -/
theorem get?_assignAll_of {es : List (ObjectId × SceneObject)} {t : Targets} {target : String}
    {id : ObjectId} (hall : ∀ e ∈ es, carriedId? e.2 = some target → e.1 = id)
    (h : t.get? target = some id ∨ ∃ o, (id, o) ∈ es ∧ carriedId? o = some target) :
    (t.assignAll es).2.get? target = some id := by
  induction es generalizing t with
  | nil =>
      rcases h with hbefore | ⟨o, ho, -⟩
      · exact hbefore
      · exact absurd ho List.not_mem_nil
  | cons e es ih =>
      have hrest : ∀ e' ∈ es, carriedId? e'.2 = some target → e'.1 = id := by
        intro e' he'
        exact hall e' (List.mem_cons_of_mem e he')
      rw [assignAll_cons]
      refine ih hrest ?_
      rw [get?_assignFor]
      split
      · next hown => exact Or.inl (congrArg some (hall e List.mem_cons_self hown))
      · next hother =>
          rcases h with hbefore | ⟨o, ho, htarget⟩
          · exact Or.inl hbefore
          · rcases List.mem_cons.1 ho with rfl | htail
            · exact absurd htarget hother
            · exact Or.inr ⟨o, htail, htarget⟩

/-- Forget the target ids of some objects. -/
def releaseAll (es : List (ObjectId × SceneObject)) (t : Targets) : Targets :=
  es.foldl (fun t e => t.releaseFor e.1 e.2) t

theorem get?_releaseFor {id id' : ObjectId} {o : SceneObject} {t : Targets} {target : String} :
    (t.releaseFor id o).get? target = some id' ↔
      t.get? target = some id' ∧ ¬(id = id' ∧ o.targetId = some target) := by
  unfold releaseFor
  rcases o.targetId with _ | own
  · simp
  · simp only
    by_cases htarget : own = target
    · subst htarget
      split
      · next hstands => simp [OrderedMap.get?_erase, hstands]
      · next hother =>
          constructor
          · intro hget
            refine ⟨hget, ?_⟩
            rintro ⟨rfl, -⟩
            exact hother hget
          · exact And.left
    · -- Another target id is left alone.
      split
      · simp [OrderedMap.get?_erase, htarget, Ne.symm htarget]
      · simp [htarget]

/-- A target id goes on standing for an object unless that object is among those
    forgotten and carries the id. -/
theorem get?_releaseAll {es : List (ObjectId × SceneObject)} {t : Targets} {target : String}
    {id : ObjectId} :
    (t.releaseAll es).get? target = some id ↔
      t.get? target = some id ∧ ∀ e ∈ es, ¬(e.1 = id ∧ e.2.targetId = some target) := by
  induction es generalizing t with
  | nil => simp [releaseAll]
  | cons e es ih =>
      have hstep : t.releaseAll (e :: es) = (t.releaseFor e.1 e.2).releaseAll es := rfl
      rw [hstep, ih, get?_releaseFor, List.forall_mem_cons, and_assoc]

end Targets

/-! ### Layers -/

namespace Layers

/-- The groups under the key of a layer. -/
def groupsOf (l : Layers) (key : String) : List ObjectId :=
  (l.groups.get? key).getD []

theorem members_eq (l : Layers) (name : String) :
    l.members name = (l.parse? name).elim [] l.groupsOf := by
  unfold members
  cases l.parse? name <;> rfl

/-- How a name is read depends on the declared layers only. -/
theorem parse?_congr {l l' : Layers} (h : l'.declared = l.declared) : l'.parse? = l.parse? := by
  funext name
  simp only [parse?, h]

/-- The objects among some whose layer has a key, in their order. -/
def grouped (l : Layers) (key : String) (es : List (ObjectId × SceneObject)) : List ObjectId :=
  (es.filter fun e => e.2.layerGroup.bind l.parse? = some key).map Prod.fst

theorem grouped_congr {l l' : Layers} (h : l'.declared = l.declared) (key : String)
    (es : List (ObjectId × SceneObject)) : l'.grouped key es = l.grouped key es := by
  simp only [grouped, parse?_congr h]

theorem grouped_append (l : Layers) (key : String) (es es' : List (ObjectId × SceneObject)) :
    l.grouped key (es ++ es') = l.grouped key es ++ l.grouped key es' := by
  simp [grouped]

theorem declared_joinFor (id : ObjectId) (o : SceneObject) (l : Layers) :
    (l.joinFor id o).2.declared = l.declared := by
  unfold joinFor join
  split
  · rfl
  · split
    · rfl
    · simp only
      split <;> rfl

/-- An object that joins becomes a group under the key of its layer, unless it is one
    already. -/
theorem groupsOf_joinFor (id : ObjectId) (o : SceneObject) (l : Layers) (key : String) :
    (l.joinFor id o).2.groupsOf key =
      l.groupsOf key ++ unseen (l.groupsOf key) (l.grouped key [(id, o)]) := by
  rcases ho : o.layerGroup with _ | name
  · simp [joinFor, ho, grouped, unseen]
  rcases hname : l.parse? name with _ | own
  · simp [joinFor, join, ho, hname, grouped, unseen]
  by_cases hown : own = key
  · -- It joins the layer in question.
    subst hown
    by_cases hmem : id ∈ l.groupsOf own
    · have hmem' : id ∈ (l.groups.get? own).getD [] := hmem
      simp [joinFor, join, ho, hname, grouped, unseen, hmem, hmem']
    · have hmem' : id ∉ (l.groups.get? own).getD [] := hmem
      simp only [joinFor, join, ho, hname, hmem', ↓reduceIte]
      simp [groupsOf, OrderedMap.get?_insert, grouped, unseen, ho, hname, hmem']
  · -- It joins another layer.
    have hgrouped : l.grouped key [(id, o)] = [] := by
      simp [grouped, ho, hname, hown]
    rw [hgrouped]
    simp only [joinFor, join, ho, hname]
    split
    · simp [unseen]
    · simp [groupsOf, OrderedMap.get?_insert, unseen, Ne.symm hown]

theorem declared_joinAll (es : List (ObjectId × SceneObject)) (l : Layers) :
    (l.joinAll es).2.declared = l.declared := by
  induction es generalizing l with
  | nil => rfl
  | cons e es ih => exact (ih _).trans (declared_joinFor e.1 e.2 l)

/-- Registering some objects adds those that name a layer to its groups, in their
    order, and each of them once. -/
theorem groupsOf_joinAll (es : List (ObjectId × SceneObject)) (l : Layers) (key : String) :
    (l.joinAll es).2.groupsOf key =
      l.groupsOf key ++ unseen (l.groupsOf key) (l.grouped key es) := by
  induction es generalizing l with
  | nil => simp [joinAll, grouped, unseen]
  | cons e es ih =>
      have hstep : (l.joinAll (e :: es)).2 = ((l.joinFor e.1 e.2).2.joinAll es).2 := rfl
      have hsplit : l.grouped key (e :: es) = l.grouped key [(e.1, e.2)] ++ l.grouped key es :=
        l.grouped_append key [e] es
      rw [hstep, ih, groupsOf_joinFor, grouped_congr (declared_joinFor e.1 e.2 l), hsplit,
        unseen_append, List.append_assoc]
      congr 2
      refine unseen_congr (fun x => ?_) _
      rw [List.mem_append, List.mem_append, or_comm]

/-- Make some objects groups of no layer. -/
def leaveAll (ids : List ObjectId) (l : Layers) : Layers :=
  ids.foldl (fun l id => l.leave id) l

theorem groupsOf_leave (id : ObjectId) (l : Layers) (key : String) :
    (l.leave id).groupsOf key = (l.groupsOf key).filter (· ≠ id) := by
  exact OrderedMap.getD_get?_prune (· ≠ id) l.groups key

theorem declared_leaveAll (ids : List ObjectId) (l : Layers) :
    (l.leaveAll ids).declared = l.declared := by
  induction ids generalizing l with
  | nil => rfl
  | cons id ids ih => exact ih (l.leave id)

theorem groupsOf_leaveAll (ids : List ObjectId) (l : Layers) (key : String) :
    (l.leaveAll ids).groupsOf key = (l.groupsOf key).filter (· ∉ ids) := by
  induction ids generalizing l with
  | nil => simp [leaveAll]
  | cons id ids ih =>
      have hstep : l.leaveAll (id :: ids) = (l.leave id).leaveAll ids := rfl
      rw [hstep, ih, groupsOf_leave, List.filter_filter]
      apply List.filter_congr
      intro x _
      simp [Bool.and_comm]

end Layers

/-! ### Keys -/

/-- The key that starts the runs of an object's trigger, if the trigger names one. -/
def Library.triggerKey? (graphs : Library) (o : SceneObject) : Option Key :=
  o.keyTrigger.bind graphs.keyOf?

namespace Bindings

theorem ofKey_bind (key key' : Key) (k : KeyBinding) (b : Bindings) :
    (b.bind key k).ofKey key' =
      if key' = key ∧ (b.ofKey key).any (·.object = k.object) = false then b.ofKey key ++ [k]
      else b.ofKey key' := by
  unfold bind
  rcases hbound : (b.ofKey key).any (·.object = k.object) with _ | _
  · simp only [hbound, Bool.false_eq_true, ↓reduceIte, and_true]
    rw [ofKey, OrderedMap.get?_insert]
    split
    · rfl
    · rfl
  · simp only [hbound, ↓reduceIte, Bool.true_eq_false, and_false]

/-- Binding an object binds it to no key twice. -/
theorem nodup_ofKey_bind {b : Bindings} (h : ∀ key, ((b.ofKey key).map (·.object)).Nodup)
    (key : Key) (k : KeyBinding) (key' : Key) :
    (((b.bind key k).ofKey key').map (·.object)).Nodup := by
  rw [ofKey_bind]
  split
  · next hfree =>
      -- The object is not among those bound to the key.
      have hother : k.object ∉ (b.ofKey key).map (·.object) := by
        have hnone := hfree.2
        simp only [List.any_eq_false, decide_eq_true_eq] at hnone
        simpa using hnone
      rw [List.map_append, List.nodup_append]
      refine ⟨h key, by simp, ?_⟩
      intro x hx y hy heq
      rw [List.map_singleton, List.mem_singleton] at hy
      rw [heq, hy] at hx
      exact hother hx
  · exact h key'

theorem bindTrigger_eq (graphs : Library) (w : World) (id : ObjectId) (b : Bindings) :
    (b.bindTrigger graphs w id).2 =
      match w.get? id with
      | none => b
      | some o => (graphs.triggerKey? o).elim b fun key => b.bind key ⟨id, o.scene⟩ := by
  unfold bindTrigger Library.triggerKey?
  rcases w.get? id with _ | o
  · rfl
  · simp only
    cases o.keyTrigger.bind graphs.keyOf? <;> rfl

theorem bindTriggers_cons (graphs : Library) (w : World) (id : ObjectId) (ids : List ObjectId)
    (b : Bindings) :
    (b.bindTriggers graphs w (id :: ids)).2 =
      ((b.bindTrigger graphs w id).2.bindTriggers graphs w ids).2 :=
  rfl

/-- What holds of bindings, and goes on to hold when one of the objects is bound to the key that
    its trigger names, holds after all of them were. -/
theorem bindTriggers_induction {P : Bindings → Prop} {graphs : Library} {w : World}
    {ids : List ObjectId} {b : Bindings} (h : P b)
    (hbind : ∀ b id o key, id ∈ ids → w.get? id = some o → graphs.triggerKey? o = some key →
      P b → P (b.bind key ⟨id, o.scene⟩)) :
    P (b.bindTriggers graphs w ids).2 := by
  induction ids generalizing b with
  | nil => exact h
  | cons id ids ih =>
      rw [bindTriggers_cons]
      refine ih ?_ fun b' id' o key hid => hbind b' id' o key (List.mem_cons_of_mem id hid)
      rw [bindTrigger_eq]
      rcases hget : w.get? id with _ | o
      · exact h
      · simp only
        rcases hkey : graphs.triggerKey? o with _ | key
        · exact h
        · exact hbind b id o key List.mem_cons_self hget hkey h

theorem ofKey_unbind (doomed : KeyBinding → Bool) (b : Bindings) (key : Key) :
    (b.unbind doomed).2.ofKey key = (b.ofKey key).filter fun k => !doomed k := by
  exact OrderedMap.getD_get?_prune (fun k => !doomed k) b.keys key

/-- Unbind some objects. -/
def unbindAll (ids : List ObjectId) (b : Bindings) : Bindings :=
  ids.foldl (fun b id => b.unbindObject id) b

theorem ofKey_unbindAll (ids : List ObjectId) (b : Bindings) (key : Key) :
    (b.unbindAll ids).ofKey key = (b.ofKey key).filter fun k => k.object ∉ ids := by
  induction ids generalizing b with
  | nil => simp [unbindAll]
  | cons id ids ih =>
      have hstep : b.unbindAll (id :: ids) = (b.unbindObject id).unbindAll ids := rfl
      rw [hstep, ih, unbindObject, ofKey_unbind, List.filter_filter]
      apply List.filter_congr
      intro k _
      simp [Bool.and_comm]

end Bindings

end BehaviorGraph
