import BehaviorGraph.Scene.Layers
import BehaviorGraph.Session.Perform
/-!
# What Switching Sees and Keeps

Switching layers and objects changes active flags, and nothing else.

Baking writes two things into the objects of a world: target ids, and the
triggers that clicks start. Nothing that switches looks at either. So a world
can be stripped of both before it is switched or after, and the answers that come
back are the same. That is what lets a run in the world that a graph was baked
against be compared with one in the world as it was authored: the two are equal
once stripped.

What switching leaves in place is all the rest. A world with every object woken is the
same before and after, so whatever is known of objects but for their active flags
lasts: their actions, which a run that switches objects goes on to call, and what is
registered about them.

## Main definitions

* `SceneObject.untagged`: An object without target id and click trigger.
* `World.untagged`: A world of such objects.
* `World.awake`: The world with every object active.
* `World.actions`: The actions of every object.
* `World.switchAll`: Switch some objects, one after the other.

## Theorems

* `World.get?_untagged`: What stands in a stripped world.
* `World.untagged_update`, `World.untagged_update_of_tag`: Changing an object
  before or after its world is stripped.
* `World.switchAll_untagged`, `Layers.switch_untagged`: Switching does not look
  at tags.
* `World.awake_switchAll`, `Layers.awake_switch`: Switching changes nothing but
  active flags.
* `World.actions_of_awake`: So it keeps actions.
* `World.switchAll_filter`: Switching what is not there does nothing.
-/

namespace BehaviorGraph

namespace OrderedMap

universe u v w

variable {κ : Type u} {ν : Type v} {μ : Type w} [DecidableEq κ]

theorem get?_mapValues (f : κ → ν → μ) (m : OrderedMap κ ν) (k : κ) :
    (m.mapValues f).get? k = (m.get? k).map (f k) := by
  rcases hg : m.get? k with _ | v
  · have hmissing : (m.mapValues f).get? k = none := by
      rw [get?_eq_none_iff, keys_mapValues]
      exact get?_eq_none_iff.1 hg
    simpa using hmissing
  · have hmem : (k, f k v) ∈ (m.mapValues f).entries :=
      List.mem_map.2 ⟨(k, v), get?_eq_some_iff.1 hg, rfl⟩
    simpa using get?_eq_some_iff.2 hmem

/-- A change that leaves the value as it is, or finds none, changes nothing. -/
theorem update_eq_self {m : OrderedMap κ ν} {k : κ} {f : ν → ν}
    (h : ∀ v, m.get? k = some v → f v = v) : m.update k f = m := by
  ext1
  -- The change is made at every entry with the key, and each such entry is found.
  have hsame : ∀ e ∈ m.entries, (e.1, if e.1 = k then f e.2 else e.2) = e := by
    intro e he
    by_cases hk : e.1 = k
    · have hget : m.get? k = some e.2 := by
        rw [← hk, get?_eq_some_iff]
        exact he
      rw [if_pos hk, h e.2 hget]
    · rw [if_neg hk]
  exact (List.map_congr_left hsame).trans (List.map_id _)

end OrderedMap

/-- The object without what baking writes into it. -/
def SceneObject.untagged (o : SceneObject) : SceneObject :=
  { o with targetId := none, clickTrigger := none }

namespace World

/-- The world without what baking writes into its objects. -/
def untagged (w : World) : World :=
  w.mapValues fun _ o => o.untagged

theorem get?_untagged (w : World) (id : ObjectId) :
    w.untagged.get? id = (w.get? id).map SceneObject.untagged :=
  OrderedMap.get?_mapValues _ w id

theorem contains_untagged (w : World) (id : ObjectId) :
    w.untagged.contains id = w.contains id := by
  simp only [OrderedMap.contains, get?_untagged, Option.isSome_map]

/-- Active flags are no tags. -/
theorem active_untagged (w : World) (id : ObjectId) :
    (w.untagged.get? id).map SceneObject.active = (w.get? id).map SceneObject.active := by
  rw [get?_untagged, Option.map_map]
  rfl

theorem isActive_untagged (w : World) (id : ObjectId) :
    w.untagged.isActive id = w.isActive id := by
  simp only [isActive, get?_untagged]
  rcases w.get? id with _ | o
  · rfl
  · rfl

/-- A change that is seen as another one once tags are stripped. -/
theorem untagged_update {f g : SceneObject → SceneObject}
    (hf : ∀ o, (f o).untagged = g o.untagged) (id : ObjectId) (w : World) :
    untagged (w.update id f) = w.untagged.update id g := by
  ext1
  simp only [untagged, OrderedMap.update, OrderedMap.mapValues, List.map_map]
  apply List.map_congr_left
  rintro ⟨k, o⟩ -
  simp only [Function.comp_apply]
  split
  · rw [hf]
  · rfl

/-- A change of tags is not seen once they are stripped. -/
theorem untagged_update_of_tag {f : SceneObject → SceneObject}
    (hf : ∀ o, (f o).untagged = o.untagged) (id : ObjectId) (w : World) :
    untagged (w.update id f) = w.untagged := by
  -- It is seen as a change of nothing.
  have hsame : untagged (w.update id f) = w.untagged.update id fun o => o :=
    untagged_update hf id w
  rw [hsame]
  exact OrderedMap.update_eq_self fun _ _ => rfl

/-- The actions of every object. -/
def actions (w : World) : OrderedMap ObjectId (ActionTable Action) :=
  w.mapValues fun _ o => o.actions

theorem get?_actions (w : World) (id : ObjectId) :
    w.actions.get? id = (w.get? id).map SceneObject.actions :=
  OrderedMap.get?_mapValues _ w id

/-- Worlds with the same actions have the same objects. -/
theorem contains_actions (w : World) (id : ObjectId) : w.actions.contains id = w.contains id := by
  simp only [OrderedMap.contains, get?_actions, Option.isSome_map]

theorem actions_untagged (w : World) : w.untagged.actions = w.actions := by
  ext1
  simp [actions, untagged, OrderedMap.mapValues, SceneObject.untagged]

/-- The world with every object active, which is all that switching keeps of it. -/
def awake (w : World) : World :=
  w.mapValues fun _ o => { o with active := true }

theorem get?_awake (w : World) (id : ObjectId) :
    w.awake.get? id = (w.get? id).map fun o => { o with active := true } :=
  OrderedMap.get?_mapValues _ w id

theorem contains_awake (w : World) (id : ObjectId) : w.awake.contains id = w.contains id := by
  simp only [OrderedMap.contains, get?_awake, Option.isSome_map]

/-- What is read off an object without regard to its active flag is the same in two worlds that
    differ in active flags only. -/
theorem bind_get?_of_awake {w w' : World} (h : w'.awake = w.awake) {β : Type}
    {f : SceneObject → Option β} (hf : ∀ o, f { o with active := true } = f o) (id : ObjectId) :
    (w'.get? id).bind f = (w.get? id).bind f := by
  have hbind : ∀ w : World, (w.awake.get? id).bind f = (w.get? id).bind f := by
    intro w
    rw [get?_awake]
    cases w.get? id with
    | none => rfl
    | some o => exact hf o
  rw [← hbind, h, hbind]

/-- A change of an object's active flag is not seen once all are woken. -/
theorem awake_update {f : SceneObject → SceneObject}
    (hf : ∀ o, { f o with active := true } = { o with active := true }) (id : ObjectId)
    (w : World) : awake (w.update id f) = w.awake := by
  ext1
  simp only [awake, OrderedMap.update, OrderedMap.mapValues, List.map_map]
  apply List.map_congr_left
  rintro ⟨k, o⟩ -
  simp only [Function.comp_apply]
  split
  · rw [hf]
  · rfl

/-- Active flags are no actions. -/
theorem actions_awake (w : World) : w.awake.actions = w.actions := by
  ext1
  simp [actions, awake, OrderedMap.mapValues]

theorem actions_of_awake {w w' : World} (h : w'.awake = w.awake) : w'.actions = w.actions := by
  rw [← actions_awake, h, actions_awake]

/-! ### Switching -/

theorem setActive_untagged (id : ObjectId) (active : Bool) (w : World) :
    w.untagged.setActive id active =
      ((w.setActive id active).1, untagged (w.setActive id active).2) := by
  simp only [setActive, contains_untagged]
  rw [untagged_update]
  intro o
  rfl

theorem toggleActive_untagged (id : ObjectId) (w : World) :
    w.untagged.toggleActive id = ((w.toggleActive id).1, untagged (w.toggleActive id).2) := by
  simp only [toggleActive, get?_untagged, Option.map_map]
  rw [untagged_update]
  · rfl
  · intro o
    rfl

theorem switch_untagged (s : Switch) (id : ObjectId) (w : World) :
    w.untagged.switch s id = ((w.switch s id).1, untagged (w.switch s id).2) := by
  rcases s with _ | _ | _
  · exact w.setActive_untagged id true
  · exact w.setActive_untagged id false
  · simp only [switch, toggleActive_untagged]

theorem setActiveAll_untagged (ids : List ObjectId) (active : Bool) (w : World) :
    w.untagged.setActiveAll ids active = untagged (w.setActiveAll ids active) := by
  induction ids generalizing w with
  | nil => rfl
  | cons id ids ih =>
      have hstep : (w.untagged.setActive id active).2 = untagged (w.setActive id active).2 := by
        rw [setActive_untagged]
      simp only [setActiveAll, List.foldl_cons] at ih ⊢
      rw [hstep, ih]

/-- Switch some objects, one after the other. Returns how many there are. -/
def switchAll (s : Switch) : List ObjectId → World → Nat × World
  | [], w => (0, w)
  | id :: ids, w =>
    let (found, w) := w.switch s id
    let (count, w) := w.switchAll s ids
    (count + found.toNat, w)

theorem switchAll_untagged (s : Switch) (ids : List ObjectId) (w : World) :
    w.untagged.switchAll s ids = ((w.switchAll s ids).1, untagged (w.switchAll s ids).2) := by
  induction ids generalizing w with
  | nil => rfl
  | cons id ids ih => simp only [switchAll, switch_untagged, ih]

theorem awake_setActive (id : ObjectId) (active : Bool) (w : World) :
    awake (w.setActive id active).2 = w.awake := by
  apply awake_update
  intro o
  rfl

theorem awake_switch (s : Switch) (id : ObjectId) (w : World) :
    awake (w.switch s id).2 = w.awake := by
  rcases s with _ | _ | _
  · exact w.awake_setActive id true
  · exact w.awake_setActive id false
  · apply awake_update
    intro o
    rfl

theorem awake_setActiveAll (ids : List ObjectId) (active : Bool) (w : World) :
    awake (w.setActiveAll ids active) = w.awake := by
  induction ids generalizing w with
  | nil => rfl
  | cons id ids ih =>
      simp only [setActiveAll, List.foldl_cons] at ih ⊢
      rw [ih, awake_setActive]

theorem awake_switchAll (s : Switch) (ids : List ObjectId) (w : World) :
    awake (w.switchAll s ids).2 = w.awake := by
  induction ids generalizing w with
  | nil => rfl
  | cons id ids ih => simp only [switchAll, ih, awake_switch]

theorem contains_switch (s : Switch) (id id' : ObjectId) (w : World) :
    (w.switch s id).2.contains id' = w.contains id' := by
  rw [← contains_awake, awake_switch, contains_awake]

/-- Switching an object tells whether it is there. -/
theorem switch_fst (s : Switch) (id : ObjectId) (w : World) :
    (w.switch s id).1 = w.contains id := by
  rcases s with _ | _ | _
  · rfl
  · rfl
  · simp only [switch, toggleActive, Option.isSome_map, OrderedMap.contains]

/-- Switching an object that is not there changes nothing. -/
theorem switch_of_not_contains {id : ObjectId} {w : World} (h : w.contains id = false)
    (s : Switch) : w.switch s id = (false, w) := by
  have hnone : w.get? id = none := by
    simpa [OrderedMap.contains] using h
  -- All switching is an update of the object.
  have hupdate : ∀ f, w.update id f = w := by
    intro f
    apply OrderedMap.update_eq_self
    intro o ho
    rw [hnone] at ho
    exact absurd ho (by simp)
  rcases s with _ | _ | _
  · simp only [switch, setActive, h, hupdate]
  · simp only [switch, setActive, h, hupdate]
  · simp only [switch, toggleActive, hnone, hupdate, Option.map_none, Option.isSome_none]

/-- Objects that are not there can be left out. -/
theorem switchAll_filter (s : Switch) (ids : List ObjectId) (w : World) :
    w.switchAll s (ids.filter w.contains) = w.switchAll s ids := by
  induction ids generalizing w with
  | nil => rfl
  | cons id ids ih =>
      rcases h : w.contains id with _ | _
      · -- Left out or not, an object that is not there counts for nothing.
        rw [List.filter_cons_of_neg (by simp [h]), ih]
        simp only [switchAll, switch_of_not_contains h, Bool.toNat_false, Nat.add_zero]
      · -- The other objects are there after the switch exactly if they were before.
        have hrest : ids.filter w.contains = ids.filter (w.switch s id).2.contains := by
          apply List.filter_congr
          intro id' _
          rw [contains_switch]
        rw [List.filter_cons_of_pos h, hrest]
        simp only [switchAll, ih]

end World

namespace Layers

variable (l : Layers)

theorem setVisible_untagged (name : String) (visible : Bool) (w : World) :
    l.setVisible name visible w.untagged =
      ((l.setVisible name visible w).1, World.untagged (l.setVisible name visible w).2) := by
  simp only [setVisible, World.setActiveAll_untagged]

theorem isVisible_untagged (w : World) (name : String) :
    l.isVisible w.untagged name = l.isVisible w name := by
  have hactive : w.untagged.isActive = w.isActive := funext w.isActive_untagged
  simp only [isVisible, hactive]

theorem setVisibleAll_untagged (visible : Bool) (names : List String) (w : World) :
    l.setVisibleAll visible names w.untagged =
      ((l.setVisibleAll visible names w).1,
        World.untagged (l.setVisibleAll visible names w).2) := by
  induction names generalizing w with
  | nil => rfl
  | cons name names ih => simp only [setVisibleAll, setVisible_untagged, ih]

theorem toggle_untagged (names : List String) (w : World) :
    l.toggle names w.untagged = ((l.toggle names w).1, World.untagged (l.toggle names w).2) := by
  induction names generalizing w with
  | nil => rfl
  | cons name names ih => simp only [toggle, setVisible_untagged, isVisible_untagged, ih]

theorem switch_untagged (s : Switch) (names : List String) (w : World) :
    l.switch s names w.untagged =
      ((l.switch s names w).1, World.untagged (l.switch s names w).2) := by
  rcases s with _ | _ | _
  · exact l.setVisibleAll_untagged true names w
  · exact l.setVisibleAll_untagged false names w
  · exact l.toggle_untagged names w

theorem awake_setVisible (name : String) (visible : Bool) (w : World) :
    World.awake (l.setVisible name visible w).2 = w.awake := by
  rw [setVisible, World.awake_setActiveAll]

theorem awake_setVisibleAll (visible : Bool) (names : List String) (w : World) :
    World.awake (l.setVisibleAll visible names w).2 = w.awake := by
  induction names generalizing w with
  | nil => rfl
  | cons name names ih => simp only [setVisibleAll, ih, awake_setVisible]

theorem awake_toggle (names : List String) (w : World) :
    World.awake (l.toggle names w).2 = w.awake := by
  induction names generalizing w with
  | nil => rfl
  | cons name names ih => simp only [toggle, ih, awake_setVisible]

theorem awake_switch (s : Switch) (names : List String) (w : World) :
    World.awake (l.switch s names w).2 = w.awake := by
  rcases s with _ | _ | _
  · exact l.awake_setVisibleAll true names w
  · exact l.awake_setVisibleAll false names w
  · exact l.awake_toggle names w

end Layers

end BehaviorGraph
