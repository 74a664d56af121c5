import BehaviorGraph.Proofs.Toggling
import BehaviorGraph.Proofs.Unloading
/-!
# Canonical Layer Keys

Why it does not matter by which of its names a layer is called.

The groups of layers are kept under keys, and nobody outside ever sees a key that is not a name.
A group joins under the key that a name means, and since that key is a name for itself, all keys
of the map mean themselves. They go on doing so, for what a name means depends on the declared
layers, which never change. Keys without groups do not stay either, so the keys of the map are
exactly the names that mean themselves and have groups.

All that can be asked of a layer by name, and all that can be done to it, goes through the key.
Two names with one key are then one name, also in the middle of a list of names that are switched
one after the other.

## Main definitions

* `LayerEdit`: What can be done to the groups of layers.
* `Layers.edited`: The layers after some edits.
* `Layers.Canonical`: All keys mean themselves, and none stands without groups.

## Theorems

* `Layers.edit_cases`: The three kinds of edit.
* `Layers.Canonical.edit`, `Layers.Canonical.edited`: Edits keep the keys canonical.
* `Layers.Canonical.mem_names_iff`: Which keys there are.
* `Layers.switch_exchange`: Exchanging a name for another one of the same layer.
* `Layers.layer_keys_canonical`: All of this together.
-/

namespace BehaviorGraph

/-- What can be done to the groups of layers. -/
inductive LayerEdit where
  /-- An object joins the layer that a name means. -/
  | join (name : String) (id : ObjectId)
  /-- An object joins the layer that it names. -/
  | joinFor (id : ObjectId) (o : SceneObject)
  /-- The objects of a scene join the layers that they name. -/
  | joinScene (w : World) (scene : String)
  /-- An object leaves every layer. -/
  | leave (id : ObjectId)
  /-- All groups are forgotten. -/
  | clear

namespace Layers

/-- The layers after an edit. -/
def edit (e : LayerEdit) (l : Layers) : Layers :=
  match e with
  | .join name id => (l.join name id).2
  | .joinFor id o => (l.joinFor id o).2
  | .joinScene w scene => (l.joinScene w scene).2
  | .leave id => l.leave id
  | .clear => l.clear

/-- The layers after some edits. -/
def edited (l : Layers) (edits : List LayerEdit) : Layers :=
  edits.foldl (fun l e => l.edit e) l

variable {l : Layers} {key name name' : String}

theorem edited_append (l : Layers) (edits later : List LayerEdit) :
    l.edited (edits ++ later) = (l.edited edits).edited later :=
  List.foldl_append

theorem joinFor_eq_join {o : SceneObject} (h : o.layerGroup = some name) (id : ObjectId)
    (l : Layers) : l.joinFor id o = l.join name id := by
  rw [joinFor, h]

theorem joinAll_singleton (id : ObjectId) (o : SceneObject) (l : Layers) :
    (l.joinAll [(id, o)]).2 = (l.joinFor id o).2 :=
  rfl

/-- Who joins by name does so like an object that names the layer. So every edit makes some
    objects join, makes one leave, or forgets all groups. -/
theorem edit_cases (e : LayerEdit) (l : Layers) :
    (∃ es, l.edit e = (l.joinAll es).2) ∨ (∃ id, l.edit e = l.leave id) ∨ l.edit e = l.clear := by
  cases e with
  | join name id =>
      -- The layer is all that joining looks at, so the rest of the object does not matter.
      refine Or.inl ⟨[(id, { name := "", scene := "", layerGroup := some name })], ?_⟩
      rw [joinAll_singleton, joinFor_eq_join rfl, edit]
  | joinFor id o => exact Or.inl ⟨[(id, o)], (joinAll_singleton id o l).symm⟩
  | joinScene w scene => exact Or.inl ⟨w.inScene scene, rfl⟩
  | leave id => exact Or.inr (Or.inl ⟨id, rfl⟩)
  | clear => exact Or.inr (Or.inr rfl)

theorem declared_edit (e : LayerEdit) (l : Layers) : (l.edit e).declared = l.declared := by
  rcases edit_cases e l with ⟨es, h⟩ | ⟨id, h⟩ | h
  · rw [h, declared_joinAll]
  · rw [h]
    rfl
  · rw [h]
    rfl

theorem declared_edited (edits : List LayerEdit) (l : Layers) :
    (l.edited edits).declared = l.declared := by
  induction edits generalizing l with
  | nil => rfl
  | cons e edits ih => exact (ih (l.edit e)).trans (declared_edit e l)

/-! ### Which keys there are -/

/-- All keys that have groups mean themselves, and no others stand in the map. -/
structure Canonical (l : Layers) : Prop where
  /-- A key under which there are groups is a name for itself. -/
  means : ∀ key, l.groupsOf key ≠ [] → l.parse? key = some key
  /-- No key stands without groups. -/
  filled : l.groups.Filled

theorem mem_names_of_groupsOf (h : l.groupsOf key ≠ []) : key ∈ l.names := by
  by_contra hkey
  refine h ?_
  rw [groupsOf, OrderedMap.get?_eq_none_iff.2 hkey]
  rfl

theorem groupsOf_ne_nil (h : l.groups.Filled) (hkey : key ∈ l.names) : l.groupsOf key ≠ [] := by
  rcases List.mem_map.1 hkey with ⟨e, he, rfl⟩
  rw [groupsOf, OrderedMap.get?_eq_some_iff.2 he]
  exact h e he

/-- The keys of the map are the names that mean themselves and have groups. -/
theorem Canonical.mem_names_iff (h : l.Canonical) :
    key ∈ l.names ↔ l.parse? key = some key ∧ l.members key ≠ [] := by
  constructor
  · intro hkey
    have hgroups := groupsOf_ne_nil h.filled hkey
    have hself := h.means key hgroups
    exact ⟨hself, by rwa [members_of_parse? hself]⟩
  · rintro ⟨hself, hmembers⟩
    rw [members_of_parse? hself] at hmembers
    exact mem_names_of_groupsOf hmembers

/-! ### What edits keep -/

theorem canonical_declare (names : List String) : (declare names).Canonical where
  means _ h := absurd rfl h
  filled _ he := absurd he List.not_mem_nil

theorem Canonical.joinAll (h : l.Canonical) (es : List (ObjectId × SceneObject)) :
    (l.joinAll es).2.Canonical := by
  refine ⟨fun key hkey => ?_, filled_joinAll es h.filled⟩
  rw [parse?_congr (declared_joinAll es l)]
  rcases List.exists_mem_of_ne_nil _ hkey with ⟨id, hid⟩
  -- The group was there before, or it has joined by a name that means the key.
  rcases mem_groupsOf_joinAll.1 hid with hold | ⟨o, -, hnames⟩
  · exact h.means key (List.ne_nil_of_mem hold)
  · rcases Option.bind_eq_some_iff.1 hnames with ⟨name, -, hname⟩
    exact l.parse?_of_parse? hname

theorem Canonical.leave (h : l.Canonical) (id : ObjectId) : (l.leave id).Canonical := by
  refine ⟨fun key hkey => h.means key ?_, OrderedMap.filled_prune _ _⟩
  -- Where a group is left there was one before.
  intro hnone
  refine hkey ?_
  rw [groupsOf_leave, hnone, List.filter_nil]

theorem Canonical.clear (l : Layers) : l.clear.Canonical where
  means _ h := absurd rfl h
  filled _ he := absurd he List.not_mem_nil

theorem Canonical.edit (h : l.Canonical) (e : LayerEdit) : (l.edit e).Canonical := by
  rcases edit_cases e l with ⟨es, heq⟩ | ⟨id, heq⟩ | heq
  · rw [heq]
    exact h.joinAll es
  · rw [heq]
    exact h.leave id
  · rw [heq]
    exact Canonical.clear l

/-- No row of edits brings a key that does not mean itself, or leaves one without groups. -/
theorem Canonical.edited (h : l.Canonical) (edits : List LayerEdit) :
    (l.edited edits).Canonical := by
  induction edits generalizing l with
  | nil => exact h
  | cons e edits ih => exact ih (h.edit e)

/-! ### Names of one layer -/

section Exchange

variable (h : l.parse? name = l.parse? name')
include h

theorem members_exchange : l.members name = l.members name' := by
  rw [members_eq, members_eq, h]

theorem setVisible_exchange (visible : Bool) (w : World) :
    l.setVisible name visible w = l.setVisible name' visible w := by
  rw [setVisible, setVisible, members_exchange h]

theorem isVisible_exchange (w : World) : l.isVisible w name = l.isVisible w name' := by
  rw [isVisible, isVisible, members_exchange h]

theorem setVisibleAll_exchange (visible : Bool) (before after : List String) (w : World) :
    l.setVisibleAll visible (before ++ name :: after) w =
      l.setVisibleAll visible (before ++ name' :: after) w := by
  induction before generalizing w with
  | nil => simp only [List.nil_append, setVisibleAll, setVisible_exchange h]
  | cons first before ih => simp only [List.cons_append, setVisibleAll, ih]

theorem toggle_exchange (before after : List String) (w : World) :
    l.toggle (before ++ name :: after) w = l.toggle (before ++ name' :: after) w := by
  induction before generalizing w with
  | nil => simp only [List.nil_append, toggle, setVisible_exchange h, isVisible_exchange h]
  | cons first before ih => simp only [List.cons_append, toggle, ih]

/-- Among the names of a list that is switched, one can be exchanged for another that means
    the same layer. -/
theorem switch_exchange (s : Switch) (before after : List String) (w : World) :
    l.switch s (before ++ name :: after) w = l.switch s (before ++ name' :: after) w := by
  cases s with
  | on => exact setVisibleAll_exchange h true before after w
  | off => exact setVisibleAll_exchange h false before after w
  | _ => exact toggle_exchange h before after w

end Exchange

/-- Keys of layers are canonical, whatever layers are declared: a key that a name means is a name
    for itself. After every row of edits, names mean what they meant before; all keys of the map
    of groups mean themselves, and have groups; the layers that are listed are the names that
    mean themselves and have groups, each once; and two names that mean the same layer, or both
    none, have the same groups, are visible together, and can stand for each other in what is
    shown, hidden or toggled. -/
theorem layer_keys_canonical (names : List String) :
    (∀ name key, (declare names).parse? name = some key →
      (declare names).parse? key = some key) ∧
    ∀ edits : List LayerEdit,
      let l := (declare names).edited edits
      l.parse? = (declare names).parse? ∧
      (∀ key ∈ l.groups.keys, l.parse? key = some key) ∧
      (∀ e ∈ l.groups.entries, e.2 ≠ []) ∧
      l.names.Nodup ∧
      (∀ key, key ∈ l.names ↔ l.parse? key = some key ∧ l.members key ≠ []) ∧
      ∀ name name', l.parse? name = l.parse? name' →
        l.members name = l.members name' ∧
        (∀ visible w, l.setVisible name visible w = l.setVisible name' visible w) ∧
        (∀ w, l.isVisible w name = l.isVisible w name') ∧
        ∀ s before after w,
          l.switch s (before ++ name :: after) w = l.switch s (before ++ name' :: after) w := by
  refine ⟨fun name key => (declare names).parse?_of_parse?, fun edits => ?_⟩
  intro l
  have hl : l.Canonical := (canonical_declare names).edited edits
  have hparse : l.parse? = (declare names).parse? := parse?_congr (declared_edited edits _)
  refine ⟨hparse, fun key hkey => ?_, hl.filled, l.groups.nodup, fun key => hl.mem_names_iff, ?_⟩
  · exact (hl.mem_names_iff.1 hkey).1
  · intro name name' h
    exact ⟨members_exchange h, setVisible_exchange h, isVisible_exchange h, switch_exchange h⟩

end Layers

end BehaviorGraph
