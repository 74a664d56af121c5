import BehaviorGraph.Proofs.Ancestry
import BehaviorGraph.Proofs.BreadthFirst
/-!
# Removing a Subtree

What goes when an object is removed, in which order, and what is left.

An object takes its descendants along. These are found by a walk that goes from an object to
its children, though the objects know their parents only; and parents may be missing, belong
to another scene, be younger than their children, or run in a circle. The walk ends whatever
they do. Each child is the key of an entry, and no object is queued twice.

What the walk finds are the objects from which parents lead to the one removed. An object
has one parent at most, so the only way to it is through that parent, and the parent comes
first; on a circle this holds of every object but the one removed. Nobody is left
behind who names a parent that is gone, as a child of a descendant is a descendant too.

## Theorems

* `World.mem_children_iff`: Children are those that name the object as their parent.
* `World.walks_subtree`: The walk over the descendants ends.
* `World.mem_subtree_iff`: It finds the objects from which parents lead to the start.
* `World.map_fst_despawn`: All of them are removed.
* `World.entries_despawn`: The others stay.
* `World.despawn_subtree`: All of this together.
-/

namespace BehaviorGraph

namespace OrderedMap

variable {κ ν : Type} [DecidableEq κ]

/-- The entries under some keys, as they are looked up one after the other. -/
theorem mem_filterMap_get? {m : OrderedMap κ ν} {ks : List κ} {e : κ × ν} :
    e ∈ (ks.filterMap fun k => (m.get? k).map fun v => (k, v)) ↔ e.1 ∈ ks ∧ e ∈ m.entries := by
  simp only [List.mem_filterMap, Option.map_eq_some_iff]
  constructor
  · rintro ⟨k, hk, v, hv, rfl⟩
    exact ⟨hk, get?_eq_some_iff.1 hv⟩
  · rintro ⟨hk, he⟩
    exact ⟨e.1, hk, e.2, get?_eq_some_iff.2 he, rfl⟩

/-- Looking up keys that are all there finds an entry for each. -/
theorem map_fst_filterMap_get? {m : OrderedMap κ ν} {ks : List κ} (h : ks ⊆ m.keys) :
    (ks.filterMap fun k => (m.get? k).map fun v => (k, v)).map Prod.fst = ks := by
  induction ks with
  | nil => rfl
  | cons k ks ih =>
      rcases List.cons_subset.1 h with ⟨hk, hks⟩
      rcases hget : m.get? k with _ | v
      · exact absurd hk (get?_eq_none_iff.1 hget)
      · simp [hget, ih hks]

end OrderedMap

namespace World

variable {w : World}

/-! ### The walk over the descendants -/

theorem mem_children_iff {id k : ObjectId} : k ∈ w.children id ↔ w.HasParent k id := by
  simp only [children, List.mem_map, List.mem_filter, decide_eq_true_eq]
  constructor
  · rintro ⟨e, ⟨he, hparent⟩, rfl⟩
    exact ⟨e.2, OrderedMap.get?_eq_some_iff.2 he, hparent⟩
  · rintro ⟨o, hget, hparent⟩
    exact ⟨(k, o), ⟨OrderedMap.get?_eq_some_iff.1 hget, hparent⟩, rfl⟩

/-- Children are objects of the world, so there are not too many. -/
theorem children_subset (w : World) (id : ObjectId) : w.children id ⊆ w.keys :=
  List.map_subset _ (List.filter_subset_self _)

theorem subtree_eq_met (w : World) (id : ObjectId) :
    w.subtree id = Walk.met w.children id w.keys.length := by
  have hsize : w.size = w.keys.length := (List.length_map _).symm
  rw [subtree, hsize]
  exact Walk.walk_eq_met w.children_subset

/-- The walk over the descendants of an object ends: its loop, given no bound, finds these. -/
theorem walks_subtree (w : World) (id : ObjectId) : Walks w.children [id] [id] (w.subtree id) := by
  rw [subtree_eq_met]
  exact Walk.walks_met_length w.children_subset

theorem nodup_subtree (w : World) (id : ObjectId) : (w.subtree id).Nodup := by
  rw [subtree_eq_met]
  exact Walk.nodup_met _ _ _

/-- The walk finds the objects from which parents lead to the start. -/
theorem mem_subtree_iff {id k : ObjectId} : k ∈ w.subtree id ↔ w.Descends k id := by
  -- The walk goes down from the start, parents lead up to it.
  have hup : Function.swap w.HasParent = fun a b => b ∈ w.children a := by
    funext a b
    exact propext mem_children_iff.symm
  rw [subtree_eq_met, Walk.mem_met_iff_reflTransGen w.children_subset, Descends, ← hup,
    Relation.reflTransGen_swap]

/-- Descendants are there, since they name parents. -/
theorem subtree_subset {id : ObjectId} (h : w.contains id = true) : w.subtree id ⊆ w.keys := by
  intro k hk
  rcases (mem_subtree_iff.1 hk).cases_head with rfl | ⟨p, hp, -⟩
  · exact OrderedMap.contains_iff.1 h
  · exact OrderedMap.contains_iff.1 hp.contains

/-! ### What is removed, and what is left -/

theorem mem_despawn {id : ObjectId} {w : World} {e : ObjectId × SceneObject} :
    e ∈ (w.despawn id).1 ↔ w.contains id = true ∧ e.1 ∈ w.subtree id ∧ e ∈ w.entries := by
  unfold despawn
  split
  · next hthere =>
      rw [OrderedMap.mem_filterMap_get?]
      simp [hthere]
  · next hmissing => simp [hmissing]

theorem entries_despawn (id : ObjectId) (w : World) :
    (w.despawn id).2.entries = w.entries.filter (· ∉ (w.despawn id).1) := by
  rcases hthere : w.contains id with _ | _
  · have hnone : (w.despawn id).1 = [] := by simp [despawn, hthere]
    simp [despawn, hthere]
  · have hentries : (w.despawn id).2.entries = w.entries.filter (·.1 ∉ w.subtree id) := by
      simp [despawn, hthere, OrderedMap.retain]
    rw [hentries]
    apply List.filter_congr
    intro e he
    simp [mem_despawn, hthere, he]

/-- The objects are removed in the order of the walk. -/
theorem map_fst_despawn {id : ObjectId} (h : w.contains id = true) :
    (w.despawn id).1.map Prod.fst = w.subtree id := by
  simp only [despawn, h, if_true]
  exact OrderedMap.map_fst_filterMap_get? (subtree_subset h)

/-- Of the objects that are removed, all but the first come after their parents. -/
theorem parent_before_of_despawn {id : ObjectId} {before after : List (ObjectId × SceneObject)}
    {e : ObjectId × SceneObject} (hsplit : (w.despawn id).1 = before ++ e :: after)
    (hne : e.1 ≠ id) : ∃ p ∈ before, e.2.parent = some p.1 := by
  have he : e ∈ (w.despawn id).1 := by simp [hsplit]
  rcases mem_despawn.1 he with ⟨hthere, -, hentry⟩
  have hwalk : w.subtree id = before.map Prod.fst ++ e.1 :: after.map Prod.fst := by
    rw [← map_fst_despawn hthere, hsplit, List.map_append, List.map_cons]
  -- What the walk queued it for is the only parent it has.
  rcases (w.walks_subtree id).exists_before hwalk (by simpa using hne) with ⟨x, hx, hchild⟩
  rcases List.mem_map.1 hx with ⟨p, hp, rfl⟩
  rcases mem_children_iff.1 hchild with ⟨o, hget, hparent⟩
  rw [OrderedMap.get?_eq_some_iff.2 hentry, Option.some.injEq] at hget
  exact ⟨p, hp, hget ▸ hparent⟩

/-- Removing an object removes its descendants with it and nothing else. The walk over them
    ends. If the object is there, those removed are the objects from which parents lead to
    it: each once, the object first, and any other after its parent. The rest of
    the world stays as it is, in its order, and nobody in it names a parent that was removed. -/
theorem despawn_subtree (w : World) (id : ObjectId) :
    let gone := (w.despawn id).1
    let left := (w.despawn id).2
    Walks w.children [id] [id] (w.subtree id) ∧
      (w.contains id = false → gone = [] ∧ left = w) ∧
      (w.contains id = true →
        (∀ e, e ∈ gone ↔ e ∈ w.entries ∧ w.Descends e.1 id) ∧
          (gone.map Prod.fst).Nodup ∧ (gone.map Prod.fst).head? = some id ∧
          (∀ before e after, gone = before ++ e :: after → e.1 ≠ id →
            ∃ p ∈ before, e.2.parent = some p.1) ∧
          left.entries = w.entries.filter (· ∉ gone) ∧
          ∀ e ∈ left.entries, ∀ p ∈ gone, e.2.parent ≠ some p.1) := by
  intro gone left
  have hgone : ∀ e, e ∈ gone ↔ w.contains id = true ∧ w.Descends e.1 id ∧ e ∈ w.entries := by
    intro e
    rw [← mem_subtree_iff]
    exact mem_despawn
  refine ⟨w.walks_subtree id, fun hmissing => by simp [gone, left, despawn, hmissing],
    fun hthere => ⟨fun e => ?_, ?_, ?_, ?_, w.entries_despawn id, ?_⟩⟩
  · rw [hgone, and_iff_right hthere, and_comm]
  · rw [map_fst_despawn hthere]
    exact w.nodup_subtree id
  · rw [map_fst_despawn hthere, subtree, walk]
    rfl
  · intro before e after hsplit hne
    exact parent_before_of_despawn hsplit hne
  · -- A child of what is removed would have been removed too.
    intro e he p hp hparent
    rw [w.entries_despawn id, List.mem_filter, decide_eq_true_eq] at he
    have hup : w.HasParent e.1 p.1 := ⟨e.2, OrderedMap.get?_eq_some_iff.2 he.1, hparent⟩
    exact he.2 ((hgone e).2 ⟨hthere, Relation.ReflTransGen.head hup ((hgone p).1 hp).2.1, he.1⟩)

/-- Objects of two scenes. The ship stands on a wave, the wave on the tide and the tide on the
    ship; the mast was spawned before the ship that it stands on; and the gull names a
    parent that is not there. -/
def harbour : World :=
  .ofList [(⟨5⟩, { name := "Mast", scene := "Harbour", parent := some ⟨4⟩ }),
    (⟨7⟩, { name := "Gull", scene := "Harbour", parent := some ⟨9⟩ }),
    (⟨3⟩, { name := "Wave", scene := "Sea", parent := some ⟨6⟩ }),
    (⟨4⟩, { name := "Ship", scene := "Harbour", parent := some ⟨3⟩ }),
    (⟨6⟩, { name := "Tide", scene := "Sea", parent := some ⟨4⟩, active := false }),
    (⟨8⟩, { name := "Pier", scene := "Harbour" })]

theorem despawn_subtree_harbour :
    let gone := (harbour.despawn ⟨4⟩).1
    let left := (harbour.despawn ⟨4⟩).2
    harbour.contains ⟨4⟩ = true ∧ gone.map Prod.fst = [⟨4⟩, ⟨5⟩, ⟨6⟩, ⟨3⟩] ∧
      left.keys = [⟨7⟩, ⟨8⟩] ∧
      (∀ e, e ∈ gone ↔ e ∈ harbour.entries ∧ harbour.Descends e.1 ⟨4⟩) ∧
      (∀ before e after, gone = before ++ e :: after → e.1 ≠ ⟨4⟩ →
        ∃ p ∈ before, e.2.parent = some p.1) ∧
      ∀ e ∈ left.entries, ∀ p ∈ gone, e.2.parent ≠ some p.1 := by
  intro gone left
  have hthere : harbour.contains ⟨4⟩ = true := by decide +kernel
  rcases (harbour.despawn_subtree ⟨4⟩).2.2 hthere with ⟨hgone, -, -, hbefore, -, hleft⟩
  exact ⟨hthere, by decide +kernel, by decide +kernel, hgone, hbefore, hleft⟩

end World

end BehaviorGraph
