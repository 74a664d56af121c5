import BehaviorGraph.Proofs.Enlisting
import BehaviorGraph.Proofs.Registrations
import Mathlib.Data.Set.Finite.Lemmas
import Mathlib.Order.WellFounded
/-!
# Links to Parents

Which objects name a parent that is not there, and what makes an object inactive.

Suppose that nobody is spawned under an id that was used before, and that objects only name
parents which are there, or which come with them when a scene is loaded. Parents then never
change, and nobody comes back. A removal takes the descendants along and leaves no child
behind. But a scene that is unloaded takes only its own objects, and an object of
another scene may have its parent among them. It is left with the parent missing for good, and
this is the only way for a parent to be missing.

An object that is inactive in its hierarchy need not have an inactive ancestor therefore. It may
also descend from an object whose parent is missing. And its parents may run in a circle. The
objects that one scene is loaded with can name each other, so they can bring a circle with them;
but a circle never closes later, since older objects do not name newer ones.

## Main definitions

* `World.Orphaned`, `World.Circular`: Objects whose chain of parents breaks off or goes round.
* `Event.anchored`, `Session.anchored`: Objects name parents that are there or come with them.
* `World.Strands`, `Session.Stranded`: A scene that is unloaded leaves a child of its objects.
* `Session.KeepsParents`: What happens neither brings links to parents nor breaks any.
* `Session.Linked`: Parents came at some time, and those that are missing went with their scenes.

## Theorems

* `World.isLive_eq_false_iff`: The three reasons why an object is inactive.
* `transGen_split`: A circle does not go through two parts of a world.
* `Session.keepsParents_happen`: Most events leave the links alone.
* `Session.linked_after`: When a parent is missing.
* `Session.circular_after`: Where circles come from.
* `Session.parent_links`: All of this together.
-/

namespace BehaviorGraph

namespace World

variable {w w' : World} {id p : ObjectId}

/-! ### Why an object is inactive -/

/-- The object names a parent that is not there. -/
def Orphaned (w : World) (id : ObjectId) : Prop :=
  ∃ p, w.HasParent id p ∧ w.contains p = false

/-- Parents lead from the object back to it. -/
def Circular (w : World) (id : ObjectId) : Prop :=
  Relation.TransGen w.HasParent id id

/-- All that stands on the chain of parents from an object are the object and its ancestors. -/
theorem Lineage.descends {chain : List (ObjectId × SceneObject)} (h : w.Lineage (some id) chain)
    {e : ObjectId × SceneObject} (he : e ∈ chain) : w.Descends id e.1 := by
  cases h with
  | meets hget hrest =>
      rcases List.mem_cons.1 he with rfl | hbehind
      · exact Relation.ReflTransGen.refl
      · exact (Lineage.transGen hget hrest hbehind).to_reflTransGen

/-- All ancestors that are there stand on it. -/
theorem Lineage.mem_of_descends {chain : List (ObjectId × SceneObject)} {k : ObjectId}
    {o : SceneObject} (h : w.Lineage (some id) chain) (hk : w.Descends id k)
    (hget : w.get? k = some o) : (k, o) ∈ chain := by
  induction hk using Relation.ReflTransGen.head_induction_on generalizing chain with
  | refl =>
      cases h with
      | meets hget' _ =>
          rw [hget', Option.some.injEq] at hget
          rw [hget]
          exact List.mem_cons_self
  | head hp _ ih =>
      rcases h.of_hasParent hp with ⟨e, rest, rfl, hrest⟩
      exact List.mem_cons_of_mem e (ih hrest)

/-- Following parents ends, unless one is missing or they run in a circle. -/
theorem exists_lineage (hthere : w.contains id = true)
    (h : ∀ k, w.Descends id k → ¬w.Orphaned k ∧ ¬w.Circular k) :
    ∃ chain, w.Lineage (some id) chain := by
  -- There are finitely many objects, and above this one no circles.
  let above := {k // k ∈ w.keys ∧ w.Descends id k}
  have hfinite : Finite above :=
    ((List.finite_toSet w.keys).subset fun k hk => hk.1 : Set.Finite _).to_subtype
  have htrans : IsTrans above fun a b => Relation.TransGen w.HasParent b.1 a.1 :=
    ⟨fun a b c hab hbc => hbc.trans hab⟩
  have hirrefl : Std.Irrefl fun a b : above => Relation.TransGen w.HasParent b.1 a.1 :=
    ⟨fun a hcircle => (h a.1 a.2.2).2 hcircle⟩
  have hwf := Finite.wellFounded_of_trans_of_irrefl
    fun a b : above => Relation.TransGen w.HasParent b.1 a.1
  have hall : ∀ a : above, ∃ chain, w.Lineage (some a.1) chain := by
    intro a
    induction a using hwf.induction with
    | _ a ih =>
        rcases hget : w.get? a.1 with _ | o
        · exact absurd a.2.1 (OrderedMap.get?_eq_none_iff.1 hget)
        rcases hparent : o.parent with _ | p
        · exact ⟨[(a.1, o)], Lineage.meets hget (hparent ▸ Lineage.ends)⟩
        -- The parent is there, since the object is no orphan, and its chain goes on.
        · have hup : w.HasParent a.1 p := ⟨o, hget, hparent⟩
          have hp : p ∈ w.keys := by
            rw [← OrderedMap.contains_iff, ← Bool.not_eq_false]
            exact fun hmissing => (h a.1 a.2.2).1 ⟨p, hup, hmissing⟩
          rcases ih ⟨p, hp, a.2.2.tail hup⟩ (Relation.TransGen.single hup) with ⟨rest, hrest⟩
          exact ⟨(a.1, o) :: rest, Lineage.meets hget (hparent ▸ hrest)⟩
  exact hall ⟨id, OrderedMap.contains_iff.1 hthere, Relation.ReflTransGen.refl⟩

/-- An object is inactive in its hierarchy if its own flag or that of an ancestor is cleared, if
    one of them names a parent that is not there, or if its parents run in a circle. -/
theorem isLive_eq_false_iff (hthere : w.contains id = true) :
    w.isLive id = false ↔
      (∃ k, w.Descends id k ∧ w.contains k = true ∧ w.isActive k = false) ∨
      (∃ k, w.Descends id k ∧ w.Orphaned k) ∨ ∃ k, w.Descends id k ∧ w.Circular k := by
  rw [← Bool.not_eq_true, isLive_iff]
  constructor
  · intro hdead
    by_contra hnone
    rw [not_or, not_or] at hnone
    rcases hnone with ⟨hactive, horphan, hcircle⟩
    rcases exists_lineage hthere fun k hk => ⟨fun ho => horphan ⟨k, hk, ho⟩,
      fun hc => hcircle ⟨k, hk, hc⟩⟩ with ⟨chain, hchain⟩
    -- The chain ends, so one of the objects on it is inactive.
    refine hdead ⟨chain, hchain, fun e he => ?_⟩
    have hget : w.get? e.1 = some e.2 := OrderedMap.get?_eq_some_iff.2 (hchain.subset he)
    by_contra hasleep
    refine hactive ⟨e.1, hchain.descends he, by simp [OrderedMap.contains, hget], ?_⟩
    simpa [isActive, hget] using hasleep
  · rintro hwhy ⟨chain, hchain, hactive⟩
    rcases hwhy with ⟨k, hk, hthere', hasleep⟩ | ⟨k, hk, p, hp, hmissing⟩ | ⟨k, hk, hcircle⟩
    · rcases Option.isSome_iff_exists.1 hthere' with ⟨o, hget⟩
      have hflag : w.isActive k = o.active := by rw [isActive, hget, Option.any_some]
      rw [hflag, hactive (k, o) (hchain.mem_of_descends hk hget)] at hasleep
      exact absurd hasleep (by simp)
    · rw [hchain.contains (hk.tail hp)] at hmissing
      exact absurd hmissing (by simp)
    · exact hchain.not_cyclic hk hcircle

end World

/-! ### Links -/

/-- One of some objects names a parent. -/
def NamesParent (es : List (ObjectId × SceneObject)) (id p : ObjectId) : Prop :=
  ∃ o, (id, o) ∈ es ∧ o.parent = some p

/-- If no step leads from old to new or from new to old, the steps of a circle are all of one
    kind. -/
theorem transGen_split {α : Type} {r older newer : α → α → Prop} {old : α → Prop}
    (h : ∀ a b, r a b → (old a ∧ older a b ∧ old b) ∨ (¬old a ∧ newer a b)) {k : α}
    (hcircle : Relation.TransGen r k k) :
    Relation.TransGen older k k ∨ Relation.TransGen newer k k := by
  by_cases hold : old k
  · left
    -- Going on from what is old, all that comes is old.
    have hahead : ∀ b, Relation.TransGen r k b → Relation.TransGen older k b ∧ old b := by
      intro b hb
      induction hb with
      | single hstep =>
          rcases h _ _ hstep with ⟨-, holder, hnext⟩ | ⟨hnew, -⟩
          · exact ⟨Relation.TransGen.single holder, hnext⟩
          · exact absurd hold hnew
      | tail _ hstep ih =>
          rcases h _ _ hstep with ⟨-, holder, hnext⟩ | ⟨hnew, -⟩
          · exact ⟨ih.1.tail holder, hnext⟩
          · exact absurd ih.2 hnew
    exact (hahead k hcircle).1
  · right
    -- Going back from what is new, nothing old was passed.
    have hbehind : ∀ a, Relation.TransGen r a k → Relation.TransGen newer a k ∧ ¬old a := by
      intro a ha
      induction ha using Relation.TransGen.head_induction_on with
      | single hstep =>
          rcases h _ _ hstep with ⟨-, -, hnext⟩ | ⟨hnew, hnewer⟩
          · exact absurd hnext hold
          · exact ⟨Relation.TransGen.single hnewer, hnew⟩
      | head hstep _ ih =>
          rcases h _ _ hstep with ⟨-, -, hnext⟩ | ⟨hnew, hnewer⟩
          · exact absurd hnext ih.2
          · exact ⟨Relation.TransGen.head hnewer ih.1, hnew⟩
    exact (hbehind k hcircle).1

namespace World

variable {w w' : World} {id p : ObjectId}

theorem hasParent_iff_namesParent : w.HasParent id p ↔ NamesParent w.entries id p := by
  simp only [HasParent, NamesParent, OrderedMap.get?_eq_some_iff]

theorem hasParent_iff : w.HasParent id p ↔ (w.get? id).bind SceneObject.parent = some p := by
  rw [HasParent, Option.bind_eq_some_iff]

instance (w : World) (id p : ObjectId) : Decidable (w.HasParent id p) :=
  decidable_of_iff _ hasParent_iff.symm

/-- Links are part of what lasts. -/
theorem hasParent_of_lasting (h : w'.lasting = w.lasting) :
    w'.HasParent id p ↔ w.HasParent id p := by
  have hlink : ∀ w : World,
      (w.get? id).bind SceneObject.parent = (w.lasting.get? id).bind SceneObject.parent := by
    intro w
    rw [get?_lasting]
    cases w.get? id <;> rfl
  rw [hasParent_iff, hasParent_iff, hlink w', h, ← hlink w]

theorem contains_of_lasting (h : w'.lasting = w.lasting) (id : ObjectId) :
    w'.contains id = w.contains id := by
  have hthere : ∀ w : World, w.contains id = (w.lasting.get? id).isSome := by
    intro w
    rw [get?_lasting, Option.isSome_map]
    rfl
  rw [hthere, hthere, h]

/-- The object belongs to another scene than its parent, which goes if that scene is unloaded. -/
def Strands (w : World) (scene : String) (id p : ObjectId) : Prop :=
  ∃ o q, w.get? id = some o ∧ o.parent = some p ∧ o.scene ≠ scene ∧
    w.get? p = some q ∧ q.scene = scene

end World

/-- The objects that come name parents that are there, or that come with them if a scene is
    loaded. -/
def Event.anchored (w : World) : Event → Bool
  | spawn _ o => o.parent.all fun p => w.contains p
  | loadScene _ objects =>
    objects.all fun e => e.2.parent.all fun p => w.contains p || p ∈ objects.map Prod.fst
  | _ => true

theorem Event.of_anchored {w : World} {e : Event} (h : e.anchored w = true) {id p : ObjectId}
    (hp : NamesParent e.arrivals id p) : w.contains p = true ∨ p ∈ e.spawned := by
  rcases hp with ⟨o, ho, hparent⟩
  cases e with
  | spawn id' o' =>
      rw [arrivals, List.mem_singleton, Prod.mk.injEq] at ho
      rw [anchored, ← ho.2, hparent, Option.all_some] at h
      exact Or.inl h
  | loadScene scene objects =>
      have hall := List.all_eq_true.1 h (id, o) ho
      rw [hparent, Option.all_some, Bool.or_eq_true, decide_eq_true_eq] at hall
      exact hall
  | _ => exact absurd ho List.not_mem_nil

namespace Session

/-- All objects that come do so with parents that are there, or that come with them. -/
def anchored (s : Session) : List Event → Bool
  | [] => true
  | e :: events => e.anchored s.world && (s.happen e).anchored events

theorem anchored_concat (s : Session) (events : List Event) (e : Event) :
    s.anchored (events ++ [e]) = (s.anchored events && e.anchored (s.after events).world) := by
  induction events generalizing s with
  | nil => simp [anchored]
  | cons first events ih => simp only [List.cons_append, anchored, ih, Bool.and_assoc, after_cons]

/-- A scene was unloaded that the parent belonged to, and the object did not. -/
def Stranded (s : Session) (events : List Event) (id p : ObjectId) : Prop :=
  ∃ past scene, past ++ [.unloadScene scene] <+: events ∧ (s.after past).world.Strands scene id p

theorem stranded_concat {s : Session} {events : List Event} {e : Event} {id p : ObjectId} :
    s.Stranded (events ++ [e]) id p ↔ s.Stranded events id p ∨
      ∃ scene, e = .unloadScene scene ∧ (s.after events).world.Strands scene id p := by
  constructor
  · rintro ⟨past, scene, hpast, hstrands⟩
    rcases List.prefix_concat_iff.1 hpast with heq | hearlier
    · rcases List.append_inj' heq rfl with ⟨rfl, hlast⟩
      exact Or.inr ⟨scene, (List.singleton_inj.1 hlast).symm, hstrands⟩
    · exact Or.inl ⟨past, scene, hearlier, hstrands⟩
  · rintro (⟨past, scene, hpast, hstrands⟩ | ⟨scene, rfl, hstrands⟩)
    · exact ⟨past, scene, hpast.trans (List.prefix_append _ _), hstrands⟩
    · exact ⟨events, scene, List.prefix_rfl, hstrands⟩

/-! ### What events do to links -/

/-- Who names a parent named it before, and the parent is there if it was there before. -/
def KeepsParents (s s' : Session) : Prop :=
  ∀ id p, s'.world.HasParent id p →
    s.world.HasParent id p ∧ s'.world.contains p = s.world.contains p

theorem keepsParents_of_lasting {s s' : Session} (h : s'.world.lasting = s.world.lasting) :
    s.KeepsParents s' :=
  fun _ p hp => ⟨(World.hasParent_of_lasting h).1 hp, World.contains_of_lasting h p⟩

/-- Who stays when an object is removed does not descend from it, nor does its parent. -/
theorem keepsParents_despawn (id : ObjectId) (s : Session) : s.KeepsParents (s.despawn id).2 := by
  have hdrops := s.despawn_drops id
  intro k p hp
  rcases World.hasParent_iff_namesParent.1 hp with ⟨o, ho, hparent⟩
  rcases hdrops.mem_entries.1 ho with ⟨hthere, hstays⟩
  have hup : s.world.HasParent k p := World.hasParent_iff_namesParent.2 ⟨o, hthere, hparent⟩
  refine ⟨hup, Bool.eq_iff_iff.2 ?_⟩
  rw [OrderedMap.contains_iff, OrderedMap.contains_iff]
  -- Nobody comes, so it is to be shown that a parent that was there stays.
  refine ⟨fun hlater => hdrops.keys_sublist.subset hlater, fun hbefore => ?_⟩
  rcases List.mem_map.1 hbefore with ⟨q, hq, rfl⟩
  refine OrderedMap.mem_keys_of_mem (hdrops.mem_entries.2 ⟨hq, fun hgone => hstays ?_⟩)
  -- If the parent had gone, its child would have gone with it.
  rcases World.mem_despawn.1 hgone with ⟨hstart, hbelow, -⟩
  refine World.mem_despawn.2 ⟨hstart, ?_, hthere⟩
  rw [World.mem_subtree_iff] at hbelow ⊢
  exact Relation.ReflTransGen.head hup hbelow

theorem coversRuns_keepsParents : CoversRuns KeepsParents where
  trans h h' id p hp := by
    rcases h' id p hp with ⟨hmiddle, hsame⟩
    rcases h id p hmiddle with ⟨hfirst, hsame'⟩
    exact ⟨hfirst, hsame.trans hsame'⟩
  calm hcalm := keepsParents_of_lasting (World.lasting_of_awake hcalm.awake)
  despawn := keepsParents_despawn

/-- Only objects that come bring links, and only scenes that are unloaded break them. -/
theorem keepsParents_happen {e : Event} (henlists : e.enlists = false)
    (hunload : ∀ scene, e ≠ .unloadScene scene) (s : Session) : s.KeepsParents (s.happen e) := by
  cases e with
  | spawn id o => cases henlists
  | loadScene scene objects => cases henlists
  | sceneLoaded scene => cases henlists
  | unloadScene scene => exact absurd rfl (hunload scene)
  | shutdown => exact keepsParents_of_lasting rfl
  | bake graph =>
      exact keepsParents_of_lasting (World.lasting_of_untagged (s.extends_bake graph).untagged)
  | _ => exact runs_happen rfl s _ coversRuns_keepsParents

theorem get?_unloadScene (scene : String) (s : Session) (id : ObjectId) :
    (s.unloadScene scene).2.world.get? id =
      (s.world.get? id).filter fun o => o.scene ≠ scene := by
  have hworld : (s.unloadScene scene).2.world = (s.world.unloadScene scene).2 := by
    simp only [unloadScene, foldl_forgetWithScene]
    rfl
  rw [hworld]
  exact OrderedMap.get?_retain _ _ _

section Enlisting

variable {s : Session} {e : Event} (henlists : e.enlists = true)
  (hnew : (s.world.keys ++ e.spawned).Nodup)
include henlists hnew

theorem entries_happen_of_enlists :
    (s.happen e).world.entries = s.world.entries ++ e.arrivals := by
  rw [Event.spawned_eq] at hnew
  rw [(enlists_happen henlists s).world]
  exact OrderedMap.entries_foldl_insert hnew

theorem hasParent_happen_of_enlists {id p : ObjectId} :
    (s.happen e).world.HasParent id p ↔
      s.world.HasParent id p ∨ NamesParent e.arrivals id p := by
  rw [World.hasParent_iff_namesParent, World.hasParent_iff_namesParent,
    entries_happen_of_enlists henlists hnew]
  simp only [NamesParent, List.mem_append, or_and_right, exists_or]

theorem contains_happen_of_enlists {p : ObjectId} :
    (s.happen e).world.contains p = true ↔ s.world.contains p = true ∨ p ∈ e.spawned := by
  rw [OrderedMap.contains_iff, OrderedMap.contains_iff, OrderedMap.keys,
    entries_happen_of_enlists henlists hnew, List.map_append, List.mem_append, Event.spawned_eq]
  rfl

end Enlisting

theorem hasParent_unloadScene {s : Session} {scene : String} {id p : ObjectId} :
    (s.unloadScene scene).2.world.HasParent id p ↔
      ∃ o, s.world.get? id = some o ∧ o.parent = some p ∧ o.scene ≠ scene := by
  refine exists_congr fun o => ?_
  rw [get?_unloadScene, Option.filter_eq_some_iff, decide_eq_true_eq]
  tauto

theorem contains_unloadScene {s : Session} {scene : String} {p : ObjectId} :
    (s.unloadScene scene).2.world.contains p = false ↔
      s.world.contains p = false ∨ ∃ q, s.world.get? p = some q ∧ q.scene = scene := by
  rw [OrderedMap.contains, OrderedMap.contains, get?_unloadScene]
  cases s.world.get? p <;> simp

theorem mem_spawned_of_namesParent {e : Event} {id p : ObjectId}
    (h : NamesParent e.arrivals id p) : id ∈ e.spawned := by
  rcases h with ⟨o, ho, -⟩
  rw [Event.spawned_eq]
  exact List.mem_map.2 ⟨(id, o), ho, rfl⟩

/-! ### Histories -/

section History

variable {s : Session} (hempty : s.world.keys = []) {events : List Event} {e : Event}

/-- After a history, each parent that is named came at some time, and it is missing only if a
    scene went to which it belonged, and the object that names it did not. -/
structure Linked (s : Session) (events : List Event) : Prop where
  /-- All parents that are named came at some time. -/
  came : ∀ id p, (s.after events).world.HasParent id p → p ∈ events.flatMap Event.spawned
  /-- Those that are missing went with their scenes. -/
  missing_iff : ∀ id p, (s.after events).world.HasParent id p →
    ((s.after events).world.contains p = false ↔ s.Stranded events id p)

/-- Links that are kept are linked as before. -/
theorem Linked.concat_of_keeps (h : s.Linked events)
    (hkeeps : (s.after events).KeepsParents ((s.after events).happen e))
    (hunload : ∀ scene, e ≠ .unloadScene scene) : s.Linked (events ++ [e]) := by
  refine ⟨fun id p hp => ?_, fun id p hp => ?_⟩
  · rw [after_concat] at hp
    rw [List.flatMap_append]
    exact List.mem_append_left _ (h.came id p (hkeeps id p hp).1)
  · rw [after_concat] at hp ⊢
    rcases hkeeps id p hp with ⟨hbefore, hsame⟩
    rw [hsame, h.missing_iff id p hbefore, stranded_concat]
    refine ⟨Or.inl, ?_⟩
    rintro (hstranded | ⟨scene, he, -⟩)
    · exact hstranded
    · exact absurd he (hunload scene)

/-- A scene that goes strands the objects of other scenes that have parents in it. -/
theorem Linked.concat_unloadScene (h : s.Linked events) (scene : String) :
    s.Linked (events ++ [.unloadScene scene]) := by
  refine ⟨fun id p hp => ?_, fun id p hp => ?_⟩
  · rw [after_concat] at hp
    rcases hasParent_unloadScene.1 hp with ⟨o, hget, hparent, -⟩
    rw [List.flatMap_append]
    exact List.mem_append_left _ (h.came id p ⟨o, hget, hparent⟩)
  · rw [after_concat] at hp ⊢
    rcases hasParent_unloadScene.1 hp with ⟨o, hget, hparent, hscene⟩
    have hmissing := h.missing_iff id p ⟨o, hget, hparent⟩
    rw [stranded_concat, ← hmissing]
    -- The parent was missing before, or it belongs to the scene that goes now.
    refine contains_unloadScene.trans (or_congr_right ?_)
    constructor
    · rintro ⟨q, hq, hqscene⟩
      exact ⟨scene, rfl, o, q, hget, hparent, hscene, hq, hqscene⟩
    · rintro ⟨scene', heq, -, q, -, -, -, hq, hqscene⟩
      rw [Event.unloadScene.injEq] at heq
      exact ⟨q, hq, hqscene.trans heq.symm⟩

include hempty

theorem mem_spawned_of_stranded (hfresh : (events.flatMap Event.spawned).Nodup) {id p : ObjectId}
    (h : s.Stranded events id p) : id ∈ events.flatMap Event.spawned := by
  rcases h with ⟨past, scene, ⟨later, rfl⟩, o, q, hget, -⟩
  rw [List.append_assoc, List.flatMap_append] at hfresh ⊢
  refine List.mem_append_left _ ((keys_after_sublist hempty hfresh.of_append_left).subset ?_)
  exact OrderedMap.mem_keys_of_mem (OrderedMap.get?_eq_some_iff.1 hget)

/-- Objects that come name parents that are there or come with them, and they are not the parents
    of those that are there. -/
theorem Linked.concat_of_enlists (h : s.Linked events) (henlists : e.enlists = true)
    (hfresh : ((events ++ [e]).flatMap Event.spawned).Nodup)
    (hanchored : e.anchored (s.after events).world = true) : s.Linked (events ++ [e]) := by
  have hnew := fresh_after hempty hfresh
  rw [List.flatMap_append, List.flatMap_singleton, List.nodup_append] at hfresh
  rcases hfresh with ⟨hpast, -, hdisjoint⟩
  have hcame := (keys_after_sublist hempty hpast).subset
  refine ⟨fun id p hp => ?_, fun id p hp => ?_⟩
  · rw [after_concat] at hp
    rw [List.flatMap_append, List.flatMap_singleton, List.mem_append]
    rcases (hasParent_happen_of_enlists henlists hnew).1 hp with hbefore | hnames
    · exact Or.inl (h.came id p hbefore)
    · rcases Event.of_anchored hanchored hnames with hthere | hwith
      · exact Or.inl (hcame (OrderedMap.contains_iff.1 hthere))
      · exact Or.inr hwith
  · rw [after_concat] at hp ⊢
    have hcontains := contains_happen_of_enlists henlists hnew (p := p)
    have hunload : ∀ scene, e ≠ .unloadScene scene := by
      rintro scene rfl
      cases henlists
    rw [stranded_concat, ← Bool.not_eq_true, hcontains]
    rcases (hasParent_happen_of_enlists henlists hnew).1 hp with hbefore | hnames
    · -- The parent came before, so it does not come now.
      have hother : p ∉ e.spawned := fun hmem => hdisjoint p (h.came id p hbefore) p hmem rfl
      have hmissing := h.missing_iff id p hbefore
      rw [← Bool.not_eq_true] at hmissing
      simp only [hother, or_false, hmissing, hunload, false_and, exists_false]
    · have hid := mem_spawned_of_namesParent hnames
      -- The parent is there now, and the object itself was not there to be stranded before.
      refine iff_of_false (not_not.2 (Event.of_anchored hanchored hnames)) ?_
      rintro (hstranded | ⟨scene, he, -⟩)
      · exact hdisjoint id (mem_spawned_of_stranded hempty hpast hstranded) id hid rfl
      · exact hunload scene he

theorem linked_after (hfresh : (events.flatMap Event.spawned).Nodup)
    (hanchored : s.anchored events = true) : s.Linked events := by
  induction events using List.reverseRecOn with
  | nil =>
      -- There is nobody yet to name a parent.
      have hnobody : ∀ id p, ¬s.world.HasParent id p := by
        intro id p hp
        have hid := OrderedMap.contains_iff.1 hp.contains
        rw [hempty] at hid
        exact absurd hid List.not_mem_nil
      exact ⟨fun id p hp => absurd hp (hnobody id p), fun id p hp => absurd hp (hnobody id p)⟩
  | append_singleton events e ih =>
      rw [anchored_concat, Bool.and_eq_true] at hanchored
      have hpast := hfresh
      rw [List.flatMap_append] at hpast
      have hlinked := ih hpast.of_append_left hanchored.1
      rcases henlists : e.enlists with _ | _
      · by_cases hunload : ∃ scene, e = .unloadScene scene
        · rcases hunload with ⟨scene, rfl⟩
          exact hlinked.concat_unloadScene scene
        · rw [not_exists] at hunload
          exact hlinked.concat_of_keeps (keepsParents_happen henlists hunload _) hunload
      · exact hlinked.concat_of_enlists hempty henlists hfresh hanchored.2

omit hempty in
/-- No object names one that comes later, so a circle of parents is an old one, or comes as a
    whole. -/
theorem circular_happen (hnew : (s.world.keys ++ e.spawned).Nodup)
    (hothers : ∀ id p, s.world.HasParent id p → p ∉ e.spawned)
    (hanchored : e.anchored s.world = true) {k : ObjectId}
    (hcircle : (s.happen e).world.Circular k) :
    s.world.Circular k ∨ ∃ scene objects, e = .loadScene scene objects ∧
      Relation.TransGen (NamesParent objects) k k := by
  rcases henlists : e.enlists with _ | _
  · left
    -- Nobody comes, so all links on the circle were there before.
    refine Relation.TransGen.mono (fun id p hp => ?_) k k hcircle
    by_cases hunload : ∃ scene, e = .unloadScene scene
    · rcases hunload with ⟨scene, rfl⟩
      rcases hasParent_unloadScene.1 hp with ⟨o, hget, hparent, -⟩
      exact ⟨o, hget, hparent⟩
    · rw [not_exists] at hunload
      exact (keepsParents_happen henlists hunload s id p hp).1
  · -- Old objects name old ones, and the links of new ones have come with them.
    have hsplit : ∀ id p, (s.happen e).world.HasParent id p →
        (id ∉ e.spawned ∧ s.world.HasParent id p ∧ p ∉ e.spawned) ∨
          (¬id ∉ e.spawned ∧ NamesParent e.arrivals id p) := by
      intro id p hp
      rcases (hasParent_happen_of_enlists henlists hnew).1 hp with hbefore | hnames
      · refine Or.inl ⟨fun hmem => ?_, hbefore, hothers id p hbefore⟩
        exact (List.nodup_append.1 hnew).2.2 id (OrderedMap.contains_iff.1 hbefore.contains) id
          hmem rfl
      · exact Or.inr ⟨not_not.2 (mem_spawned_of_namesParent hnames), hnames⟩
    refine (transGen_split hsplit hcircle).imp_right fun hround => ?_
    cases e with
    | spawn id o =>
        -- An object that is spawned alone does not name itself.
        rcases Relation.TransGen.head'_iff.1 hround with ⟨p, hp, -⟩
        rcases Relation.TransGen.tail'_iff.1 hround with ⟨k', -, hk'⟩
        have hmem := mem_spawned_of_namesParent hp
        rcases hk' with ⟨o', ho', hparent⟩
        rw [Event.arrivals, List.mem_singleton, Prod.mk.injEq] at ho'
        rw [Event.anchored, ← ho'.2, hparent, Option.all_some, OrderedMap.contains_iff] at hanchored
        exact absurd rfl ((List.nodup_append.1 hnew).2.2 k hanchored k hmem)
    | loadScene scene objects => exact ⟨scene, objects, rfl, hround⟩
    | sceneLoaded scene =>
        rcases Relation.TransGen.head'_iff.1 hround with ⟨p, ⟨o, ho, -⟩, -⟩
        exact absurd ho List.not_mem_nil
    | _ => cases henlists

/-- A circle of parents came with a scene that was loaded, all of it at once. -/
theorem circular_after (hfresh : (events.flatMap Event.spawned).Nodup)
    (hanchored : s.anchored events = true) {k : ObjectId}
    (hcircle : (s.after events).world.Circular k) :
    ∃ scene objects, .loadScene scene objects ∈ events ∧
      Relation.TransGen (NamesParent objects) k k := by
  induction events using List.reverseRecOn with
  | nil =>
      rcases Relation.TransGen.head'_iff.1 hcircle with ⟨p, hp, -⟩
      have hk := OrderedMap.contains_iff.1 hp.contains
      rw [after_nil, hempty] at hk
      exact absurd hk List.not_mem_nil
  | append_singleton events e ih =>
      have hnew := fresh_after hempty hfresh
      rw [List.flatMap_append, List.flatMap_singleton, List.nodup_append] at hfresh
      rcases hfresh with ⟨hpast, -, hdisjoint⟩
      rw [anchored_concat, Bool.and_eq_true] at hanchored
      have hlinked := linked_after hempty hpast hanchored.1
      rw [after_concat] at hcircle
      have hothers : ∀ id p, (s.after events).world.HasParent id p → p ∉ e.spawned :=
        fun id p hp hmem => hdisjoint p (hlinked.came id p hp) p hmem rfl
      rcases circular_happen hnew hothers hanchored.2 hcircle with
        hbefore | ⟨scene, objects, rfl, hround⟩
      · rcases ih hpast hanchored.1 hbefore with ⟨scene, objects, hmem, hround⟩
        exact ⟨scene, objects, List.mem_append_left _ hmem, hround⟩
      · exact ⟨scene, objects, List.mem_append_right _ (List.mem_singleton_self _), hround⟩

end History

/-- Suppose that every object that comes, alone or with a scene that is loaded, comes under a new
    id and names no parent, one that is there, or one that comes with it. Then, whatever else
    happens, an object's parent is missing exactly if a scene was unloaded to which the parent
    belonged at that time and the object did not. An object that is there is inactive in its
    hierarchy exactly if its own active flag or that of an ancestor is cleared, if it or an
    ancestor names such a parent, or if its parents run in a circle. And a circle of
    parents comes as a whole, with the objects that one scene is loaded with. -/
theorem parent_links (config : Settings) (supply : Nat → ObjectId) (scheduled : Bool)
    {events : List Event} (hfresh : (events.flatMap Event.spawned).Nodup)
    (hanchored : (start config supply scheduled).anchored events = true) :
    let w := ((start config supply scheduled).after events).world
    (∀ id p, w.HasParent id p →
      (w.contains p = false ↔ ∃ past scene, past ++ [.unloadScene scene] <+: events ∧
        ((start config supply scheduled).after past).world.Strands scene id p)) ∧
    (∀ id, w.contains id = true →
      (w.isLive id = false ↔
        (∃ k, w.Descends id k ∧ w.contains k = true ∧ w.isActive k = false) ∨
        (∃ k, w.Descends id k ∧ w.Orphaned k) ∨ ∃ k, w.Descends id k ∧ w.Circular k)) ∧
    ∀ k, w.Circular k → ∃ scene objects, .loadScene scene objects ∈ events ∧
      Relation.TransGen (NamesParent objects) k k := by
  intro w
  have hempty : (start config supply scheduled).world.keys = [] := rfl
  have hlinked := linked_after hempty hfresh hanchored
  exact ⟨hlinked.missing_iff, fun id hthere => World.isLive_eq_false_iff hthere,
    fun k hcircle => circular_after hempty hfresh hanchored hcircle⟩

/-- A shelf of the shop hangs on a canvas of the hall, which is unloaded. Two rings are loaded,
    each of them hanging on the other. -/
def hallAndShop : List Event :=
  [.spawn ⟨1⟩ { name := "Canvas", scene := "Hall" },
   .spawn ⟨2⟩ { name := "Shelf", scene := "Shop", parent := some ⟨1⟩ },
   .unloadScene "Hall",
   .loadScene "Shop" [(⟨3⟩, { name := "Ring", scene := "Shop", parent := some ⟨4⟩ }),
     (⟨4⟩, { name := "Chain", scene := "Shop", parent := some ⟨3⟩ })]]

theorem parent_links_hallAndShop :
    (hallAndShop.flatMap Event.spawned).Nodup ∧
      (start {} .minted true).anchored hallAndShop = true ∧
      ((start {} .minted true).after hallAndShop).world.HasParent ⟨2⟩ ⟨1⟩ ∧
      ((start {} .minted true).after hallAndShop).world.contains ⟨1⟩ = false ∧
      (∃ past scene, past ++ [.unloadScene scene] <+: hallAndShop ∧
        ((start {} .minted true).after past).world.Strands scene ⟨2⟩ ⟨1⟩) ∧
      ((start {} .minted true).after hallAndShop).world.Circular ⟨3⟩ ∧
      ∃ scene objects, .loadScene scene objects ∈ hallAndShop ∧
        Relation.TransGen (NamesParent objects) ⟨3⟩ ⟨3⟩ := by
  have hfresh : (hallAndShop.flatMap Event.spawned).Nodup := by decide +kernel
  have hanchored : (start {} .minted true).anchored hallAndShop = true := by decide +kernel
  have hshelf : ((start {} .minted true).after hallAndShop).world.HasParent ⟨2⟩ ⟨1⟩ := by
    decide +kernel
  have hmissing : ((start {} .minted true).after hallAndShop).world.contains ⟨1⟩ = false := by
    decide +kernel
  have hring : ((start {} .minted true).after hallAndShop).world.HasParent ⟨3⟩ ⟨4⟩ := by
    decide +kernel
  have hchain : ((start {} .minted true).after hallAndShop).world.HasParent ⟨4⟩ ⟨3⟩ := by
    decide +kernel
  rcases parent_links {} .minted true hfresh hanchored with ⟨hlinks, -, hcircles⟩
  have hcircle := Relation.TransGen.tail (Relation.TransGen.single hring) hchain
  exact ⟨hfresh, hanchored, hshelf, hmissing, (hlinks ⟨2⟩ ⟨1⟩ hshelf).1 hmissing, hcircle,
    hcircles ⟨3⟩ hcircle⟩

/-- The shelf is left without its parent, and neither it nor the rings are active in the
    hierarchy, though nobody was deactivated. -/
theorem shelf_without_parent :
    let s := start {} .minted true
    let w := (s.after hallAndShop).world
    (hallAndShop.flatMap Event.spawned).Nodup ∧ s.anchored hallAndShop = true ∧
      w.HasParent ⟨2⟩ ⟨1⟩ ∧ w.contains ⟨1⟩ = false ∧
      w.keys = [⟨2⟩, ⟨3⟩, ⟨4⟩] ∧ (∀ id ∈ w.keys, w.isActive id = true) ∧
      ∀ id ∈ w.keys, w.isLive id = false := by
  decide +kernel

end Session

end BehaviorGraph
