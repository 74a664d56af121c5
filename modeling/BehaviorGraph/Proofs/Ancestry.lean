import BehaviorGraph.Scene.World
import Mathlib.Data.List.Nodup
import Mathlib.Logic.Relation
/-!
# Chains of Parents

When an object is active in its hierarchy.

Objects name their parents, and nobody checks the names. So following parents from an
object ends in one of three ways: at an object without a parent, at a parent that is not
there, or never, since the parents run in a circle. `World.isLive` takes as many steps
as there are objects, and one more to see that the last of them has no parent. That this is
enough is a matter of counting. An object that is met a second time is met again and
again, so a chain that ends meets each object once at most.

A chain that ends is kept here as the list of the objects on it. There is one at most from
each object, and what stands on it are exactly the ancestors. An object on a circle can have
none, for behind itself it would have to have a shorter one than its own; and so no chain
goes through an object twice.

## Main definitions

* `World.HasParent`: An object names a parent.
* `World.Descends`: Following parents leads from one object to another.
* `World.Lineage`: The chain of parents from an object, if it ends.

## Theorems

* `World.Lineage.unique`: A chain that ends is told by where it starts.
* `World.Lineage.contains`: All objects that parents lead to are there.
* `World.Lineage.not_cyclic`: None of them is its own ancestor.
* `World.Lineage.length_le`: No chain that ends is longer than there are objects.
* `World.isLiveChain_iff`: What is found in a number of steps.
* `World.isLive_iff_lineage`: An object is active in its hierarchy if its chain of parents ends
  and all on it are active.
-/

namespace BehaviorGraph

namespace World

variable {w : World}

/-! ### Parents -/

/-- The object is there and names a parent, which need not be there. -/
def HasParent (w : World) (id parent : ObjectId) : Prop :=
  ∃ o, w.get? id = some o ∧ o.parent = some parent

theorem HasParent.contains {id p : ObjectId} (h : w.HasParent id p) : w.contains id = true := by
  rcases h with ⟨o, hget, -⟩
  simp [OrderedMap.contains, hget]

/-- Following parents leads from the first object to the second, in any number of steps. -/
def Descends (w : World) : ObjectId → ObjectId → Prop :=
  Relation.ReflTransGen w.HasParent

/-! ### Chains that end -/

/-- The objects met by following parents, if that comes to an end: from an id on, or from
    nowhere if there is none. -/
inductive Lineage (w : World) : Option ObjectId → List (ObjectId × SceneObject) → Prop where
  /-- There is no parent to go on to. -/
  | ends : Lineage w none []
  /-- The object is there, and the chain goes on from its parent. -/
  | meets {id : ObjectId} {o : SceneObject} {rest : List (ObjectId × SceneObject)}
      (hget : w.get? id = some o) (hrest : Lineage w o.parent rest) :
      Lineage w (some id) ((id, o) :: rest)

namespace Lineage

variable {id k p : ObjectId} {chain chain' : List (ObjectId × SceneObject)}

theorem unique {start : Option ObjectId} (h : w.Lineage start chain)
    (h' : w.Lineage start chain') : chain = chain' := by
  induction h generalizing chain' with
  | ends =>
      cases h'
      rfl
  | meets hget _ ih =>
      cases h' with
      | meets hget' hrest' =>
          rw [hget, Option.some.injEq] at hget'
          subst hget'
          rw [ih hrest']

theorem subset {start : Option ObjectId} (h : w.Lineage start chain) : chain ⊆ w.entries := by
  induction h with
  | ends => exact List.nil_subset _
  | meets hget _ ih => exact List.cons_subset.2 ⟨OrderedMap.get?_eq_some_iff.1 hget, ih⟩

/-- The chain from a parent is what is left of the chain from its child. -/
theorem of_hasParent (h : w.Lineage (some id) chain) (hp : w.HasParent id p) :
    ∃ e rest, chain = e :: rest ∧ w.Lineage (some p) rest := by
  rcases hp with ⟨o, hget, hparent⟩
  cases h with
  | meets hget' hrest =>
      rw [hget', Option.some.injEq] at hget
      subst hget
      rw [hparent] at hrest
      exact ⟨_, _, rfl, hrest⟩

/-- The chain from an ancestor is shorter. -/
theorem of_transGen (h : w.Lineage (some id) chain) (hk : Relation.TransGen w.HasParent id k) :
    ∃ rest, rest.length < chain.length ∧ w.Lineage (some k) rest := by
  induction hk with
  | single hp =>
      rcases h.of_hasParent hp with ⟨e, rest, rfl, hrest⟩
      exact ⟨rest, Nat.lt_succ_self _, hrest⟩
  | tail _ hp ih =>
      rcases ih with ⟨between, hlt, hbetween⟩
      rcases hbetween.of_hasParent hp with ⟨e, rest, rfl, hrest⟩
      exact ⟨rest, Nat.lt_of_succ_lt hlt, hrest⟩

theorem of_descends (h : w.Lineage (some id) chain) (hk : w.Descends id k) :
    ∃ rest, w.Lineage (some k) rest := by
  rcases Relation.reflTransGen_iff_eq_or_transGen.1 hk with rfl | htrans
  · exact ⟨chain, h⟩
  · rcases h.of_transGen htrans with ⟨rest, -, hrest⟩
    exact ⟨rest, hrest⟩

/-- All that parents lead to is there. -/
theorem contains (h : w.Lineage (some id) chain) (hk : w.Descends id k) :
    w.contains k = true := by
  rcases h.of_descends hk with ⟨rest, hrest⟩
  cases hrest with
  | meets hget _ => simp [OrderedMap.contains, hget]

/-- Parents do not lead into a circle. -/
theorem not_cyclic (h : w.Lineage (some id) chain) (hk : w.Descends id k) :
    ¬ Relation.TransGen w.HasParent k k := by
  intro hcycle
  rcases h.of_descends hk with ⟨around, haround⟩
  -- The chain behind the circle would be shorter than itself.
  rcases haround.of_transGen hcycle with ⟨rest, hlt, hrest⟩
  rw [haround.unique hrest] at hlt
  exact Nat.lt_irrefl _ hlt

/-- On the chain behind an object stand its ancestors. -/
theorem transGen {o : SceneObject} {rest : List (ObjectId × SceneObject)}
    (hget : w.get? id = some o) (h : w.Lineage o.parent rest) {e : ObjectId × SceneObject}
    (he : e ∈ rest) : Relation.TransGen w.HasParent id e.1 := by
  generalize hstart : o.parent = start at h
  induction h generalizing id o with
  | ends => exact absurd he List.not_mem_nil
  | meets hget' _ ih =>
      have hp : w.HasParent id _ := ⟨o, hget, hstart⟩
      rcases List.mem_cons.1 he with rfl | hrest
      · exact Relation.TransGen.single hp
      · exact Relation.TransGen.head hp (ih hget' hrest rfl)

theorem nodup {start : Option ObjectId} (h : w.Lineage start chain) : chain.Nodup := by
  induction h with
  | ends => exact List.nodup_nil
  | meets hget hrest ih =>
      refine List.nodup_cons.2 ⟨fun hagain => ?_, ih⟩
      -- An object that stands on the chain behind it is its own ancestor.
      exact (meets hget hrest).not_cyclic Relation.ReflTransGen.refl (transGen hget hrest hagain)

/-- No chain is longer than there are objects. -/
theorem length_le {start : Option ObjectId} (h : w.Lineage start chain) :
    chain.length ≤ w.size :=
  h.nodup.length_le_of_subset h.subset

end Lineage

/-! ### Activity -/

/-- A number of steps is enough for the shorter chains: one step for each object, and one to
    see that there are no more. -/
theorem isLiveChain_iff (w : World) (steps : Nat) (start : Option ObjectId) :
    w.isLiveChain steps start = true ↔
      ∃ chain, w.Lineage start chain ∧ chain.length < steps ∧ ∀ e ∈ chain, e.2.active = true := by
  -- The chain from the parent has one step fewer for it, and is shorter by one.
  induction steps generalizing start with
  | zero => simp [isLiveChain]
  | succ steps ih =>
      constructor
      · intro hlive
        rcases start with _ | id
        · exact ⟨[], Lineage.ends, Nat.succ_pos steps, fun e he => absurd he List.not_mem_nil⟩
        · rcases hget : w.get? id with _ | o
          · exact absurd hlive (by simp [isLiveChain, hget])
          · simp only [isLiveChain, hget, Bool.and_eq_true] at hlive
            rcases (ih o.parent).1 hlive.2 with ⟨rest, hrest, hlt, hactive⟩
            exact ⟨(id, o) :: rest, Lineage.meets hget hrest, Nat.succ_lt_succ hlt,
              List.forall_mem_cons.2 ⟨hlive.1, hactive⟩⟩
      · rintro ⟨chain, hchain, hlt, hactive⟩
        cases hchain with
        | ends => rfl
        | meets hget hrest =>
            rcases List.forall_mem_cons.1 hactive with ⟨hself, hothers⟩
            have hbehind := (ih _).2 ⟨_, hrest, Nat.lt_of_succ_lt_succ hlt, hothers⟩
            simp only [isLiveChain, hget, Bool.and_eq_true]
            exact ⟨hself, hbehind⟩

/-- There are steps enough for every chain that ends. -/
theorem isLive_iff {id : ObjectId} : w.isLive id = true ↔
    ∃ chain, w.Lineage (some id) chain ∧ ∀ e ∈ chain, e.2.active = true := by
  rw [isLive, isLiveChain_iff]
  constructor
  · rintro ⟨chain, hchain, -, hactive⟩
    exact ⟨chain, hchain, hactive⟩
  · rintro ⟨chain, hchain, hactive⟩
    exact ⟨chain, hchain, Nat.lt_succ_of_le hchain.length_le, hactive⟩

/-- An object is active in its hierarchy if and only if following parents from it comes to an end
    and meets active objects only. A chain through all objects of the world is not too long,
    though it takes every step there is; and if parents lead in a circle, or to an object
    that is not there, the object is not active. -/
theorem isLive_iff_lineage (w : World) (id : ObjectId) :
    (w.isLive id = true ↔
      ∃ chain, w.Lineage (some id) chain ∧ ∀ e ∈ chain, e.2.active = true) ∧
      (∀ chain, w.Lineage (some id) chain → chain.length = w.size →
        (∀ e ∈ chain, e.2.active = true) →
          w.isLive id = true ∧ w.isLiveChain w.size (some id) = false) ∧
      (∀ k, w.Descends id k → Relation.TransGen w.HasParent k k → w.isLive id = false) ∧
      ∀ k, w.Descends id k → w.contains k = false → w.isLive id = false := by
  refine ⟨isLive_iff,
    fun chain hchain hlength hactive => ⟨isLive_iff.2 ⟨chain, hchain, hactive⟩, ?_⟩, ?_, ?_⟩
  · -- One step fewer finds shorter chains only, and there is but one.
    rw [← Bool.not_eq_true, isLiveChain_iff]
    rintro ⟨chain', hchain', hlt, -⟩
    rw [hchain'.unique hchain, hlength] at hlt
    exact Nat.lt_irrefl _ hlt
  · intro k hk hcycle
    rw [← Bool.not_eq_true, isLive_iff]
    rintro ⟨chain, hchain, -⟩
    exact hchain.not_cyclic hk hcycle
  · intro k hk hmissing
    rw [← Bool.not_eq_true, isLive_iff]
    rintro ⟨chain, hchain, -⟩
    rw [hchain.contains hk] at hmissing
    exact absurd hmissing (by simp)

/-- Three objects on top of each other, the topmost first. -/
def tower : World :=
  .ofList [(⟨3⟩, { name := "Label", scene := "Main", parent := some ⟨2⟩ }),
    (⟨2⟩, { name := "Panel", scene := "Shop", parent := some ⟨1⟩ }),
    (⟨1⟩, { name := "Canvas", scene := "Main" })]

/-- Two objects that are each other's parents, one that hangs on them, and one whose parent
    is not there. All are active. -/
def knot : World :=
  .ofList [(⟨1⟩, { name := "Loop", scene := "Main", parent := some ⟨2⟩ }),
    (⟨2⟩, { name := "Bend", scene := "Main", parent := some ⟨1⟩ }),
    (⟨3⟩, { name := "Tag", scene := "Main", parent := some ⟨2⟩ }),
    (⟨4⟩, { name := "Loose", scene := "Main", parent := some ⟨9⟩ })]

theorem isLive_of_tower_and_knot :
    tower.Lineage (some ⟨3⟩) tower.entries ∧ tower.isLive ⟨3⟩ = true ∧
      (knot.Descends ⟨3⟩ ⟨2⟩ ∧ Relation.TransGen knot.HasParent ⟨2⟩ ⟨2⟩ ∧
        knot.isLive ⟨3⟩ = false) ∧
      knot.Descends ⟨4⟩ ⟨9⟩ ∧ knot.contains ⟨9⟩ = false ∧ knot.isLive ⟨4⟩ = false := by
  have hchain : tower.Lineage (some ⟨3⟩) tower.entries :=
    .meets (by decide +kernel) (.meets (by decide +kernel) (.meets (by decide +kernel) .ends))
  have htower := (tower.isLive_iff_lineage ⟨3⟩).2.1 _ hchain rfl (by decide +kernel)
  have hparent : knot.HasParent ⟨3⟩ ⟨2⟩ ∧ knot.HasParent ⟨2⟩ ⟨1⟩ ∧ knot.HasParent ⟨1⟩ ⟨2⟩ ∧
      knot.HasParent ⟨4⟩ ⟨9⟩ :=
    ⟨⟨_, rfl, rfl⟩, ⟨_, rfl, rfl⟩, ⟨_, rfl, rfl⟩, ⟨_, rfl, rfl⟩⟩
  rcases hparent with ⟨hup, hround, hback, hloose⟩
  have hcycle : Relation.TransGen knot.HasParent ⟨2⟩ ⟨2⟩ := .tail (.single hround) hback
  have hknot := (knot.isLive_iff_lineage ⟨3⟩).2.2.1 _ (.single hup) hcycle
  have hmissing : knot.contains ⟨9⟩ = false := by decide +kernel
  have hfree := (knot.isLive_iff_lineage ⟨4⟩).2.2.2 _ (.single hloose) hmissing
  exact ⟨hchain, htower.1, ⟨.single hup, hcycle, hknot⟩, .single hloose, hmissing, hfree⟩

end World

end BehaviorGraph
