import BehaviorGraph.Proofs.Switching
import BehaviorGraph.Session.Bake
import Mathlib.Data.List.Nodup
import Mathlib.Data.List.Pairwise
/-!
# Tagging Objects

What baking does to the stage, one target id at a time.

A program names an object by the target id that the object carries, and the
registry leads back from there. Both halves have to last: once an object
`Holds` a target id, no later request may give the id to another object or the
object another id. Two things can go wrong, and `Sound` excludes them. Two objects
may carry one target id from the start, so that the registry has to choose; and
a fresh id may be one that is in use.

There are finitely many ids, so a supply cannot be fresh for ever. The
invariant therefore speaks of the ids up to a bound, and `Extends` lets the bound
be any number that has not been passed when the baking is over.

## Main definitions

* `Stage.Carries`: An object carries a target id that is not blank.
* `Stage.Holds`: The object carries it, and it stands for the object.
* `Stage.Sound`: Target ids are carried once, and the fresh ones are fresh.
* `Stage.Extends`: The later stage keeps what the earlier one had.
* `Stage.carried`, `Stage.upcoming`: The target ids in use and those to come.

## Theorems

* `ObjectId.isBlank_toString`: Written ids are not blank.
* `Stage.sound_of_nodup`: The invariant can be computed.
* `Stage.tag_cases`: What a request for a target id does.
* `Stage.Sound.mint`, `Stage.Sound.register`: The invariant is kept.
* `Stage.tag_extends`, `Stage.bindClick_extends`: So is what objects hold.
* `Stage.tag_holds`: The answer to a request is held by the object.
-/

namespace BehaviorGraph

/-! ### Written ids -/

theorem HexDigit.isSpace_toChar (d : HexDigit) : Text.isSpace d.toChar = false := by
  revert d
  decide

theorem length_hexDigitsOf (count n : Nat) : (hexDigitsOf count n).length = count := by
  induction count generalizing n with
  | zero => rfl
  | succ count ih => simp [hexDigitsOf, ih]

/-- A written id starts with a digit, so it is not blank. -/
theorem ObjectId.isBlank_toString (id : ObjectId) : Text.isBlank id.toString = false := by
  have hlen := length_hexDigitsOf 32 id.value.toNat
  rcases hds : hexDigitsOf 32 id.value.toNat with _ | ⟨d, ds⟩
  · rw [hds] at hlen
    exact absurd hlen (by decide)
  · -- The first digit stands in the first group.
    have hfirst : d.toChar ∈ id.chars := by
      simp [ObjectId.chars, hds, ObjectId.groups, ObjectId.joinGroups]
    rw [Text.isBlank, ObjectId.toString, String.toList_ofList, List.all_eq_false]
    exact ⟨d.toChar, hfirst, by simp [d.isSpace_toChar]⟩

/-! ### Sound stages -/

/-- Two places of a list that pick the same thing are the same, if what is picked
    has no repetitions. -/
theorem eq_of_nodup_filterMap {α β : Type} {f : α → Option β} {l : List α}
    (h : (l.filterMap f).Nodup) {a b : α} {x : β} (ha : a ∈ l) (hb : b ∈ l)
    (hfa : f a = some x) (hfb : f b = some x) : a = b := by
  by_contra hne
  have hpairs := List.pairwise_filterMap.1 h
  have hsymm : Std.Symm fun a b => ∀ x, f a = some x → ∀ y, f b = some y → x ≠ y :=
    ⟨fun a b hab x hx y hy => (hab y hy x hx).symm⟩
  exact hpairs.forall ha hb hne x hfa x hfb rfl

namespace Stage

/-- The object exists and carries the target id, which is not blank. -/
def Carries (s : Stage) (id : ObjectId) (target : String) : Prop :=
  (s.world.get? id).bind carriedId? = some target

/-- The object carries the target id, and the target id stands for it. -/
structure Holds (s : Stage) (id : ObjectId) (target : String) : Prop where
  /-- The object carries it. -/
  carries : s.Carries id target
  /-- It stands for the object. -/
  stands : s.targets.get? target = some id

/-- Target ids are carried by one object each, and the next ids of the supply,
    up to a bound, are carried by none and differ from each other. -/
structure Sound (bound : Nat) (s : Stage) : Prop where
  /-- No two objects carry one target id. -/
  unique : ∀ id id' target, s.Carries id target → s.Carries id' target → id = id'
  /-- No object carries an id that is still to be minted. -/
  fresh : ∀ i, s.minted ≤ i → i < bound → ∀ id, ¬s.Carries id (s.supply i).toString
  /-- No id is minted twice. -/
  distinct : ∀ i j, s.minted ≤ i → i < j → j < bound →
    (s.supply i).toString ≠ (s.supply j).toString

/-- The later stage has the same objects but for their tags, and target ids that
    were held before are still held. -/
structure Extends (s s' : Stage) : Prop where
  /-- Fresh ids are used up and never given back. -/
  minted_le : s.minted ≤ s'.minted
  /-- Nothing but tags has changed. -/
  untagged : s'.world.untagged = s.world.untagged
  /-- The invariant is kept for every bound that has not been passed. -/
  sound : ∀ bound, s'.minted ≤ bound → s.Sound bound → s'.Sound bound
  /-- What was held is held. -/
  holds : ∀ bound, s'.minted ≤ bound → s.Sound bound →
    ∀ id target, s.Holds id target → s'.Holds id target

theorem Extends.refl (s : Stage) : s.Extends s :=
  ⟨Nat.le_refl _, rfl, fun _ _ h => h, fun _ _ _ _ _ h => h⟩

theorem Extends.trans {s s' s'' : Stage} (h : s.Extends s') (h' : s'.Extends s'') :
    s.Extends s'' := by
  refine ⟨Nat.le_trans h.minted_le h'.minted_le, h'.untagged.trans h.untagged, ?_, ?_⟩
  · intro bound hbound hs
    exact h'.sound bound hbound (h.sound bound (Nat.le_trans h'.minted_le hbound) hs)
  · intro bound hbound hs id target hheld
    -- The bound of the last stage has not been passed by the one between.
    have hmiddle : s'.minted ≤ bound := Nat.le_trans h'.minted_le hbound
    exact h'.holds bound hbound (h.sound bound hmiddle hs) id target
      (h.holds bound hmiddle hs id target hheld)

theorem Extends.contains {s s' : Stage} (h : s.Extends s') (id : ObjectId) :
    s'.world.contains id = s.world.contains id := by
  rw [← World.contains_untagged, h.untagged, World.contains_untagged]

theorem not_isBlank_of_carries {s : Stage} {id : ObjectId} {target : String}
    (h : s.Carries id target) : Text.isBlank target = false := by
  rw [Carries, Option.bind_eq_some_iff] at h
  rcases h with ⟨o, -, ho⟩
  rw [carriedId?, Option.filter_eq_some_iff] at ho
  simpa using ho.2

/-- A target id that is held leads back to the object. -/
theorem Holds.resolve? {s : Stage} {id : ObjectId} {target : String} (h : s.Holds id target) :
    s.targets.resolve? target = some id := by
  rw [Targets.resolve?, not_isBlank_of_carries h.carries]
  exact h.stands

/-! ### Computing the invariant -/

/-- The target ids that objects carry. -/
def carried (s : Stage) : List String :=
  s.world.entries.filterMap fun e => carriedId? e.2

/-- The ids of the supply that have not been minted, up to a bound. -/
def upcoming (bound : Nat) (s : Stage) : List String :=
  (List.range' s.minted (bound - s.minted)).map fun i => (s.supply i).toString

theorem Carries.exists_entry {s : Stage} {id : ObjectId} {target : String}
    (h : s.Carries id target) :
    ∃ o, (id, o) ∈ s.world.entries ∧ carriedId? o = some target := by
  rw [Carries, Option.bind_eq_some_iff] at h
  rcases h with ⟨o, ho, htarget⟩
  exact ⟨o, OrderedMap.get?_eq_some_iff.1 ho, htarget⟩

/-- The invariant holds if no id stands twice among those carried and those to
    come. -/
theorem sound_of_nodup {bound : Nat} {s : Stage} (h : (s.carried ++ s.upcoming bound).Nodup) :
    s.Sound bound := by
  rw [List.nodup_append] at h
  rcases h with ⟨hcarried, hupcoming, hdisjoint⟩
  have hmem : ∀ i, s.minted ≤ i → i < bound → (s.supply i).toString ∈ s.upcoming bound := by
    intro i hle hlt
    refine List.mem_map.2 ⟨i, ?_, rfl⟩
    rw [List.mem_range'_1]
    omega
  refine ⟨?_, ?_, ?_⟩
  · intro id id' target hid hid'
    rcases hid.exists_entry with ⟨o, ho, htarget⟩
    rcases hid'.exists_entry with ⟨o', ho', htarget'⟩
    exact congrArg Prod.fst (eq_of_nodup_filterMap hcarried ho ho' htarget htarget')
  · intro i hle hlt id hid
    rcases hid.exists_entry with ⟨o, ho, htarget⟩
    exact hdisjoint _ (List.mem_filterMap.2 ⟨_, ho, htarget⟩) _ (hmem i hle hlt) rfl
  · intro i j hle hij hlt heq
    have hinj := List.inj_on_of_nodup_map hupcoming
    have hsame := hinj (List.mem_range'_1.2 (by omega)) (List.mem_range'_1.2 (by omega)) heq
    omega

/-! ### Registering -/

/-- Let a target id stand for an object. -/
def register (id : ObjectId) (target : String) (s : Stage) : Stage :=
  { s with targets := (s.targets.assign target id).2 }

theorem targets_register {id : ObjectId} {target : String} {s : Stage}
    (h : Text.isBlank target = false) :
    (s.register id target).targets = s.targets.insert target id := by
  simp [register, Targets.assign, h]

/-- Registering is not written into objects. -/
theorem carries_register (id id' : ObjectId) (target target' : String) (s : Stage) :
    (s.register id target).Carries id' target' ↔ s.Carries id' target' :=
  Iff.rfl

theorem Sound.register {bound : Nat} {s : Stage} (h : s.Sound bound) (id : ObjectId)
    (target : String) : (s.register id target).Sound bound :=
  ⟨h.unique, h.fresh, h.distinct⟩

theorem holds_register {id : ObjectId} {target : String} {s : Stage}
    (h : s.Carries id target) : (s.register id target).Holds id target := by
  refine ⟨h, ?_⟩
  rw [targets_register (not_isBlank_of_carries h), OrderedMap.get?_insert, if_pos rfl]

/-- Registering the target id that an object carries takes none from another
    object. -/
theorem register_extends {id : ObjectId} {target : String} {s : Stage}
    (h : s.Carries id target) : s.Extends (s.register id target) := by
  refine ⟨Nat.le_refl _, rfl, fun bound _ hs => hs.register id target, ?_⟩
  intro bound _ hs id' target' hheld
  refine ⟨hheld.carries, ?_⟩
  rw [targets_register (not_isBlank_of_carries h), OrderedMap.get?_insert]
  by_cases ht : target' = target
  · -- The one target id leads to the one object that carries it.
    subst ht
    rw [if_pos rfl, hs.unique id id' target' h hheld.carries]
  · rw [if_neg ht]
    exact hheld.stands

/-! ### Minting -/

theorem carries_mint_self {id : ObjectId} {s : Stage} (h : s.world.contains id = true) :
    (s.mint id).Carries id s.fresh := by
  rw [OrderedMap.contains, Option.isSome_iff_exists] at h
  rcases h with ⟨o, ho⟩
  simp [Carries, mint, OrderedMap.get?_update, ho, carriedId?, fresh, ObjectId.isBlank_toString]

theorem carries_mint_of_ne {id id' : ObjectId} {s : Stage} {target : String} (h : id' ≠ id) :
    (s.mint id).Carries id' target ↔ s.Carries id' target := by
  simp [Carries, mint, OrderedMap.get?_update, h]

/-- Whatever is carried after minting was carried before, or is the new id. -/
theorem carries_mint {id id' : ObjectId} {s : Stage} {target : String}
    (h : (s.mint id).Carries id' target) :
    (id' = id ∧ target = s.fresh) ∨ (id' ≠ id ∧ s.Carries id' target) := by
  by_cases hid : id' = id
  · left
    refine ⟨hid, ?_⟩
    subst hid
    rcases hget : s.world.get? id' with _ | o
    · simp [Carries, mint, OrderedMap.get?_update, hget] at h
    · simp [Carries, mint, OrderedMap.get?_update, hget, carriedId?,
        Option.filter_eq_some_iff] at h
      exact h.1.symm
  · right
    exact ⟨hid, (carries_mint_of_ne hid).1 h⟩

theorem Sound.not_carries_fresh {bound : Nat} {s : Stage} (h : s.Sound bound)
    (hbound : s.minted < bound) (id : ObjectId) : ¬s.Carries id s.fresh :=
  h.fresh s.minted (Nat.le_refl _) hbound id

theorem Sound.mint {bound : Nat} {s : Stage} (h : s.Sound bound) (hbound : s.minted < bound)
    (id : ObjectId) : (s.mint id).Sound bound := by
  refine ⟨?_, ?_, ?_⟩
  · -- Only one object carries the new id, and it carries no other.
    intro a b target ha hb
    rcases carries_mint ha with ⟨rfl, rfl⟩ | ⟨hane, ha'⟩
    · rcases carries_mint hb with ⟨rfl, -⟩ | ⟨-, hb'⟩
      · rfl
      · exact absurd hb' (h.not_carries_fresh hbound b)
    · rcases carries_mint hb with ⟨rfl, rfl⟩ | ⟨-, hb'⟩
      · exact absurd ha' (h.not_carries_fresh hbound a)
      · exact h.unique a b target ha' hb'
  · -- The ids to come differ from the new one as they do from each other.
    intro i hi hlt a ha
    have hle : s.minted + 1 ≤ i := hi
    rcases carries_mint ha with ⟨rfl, heq⟩ | ⟨-, ha'⟩
    · exact h.distinct s.minted i (Nat.le_refl _) (by omega) hlt heq.symm
    · exact h.fresh i (by omega) hlt a ha'
  · intro i j hi hij hj
    have hle : s.minted + 1 ≤ i := hi
    exact h.distinct i j (by omega) hij hj

/-- Minting an id for an object that carries none takes none from an object. -/
theorem mint_extends {id : ObjectId} {s : Stage}
    (h : (s.world.get? id).bind carriedId? = none) : s.Extends (s.mint id) := by
  refine ⟨Nat.le_succ _, ?_, fun bound hbound hs => hs.mint hbound id, ?_⟩
  · apply World.untagged_update_of_tag
    intro o
    rfl
  · intro bound _ _ id' target hheld
    -- An object that holds a target id is not the one that carried none.
    have hne : id' ≠ id := by
      rintro rfl
      have hcarried := hheld.carries
      rw [Carries, h] at hcarried
      exact absurd hcarried (by simp)
    exact ⟨(carries_mint_of_ne hne).2 hheld.carries, hheld.stands⟩

/-! ### Requests -/

/-- A request for a target id finds no object, registers the one the object
    carries, or mints one and registers it. -/
theorem tag_cases (id : ObjectId) (s : Stage) :
    (s.world.contains id = false ∧ s.tag id = (none, s)) ∨
      (∃ target, s.Carries id target ∧ s.tag id = (some target, s.register id target)) ∨
      (s.world.contains id = true ∧ (s.world.get? id).bind carriedId? = none ∧
        s.tag id = (some s.fresh, (s.mint id).register id s.fresh)) := by
  rcases hget : s.world.get? id with _ | o
  · left
    refine ⟨?_, ?_⟩
    · simp [OrderedMap.contains, hget]
    · simp [tag, hget]
  · right
    rcases hcarried : carriedId? o with _ | target
    · right
      refine ⟨?_, ?_, ?_⟩
      · simp [OrderedMap.contains, hget]
      · simpa using hcarried
      · simp [tag, hget, hcarried, register]
    · left
      refine ⟨target, ?_, ?_⟩
      · simpa [Carries, hget] using hcarried
      · simp [tag, hget, hcarried, register]

theorem tag_extends (id : ObjectId) (s : Stage) : s.Extends (s.tag id).2 := by
  rcases tag_cases id s with ⟨-, htag⟩ | ⟨target, hcarries, htag⟩ | ⟨hthere, hnone, htag⟩
  · rw [htag]
    exact Extends.refl s
  · rw [htag]
    exact register_extends hcarries
  · rw [htag]
    exact (mint_extends hnone).trans (register_extends (carries_mint_self hthere))

/-- The answer to a request is held by the object it was made for. -/
theorem tag_holds {id : ObjectId} {s : Stage} {target : String}
    (h : (s.tag id).1 = some target) : (s.tag id).2.Holds id target := by
  rcases tag_cases id s with ⟨-, htag⟩ | ⟨target', hcarries, htag⟩ | ⟨hthere, -, htag⟩
  · rw [htag] at h
    exact absurd h (by simp)
  · rw [htag] at h ⊢
    have heq : target' = target := Option.some.inj h
    rw [← heq]
    exact holds_register hcarries
  · rw [htag] at h ⊢
    have heq : s.fresh = target := Option.some.inj h
    rw [← heq]
    exact holds_register (carries_mint_self hthere)

/-- A request is answered exactly if the object exists. -/
theorem isSome_tag (id : ObjectId) (s : Stage) : (s.tag id).1.isSome = s.world.contains id := by
  rcases tag_cases id s with ⟨hmissing, htag⟩ | ⟨target, hcarries, htag⟩ | ⟨hthere, -, htag⟩
  · rw [htag, hmissing]
    rfl
  · rw [htag, OrderedMap.contains]
    rcases hget : s.world.get? id with _ | o
    · simp [Carries, hget] at hcarries
    · rfl
  · rw [htag, hthere]
    rfl

theorem carries_bindClick (graph : GraphRef) (id : ObjectId) (node : NodeId) (s : Stage)
    (id' : ObjectId) (target : String) :
    (s.bindClick graph id node).Carries id' target ↔ s.Carries id' target := by
  by_cases hid : id' = id
  · subst hid
    rcases hget : s.world.get? id' with _ | o
    · simp [Carries, bindClick, OrderedMap.get?_update, hget]
    · simp [Carries, bindClick, OrderedMap.get?_update, hget, carriedId?]
  · simp [Carries, bindClick, OrderedMap.get?_update, hid]

/-- Attaching a click trigger leaves target ids alone. -/
theorem bindClick_extends (graph : GraphRef) (id : ObjectId) (node : NodeId) (s : Stage) :
    s.Extends (s.bindClick graph id node) := by
  have hcarries := s.carries_bindClick graph id node
  refine ⟨Nat.le_refl _, ?_, ?_, ?_⟩
  · apply World.untagged_update_of_tag
    intro o
    rfl
  · intro bound _ hs
    refine ⟨?_, ?_, hs.distinct⟩
    · intro a b target ha hb
      exact hs.unique a b target ((hcarries a target).1 ha) ((hcarries b target).1 hb)
    · intro i hi hlt a ha
      exact hs.fresh i hi hlt a ((hcarries a _).1 ha)
  · intro bound _ _ id' target hheld
    exact ⟨(hcarries id' target).2 hheld.carries, hheld.stands⟩

end Stage

end BehaviorGraph
