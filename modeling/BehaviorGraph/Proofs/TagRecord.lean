import BehaviorGraph.Proofs.Rendering
/-!
# What Baking Leaves on Record

The record of a stage says what target ids stand for. It is truthful if an id only
stands for an object that carries it, and complete if every id that is carried stands
for its carrier. Baking keeps both, and gives no object a second target id.

How much is known of a bake depends on what is known of the stage that it ends with.
Target ids that are minted on the way have to differ from those in use, and there is no
need to ask for that in advance: an object keeps what it was given, so two objects that
carried one id at some time during the bake would still do so at the end. If no two do
at the end, then the supply was fresh as far as it was used, and the ids were told apart
from the beginning. `Tags` says this of every stage on the way, looking backwards.

## Main definitions

* `Stage.Unshared`: No two objects carry one target id.
* `Stage.Truthful`: Target ids stand for objects that carry them.
* `Stage.TruthfulOf`: As far as they stand for one object.
* `Stage.Complete`: Target ids that are carried stand for their carriers.
* `Stage.Tags`: The later stage arises by tagging objects.

## Theorems

* `Stage.coversBakes_tags`: Baking does nothing but tagging.
* `Stage.Tags.sound`: The stage that a bake starts with is sound as far as the supply
  is used.
* `Stage.Tags.holds`, `Stage.Tags.complete`: What was held is held, and a complete
  record stays complete.
-/

namespace BehaviorGraph

namespace Stage

/-- No two objects carry one target id. -/
def Unshared (s : Stage) : Prop :=
  ∀ id id' target, s.Carries id target → s.Carries id' target → id = id'

/-- A target id only stands for an object that carries it. -/
def Truthful (s : Stage) : Prop :=
  ∀ target id, s.targets.get? target = some id → s.Carries id target

/-- A target id that is carried stands for the object that carries it. -/
def Complete (s : Stage) : Prop :=
  ∀ id target, s.Carries id target → s.Holds id target

theorem carries_iff {s : Stage} {id : ObjectId} {target : String} :
    s.Carries id target ↔ ∃ o, (id, o) ∈ s.world.entries ∧ carriedId? o = some target := by
  refine ⟨Carries.exists_entry, ?_⟩
  rintro ⟨o, ho, htarget⟩
  rw [Carries, OrderedMap.get?_eq_some_iff.2 ho]
  exact htarget

/-- An object carries one target id. -/
theorem Carries.unique {s : Stage} {id : ObjectId} {target target' : String}
    (h : s.Carries id target) (h' : s.Carries id target') : target = target' := by
  rw [Carries] at h h'
  exact Option.some.inj (h.symm.trans h')

theorem contains_of_carries {s : Stage} {id : ObjectId} {target : String}
    (h : s.Carries id target) : s.world.contains id = true := by
  rcases h.exists_entry with ⟨o, ho, -⟩
  exact OrderedMap.contains_iff.2 (OrderedMap.mem_keys_of_mem ho)

theorem targetId_of_carriedId? {o : SceneObject} {target : String}
    (h : carriedId? o = some target) : o.targetId = some target := by
  rw [carriedId?, Option.filter_eq_some_iff] at h
  exact h.1

/-- Target ids are not shared if none stands twice among those carried. -/
theorem unshared_of_nodup {s : Stage} (h : s.carried.Nodup) : s.Unshared := by
  intro id id' target hid hid'
  rcases hid.exists_entry with ⟨o, ho, htarget⟩
  rcases hid'.exists_entry with ⟨o', ho', htarget'⟩
  exact congrArg Prod.fst (eq_of_nodup_filterMap h ho ho' htarget htarget')

/-- As far as the supply has been used, only what is carried matters. -/
theorem Unshared.sound {s : Stage} (h : s.Unshared) : s.Sound s.minted := by
  refine ⟨h, ?_, ?_⟩
  · intro i hle hlt
    omega
  · intro i j hle hij hlt
    omega

/-- The later stage arises by tagging objects. -/
structure Tags (s s' : Stage) : Prop where
  /-- It keeps what the earlier one had. -/
  keeps : s.Extends s'
  /-- No object loses a target id. -/
  carries : ∀ {id : ObjectId} {target : String}, s.Carries id target → s'.Carries id target
  /-- The earlier stage is sound if the later one is. -/
  sound_of : ∀ bound, s'.minted ≤ bound → s'.Sound bound → s.Sound bound
  /-- A truthful record stays truthful. -/
  truthful : s.Truthful → s'.Truthful
  /-- What an object carries now, it carried before, or it holds it. -/
  held : ∀ bound, s'.minted ≤ bound → s'.Sound bound → ∀ id target,
    s'.Carries id target → s.Carries id target ∨ s'.Holds id target

theorem Tags.refl (s : Stage) : s.Tags s :=
  ⟨Extends.refl s, id, fun _ _ hs => hs, id, fun _ _ _ _ _ h => Or.inl h⟩

theorem Tags.trans {s s' s'' : Stage} (h : s.Tags s') (h' : s'.Tags s'') : s.Tags s'' := by
  refine ⟨h.keeps.trans h'.keeps, fun hid => h'.carries (h.carries hid), ?_,
    fun ht => h'.truthful (h.truthful ht), ?_⟩
  · intro bound hbound hs
    exact h.sound_of bound (Nat.le_trans h'.keeps.minted_le hbound) (h'.sound_of bound hbound hs)
  · intro bound hbound hs id target hcarries
    have hmiddle : s'.minted ≤ bound := Nat.le_trans h'.keeps.minted_le hbound
    have hsound := h'.sound_of bound hbound hs
    rcases h'.held bound hbound hs id target hcarries with hearlier | hheld
    · -- What was held between is held at the end.
      rcases h.held bound hmiddle hsound id target hearlier with hfirst | hheld
      · exact Or.inl hfirst
      · exact Or.inr (h'.keeps.holds bound hbound hsound id target hheld)
    · exact Or.inr hheld

/-- The target ids that stand for one object are carried by it. -/
def TruthfulOf (id : ObjectId) (s : Stage) : Prop :=
  ∀ target, s.targets.get? target = some id → s.Carries id target

/-- Registering what an object carries keeps the record truthful about every object. -/
theorem TruthfulOf.register {id id' : ObjectId} {s : Stage} (h : s.TruthfulOf id)
    {target : String} (hcarries : s.Carries id' target) :
    (s.register id' target).TruthfulOf id := by
  intro target' hget
  rw [targets_register (not_isBlank_of_carries hcarries), OrderedMap.get?_insert] at hget
  split at hget
  · next heq =>
      rw [heq, ← Option.some.inj hget]
      exact hcarries
  · exact h target' hget

theorem Truthful.register {s : Stage} (h : s.Truthful) {id : ObjectId} {target : String}
    (hcarries : s.Carries id target) : (s.register id target).Truthful :=
  fun target' id' => TruthfulOf.register (fun target => h target id') hcarries target'

theorem register_tags {id : ObjectId} {target : String} {s : Stage} (h : s.Carries id target) :
    s.Tags (s.register id target) := by
  refine ⟨register_extends h, fun hid => hid, ?_, fun ht => ht.register h, ?_⟩
  · intro bound _ hs
    exact ⟨hs.unique, hs.fresh, hs.distinct⟩
  · intro bound _ _ id' target' hcarries
    exact Or.inl hcarries

section Mint

variable {id : ObjectId} {s : Stage} (hthere : s.world.contains id = true)
  (hnone : (s.world.get? id).bind carriedId? = none)
include hnone

/-- An object that carries a target id is not the one that a new one is minted for. -/
theorem carries_mint_of_carries {id' : ObjectId} {target : String} (h : s.Carries id' target) :
    (s.mint id).Carries id' target := by
  have hne : id' ≠ id := by
    rintro rfl
    rw [Carries, hnone] at h
    exact absurd h (by simp)
  exact (carries_mint_of_ne hne).2 h

include hthere

/-- If ids are told apart after minting, then they were before, and the new id was
    fresh. -/
theorem Sound.of_mint {bound : Nat} (h : (s.mint id).Sound bound) : s.Sound bound := by
  have hself := carries_mint_self hthere
  refine ⟨?_, ?_, ?_⟩
  · intro a b target ha hb
    exact h.unique a b target (carries_mint_of_carries hnone ha) (carries_mint_of_carries hnone hb)
  · intro i hle hlt a ha
    have hlater := carries_mint_of_carries hnone ha
    rcases Nat.eq_or_lt_of_le hle with heq | hnext
    · -- The id that was minted is carried by the object it was minted for, and by no other.
      rw [← heq] at ha hlater
      have hsame : a = id := h.unique a id s.fresh hlater hself
      rw [hsame, Carries, hnone] at ha
      exact absurd ha (by simp)
    · exact h.fresh i hnext hlt a hlater
  · intro i j hle hij hlt
    rcases Nat.eq_or_lt_of_le hle with heq | hnext
    · intro hsame
      rw [← heq] at hij hsame
      have hcarries : (s.mint id).Carries id (s.supply j).toString := by
        rw [← hsame]
        exact hself
      exact h.fresh j hij hlt id hcarries
    · exact h.distinct i j hnext hij hlt

theorem mint_register_tags : s.Tags ((s.mint id).register id s.fresh) := by
  have hself := carries_mint_self hthere
  have hregister := register_tags hself
  refine ⟨(mint_extends hnone).trans hregister.keeps,
    fun hid => hregister.carries (carries_mint_of_carries hnone hid), ?_, ?_, ?_⟩
  · intro bound hbound hs
    exact Sound.of_mint hthere hnone (hregister.sound_of bound hbound hs)
  · intro ht
    refine hregister.truthful fun target id' hget => ?_
    exact carries_mint_of_carries hnone (ht target id' hget)
  · intro bound _ _ id' target hcarries
    rw [carries_register] at hcarries
    rcases carries_mint hcarries with ⟨hid, htarget⟩ | ⟨-, hearlier⟩
    · rw [hid, htarget]
      exact Or.inr (holds_register hself)
    · exact Or.inl hearlier

end Mint

theorem tag_tags (id : ObjectId) (s : Stage) : s.Tags (s.tag id).2 := by
  rcases tag_cases id s with ⟨-, htag⟩ | ⟨target, hcarries, htag⟩ | ⟨hthere, hnone, htag⟩
  · rw [htag]
    exact Tags.refl s
  · rw [htag]
    exact register_tags hcarries
  · rw [htag]
    exact mint_register_tags hthere hnone

theorem bindClick_tags (graph : GraphRef) (id : ObjectId) (node : NodeId) (s : Stage) :
    s.Tags (s.bindClick graph id node) := by
  have hcarries := s.carries_bindClick graph id node
  refine ⟨bindClick_extends graph id node s, (hcarries _ _).2, ?_, ?_, ?_⟩
  · intro bound _ hs
    refine ⟨?_, ?_, hs.distinct⟩
    · intro a b target ha hb
      exact hs.unique a b target ((hcarries a target).2 ha) ((hcarries b target).2 hb)
    · intro i hle hlt a ha
      exact hs.fresh i hle hlt a ((hcarries a _).2 ha)
  · intro ht target id' hget
    exact (hcarries id' target).2 (ht target id' hget)
  · intro bound _ _ id' target hlater
    exact Or.inl ((hcarries id' target).1 hlater)

/-- Baking does nothing to the record but tagging. -/
theorem coversBakes_tags (graph : GraphRef) : CoversBakes graph Tags :=
  ⟨Tags.refl, Tags.trans, tag_tags, bindClick_tags graph⟩

namespace Tags

variable {s s' : Stage} (h : s.Tags s') (hs' : s'.Unshared)
include h hs'

/-- If the ids are told apart in the end, the supply was fresh as far as it was
    used. -/
theorem sound : s.Sound s'.minted :=
  h.sound_of s'.minted (Nat.le_refl _) hs'.sound

theorem holds {id : ObjectId} {target : String} (hheld : s.Holds id target) :
    s'.Holds id target :=
  h.keeps.holds s'.minted (Nat.le_refl _) (h.sound hs') id target hheld

/-- A complete record stays complete. -/
theorem complete (hs : s.Complete) : s'.Complete := by
  intro id target hcarries
  rcases h.held s'.minted (Nat.le_refl _) hs'.sound id target hcarries with hearlier | hheld
  · exact h.holds hs' (hs id target hearlier)
  · exact hheld

end Tags

end Stage

end BehaviorGraph
