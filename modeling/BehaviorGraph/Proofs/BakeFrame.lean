import BehaviorGraph.Proofs.ClickWiring
import BehaviorGraph.Proofs.SharedTargets
/-!
# What a Bake Leaves Alone

The part of a graph, a world and a registry that a bake cannot have changed.

Of the graph it is all but the program, and of the world all but two fields of its objects. A
click trigger changes only where a click node has an object for target, and then it names that
node. A target id changes only if it was none or blank, and only in objects that the graph
refers to; and then it is an id that was minted during the bake. That it was blank before the
bake is more than the requests tell. Each finds it blank when it is served, and other requests
have been served by then. But what an object carries it never loses, so an id that is blank
when the object is asked about has been blank from the beginning.

The registry changes where the bake has registered something. What it registers is what the
objects carry that it asks about, and these are still there when it is over.

## Main definitions

* `Stage.labelOf?`: The target id that stands in an object, blank or not.
* `Stage.Relabels`: An object that carried none has an id that was minted meanwhile.
* `Stage.Labels`: Nothing happens to target ids but this.

## Theorems

* `Stage.coversBakes_labels`: What a bake does to target ids.
* `Graph.referred_of_relabels`: Where it does so.
* `Graph.bake_frame`: What a bake leaves alone.
-/

namespace BehaviorGraph

open Stage (carriedId?)

/-- An object of a world is there in another world with the same objects, but for their
    tags. -/
theorem World.exists_get?_of_untagged {w w' : World} (h : w'.untagged = w.untagged) {id : ObjectId}
    {o : SceneObject} (ho : w.get? id = some o) :
    ∃ o', w'.get? id = some o' ∧
      o' = { o with targetId := o'.targetId, clickTrigger := o'.clickTrigger } := by
  have hget := w'.get?_untagged id
  rw [h, get?_untagged, ho, Option.map_some] at hget
  rcases Option.map_eq_some_iff.1 hget.symm with ⟨o', ho', hsame⟩
  refine ⟨o', ho', ?_⟩
  -- Stripped of their tags the two are equal, so they are equal in each other field.
  cases o
  cases o'
  simp only [SceneObject.untagged, SceneObject.mk.injEq] at hsame ⊢
  simp [hsame]

namespace Stage

/-! ### Labels -/

/-- The target id that stands in an object, blank or not. -/
def labelOf? (id : ObjectId) (s : Stage) : Option String :=
  (s.world.get? id).bind SceneObject.targetId

/-- An object that carried no target id has one that was minted meanwhile. -/
structure Relabels (s s' : Stage) (id : ObjectId) : Prop where
  /-- It carried none. -/
  unlabelled : (s.world.get? id).bind carriedId? = none
  /-- The one it has is from the supply. -/
  minted : ∃ i, s.minted ≤ i ∧ i < s'.minted ∧ s'.labelOf? id = some (s.supply i).toString

/-- Nothing happens to target ids but that some are minted. -/
structure Labels (s s' : Stage) : Prop where
  /-- The later stage arises by tagging objects. -/
  tags : s.Tags s'
  /-- The supply is the same. -/
  supply : s'.supply = s.supply
  /-- An object keeps its target id, unless it carried none. -/
  label : ∀ id, s'.labelOf? id = s.labelOf? id ∨ s.Relabels s' id

theorem Labels.refl (s : Stage) : s.Labels s :=
  ⟨.refl s, rfl, fun _ => Or.inl rfl⟩

theorem Labels.trans {s s' s'' : Stage} (h : s.Labels s') (h' : s'.Labels s'') :
    s.Labels s'' := by
  refine ⟨h.tags.trans h'.tags, h'.supply.trans h.supply, fun id => ?_⟩
  have hle := h.tags.keeps.minted_le
  have hle' := h'.tags.keeps.minted_le
  rcases h'.label id with hsame | ⟨hnone, i, hi, hlt, hlabel⟩
  · rcases h.label id with hsame' | ⟨hnone', i, hi, hlt, hlabel⟩
    · exact Or.inl (hsame.trans hsame')
    · exact Or.inr ⟨hnone', i, hi, by omega, hsame.trans hlabel⟩
  · -- What the object had carried before, it would still carry in between.
    right
    refine ⟨?_, i, by omega, hlt, by rw [hlabel, h.supply]⟩
    rw [Option.eq_none_iff_forall_ne_some]
    intro target hcarries
    have hlater : s'.Carries id target := h.tags.carries hcarries
    rw [Carries, hnone] at hlater
    exact absurd hlater (by simp)

theorem tag_labels (id : ObjectId) (s : Stage) : s.Labels (s.tag id).2 := by
  refine ⟨tag_tags id s, ?_, fun id' => ?_⟩
  · rcases tag_cases id s with ⟨-, htag⟩ | ⟨target, -, htag⟩ | ⟨-, -, htag⟩
    · rw [htag]
    · rw [htag]
      rfl
    · rw [htag]
      rfl
  · rcases tag_cases id s with ⟨-, htag⟩ | ⟨target, -, htag⟩ | ⟨hthere, hnone, htag⟩
    · rw [htag]
      exact Or.inl rfl
    · rw [htag]
      exact Or.inl rfl
    · rw [htag]
      by_cases hid : id' = id
      · right
        rcases Option.isSome_iff_exists.1 hthere with ⟨o, ho⟩
        refine ⟨by rw [hid]; exact hnone, s.minted, Nat.le_refl _, Nat.lt_succ_self _, ?_⟩
        simp [labelOf?, register, mint, OrderedMap.get?_update, hid, ho, fresh]
      · left
        simp only [labelOf?, register, mint, OrderedMap.get?_update, if_neg hid]

theorem bindClick_labels (graph : GraphRef) (id : ObjectId) (node : NodeId) (s : Stage) :
    s.Labels (s.bindClick graph id node) := by
  refine ⟨bindClick_tags graph id node s, rfl, fun id' => Or.inl ?_⟩
  simp only [labelOf?, bindClick, OrderedMap.get?_update]
  split
  · cases s.world.get? id' <;> rfl
  · rfl

/-- A bake changes target ids only by minting some. -/
theorem coversBakes_labels (graph : GraphRef) : CoversBakes graph Labels :=
  ⟨Labels.refl, Labels.trans, tag_labels, bindClick_labels graph⟩

end Stage

namespace Graph

variable {g : Graph} {graph : GraphRef} {s : Stage}

theorem labels_bake (g : Graph) (graph : GraphRef) (s : Stage) :
    s.Labels (g.bake (Stage.context graph) s).2.2 :=
  (Stage.coversBakes_labels graph).compileAll g.compileNodes s

/-- An object for which an id was minted is one that the graph refers to. -/
theorem referred_of_relabels {id : ObjectId}
    (h : s.Relabels (g.bake (Stage.context graph) s).2.2 id) :
    ∃ n ∈ g.nodes, n.takesPart = true ∧ id ∈ n.kind.referents := by
  rcases h.minted with ⟨i, -, -, hlabel⟩
  -- It carries the id now, and did not before, so it was asked about.
  have hcarries : (g.bake (Stage.context graph) s).2.2.Carries id (s.supply i).toString := by
    rcases Option.bind_eq_some_iff.1 hlabel with ⟨o, ho, htarget⟩
    rw [Stage.Carries, ho, Option.bind_some, carriedId?, htarget, Option.filter_some,
      if_pos (by simp [ObjectId.isBlank_toString])]
  rw [stage_bake] at hcarries
  rcases Stage.carries_of_serveAll hcarries with hbefore | hasked
  · rw [Stage.Carries, h.unlabelled] at hbefore
    exact absurd hbefore (by simp)
  · rw [filterMap_target?_requests] at hasked
    exact mem_asked.1 hasked

/-- The click trigger of an object is the one it had, or a click node targets the object. -/
theorem clickOf?_bake (g : Graph) (graph : GraphRef) {id : ObjectId}
    (hthere : s.world.contains id = true) :
    (g.bake (Stage.context graph) s).2.2.clickOf? id = s.clickOf? id ∨
      ∃ n ∈ g.nodes, n.takesPart = true ∧ n.kind = .click (some id) ∧
        (g.bake (Stage.context graph) s).2.2.clickOf? id = some ⟨graph, n.id⟩ := by
  rw [stage_bake, Stage.clickOf?_serveAll _ hthere, filterMap_wire?_requests]
  rcases hlatest : latest? id g.wirings with _ | node
  · exact Or.inl rfl
  · right
    rcases mem_wirings.1 (mem_of_latest? hlatest) with ⟨n, hn, hkind, rfl, hblank⟩
    refine ⟨n, hn, ?_, hkind, rfl⟩
    rw [Node.takesPart, hblank, hkind]
    rfl

/-- A target id stands for what it stood for, or for an object that the graph refers to and
    that carries it. -/
theorem get?_bake (g : Graph) (graph : GraphRef) (s : Stage) (target : String) :
    let s' := (g.bake (Stage.context graph) s).2.2
    s'.targets.get? target = s.targets.get? target ∨
      ∃ id, s'.targets.get? target = some id ∧ s'.Carries id target ∧
        ∃ n ∈ g.nodes, n.takesPart = true ∧ id ∈ n.kind.referents := by
  intro s'
  rw [show s'.targets.get? target = _ from g.targets_bake graph s target]
  rcases hlatest : latest? target (s'.carriedBy g.asked) with _ | id
  · exact Or.inl rfl
  · right
    rcases Stage.mem_carriedBy.1 (mem_of_latest? hlatest) with ⟨hasked, hcarries⟩
    exact ⟨id, rfl, hcarries, mem_asked.1 hasked⟩

/-- What a bake changes. Of the graph, the program. Of the world, neither the objects nor their
    order, but the target ids of objects that nodes which take part refer to, if these were
    none or blank, to ids minted during the bake; and the click triggers of objects that click
    nodes target, to such a node. Of the registry, what stands for objects that nodes which
    take part refer to, under the target ids that these carry now. -/
theorem bake_frame (g : Graph) (graph : GraphRef) (s : Stage) :
    let b := g.bake (Stage.context graph) s
    let s' := b.2.2
    b.2.1 = { g with program := b.2.1.program } ∧
    s'.supply = s.supply ∧
    s'.world.keys = s.world.keys ∧
    (∀ id o, s.world.get? id = some o → ∃ o', s'.world.get? id = some o' ∧
      o' = { o with targetId := o'.targetId, clickTrigger := o'.clickTrigger } ∧
      (o'.targetId ≠ o.targetId →
        carriedId? o = none ∧ (∃ n ∈ g.nodes, n.takesPart = true ∧ id ∈ n.kind.referents) ∧
        ∃ i, s.minted ≤ i ∧ i < s'.minted ∧ o'.targetId = some (s.supply i).toString) ∧
      (o'.clickTrigger ≠ o.clickTrigger →
        ∃ n ∈ g.nodes, n.takesPart = true ∧ n.kind = .click (some id) ∧
          o'.clickTrigger = some ⟨graph, n.id⟩)) ∧
    ∀ target, s'.targets.get? target ≠ s.targets.get? target →
      ∃ id, s'.targets.get? target = some id ∧ s'.Carries id target ∧
        ∃ n ∈ g.nodes, n.takesPart = true ∧ id ∈ n.kind.referents := by
  intro b s'
  have hlabels : s.Labels s' := g.labels_bake graph s
  have huntagged : s'.world.untagged = s.world.untagged := hlabels.tags.keeps.untagged
  refine ⟨rfl, hlabels.supply, ?_, fun id o ho => ?_, fun target hne => ?_⟩
  · have hkeys := congrArg OrderedMap.keys huntagged
    rwa [World.untagged, World.untagged, OrderedMap.keys_mapValues, OrderedMap.keys_mapValues]
      at hkeys
  · rcases World.exists_get?_of_untagged huntagged ho with ⟨o', ho', hfields⟩
    refine ⟨o', ho', hfields, fun hne => ?_, fun hne => ?_⟩
    · rcases hlabels.label id with hsame | hrelabels
      · rw [Stage.labelOf?, Stage.labelOf?, ho, ho'] at hsame
        exact absurd hsame hne
      · have hunlabelled := hrelabels.unlabelled
        have hminted := hrelabels.minted
        rw [ho] at hunlabelled
        rw [Stage.labelOf?, ho'] at hminted
        exact ⟨hunlabelled, referred_of_relabels hrelabels, hminted⟩
    · have hthere : s.world.contains id = true := by rw [OrderedMap.contains, ho]; rfl
      have hclick := g.clickOf?_bake graph hthere
      rw [show (g.bake (Stage.context graph) s).2.2 = s' from rfl, Stage.clickOf?, Stage.clickOf?,
        ho, ho'] at hclick
      exact hclick.resolve_left hne
  · exact (g.get?_bake graph s target).resolve_left hne

end Graph

end BehaviorGraph
