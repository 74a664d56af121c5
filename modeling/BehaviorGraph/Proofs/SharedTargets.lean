import BehaviorGraph.Proofs.BakeRequests
import BehaviorGraph.Proofs.TargetLife
/-!
# Target Ids That Objects Share

What a target id stands for when several objects carry it.

The registry keeps one object for each target id. Registering another object under the same
id replaces the one before, and when the object that is kept goes, the id stands for
nothing: the registry does not know of the others that carry it, and nobody looks for
them. So a target id that is carried by some object need not resolve.

What it resolves to is settled by the record of all registrations, in the order in which
they were made. Objects are registered when they are spawned, when a pass goes over their
scene, and when a bake asks for their target ids. The object that stands last in the record
under a target id is the one that the id stands for, as long as it is there. Once it is
gone the id stands for nothing, until it is registered again. And whatever is carried
stands in the record, so a target id that some object carries always has a last object.

Two facts make this work. The registry is truthful, so an object that goes gives back all
ids that stand for it; and ids of objects are not used again, so an object of the record
that is there now has been there ever since.

## Main definitions

* `Stage.carriedBy`: The target ids that some objects carry.
* `Session.registrations`, `Session.registered`: What an event registers, and a history.
* `Session.Writes`: What registrations make of the registry.

## Theorems

* `Stage.get?_serveAll`, `Graph.targets_bake`, `Session.targets_bake`: What a bake leaves in the
  registry.
* `Session.writes_happen`: What an event leaves there.
* `Session.get?_after_iff`: And a history.
* `Session.mem_registered_of_carries`: Whatever is carried was registered.
* `Session.shared_target_resolves`: What a target id resolves to that is carried.
* `Session.carried_target_unresolved`: Two panels under one target id.
-/

namespace BehaviorGraph

open Stage (carriedId?)

/-! ### Bakes -/

namespace Stage

/-- The target ids that some objects carry, with the objects, in their order. -/
def carriedBy (s : Stage) (ids : List ObjectId) : List (String × ObjectId) :=
  ids.filterMap fun id => ((s.world.get? id).bind carriedId?).map fun target => (target, id)

theorem mem_carriedBy {s : Stage} {ids : List ObjectId} {target : String} {id : ObjectId} :
    (target, id) ∈ s.carriedBy ids ↔ id ∈ ids ∧ s.Carries id target := by
  simp only [carriedBy, List.mem_filterMap, Option.map_eq_some_iff, Prod.mk.injEq]
  constructor
  · rintro ⟨id', hid, target', htarget, rfl, rfl⟩
    exact ⟨hid, htarget⟩
  · rintro ⟨hid, htarget⟩
    exact ⟨id, hid, target, htarget, rfl, rfl⟩

/-- A request for the target id of an object registers the one that it carries then. -/
theorem tag_registers (id : ObjectId) (s : Stage) :
    (s.world.contains id = false ∧ (s.tag id).2 = s) ∨
      ∃ target, (s.tag id).2.Carries id target ∧
        (s.tag id).2.targets = s.targets.insert target id := by
  rcases tag_cases id s with ⟨hmissing, htag⟩ | ⟨target, hcarries, htag⟩ | ⟨hthere, -, htag⟩
  · left
    rw [htag]
    exact ⟨hmissing, rfl⟩
  · right
    rw [htag]
    exact ⟨target, hcarries, targets_register (not_isBlank_of_carries hcarries)⟩
  · right
    have hself := carries_mint_self hthere
    have htargets : (s.mint id).targets = s.targets := rfl
    rw [htag]
    refine ⟨s.fresh, (carries_register _ _ _ _ _).2 hself, ?_⟩
    rw [targets_register (not_isBlank_of_carries hself), htargets]

/-- After a bake a target id stands for the object that was asked about last among those that
    carry it, or for what it stood for before. -/
theorem get?_serveAll (graph : GraphRef) (rs : List BakeRequest) (s : Stage) (target : String) :
    let s' := rs.foldl (serve graph) s
    s'.targets.get? target =
      (latest? target (s'.carriedBy (rs.filterMap BakeRequest.target?))).or
        (s.targets.get? target) := by
  induction rs generalizing s with
  | nil => rfl
  | cons r rs ih =>
      -- The last stage is kept, since what is carried there is what each request registered.
      intro s'
      have htags : (s.serve graph r).Tags s' := serveAll_tags graph rs _
      have hrest : s'.targets.get? target =
          (latest? target (s'.carriedBy (rs.filterMap BakeRequest.target?))).or
            ((s.serve graph r).targets.get? target) := ih (s.serve graph r)
      rw [hrest]
      cases r with
      | click id node => rfl
      | target id =>
          have hasked : (BakeRequest.target id :: rs).filterMap BakeRequest.target? =
              id :: rs.filterMap BakeRequest.target? := rfl
          rw [hasked]
          rcases tag_registers id s with ⟨hmissing, htag⟩ | ⟨own, hcarries, htargets⟩
          · -- Nothing is registered for an object that does not exist.
            have hgone : s'.world.get? id = none := by
              rw [← Option.not_isSome_iff_eq_none, Bool.not_eq_true, ← OrderedMap.contains,
                htags.keeps.contains, serve, htag]
              exact hmissing
            rw [serve, htag, carriedBy, carriedBy, List.filterMap_cons, hgone]
            rfl
          · -- What it carries after the request it carries in the end.
            have hlater : (s'.world.get? id).bind carriedId? = some own := htags.carries hcarries
            have hcons : s'.carriedBy (id :: rs.filterMap BakeRequest.target?) =
                (own, id) :: s'.carriedBy (rs.filterMap BakeRequest.target?) := by
              rw [carriedBy, List.filterMap_cons, hlater]
              rfl
            rw [hcons, latest?_cons, Option.or_assoc, serve, htargets, OrderedMap.get?_insert]
            congr 1
            by_cases hown : own = target
            · simp [hown]
            · simp [hown, Ne.symm hown]

/-- What an object carries after a bake it carried before, or the bake has asked for it. -/
theorem carries_of_serveAll {graph : GraphRef} {rs : List BakeRequest} {s : Stage}
    {id : ObjectId} {target : String} (h : (rs.foldl (serve graph) s).Carries id target) :
    s.Carries id target ∨ id ∈ rs.filterMap BakeRequest.target? := by
  induction rs generalizing s with
  | nil => exact Or.inl h
  | cons r rs ih =>
      rcases ih h with hnow | hasked
      · cases r with
        | click id' node => exact Or.inl ((s.carries_bindClick graph id' node id target).1 hnow)
        | target id' =>
            have hstep : (s.tag id').2.Carries id target := hnow
            rcases tag_cases id' s with ⟨-, htag⟩ | ⟨own, -, htag⟩ | ⟨-, -, htag⟩
            · rw [htag] at hstep
              exact Or.inl hstep
            · rw [htag] at hstep
              exact Or.inl hstep
            · rw [htag, carries_register] at hstep
              rcases carries_mint hstep with ⟨rfl, -⟩ | ⟨-, hbefore⟩
              · exact Or.inr List.mem_cons_self
              · exact Or.inl hbefore
      · right
        rw [List.filterMap_cons]
        split
        · exact hasked
        · exact List.mem_cons_of_mem _ hasked

end Stage

/-- The same for the bake of a graph: the objects that it asks about are registered. -/
theorem Graph.targets_bake (g : Graph) (graph : GraphRef) (s : Stage) (target : String) :
    let s' := (g.bake (Stage.context graph) s).2.2
    s'.targets.get? target =
      (latest? target (s'.carriedBy g.asked)).or (s.targets.get? target) := by
  intro s'
  rw [← filterMap_target?_requests, show s' = _ from g.stage_bake graph s]
  exact Stage.get?_serveAll graph g.requests s target

theorem Session.targets_bake (s : Session) (graph : GraphRef) (target : String) :
    (s.bake graph).2.targets.get? target =
      (latest? target ((s.bake graph).2.carriedBy (s.library.get graph).asked)).or
        (s.targets.get? target) :=
  (s.library.get graph).targets_bake graph s.toStage target

/-! ### Events -/

/-- The objects whose target ids an event registers, in their order: those that the bake of a
    graph asks about, and those that other events enlist in the world that they leave. -/
def Event.addressed (s s' : Session) : Event → List ObjectId
  | bake graph => (s.library.get graph).asked
  | e => (e.enlisted s'.world).map Prod.fst

namespace Session

/-- What an event registers: the target ids that the objects carry in the session that it
    leaves. -/
def registrations (s : Session) (e : Event) : List (String × ObjectId) :=
  (s.happen e).carriedBy (e.addressed s (s.happen e))

/-- What a history registers, one event after the other. -/
def registered (s : Session) : List Event → List (String × ObjectId)
  | [] => []
  | e :: events => s.registrations e ++ (s.happen e).registered events

theorem registered_concat (s : Session) (events : List Event) (e : Event) :
    s.registered (events ++ [e]) = s.registered events ++ (s.after events).registrations e := by
  induction events generalizing s with
  | nil => exact List.append_nil _
  | cons e' events ih =>
      rw [List.cons_append, registered, ih, registered, List.append_assoc]
      rfl

/-- What objects that are enlisted ask for is what they carry. -/
theorem Enlists.asked_eq {s s' : Session} {new listed : List (ObjectId × SceneObject)}
    (h : s.Enlists s' new listed) :
    Targets.asked listed = s'.carriedBy (listed.map Prod.fst) := by
  rw [Targets.asked, Stage.carriedBy, List.filterMap_map]
  apply List.filterMap_congr
  intro e he
  rw [Function.comp_apply, h.get?_of_mem he]
  rfl

theorem Enlists.contains {s s' : Session} {new listed : List (ObjectId × SceneObject)}
    (h : s.Enlists s' new listed) {id : ObjectId} (hid : s.world.contains id = true) :
    s'.world.contains id = true := by
  rw [OrderedMap.contains, h.get?, Option.isSome_or, Bool.or_eq_true]
  exact Or.inr hid

/-- After objects went, target ids stand for what they did, as far as that is still there. -/
theorem Drops.get?_iff {s s' : Session} {gone : List (ObjectId × SceneObject)}
    (h : s.Drops s' gone) (hs : s.toStage.Truthful) {target : String} {id : ObjectId} :
    s'.targets.get? target = some id ↔
      s'.world.contains id = true ∧ s.targets.get? target = some id := by
  -- An object that goes gives back what stands for it, and no other object does.
  constructor
  · intro hget
    refine ⟨Stage.contains_of_carries (h.truthful hs target id hget), ?_⟩
    rw [h.targets, Targets.get?_releaseAll] at hget
    exact hget.1
  · rintro ⟨hthere, hget⟩
    have hcarries := (h.keeps id).carries hthere (hs target id hget)
    exact (h.holds hcarries hget).stands

/-- Objects may go, and target ids stand for what they did, as far as that is still there. -/
structure Fades (s s' : Session) : Prop where
  /-- No target id is given to an object. -/
  carries : ∀ {id : ObjectId} {target : String}, s'.Carries id target → s.Carries id target
  /-- No object comes. -/
  contains : ∀ id, s'.world.contains id = true → s.world.contains id = true
  /-- Target ids stand for what they did, or for nothing. -/
  stands : s.toStage.Truthful → s'.toStage.Truthful ∧ ∀ target id,
    s'.targets.get? target = some id ↔
      s'.world.contains id = true ∧ s.targets.get? target = some id

theorem Drops.fades {s s' : Session} {gone : List (ObjectId × SceneObject)}
    (h : s.Drops s' gone) : s.Fades s' := by
  refine ⟨fun hcarries => ?_, fun id => (h.keeps id).contains,
    fun hs => ⟨h.truthful hs, fun _ _ => h.get?_iff hs⟩⟩
  rcases hcarries.exists_entry with ⟨o, ho, htarget⟩
  exact Stage.carries_iff.2 ⟨o, (h.mem_entries.1 ho).1, htarget⟩

theorem Calm.fades {s s' : Session} (h : s.Calm s') : s.Fades s' := by
  refine ⟨h.carries_iff.1, fun id => (h.keeps id).contains,
    fun hs => ⟨h.truthful hs, fun target id => ?_⟩⟩
  rw [h.targets]
  refine ⟨fun hget => ⟨?_, hget⟩, And.right⟩
  exact Stage.contains_of_carries (h.carries_iff.2 (hs target id hget))

theorem coversRuns_fades : CoversRuns Fades where
  trans {s s' s''} h h' := by
    refine ⟨fun hcarries => h.carries (h'.carries hcarries),
      fun id hid => h.contains id (h'.contains id hid), fun hs => ?_⟩
    rcases h.stands hs with ⟨hmiddle, hget⟩
    rcases h'.stands hmiddle with ⟨hlast, hget'⟩
    refine ⟨hlast, fun target id => ?_⟩
    rw [hget', hget]
    exact ⟨fun hall => ⟨hall.1, hall.2.2⟩, fun hall => ⟨hall.1, h'.contains id hall.1, hall.2⟩⟩
  calm hcalm := hcalm.fades
  despawn id s := (s.despawn_drops id).fades

/-- Any other event registers the objects that it enlists. -/
theorem registrations_of_not_bake {s : Session} {e : Event} (h : ∀ graph, e ≠ .bake graph) :
    s.registrations e = (s.happen e).carriedBy ((e.enlisted (s.happen e).world).map Prod.fst) := by
  cases e with
  | bake graph => exact absurd rfl (h graph)
  | _ => rfl

/-- Some registrations were written to the registry, one after the other, and target ids that
    stand for objects which are gone stand for nothing. -/
def Writes (s s' : Session) (record : List (String × ObjectId)) : Prop :=
  ∀ target id, s'.targets.get? target = some id ↔
    s'.world.contains id = true ∧
      (latest? target record).or (s.targets.get? target) = some id

theorem Fades.writes {s s' : Session} (h : s.Fades s') (hs : s.toStage.Truthful) :
    s.Writes s' [] :=
  (h.stands hs).2

theorem Enlists.writes {s s' : Session} {new listed : List (ObjectId × SceneObject)}
    (h : s.Enlists s' new listed) (hs : s.toStage.Truthful) :
    s.Writes s' (s'.carriedBy (listed.map Prod.fst)) := by
  intro target id
  rw [← h.asked_eq, ← Targets.get?_assignAll, ← h.targets]
  refine ⟨fun hstands => ⟨?_, hstands⟩, And.right⟩
  -- Nobody goes, and all that is registered is there.
  rw [h.targets] at hstands
  rcases Targets.of_get?_assignAll hstands with hbefore | ⟨o, ho, -⟩
  · exact h.contains (Stage.contains_of_carries (hs target id hbefore))
  · rw [OrderedMap.contains, h.get?_of_mem ho]
    rfl

theorem writes_bake {s : Session} (hs : s.toStage.Truthful) (graph : GraphRef) :
    s.Writes (s.bake graph).2 ((s.bake graph).2.carriedBy (s.library.get graph).asked) := by
  intro target id
  rw [← s.targets_bake graph]
  refine ⟨fun hstands => ⟨?_, hstands⟩, And.right⟩
  exact Stage.contains_of_carries ((s.tags_bake graph).truthful hs target id hstands)

/-- An event writes what it registers. -/
theorem writes_happen {s : Session} {e : Event} (hs : s.toStage.Truthful)
    (hrunning : e ≠ .shutdown) : s.Writes (s.happen e) (s.registrations e) := by
  by_cases hbake : ∃ graph, e = .bake graph
  · rcases hbake with ⟨graph, rfl⟩
    exact writes_bake hs graph
  · rw [not_exists] at hbake
    rw [registrations_of_not_bake hbake]
    cases change_happen e s with
    | enlists henlists => exact henlists.writes hs
    | goes hdrops _ hlisted =>
        rw [hlisted]
        exact hdrops.fades.writes hs
    | bakes graph he => exact absurd he (hbake graph)
    | forgets he => exact absurd he hrunning
    | runs hruns _ hlisted =>
        rw [hlisted]
        exact (hruns _ coversRuns_fades).writes hs

/-- What an object carries after an event it carried before, or the event has registered
    it. -/
theorem carries_of_happen {s : Session} {e : Event} (hscene : e.staysInScene = true)
    {id : ObjectId} {target : String} (h : (s.happen e).Carries id target) :
    s.Carries id target ∨ (target, id) ∈ s.registrations e := by
  by_cases hbake : ∃ graph, e = .bake graph
  · rcases hbake with ⟨graph, rfl⟩
    have hlater : (s.bake graph).2.toStage.Carries id target := h
    rw [s.stage_bake graph] at hlater
    rcases Stage.carries_of_serveAll hlater with hbefore | hasked
    · exact Or.inl hbefore
    · rw [Graph.filterMap_target?_requests] at hasked
      exact Or.inr (Stage.mem_carriedBy.2 ⟨hasked, h⟩)
  · rw [not_exists] at hbake
    rw [registrations_of_not_bake hbake, Stage.mem_carriedBy]
    cases change_happen e s with
    | enlists henlists =>
        rcases hlatest : latest? id e.arrivals with _ | o
        · left
          have hget := henlists.get? id
          rw [hlatest, Option.none_or] at hget
          rw [Stage.Carries, ← hget]
          exact h
        · right
          have hmem := mem_of_latest? hlatest
          have hget := henlists.get? id
          rw [hlatest, Option.some_or] at hget
          refine ⟨List.mem_map.2 ⟨(id, o), ?_, rfl⟩, h⟩
          -- A new object is enlisted, with a scene since it belongs to it.
          cases e with
          | spawn id' o' => exact hmem
          | loadScene scene objects =>
              have hown := List.all_eq_true.1 hscene _ hmem
              exact List.mem_filter.2 ⟨OrderedMap.get?_eq_some_iff.1 hget, hown⟩
          | _ => exact absurd hmem List.not_mem_nil
    | goes hdrops => exact Or.inl (hdrops.fades.carries h)
    | bakes graph he => exact absurd he (hbake graph)
    | forgets he hshutdown =>
        rw [hshutdown] at h
        exact Or.inl h
    | runs hruns => exact Or.inl ((hruns _ coversRuns_fades).carries h)

/-! ### Histories -/

/-- The objects of the record were spawned. -/
theorem mem_spawned_of_registered {s : Session} (hempty : s.world.keys = []) {events : List Event}
    (hfresh : (events.flatMap Event.spawned).Nodup) {target : String} {id : ObjectId}
    (h : (target, id) ∈ s.registered events) : id ∈ events.flatMap Event.spawned := by
  induction events using List.reverseRecOn with
  | nil => exact absurd h List.not_mem_nil
  | append_singleton events e ih =>
      rw [registered_concat, List.mem_append] at h
      rcases h with hearlier | hnow
      · rw [List.flatMap_append] at hfresh ⊢
        exact List.mem_append_left _ (ih hfresh.of_append_left hearlier)
      · -- Whatever is registered is there.
        have hcarries : (s.after (events ++ [e])).Carries id target := by
          rw [after_concat]
          exact (Stage.mem_carriedBy.1 hnow).2
        have hthere := OrderedMap.contains_iff.1 (Stage.contains_of_carries hcarries)
        exact (keys_after_sublist hempty hfresh).subset hthere

/-- An object of the record that is there after the next event was there before it. -/
theorem contains_of_registered {s : Session} (hempty : s.world.keys = []) {events : List Event}
    {e : Event} (hfresh : ((events ++ [e]).flatMap Event.spawned).Nodup) {target : String}
    {id : ObjectId} (h : (target, id) ∈ s.registered events)
    (hthere : ((s.after events).happen e).world.contains id = true) :
    (s.after events).world.contains id = true := by
  have hnew := fresh_after hempty hfresh
  rw [List.flatMap_append, List.flatMap_singleton] at hfresh
  have hspawned := mem_spawned_of_registered hempty hfresh.of_append_left h
  rw [OrderedMap.contains_iff] at hthere ⊢
  rcases List.mem_append.1 ((keys_happen_sublist hnew).subset hthere) with hbefore | hagain
  · exact hbefore
  · exact absurd rfl ((List.nodup_append.1 hfresh).2.2 id hspawned id hagain)

/-- After a history a target id stands for the last object of the record under it, if that
    object is there, and for nothing otherwise. -/
theorem get?_after_iff {s : Session} (hempty : s.world.keys = [])
    (hnone : ∀ target, s.targets.get? target = none) {events : List Event}
    (hfresh : (events.flatMap Event.spawned).Nodup) (hrunning : Event.shutdown ∉ events)
    {target : String} {id : ObjectId} :
    (s.after events).targets.get? target = some id ↔
      (s.after events).world.contains id = true ∧
        latest? target (s.registered events) = some id := by
  have htruthful : s.toStage.Truthful := by
    intro target id hget
    rw [hnone] at hget
    exact absurd hget (by simp)
  induction events using List.reverseRecOn with
  | nil => simp [hnone, registered]
  | append_singleton events e ih =>
      have hlast : e ∈ events ++ [e] := List.mem_append_right events (List.mem_singleton_self e)
      have hearlier : (events.flatMap Event.spawned).Nodup := by
        rw [List.flatMap_append] at hfresh
        exact hfresh.of_append_left
      have hbefore := truthful_after hempty htruthful hearlier
      have hrecord := ih hearlier fun hmem => hrunning (List.mem_append_left [e] hmem)
      have hwrites := writes_happen hbefore fun he : e = .shutdown => hrunning (he ▸ hlast)
      rw [after_concat, registered_concat, latest?_append, hwrites target id]
      -- Unless the event registers an object under the id, the record decides.
      rcases latest? target ((s.after events).registrations e) with _ | id'
      · rw [Option.none_or, Option.none_or]
        refine ⟨fun hall => ⟨hall.1, (hrecord.1 hall.2).2⟩, fun hall => ⟨hall.1, ?_⟩⟩
        exact hrecord.2
          ⟨contains_of_registered hempty hfresh (mem_of_latest? hall.2) hall.1, hall.2⟩
      · rfl

/-- Whatever is carried was registered for the object that carries it. -/
theorem mem_registered_of_carries {s : Session} (hempty : s.world.keys = []) {events : List Event}
    (hscenes : ∀ e ∈ events, e.staysInScene = true) {id : ObjectId} {target : String}
    (h : (s.after events).Carries id target) : (target, id) ∈ s.registered events := by
  induction events using List.reverseRecOn with
  | nil =>
      have hthere := OrderedMap.contains_iff.1 (Stage.contains_of_carries h)
      rw [after_nil, hempty] at hthere
      exact absurd hthere List.not_mem_nil
  | append_singleton events e ih =>
      have hlast : e ∈ events ++ [e] := List.mem_append_right events (List.mem_singleton_self e)
      rw [after_concat] at h
      rw [registered_concat, List.mem_append]
      rcases carries_of_happen (hscenes e hlast) h with hbefore | hnow
      · exact Or.inl (ih (fun e' he' => hscenes e' (List.mem_append_left [e] he')) hbefore)
      · exact Or.inr hnow

/-- What a target id resolves to that some object carries, be it the only one or not. After every
    history without a shutdown, in which the ids of spawned objects are new and scenes are
    loaded with objects of their own, it was registered for that object. If the object that
    was registered last under it is there, it resolves to that object, which carries it;
    and if that object is gone, it resolves to nothing. -/
theorem shared_target_resolves (config : Settings) (supply : Nat → ObjectId) (scheduled : Bool)
    {events : List Event} (hfresh : (events.flatMap Event.spawned).Nodup)
    (hrunning : Event.shutdown ∉ events) (hscenes : ∀ e ∈ events, e.staysInScene = true) :
    let first := start config supply scheduled
    let s := first.after events
    ∀ id target, s.Carries id target →
      (target, id) ∈ first.registered events ∧
      ∃ owner, latest? target (first.registered events) = some owner ∧
        (s.world.contains owner = true →
          s.targets.resolve? target = some owner ∧ s.Carries owner target) ∧
        (s.world.contains owner = false → s.targets.resolve? target = none) := by
  intro first s id target hcarries
  have hempty : first.world.keys = [] := rfl
  have hnone : ∀ target, first.targets.get? target = none := fun _ => rfl
  have hmem := mem_registered_of_carries hempty hscenes hcarries
  rcases exists_latest? hmem with ⟨owner, howner⟩
  have hresolve : s.targets.resolve? target = s.targets.get? target := by
    rw [Targets.resolve?, Stage.not_isBlank_of_carries hcarries]
    rfl
  have hstands : ∀ id', s.targets.get? target = some id' ↔
      s.world.contains id' = true ∧ latest? target (first.registered events) = some id' :=
    fun _ => get?_after_iff hempty hnone hfresh hrunning
  refine ⟨hmem, owner, howner, fun hthere => ?_, fun hgone => ?_⟩
  · have hget := (hstands owner).2 ⟨hthere, howner⟩
    have htruthful : s.toStage.Truthful :=
      truthful_after hempty (truthful_start config supply scheduled) hfresh
    rw [hresolve]
    exact ⟨hget, htruthful target owner hget⟩
  · rw [hresolve, Option.eq_none_iff_forall_ne_some]
    intro id' hget
    rcases (hstands id').1 hget with ⟨hthere, hlast⟩
    rw [howner] at hlast
    rw [← Option.some.inj hlast, hgone] at hthere
    exact Bool.false_ne_true hthere

/-- Two panels under one target id, the second with its scene. -/
def panels : List Event :=
  [.spawn ⟨1⟩ { name := "Panel", scene := "Main", targetId := some "panel" },
    .loadScene "Popup" [(⟨2⟩, { name := "Panel", scene := "Popup", targetId := some "panel" })]]

theorem shared_target_of_panels :
    (panels.flatMap Event.spawned).Nodup ∧ Event.shutdown ∉ panels ∧
      (∀ e ∈ panels, e.staysInScene = true) ∧
      ((start {} .minted true).after panels).Carries ⟨1⟩ "panel" ∧
      ((start {} .minted true).after panels).targets.resolve? "panel" = some ⟨2⟩ := by
  have hfresh : (panels.flatMap Event.spawned).Nodup := by decide +kernel
  have hrunning : Event.shutdown ∉ panels := by simp [panels]
  have hscenes : ∀ e ∈ panels, e.staysInScene = true := by decide +kernel
  have hcarries : ((start {} .minted true).after panels).Carries ⟨1⟩ "panel" := by
    unfold Stage.Carries
    decide +kernel
  refine ⟨hfresh, hrunning, hscenes, hcarries, ?_⟩
  rcases (shared_target_resolves {} .minted true hfresh hrunning hscenes ⟨1⟩ "panel" hcarries).2
    with ⟨owner, howner, hthere, -⟩
  have hlast : some owner = some ⟨2⟩ := howner.symm.trans (by decide +kernel)
  rw [Option.some.inj hlast] at hthere
  exact (hthere (by decide +kernel)).1

/-- After the scene of the second panel was unloaded the first one is still there and carries
    the target id, which resolves to nothing. -/
theorem carried_target_unresolved :
    let events := panels ++ [.unloadScene "Popup"]
    let s := (start {} .minted true).after events
    (events.flatMap Event.spawned).Nodup ∧ Event.shutdown ∉ events ∧
      (∀ e ∈ events, e.staysInScene = true) ∧ s.Carries ⟨1⟩ "panel" ∧
      s.targets.resolve? "panel" = none := by
  intro events s
  refine ⟨by decide +kernel, by simp [events, panels], by decide +kernel, ?_, by decide +kernel⟩
  unfold Stage.Carries
  decide +kernel

end Session

end BehaviorGraph
