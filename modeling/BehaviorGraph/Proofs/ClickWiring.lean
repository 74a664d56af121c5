import BehaviorGraph.Proofs.BakeRequests
import Mathlib.Data.List.Infix
/-!
# Click Triggers and the Graphs They Come From

Which node the clicks on an object start runs from.

A click trigger is a component of the object, written by a bake and read when the object
is clicked on. Nothing takes it away again. So right after a bake the objects that the
graph's click nodes target are wired as the graph says, but an object that the graph
does not target any more keeps the trigger that it has, and so does one whose node was
removed or renamed, or belongs to another graph that was edited since.

What a trigger tells is therefore a fact about the past: it names the graph and the node of
the last bake that wired the object. That bake may be the one just done or any before
it. Since then the object was not spawned again, and no bake of any graph has wired it.

## Main definitions

* `Stage.clickOf?`: The click trigger of an object.
* `Session.wire?`: The node that a bake wires an object to.
* `Event.rewires`: An event writes the click trigger of an object.

## Theorems

* `Session.clickOf?_bake`: What a bake writes.
* `Session.clickOf?_happen`: What other events leave.
* `Session.exists_bake_of_clickOf?`: Where a click trigger comes from.
* `Session.clicks_after_bake`: Both directions, right after a bake.
* `Session.old_target_stays_wired`: A click node that was moved to another object.
-/

namespace BehaviorGraph

namespace Stage

/-- The click trigger of an object, if it is there and has one. -/
def clickOf? (id : ObjectId) (s : Stage) : Option TriggerRef :=
  (s.world.get? id).bind SceneObject.clickTrigger

/-- Target ids are not click triggers. -/
theorem clickOf?_tag (id id' : ObjectId) (s : Stage) :
    (s.tag id').2.clickOf? id = s.clickOf? id := by
  rcases tag_cases id' s with ⟨-, htag⟩ | ⟨target, -, htag⟩ | ⟨-, -, htag⟩
  · rw [htag]
  · rw [htag]
    rfl
  · rw [htag]
    simp only [clickOf?, register, mint, OrderedMap.get?_update]
    split
    · cases s.world.get? id <;> rfl
    · rfl

theorem clickOf?_bindClick {graph : GraphRef} {id id' : ObjectId} {node : NodeId} {s : Stage}
    (hthere : s.world.contains id = true) :
    (s.bindClick graph id' node).clickOf? id =
      if id' = id then some ⟨graph, node⟩ else s.clickOf? id := by
  simp only [clickOf?, bindClick, OrderedMap.get?_update]
  by_cases hid : id' = id
  · rcases Option.isSome_iff_exists.1 hthere with ⟨o, ho⟩
    rw [if_pos hid.symm, if_pos hid, ho]
    rfl
  · rw [if_neg (Ne.symm hid), if_neg hid]

/-- Of the click triggers that are attached to an object, the last one stays. -/
theorem clickOf?_serveAll {graph : GraphRef} {id : ObjectId} (rs : List BakeRequest) {s : Stage}
    (hthere : s.world.contains id = true) :
    (rs.foldl (serve graph) s).clickOf? id =
      ((latest? id (rs.filterMap BakeRequest.wire?)).map fun node => ⟨graph, node⟩).or
        (s.clickOf? id) := by
  induction rs generalizing s with
  | nil => rfl
  | cons r rs ih =>
      have hthere' : (s.serve graph r).world.contains id = true := by
        rw [(s.serve_tags graph r).keeps.contains]
        exact hthere
      rw [List.foldl_cons, ih hthere']
      cases r with
      | target id' =>
          rw [serve, clickOf?_tag]
          rfl
      | click id' node =>
          have hsplit : (BakeRequest.click id' node :: rs).filterMap BakeRequest.wire? =
              (id', node) :: rs.filterMap BakeRequest.wire? := rfl
          rw [hsplit, latest?_cons, Option.map_or, Option.or_assoc, serve,
            clickOf?_bindClick hthere]
          congr 1
          by_cases hid : id' = id
          · simp [hid]
          · simp [hid]

end Stage

/-! ### Events -/

namespace Session

/-- The node that a bake of a graph wires an object to: the last click node in bake order that
    targets it and has an id. -/
def wire? (graph : GraphRef) (id : ObjectId) (s : Session) : Option NodeId :=
  latest? id (s.library.get graph).wirings

/-- A bake wires the objects that the click nodes of its graph target. -/
theorem exists_wire? {graph : GraphRef} {id : ObjectId} {s : Session}
    (h : ∃ n ∈ (s.library.get graph).nodes, n.kind = .click (some id) ∧ n.id.isBlank = false) :
    ∃ node, s.wire? graph id = some node := by
  rcases h with ⟨n, hn, hkind, hblank⟩
  exact exists_latest? (Graph.mem_wirings.2 ⟨n, hn, hkind, rfl, hblank⟩)

theorem exists_node_of_wire? {graph : GraphRef} {id : ObjectId} {s : Session} {node : NodeId}
    (h : s.wire? graph id = some node) :
    ∃ n ∈ (s.library.get graph).nodes, n.kind = .click (some id) ∧ n.id = node ∧
      n.id.isBlank = false :=
  Graph.mem_wirings.1 (mem_of_latest? h)

/-- What a bake leaves: the trigger that it writes, or else the one that there was. -/
theorem clickOf?_bake {graph : GraphRef} {id : ObjectId} {s : Session}
    (hthere : s.world.contains id = true) :
    (s.bake graph).2.clickOf? id =
      ((s.wire? graph id).map fun node => ⟨graph, node⟩).or (s.clickOf? id) := by
  rw [s.stage_bake graph, Stage.clickOf?_serveAll _ hthere, Graph.filterMap_wire?_requests]
  rfl

end Session

/-- The event writes the click trigger of the object: it spawns it, or is a bake that wires
    it. -/
def Event.rewires (s : Session) (id : ObjectId) : Event → Prop
  | bake graph => ∃ node, s.wire? graph id = some node
  | e => id ∈ e.spawned

namespace Session

/-- The click triggers of a session are those of an earlier one. -/
def KeepsClicks (s s' : Session) : Prop :=
  ∀ id b, s'.clickOf? id = some b → s.clickOf? id = some b

theorem Drops.keepsClicks {s s' : Session} {gone : List (ObjectId × SceneObject)}
    (h : s.Drops s' gone) : s.KeepsClicks s' := by
  intro id b hclick
  rcases Option.bind_eq_some_iff.1 hclick with ⟨o, ho, htrigger⟩
  exact Option.bind_eq_some_iff.2 ⟨o, h.get?_of_get? ho, htrigger⟩

theorem coversRuns_keepsClicks : CoversRuns KeepsClicks where
  trans h h' id b hclick := h id b (h' id b hclick)
  calm hcalm id b hclick := by
    rw [Stage.clickOf?, ← World.bind_get?_of_awake hcalm.awake fun _ => rfl]
    exact hclick
  despawn id s := (s.despawn_drops id).keepsClicks

/-- After a bake, a click trigger is the one that the bake wrote, or it was there before. -/
theorem clickOf?_bake_cases {graph : GraphRef} {id : ObjectId} {s : Session} {b : TriggerRef}
    (h : (s.bake graph).2.clickOf? id = some b) :
    (graph = b.graph ∧ s.wire? graph id = some b.node) ∨
      (s.clickOf? id = some b ∧ s.wire? graph id = none) := by
  have hthere : s.world.contains id = true := by
    rw [← (s.tags_bake graph).keeps.contains]
    rcases Option.bind_eq_some_iff.1 h with ⟨o, ho, -⟩
    exact Option.isSome_iff_exists.2 ⟨o, ho⟩
  rw [clickOf?_bake hthere] at h
  rcases hwire : s.wire? graph id with _ | node
  · rw [hwire] at h
    exact Or.inr ⟨h, rfl⟩
  · rw [hwire] at h
    have heq : TriggerRef.mk graph node = b := Option.some.inj h
    rw [← heq]
    exact Or.inl ⟨rfl, rfl⟩

/-- An event that is no bake leaves click triggers as they are, as long as objects are spawned
    without them. -/
theorem clickOf?_of_not_bake {e : Event} {s : Session} (hbake : ∀ graph, e ≠ .bake graph)
    (hspawned : ∀ entry ∈ e.arrivals, entry.2.clickTrigger = none) {id : ObjectId} {b : TriggerRef}
    (h : (s.happen e).clickOf? id = some b) : s.clickOf? id = some b ∧ id ∉ e.spawned := by
  have hold : e.arrivals = [] → id ∉ e.spawned := by
    intro hnone
    rw [Event.spawned_eq, hnone]
    exact List.not_mem_nil
  cases change_happen e s with
  | enlists henlists =>
      rcases Option.bind_eq_some_iff.1 h with ⟨o, ho, htrigger⟩
      have hget := henlists.get? id
      rw [ho] at hget
      rcases hlatest : latest? id e.arrivals with _ | o'
      · rw [hlatest] at hget
        refine ⟨Option.bind_eq_some_iff.2 ⟨o, hget.symm, htrigger⟩, ?_⟩
        rw [Event.spawned_eq, List.mem_map]
        rintro ⟨entry, hentry, hid⟩
        exact latest?_eq_none_iff.1 hlatest entry hentry hid
      · -- An object that comes has no click trigger.
        rw [hlatest, Option.some_or] at hget
        have hnone := hspawned _ (mem_of_latest? hlatest)
        rw [← Option.some.inj hget, htrigger] at hnone
        exact absurd hnone (by simp)
  | goes hdrops hnew => exact ⟨hdrops.keepsClicks id b h, hold hnew⟩
  | bakes graph he => exact absurd he (hbake graph)
  | forgets he hshutdown =>
      rw [hshutdown] at h
      exact ⟨h, hold (by rw [he]; rfl)⟩
  | runs hruns hnew => exact ⟨hruns _ coversRuns_keepsClicks id b h, hold hnew⟩

/-- An object with a click trigger was just wired by a bake, or it had that trigger before and
    nothing has written it. -/
theorem clickOf?_happen {e : Event} {s : Session}
    (hspawned : ∀ entry ∈ e.arrivals, entry.2.clickTrigger = none) {id : ObjectId} {b : TriggerRef}
    (h : (s.happen e).clickOf? id = some b) :
    (e = .bake b.graph ∧ s.wire? b.graph id = some b.node) ∨
      (s.clickOf? id = some b ∧ ¬e.rewires s id) := by
  by_cases hbake : ∃ graph, e = .bake graph
  · rcases hbake with ⟨graph, rfl⟩
    rcases clickOf?_bake_cases h with ⟨rfl, hwire⟩ | ⟨hbefore, hwire⟩
    · exact Or.inl ⟨rfl, hwire⟩
    · refine Or.inr ⟨hbefore, ?_⟩
      rintro ⟨node, hnode⟩
      rw [hwire] at hnode
      exact absurd hnode (by simp)
  · rw [not_exists] at hbake
    rcases clickOf?_of_not_bake hbake hspawned h with ⟨hbefore, hold⟩
    refine Or.inr ⟨hbefore, ?_⟩
    -- Any other event writes to a trigger only by spawning the object.
    cases e with
    | bake graph => exact absurd rfl (hbake graph)
    | _ => exact hold

/-! ### Histories -/

/-- A click trigger names the graph and the node of the last bake that wired the object. After
    that bake no event has written the trigger. -/
theorem exists_bake_of_clickOf? {s : Session} {id : ObjectId} (hnone : s.clickOf? id = none)
    {events : List Event}
    (hspawned : ∀ e ∈ events, ∀ entry ∈ e.arrivals, entry.2.clickTrigger = none)
    {b : TriggerRef} (h : (s.after events).clickOf? id = some b) :
    ∃ past later, past ++ .bake b.graph :: later = events ∧
      (s.after past).wire? b.graph id = some b.node ∧
      ∀ between e, between ++ [e] <+: later →
        ¬e.rewires (s.after (past ++ .bake b.graph :: between)) id := by
  induction events using List.reverseRecOn with
  | nil =>
      rw [after_nil, hnone] at h
      exact absurd h (by simp)
  | append_singleton events e ih =>
      rw [after_concat] at h
      have hlast : e ∈ events ++ [e] := List.mem_append_right events (List.mem_singleton_self e)
      rcases clickOf?_happen (hspawned e hlast) h with ⟨rfl, hwire⟩ | ⟨hbefore, hquiet⟩
      · -- The last event is the bake.
        refine ⟨events, [], rfl, hwire, fun between e' hprefix => ?_⟩
        exact absurd (List.prefix_nil.1 hprefix) (by simp)
      · rcases ih (fun e' he' => hspawned e' (List.mem_append_left [e] he')) hbefore with
          ⟨past, later, rfl, hwire, hlater⟩
        refine ⟨past, later ++ [e], by simp, hwire, fun between e' hprefix => ?_⟩
        rcases List.prefix_concat_iff.1 hprefix with heq | hearlier
        · rcases List.append_inj' heq rfl with ⟨rfl, hsame⟩
          rw [List.singleton_inj.1 hsame]
          exact hquiet
        · exact hlater between e' hearlier

/-- Click triggers right after a bake, in a history in which objects are spawned without
    them. An object that click nodes of the graph target is wired to the last of these in
    bake order. And an object that has a click trigger, of whatever graph, was wired to it
    by a bake of that graph, which this bake is if it wires the object: the node
    targeted the object then and was the last to do so in bake order, and no event since
    has spawned the object again or wired it. -/
theorem clicks_after_bake (config : Settings) (supply : Nat → ObjectId) (scheduled : Bool)
    {events : List Event}
    (hspawned : ∀ e ∈ events, ∀ entry ∈ e.arrivals, entry.2.clickTrigger = none)
    (graph : GraphRef) :
    let first := start config supply scheduled
    let s := first.after events
    let baked := first.after (events ++ [.bake graph])
    (∀ id, baked.world.contains id = true →
      (∃ n ∈ (s.library.get graph).nodes, n.kind = .click (some id) ∧ n.id.isBlank = false) →
      ∃ node, s.wire? graph id = some node ∧ baked.clickOf? id = some ⟨graph, node⟩) ∧
    ∀ id b, baked.clickOf? id = some b →
      ∃ past later, past ++ .bake b.graph :: later = events ++ [.bake graph] ∧
        (∃ n ∈ ((first.after past).library.get b.graph).nodes,
          n.kind = .click (some id) ∧ n.id = b.node ∧ n.id.isBlank = false) ∧
        (first.after past).wire? b.graph id = some b.node ∧
        ∀ between e, between ++ [e] <+: later →
          ¬e.rewires (first.after (past ++ .bake b.graph :: between)) id := by
  intro first s baked
  have hbaked : baked = (s.bake graph).2 := first.after_concat events (.bake graph)
  refine ⟨fun id hthere htargeted => ?_, fun id b hclick => ?_⟩
  · rcases exists_wire? htargeted with ⟨node, hnode⟩
    rw [hbaked, (s.tags_bake graph).keeps.contains] at hthere
    refine ⟨node, hnode, ?_⟩
    rw [hbaked, clickOf?_bake hthere, hnode]
    rfl
  · have hspawned' : ∀ e ∈ events ++ [.bake graph], ∀ entry ∈ e.arrivals,
        entry.2.clickTrigger = none := by
      intro e he
      rcases List.mem_append.1 he with hevent | hbake
      · exact hspawned e hevent
      · rw [List.mem_singleton.1 hbake]
        exact fun entry hentry => absurd hentry List.not_mem_nil
    rcases exists_bake_of_clickOf? rfl hspawned' hclick with ⟨past, later, hsplit, hwire, hlater⟩
    exact ⟨past, later, hsplit, exists_node_of_wire? hwire, hwire, hlater⟩

/-- Graphs with one click node, which targets an object. -/
def clickLibrary (id : ObjectId) : Library :=
  { graphs := [{ name := "ui", nodes := [.ofKind ⟨"open"⟩ (.click (some id))] }] }

/-- Two buttons, and a click node that is moved from the one to the other after it was
    baked. -/
def movedClick : List Event :=
  [.author (clickLibrary ⟨1⟩), .spawn ⟨1⟩ { name := "Old", scene := "Main" },
    .spawn ⟨2⟩ { name := "New", scene := "Main" }, .bake ⟨0⟩, .author (clickLibrary ⟨2⟩)]

theorem clicks_after_movedClick :
    (∀ e ∈ movedClick, ∀ entry ∈ e.arrivals, entry.2.clickTrigger = none) ∧
      ((start {} .minted true).after (movedClick ++ [.bake ⟨0⟩])).clickOf? ⟨2⟩ =
        some ⟨⟨0⟩, ⟨"open"⟩⟩ := by
  have hspawned : ∀ e ∈ movedClick, ∀ entry ∈ e.arrivals, entry.2.clickTrigger = none := by
    decide +kernel
  refine ⟨hspawned, ?_⟩
  rcases (clicks_after_bake {} .minted true hspawned ⟨0⟩).1 ⟨2⟩ (by decide +kernel)
    ⟨.ofKind ⟨"open"⟩ (.click (some ⟨2⟩)), List.mem_singleton_self _, rfl, by decide +kernel⟩ with
    ⟨node, hnode, hclick⟩
  have hopen : some node = some ⟨"open"⟩ := hnode.symm.trans (by decide +kernel)
  rw [hclick, Option.some.inj hopen]

/-- The old button keeps the trigger, although no node of the graph targets it any more. -/
theorem old_target_stays_wired :
    let s := (start {} .minted true).after (movedClick ++ [.bake ⟨0⟩])
    s.clickOf? ⟨1⟩ = some ⟨⟨0⟩, ⟨"open"⟩⟩ ∧
      ¬∃ n ∈ (s.library.get ⟨0⟩).nodes, n.kind = .click (some ⟨1⟩) := by
  intro s
  refine ⟨by decide +kernel, ?_⟩
  have hother : ∀ n ∈ (s.library.get ⟨0⟩).nodes, n.kind.referents = [⟨2⟩] := by decide +kernel
  rintro ⟨n, hn, hkind⟩
  have hreferents := hother n hn
  rw [hkind] at hreferents
  exact absurd hreferents (by decide)

end Session

end BehaviorGraph
