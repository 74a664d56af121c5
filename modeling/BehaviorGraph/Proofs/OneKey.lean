import BehaviorGraph.Proofs.Enlisting
/-!
# One Key for Each Object

Which keys an object is bound to, when graphs are edited while a session goes on.

The key of an object is written in its trigger node, and that can be edited. Registering
the object reads the node and adds the binding, without a look at the lists of other keys.
So an object that was registered under one key and is registered again under another is
bound to both, and a frame in which both go down starts its run twice.

How far a registration is from what it should leave behind is settled for each one: it
leaves the object bound to the key that its node names, and to no other, exactly if the
object was bound to no other before. Over a whole history objects have one key at most
exactly if no registration that finds a key finds the object bound to another. And frames
start each run at most once exactly if all objects that start one have one key at most.

Besides the events of a history, the bindings can be written to by themselves: one
trigger is registered, or bindings are removed.

## Main definitions

* `KeyEvent`: What can happen to the keys of a session.
* `Session.namedKey?`: The key that the trigger of an object names now.
* `Session.OneKey`: Every object is bound to one key at most.
* `Session.answering`: The objects that answer to the keys of a frame.

## Theorems

* `Session.keyChange_handle`: What an event does to the keys.
* `Session.tick_runs`: The runs that a frame starts.
* `Session.nodup_answering_iff`: When no frame starts a run twice.
* `Session.one_key_iff`: When objects have one key, together.
* `Session.old_key_stays_bound`: A trigger whose key was changed from Escape to I.
-/

namespace BehaviorGraph

/-! ### Bindings -/

namespace Bindings

/-- Every binding of the later table stands in the earlier one, in the same order. -/
def Shrinks (b b' : Bindings) : Prop :=
  ∀ key, (b'.ofKey key).Sublist (b.ofKey key)

/-- No object is bound to the same key twice. -/
def Once (b : Bindings) : Prop :=
  ∀ key, ((b.ofKey key).map (·.object)).Nodup

theorem Shrinks.binds {b b' : Bindings} (h : b.Shrinks b') {key : Key} {id : ObjectId}
    (hbinds : b'.Binds key id) : b.Binds key id := by
  rcases hbinds with ⟨k, hk, hobject⟩
  exact ⟨k, (h key).subset hk, hobject⟩

theorem Shrinks.once {b b' : Bindings} (h : b.Shrinks b') (honce : b.Once) : b'.Once :=
  fun key => ((h key).map _).nodup (honce key)

theorem shrinks_unbind (doomed : KeyBinding → Bool) (b : Bindings) :
    b.Shrinks (b.unbind doomed).2 := by
  intro key
  rw [ofKey_unbind]
  exact List.filter_sublist

theorem Once.bindTriggers {b : Bindings} (h : b.Once) (graphs : Library) (w : World)
    (ids : List ObjectId) : (b.bindTriggers graphs w ids).2.Once :=
  bindTriggers_induction (P := Once) h fun _ _ _ key _ _ _ hb => nodup_ofKey_bind hb key _

theorem ofKey_of_mem_entries {b : Bindings} {key : Key} {bound : List KeyBinding}
    (h : (key, bound) ∈ b.keys.entries) : b.ofKey key = bound := by
  rw [ofKey, OrderedMap.get?_eq_some_iff.2 h]
  rfl

theorem Binds.exists_entry {b : Bindings} {key : Key} {id : ObjectId} (h : b.Binds key id) :
    (key, b.ofKey key) ∈ b.keys.entries := by
  rcases h with ⟨k, hk, -⟩
  rw [ofKey] at hk ⊢
  rcases hget : b.keys.get? key with _ | bound
  · rw [hget] at hk
    exact absurd hk List.not_mem_nil
  · exact OrderedMap.get?_eq_some_iff.1 hget

end Bindings

/-! ### Events -/

/-- What can happen to the keys of a session. -/
inductive KeyEvent where
  /-- An event of the session's history. -/
  | happens (e : Event)
  /-- The key trigger of an object is registered. -/
  | bindTrigger (id : ObjectId)
  /-- The bindings that a test picks are removed, such as those of a scene. -/
  | unbind (doomed : KeyBinding → Bool)

/-- The objects whose key triggers an event registers, in the world that it leaves behind. -/
def KeyEvent.enrolled (w : World) : KeyEvent → List ObjectId
  | happens e => (e.enlisted w).map Prod.fst
  | bindTrigger id => [id]
  | unbind _ => []

namespace Session

/-- The session after an event. -/
def handle (k : KeyEvent) (s : Session) : Session :=
  match k with
  | .happens e => s.happen e
  | .bindTrigger id => (s.bindTrigger id).2
  | .unbind doomed => { s with bindings := (s.bindings.unbind doomed).2 }

/-- The session after some events. -/
def handleAll (s : Session) (ks : List KeyEvent) : Session :=
  ks.foldl (fun s k => s.handle k) s

theorem handleAll_concat (s : Session) (ks : List KeyEvent) (k : KeyEvent) :
    s.handleAll (ks ++ [k]) = (s.handleAll ks).handle k :=
  List.foldl_concat _ _ _ _

/-- The key that the trigger of an object names, if it is there and its node has one. -/
def namedKey? (id : ObjectId) (s : Session) : Option Key :=
  (s.world.get? id).bind s.library.triggerKey?

/-- Every object is bound to one key at most. -/
def OneKey (s : Session) : Prop :=
  ∀ id key key', s.bindings.Binds key id → s.bindings.Binds key' id → key = key'

/-- What an event that registers the key triggers of some objects does to the keys. -/
inductive KeyChange (s s' : Session) (ids : List ObjectId) : Prop
  /-- The objects are bound to the keys that their triggers name. -/
  | binds (hbindings :
      s'.bindings = (s.bindings.bindTriggers s'.library s'.world ids).2)
  /-- No objects are registered, and bindings may go. -/
  | loses (hshrinks : s.bindings.Shrinks s'.bindings) (hids : ids = [])

theorem Drops.shrinks {s s' : Session} {gone : List (ObjectId × SceneObject)}
    (h : s.Drops s' gone) : s.bindings.Shrinks s'.bindings := by
  rcases h.bindings with ⟨keep, hkeys, -⟩
  intro key
  rw [hkeys]
  exact List.filter_sublist

theorem coversRuns_shrinks : CoversRuns fun s s' => s.bindings.Shrinks s'.bindings where
  trans h h' key := (h' key).trans (h key)
  calm hcalm key := by
    rw [hcalm.bindings]
  despawn id s := (s.despawn_drops id).shrinks

theorem keyChange_handle (k : KeyEvent) (s : Session) :
    KeyChange s (s.handle k) (k.enrolled (s.handle k).world) := by
  cases k with
  | bindTrigger id => exact .binds rfl
  | unbind doomed => exact .loses (s.bindings.shrinks_unbind doomed) rfl
  | happens e =>
      have hnone : ∀ {listed : List (ObjectId × SceneObject)}, listed = [] →
          listed.map Prod.fst = [] := fun h => h ▸ rfl
      cases change_happen e s with
      | enlists henlists =>
          refine .binds ?_
          rw [show (s.handle (.happens e)).library = s.library from henlists.library]
          exact henlists.bindings
      | goes hdrops _ hlisted => exact .loses hdrops.shrinks (hnone hlisted)
      | runs hruns _ hlisted => exact .loses (hruns _ coversRuns_shrinks) (hnone hlisted)
      | bakes graph he hbake =>
          subst he
          exact .loses (fun key => List.Sublist.refl _) rfl
      | forgets he =>
          subst he
          exact .loses (fun key => List.nil_sublist _) rfl

namespace KeyChange

variable {s s' : Session} {ids : List ObjectId} (h : s.KeyChange s' ids)
include h

/-- An object that is not registered gains no key. -/
theorem binds_of_notMem {key : Key} {id : ObjectId} (hid : id ∉ ids)
    (hbinds : s'.bindings.Binds key id) : s.bindings.Binds key id := by
  cases h with
  | binds hbindings =>
      rw [hbindings, Bindings.binds_bindTriggers] at hbinds
      exact hbinds.resolve_right fun hnew => hid hnew.1
  | loses hshrinks => exact hshrinks.binds hbinds

/-- An object that is registered gains the key that its trigger names, and loses none. -/
theorem binds_iff_of_mem {key : Key} {id : ObjectId} (hid : id ∈ ids) :
    s'.bindings.Binds key id ↔ s.bindings.Binds key id ∨ s'.namedKey? id = some key := by
  cases h with
  | binds hbindings =>
      rw [hbindings, Bindings.binds_bindTriggers]
      simp only [hid, true_and]
      rfl
  | loses _ hids =>
      rw [hids] at hid
      exact absurd hid List.not_mem_nil

theorem once (honce : s.bindings.Once) : s'.bindings.Once := by
  cases h with
  | binds hbindings =>
      rw [hbindings]
      exact honce.bindTriggers _ _ ids
  | loses hshrinks => exact hshrinks.once honce

/-- A registration leaves an object bound to the key that its trigger names and to no other
    exactly if the object was bound to no other before. -/
theorem exact_iff {id : ObjectId} (hid : id ∈ ids) :
    (∀ key, s'.bindings.Binds key id ↔ s'.namedKey? id = some key) ↔
      ∀ key, s.bindings.Binds key id → s'.namedKey? id = some key := by
  -- A registration never takes a key away, so another key would still be bound.
  constructor
  · intro hexact key hold
    exact (hexact key).1 ((h.binds_iff_of_mem hid).2 (Or.inl hold))
  · intro hbefore key
    rw [h.binds_iff_of_mem hid]
    exact ⟨fun hbinds => hbinds.elim (hbefore key) fun hnamed => hnamed, Or.inr⟩

/-- One key each stays one key each exactly if all that are registered and have a key now
    had no other key before. -/
theorem oneKey_iff (hone : s.OneKey) :
    s'.OneKey ↔ ∀ id ∈ ids, ∀ key, s'.namedKey? id = some key →
      ∀ key', s.bindings.Binds key' id → key' = key := by
  constructor
  · intro hone' id hid key hnamed key' hold
    exact hone' id key' key ((h.binds_iff_of_mem hid).2 (Or.inl hold))
      ((h.binds_iff_of_mem hid).2 (Or.inr hnamed))
  · intro hkeeps id key key' hbinds hbinds'
    by_cases hid : id ∈ ids
    · -- Each of the keys was bound before, or is the one that is named now.
      rw [h.binds_iff_of_mem hid] at hbinds hbinds'
      rcases hbinds with hold | hnamed
      · rcases hbinds' with hold' | hnamed'
        · exact hone id key key' hold hold'
        · exact hkeeps id hid key' hnamed' key hold
      · rcases hbinds' with hold' | hnamed'
        · exact (hkeeps id hid key hnamed key' hold').symm
        · rw [hnamed] at hnamed'
          exact Option.some.inj hnamed'
    · exact hone id key key' (h.binds_of_notMem hid hbinds) (h.binds_of_notMem hid hbinds')

end KeyChange

/-- The event binds an object to a key while it is bound to another. -/
def Rebinds (k : KeyEvent) (s : Session) : Prop :=
  ∃ id ∈ k.enrolled (s.handle k).world, ∃ key, (s.handle k).namedKey? id = some key ∧
    ∃ key', s.bindings.Binds key' id ∧ key' ≠ key

/-! ### Histories -/

theorem oneKey_start (config : Settings) (supply : Nat → ObjectId) (scheduled : Bool) :
    (start config supply scheduled).OneKey := by
  intro id key key' ⟨k, hk, _⟩
  rw [ofKey_start] at hk
  exact absurd hk List.not_mem_nil

theorem once_handleAll {s : Session} (honce : s.bindings.Once) (ks : List KeyEvent) :
    (s.handleAll ks).bindings.Once := by
  induction ks generalizing s with
  | nil => exact honce
  | cons k ks ih => exact ih ((keyChange_handle k s).once honce)

/-- Objects have one key each throughout a history exactly if no event of the history binds
    an object to a second one. -/
theorem oneKey_throughout_iff {s : Session} (hone : s.OneKey) (ks : List KeyEvent) :
    (∀ earlier, earlier <+: ks → (s.handleAll earlier).OneKey) ↔
      ∀ earlier k, earlier ++ [k] <+: ks → ¬(s.handleAll earlier).Rebinds k := by
  have hstep : ∀ {t : Session} {k : KeyEvent}, t.OneKey → ((t.handle k).OneKey ↔ ¬t.Rebinds k) := by
    intro t k ht
    rw [(keyChange_handle k t).oneKey_iff ht]
    simp only [Rebinds, not_exists, not_and, ne_eq, Classical.not_not]
  -- One event at a time: the history up to it has one key each by induction.
  constructor
  · intro hall earlier k hprefix
    have hbefore := hall earlier ((List.prefix_append earlier [k]).trans hprefix)
    rw [← hstep hbefore, ← handleAll_concat]
    exact hall (earlier ++ [k]) hprefix
  · intro hnone earlier
    induction earlier using List.reverseRecOn with
    | nil => exact fun _ => hone
    | append_singleton earlier k ih =>
        intro hprefix
        rw [handleAll_concat, hstep (ih ((List.prefix_append earlier [k]).trans hprefix))]
        exact hnone earlier k hprefix

/-! ### Frames -/

/-- The steps of the run that the keys of an object start, if they start one now. -/
def keySteps? (id : ObjectId) (s : Session) : Option (List Step) :=
  if s.scheduled && s.world.isLive id then
    (((s.world.get? id).bind SceneObject.keyTrigger).filter TriggerRef.namesNode).map fun b =>
      (s.library.get b.graph).stepsFrom b.node
  else none

/-- The objects that answer to the keys of a frame, one for each run. -/
def answering (s : Session) (keys : List Key) : List ObjectId :=
  (s.boundTo keys).filter fun id => (s.keySteps? id).isSome

theorem fire_keyTrigger (id : ObjectId) (s : Session) :
    s.fire SceneObject.keyTrigger id =
      match s.keySteps? id with
      | none => (none, s)
      | some steps =>
        (some s.runs.length, { s with runs := s.runs ++ [{ phase := .ready steps }] }) := by
  rcases hlive : s.world.isLive id with _ | _
  · simp [fire, keySteps?, hlive]
  · rcases htrigger : ((s.world.get? id).bind SceneObject.keyTrigger).filter TriggerRef.namesNode
      with _ | b
    · simp [fire, keySteps?, hlive, htrigger]
    · rcases hscheduled : s.scheduled with _ | _
      · simp [fire, keySteps?, startFrom, startRun, hlive, htrigger, hscheduled]
      · simp [fire, keySteps?, startFrom, startRun, hlive, htrigger, hscheduled]

/-- The keys of some objects start a run for each object that starts one. -/
theorem fireKeys_eq (ids : List ObjectId) (s : Session) :
    s.fireKeys ids =
      (List.range' s.runs.length (ids.filterMap fun id => s.keySteps? id).length,
        { s with
          runs := s.runs ++ (ids.filterMap fun id => s.keySteps? id).map fun steps =>
            { phase := .ready steps } }) := by
  induction ids generalizing s with
  | nil => simp [fireKeys]
  | cons id ids ih =>
      rcases hsteps : s.keySteps? id with _ | steps
      · simp [fireKeys, fire_keyTrigger, hsteps, ih]
      · -- A run that is started has no bearing on the next one.
        have hsame : ∀ id', keySteps? id'
            { s with runs := s.runs ++ [{ phase := .ready steps }] } = s.keySteps? id' :=
          fun _ => rfl
        simp [fireKeys, fire_keyTrigger, hsteps, ih, hsame, List.range'_succ]

theorem runs_performActions (actions : List String) (s : Session) :
    (actions.foldl (fun s action => (s.performAction action).2) s).runs = s.runs := by
  have hone : ∀ (s : Session) (action : String), (s.performAction action).2.runs = s.runs := by
    intro s action
    unfold performAction
    split
    · rfl
    · rfl
  refine List.foldlRecOn (motive := fun s' : Session => s'.runs = s.runs) actions _ rfl ?_
  exact fun s' hs action _ => (hone s' action).trans hs

/-- A frame starts one run for each time that an object answers to it, and no others. -/
theorem tick_runs (keys : List Key) (actions : List String) (s : Session) :
    (s.tick keys actions).1 = List.range' s.runs.length (s.answering keys).length ∧
      (s.tick keys actions).2.runs = s.runs ++ (s.answering keys).map fun id =>
        { phase := .ready ((s.keySteps? id).getD []) } := by
  have hsteps : ∀ ids : List ObjectId, (ids.filterMap fun id => s.keySteps? id) =
      (ids.filter fun id => (s.keySteps? id).isSome).map fun id => (s.keySteps? id).getD [] := by
    intro ids
    induction ids with
    | nil => rfl
    | cons id ids ih => rcases hid : s.keySteps? id with _ | steps <;> simp [hid, ih]
  unfold tick press
  simp only [fireKeys_eq, runs_performActions, hsteps, List.length_map, List.map_map]
  exact ⟨rfl, rfl⟩

/-- No object answers twice to a frame, whatever keys go down, exactly if all objects that
    start a run have one key at most. -/
theorem nodup_answering_iff {s : Session} (honce : s.bindings.Once) :
    (∀ keys, (s.answering keys).Nodup) ↔
      ∀ id, (s.keySteps? id).isSome = true → ∀ key key',
        s.bindings.Binds key id → s.bindings.Binds key' id → key = key' := by
  simp only [answering, boundTo, List.filter_flatMap, List.nodup_flatMap]
  constructor
  · intro hnodup id hstarts key key' hbinds hbinds'
    by_contra hne
    -- The object stands in the lists of two keys, and both keys may go down.
    have hsymm : Std.Symm (Function.onFun List.Disjoint fun e : Key × List KeyBinding =>
        (e.2.map (·.object)).filter fun id => (s.keySteps? id).isSome) :=
      ⟨fun _ _ hapart _ hid hid' => hapart hid' hid⟩
    have hboth := (hnodup [key, key']).2.forall
    have hmem : ∀ {k : Key}, s.bindings.Binds k id → id ∈
        ((s.bindings.ofKey k).map (·.object)).filter fun id => (s.keySteps? id).isSome := by
      rintro k ⟨b, hb, rfl⟩
      exact List.mem_filter.2 ⟨List.mem_map.2 ⟨b, hb, rfl⟩, hstarts⟩
    have hentry : (key, s.bindings.ofKey key) ∈
        s.bindings.keys.entries.filter fun e => e.1 ∈ [key, key'] :=
      List.mem_filter.2 ⟨hbinds.exists_entry, by simp⟩
    have hentry' : (key', s.bindings.ofKey key') ∈
        s.bindings.keys.entries.filter fun e => e.1 ∈ [key, key'] :=
      List.mem_filter.2 ⟨hbinds'.exists_entry, by simp⟩
    have hapart := hboth hentry hentry' fun heq => hne (congrArg Prod.fst heq)
    exact hapart (hmem hbinds) (hmem hbinds')
  · intro hone keys
    refine ⟨fun e he => ?_, ?_⟩
    · -- In the list of one key every object stands once.
      have hbound := Bindings.ofKey_of_mem_entries (List.mem_filter.1 he).1
      rw [← hbound]
      exact (honce e.1).filter _
    · have hdistinct : s.bindings.keys.entries.Nodup := s.bindings.keys.nodup.of_map _
      refine (hdistinct.filter _).imp_of_mem ?_
      intro e e' he he' hne id hid hid'
      -- Each of the two keys is bound to the object, so they are one key and one list.
      have hbinds : ∀ {e : Key × List KeyBinding}, e ∈ s.bindings.keys.entries →
          id ∈ (e.2.map (·.object)).filter (fun id => (s.keySteps? id).isSome) →
          s.bindings.Binds e.1 id := by
        intro e he hid
        rcases List.mem_map.1 (List.mem_filter.1 hid).1 with ⟨k, hk, hobject⟩
        rw [← Bindings.ofKey_of_mem_entries he] at hk
        exact ⟨k, hk, hobject⟩
      have he := (List.mem_filter.1 he).1
      have he' := (List.mem_filter.1 he').1
      have hkey := hone id (List.mem_filter.1 hid).2 e.1 e'.1 (hbinds he hid) (hbinds he' hid')
      refine hne (Prod.ext hkey ?_)
      rw [← Bindings.ofKey_of_mem_entries he, ← Bindings.ofKey_of_mem_entries he', hkey]

/-! ### Together -/

/-- When every object has one key. It does throughout a history exactly if no event of the
    history registers it under a key while it is bound to another. An event that
    registers its trigger leaves it bound to the key that the trigger names then, and to
    no other, exactly if it was bound to no other before. And a frame starts a run for
    each time that an object answers to it, which is at most once for each object,
    whatever keys go down, exactly if those that start a run have one key each. -/
theorem one_key_iff (config : Settings) (supply : Nat → ObjectId) (scheduled : Bool)
    (past : List KeyEvent) :
    let first := start config supply scheduled
    let s := first.handleAll past
    ((∀ earlier, earlier <+: past → (first.handleAll earlier).OneKey) ↔
      ∀ earlier k, earlier ++ [k] <+: past → ¬(first.handleAll earlier).Rebinds k) ∧
    (∀ k, ∀ id ∈ k.enrolled (s.handle k).world,
      (∀ key, (s.handle k).bindings.Binds key id ↔ (s.handle k).namedKey? id = some key) ↔
        ∀ key, s.bindings.Binds key id → (s.handle k).namedKey? id = some key) ∧
    ((∀ keys, (s.answering keys).Nodup) ↔
      ∀ id, (s.keySteps? id).isSome = true → ∀ key key',
        s.bindings.Binds key id → s.bindings.Binds key' id → key = key') ∧
    ∀ keys actions,
      (s.tick keys actions).1 = List.range' s.runs.length (s.answering keys).length ∧
        (s.tick keys actions).2.runs = s.runs ++ (s.answering keys).map fun id =>
          { phase := .ready ((s.keySteps? id).getD []) } := by
  intro first s
  have honce : first.bindings.Once := by
    intro key
    rw [ofKey_start]
    exact List.nodup_nil
  refine ⟨?_, ?_, ?_, ?_⟩
  · exact oneKey_throughout_iff (oneKey_start config supply scheduled) past
  · exact fun k id hid => (keyChange_handle k s).exact_iff hid
  · exact nodup_answering_iff (once_handleAll honce past)
  · exact fun keys actions => s.tick_runs keys actions

/-- Graphs with one trigger, which names a key. -/
def triggerLibrary (key : Key) : Library :=
  { graphs := [{ name := "keys", nodes := [.ofKind ⟨"open"⟩ (.key (some key))] }] }

/-- A trigger is registered under Escape, and again after its node was given the key I. It is
    bound to both keys then, and starts two runs in a frame in which both go down. -/
theorem old_key_stays_bound :
    let s := (start {} .minted true).handleAll
      [.happens (.author (triggerLibrary .escape)),
        .happens (.spawn ⟨1⟩
          { name := "Menu", scene := "Main", keyTrigger := some ⟨⟨0⟩, ⟨"open"⟩⟩ }),
        .happens (.author (triggerLibrary (.letter 8))),
        .happens (.sceneLoaded "Main")]
    s.namedKey? ⟨1⟩ = some (.letter 8) ∧ s.bindings.Binds (.letter 8) ⟨1⟩ ∧
      s.bindings.Binds .escape ⟨1⟩ ∧ s.answering [.escape, .letter 8] = [⟨1⟩, ⟨1⟩] ∧
      (s.tick [.escape, .letter 8] []).1 = [0, 1] := by
  decide +kernel

end Session

end BehaviorGraph
