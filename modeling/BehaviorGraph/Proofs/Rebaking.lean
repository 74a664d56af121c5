import BehaviorGraph.Bake.Draft
import BehaviorGraph.Proofs.BakeMeaning
import BehaviorGraph.Proofs.ClickWiring
import BehaviorGraph.Proofs.SharedTargets
/-!
# Baking Twice

A graph that is baked again right away gives the program that it has.

The first bake changes the stage that the second one reads. It gives target ids to objects
that carry none, attaches click triggers, and writes the registry, where the last object
that is asked about under a shared target id wins. So it is not enough to compare one
request with the same request made again: between the two stand all the requests that
come after the first one, and those of the second bake that come before the second one.

Two arguments are kept apart. What the compiler is told, and with it the program and the
summary, depends on the answers only, and there a context may be anything that sticks to
its answers. A part of a bake `Repeats` if it gives the same result whenever it is done
again later; requests do so by assumption, and two parts in a row do if both do.

What is left of the stage needs more. After the first bake every object that was asked
about carries a target id that is registered, so the second bake mints nothing and adds no
key to the registry. It only writes again what was written: the last trigger of each
object, and the last carrier of each target id. These are the same in both bakes.

## Main definitions

* `BakeContext.Leads`: Later states of a context.
* `BakeContext.Steady`: Answers do not change once they are given.
* `BakeContext.Repeats`: A part of a bake that can be done again.
* `World.unwired`: A world without its click triggers.
* `Stage.Served`: The target id of an object has been asked for.
* `Stage.Settles`: Nothing is minted, and no target id is new.

## Theorems

* `BakeContext.Repeats.bind`: Parts in a row.
* `BakeContext.Repeats.compileAll`: Compiling nodes can be done again.
* `Stage.steady_context`, `Draft.steady_context`: Contexts that stick to their answers.
* `Stage.serveAll_settles`: Requests that were served before settle.
* `Stage.serveAll_serveAll`: Serving them again leaves the stage as it is.
* `bake_twice`: Baking twice is baking once.
-/

namespace BehaviorGraph

open Stage (carriedId? serve)

/-! ### Contexts that stick to their answers -/

namespace BakeContext

variable {σ α β : Type} (context : BakeContext σ)

/-- Requests lead from a state to a later one. -/
def Leads (s s' : σ) : Prop :=
  ∃ rs : List BakeRequest, rs.foldl context.serve s = s'

/-- What is answered about an object from some state on does not change once it was answered,
    whatever is asked for in between. -/
def Steady (s : σ) : Prop :=
  ∀ (before between : List BakeRequest) (id : ObjectId),
    let asked := context.targetId id (before.foldl context.serve s)
    (context.targetId id (between.foldl context.serve asked.2)).1 = asked.1

/-- A part of a bake that starts from some state asks for things, and gives the same result
    if it is done again later. -/
structure Repeats (s : σ) (part : σ → α × σ) : Prop where
  /-- It does nothing but ask. -/
  leads : ∀ t, context.Leads t (part t).2
  /-- Later the result is the same. -/
  again : ∀ t t', context.Leads s t → context.Leads (part t).2 t' → (part t').1 = (part t).1

variable {context}

theorem Leads.refl (s : σ) : context.Leads s s :=
  ⟨[], rfl⟩

theorem Leads.trans {s s' s'' : σ} (h : context.Leads s s') (h' : context.Leads s' s'') :
    context.Leads s s'' := by
  rcases h with ⟨rs, rfl⟩
  rcases h' with ⟨rs', rfl⟩
  exact ⟨rs ++ rs', List.foldl_append⟩

theorem leads_targetId (id : ObjectId) (s : σ) : context.Leads s (context.targetId id s).2 :=
  ⟨[.target id], rfl⟩

theorem leads_bindClick (id : ObjectId) (node : NodeId) (s : σ) :
    context.Leads s (context.bindClick id node s) :=
  ⟨[.click id node], rfl⟩

namespace Repeats

variable {s : σ}

theorem pure (a : α) : context.Repeats s fun t => (a, t) :=
  ⟨Leads.refl, fun _ _ _ _ => rfl⟩

/-- Parts in a row can be done again if each can. -/
theorem bind {part : σ → α × σ} {next : α → σ → β × σ} (h : context.Repeats s part)
    (hnext : ∀ a, context.Repeats s (next a)) :
    context.Repeats s fun t => next (part t).1 (part t).2 := by
  refine ⟨fun t => (h.leads t).trans ((hnext _).leads _), ?_⟩
  intro t t' hfrom hlater
  -- The first part is done again after all of them.
  have hsame : (part t').1 = (part t).1 :=
    h.again t t' hfrom (((hnext _).leads _).trans hlater)
  have hlater' : context.Leads (next (part t).1 (part t).2).2 (part t').2 :=
    hlater.trans (h.leads t')
  show (next (part t').1 (part t').2).1 = (next (part t).1 (part t).2).1
  rw [hsame]
  exact (hnext _).again _ _ (hfrom.trans (h.leads t)) hlater'

theorem targetId (h : context.Steady s) (id : ObjectId) :
    context.Repeats s (context.targetId id) := by
  refine ⟨leads_targetId id, ?_⟩
  rintro t t' ⟨before, rfl⟩ ⟨between, rfl⟩
  exact h before between id

theorem slotIds (h : context.Steady s) (slots : List (Option ObjectId)) :
    context.Repeats s (context.slotIds slots) := by
  induction slots with
  | nil => exact pure []
  | cons slot slots ih =>
      cases slot with
      | none => exact ih
      | some id =>
          exact (targetId h id).bind fun answer => ih.bind fun rest => pure (answer.toList ++ rest)

/-- Click triggers are attached without an answer. -/
theorem attach (n : Node) (a : α) : context.Repeats s fun t => (a, n.attach context t) := by
  refine ⟨fun t => ?_, fun _ _ _ _ => rfl⟩
  show context.Leads t (n.attach context t)
  unfold Node.attach
  split
  · exact leads_bindClick _ _ t
  · exact Leads.refl t

theorem compile (h : context.Steady s) (n : Node) : context.Repeats s (n.compile context) := by
  have hcompile : n.compile context = fun t =>
      if n.takesPart then (some (n.step (n.ask context t).1), (n.ask context t).2)
      else (none, t) := funext fun t => n.compile_eq context t
  rw [hcompile]
  split
  · exact ((slotIds h n.slots).bind fun targets => attach n targets).bind
      fun targets => pure (some (n.step targets))
  · exact pure none

theorem compileAll (h : context.Steady s) (ns : List Node) :
    context.Repeats s (compileAll context ns) := by
  induction ns with
  | nil => exact pure []
  | cons n ns ih =>
      exact (compile h n).bind fun step => ih.bind fun rest => pure ((n, step) :: rest)

end Repeats

end BakeContext

namespace Graph

variable {σ : Type} {context : BakeContext σ}

/-- A bake is told by the steps of its nodes. -/
theorem bake_congr {g : Graph} {s s' : σ}
    (h : (compileAll context g.compileNodes s').1 = (compileAll context g.compileNodes s).1) :
    (g.bake context s').1 = (g.bake context s).1 ∧
      (g.bake context s').2.1 = (g.bake context s).2.1 := by
  simp only [bake, h, and_self]

/-- With a context that sticks to its answers, the second of two bakes in a row gives the
    summary and the program of the first. -/
theorem bake_again {s : σ} (h : context.Steady s) (g : Graph) :
    let first := g.bake context s
    let again := first.2.1.bake context first.2.2
    again.1 = first.1 ∧ again.2.1 = first.2.1 := by
  have hrepeats := BakeContext.Repeats.compileAll h g.compileNodes
  exact bake_congr (g := g) (hrepeats.again s _ (.refl s) (.refl _))

end Graph

/-! ### Stages and drafts stick to their answers -/

namespace Stage

/-- The target id that an object carries is the answer to a request for it. -/
theorem tag_of_carries {s : Stage} {id : ObjectId} {target : String} (h : s.Carries id target) :
    (s.tag id).1 = some target := by
  rcases tag_cases id s with ⟨hmissing, -⟩ | ⟨own, hown, htag⟩ | ⟨-, hnone, -⟩
  · rw [contains_of_carries h] at hmissing
    exact absurd hmissing (by simp)
  · rw [htag, h.unique hown]
  · rw [Carries, hnone] at h
    exact absurd h (by simp)

/-- An object keeps the target id that it was given, and one that does not exist is given none. -/
theorem steady_context (graph : GraphRef) (s : Stage) : (context graph).Steady s := by
  intro before between id
  rw [context_serve]
  generalize before.foldl (serve graph) s = t
  show ((between.foldl (serve graph) (t.tag id).2).tag id).1 = (t.tag id).1
  have htags := serveAll_tags graph between (t.tag id).2
  rcases hanswer : (t.tag id).1 with _ | target
  · have hthere : (between.foldl (serve graph) (t.tag id).2).world.contains id = false := by
      rw [htags.keeps.contains, (tag_extends id t).contains, ← isSome_tag, hanswer]
      rfl
    rw [← Option.not_isSome_iff_eq_none, isSome_tag, hthere]
    exact Bool.false_ne_true
  · exact tag_of_carries (htags.carries (tag_holds hanswer).carries)

end Stage

namespace Draft

/-- The answer about an object that is missing, or was given a target id. -/
def Answers (d : Draft) (o : ObjectId) (answer : Option String) : Prop :=
  if o ∈ d.missing then answer = none else answer = d.ids.get? o ∧ answer.isSome = true

theorem answers_targetId (o : ObjectId) (d : Draft) :
    (d.targetId o).2.Answers o (d.targetId o).1 := by
  by_cases hmissing : o ∈ d.missing
  · simp [targetId, Answers, hmissing]
  · rcases hget : d.ids.get? o with _ | target
    · simp [targetId, Answers, hmissing, hget, OrderedMap.get?_insert]
    · simp [targetId, Answers, hmissing, hget]

theorem Answers.targetId {d : Draft} {o : ObjectId} {answer : Option String}
    (h : d.Answers o answer) : (d.targetId o).1 = answer := by
  unfold Answers at h
  by_cases hmissing : o ∈ d.missing
  · rw [if_pos hmissing] at h
    simp [Draft.targetId, hmissing, h]
  · rw [if_neg hmissing] at h
    rcases hget : d.ids.get? o with _ | target
    · rw [h.1, hget] at h
      exact absurd h.2 (by simp)
    · simp [Draft.targetId, hmissing, hget, h.1]

/-- Target ids that were given stay. -/
theorem Answers.serve {d : Draft} {o : ObjectId} {answer : Option String}
    (h : d.Answers o answer) (r : BakeRequest) : (context.serve d r).Answers o answer := by
  cases r with
  | click id node => exact h
  | target id =>
      show (d.targetId id).2.Answers o answer
      by_cases hmissing : id ∈ d.missing
      · simpa [Draft.targetId, hmissing] using h
      · rcases hget : d.ids.get? id with _ | target
        · -- A new target id goes to an object that had none.
          have hlater : (d.targetId id).2 =
              { d with ids := d.ids.insert id (numbered d.ids.size) } := by
            simp [Draft.targetId, hmissing, hget]
          rw [hlater]
          by_cases ho : o ∈ d.missing
          · simpa [Answers, ho] using h
          · simp only [Answers, ho, ↓reduceIte] at h ⊢
            have hne : o ≠ id := by
              rintro rfl
              rw [h.1, hget] at h
              exact absurd h.2 (by simp)
            rw [OrderedMap.get?_insert, if_neg hne]
            exact h
        · simpa [Draft.targetId, hmissing, hget] using h

theorem steady_context (d : Draft) : context.Steady d := by
  intro before between id
  have hanswers := answers_targetId id (before.foldl context.serve d)
  exact Answers.targetId (List.foldlRecOn (motive := fun later => Answers later id _) between
    context.serve hanswers fun _ h r _ => h.serve r)

end Draft

/-! ### A second pass over the requests -/

namespace OrderedMap

variable {κ ν : Type} [DecidableEq κ]

/-- Maps with the same keys in the same order and the same values under them are equal. -/
theorem eq_of_get? {m m' : OrderedMap κ ν} (hkeys : m'.keys = m.keys)
    (hget : ∀ k, m'.get? k = m.get? k) : m' = m := by
  have hentries : ∀ m : OrderedMap κ ν,
      m.entries.map some = m.keys.map fun k => (m.get? k).map fun v => (k, v) := by
    intro m
    rw [keys, List.map_map]
    refine List.map_congr_left fun e he => ?_
    rw [Function.comp_apply, get?_eq_some_iff.2 he]
    rfl
  have hsome : m'.entries.map some = m.entries.map some := by
    rw [hentries, hentries, hkeys]
    exact List.map_congr_left fun k _ => by rw [hget]
  ext1
  exact (List.map_inj_right fun _ _ => Option.some.inj).1 hsome

end OrderedMap

namespace World

/-- The world without its click triggers. -/
def unwired (w : World) : World :=
  w.mapValues fun _ o => { o with clickTrigger := none }

theorem get?_unwired (w : World) (id : ObjectId) :
    w.unwired.get? id = (w.get? id).map fun o => { o with clickTrigger := none } :=
  OrderedMap.get?_mapValues _ w id

/-- A world is its objects and their click triggers. -/
theorem unwired_mapValues_clickTrigger (w : World) :
    (w.unwired.mapValues fun id o =>
      { o with clickTrigger := (w.get? id).bind SceneObject.clickTrigger }) = w := by
  ext1
  simp only [unwired, OrderedMap.mapValues, List.map_map]
  refine (List.map_congr_left ?_).trans (List.map_id _)
  rintro ⟨id, o⟩ hmem
  have hget : w.get? id = some o := OrderedMap.get?_eq_some_iff.2 hmem
  simp [hget]

theorem eq_of_unwired {w w' : World} (hunwired : w'.unwired = w.unwired)
    (hclick : ∀ id, (w'.get? id).bind SceneObject.clickTrigger =
      (w.get? id).bind SceneObject.clickTrigger) : w' = w := by
  rw [← w'.unwired_mapValues_clickTrigger, hunwired]
  simp only [hclick]
  exact w.unwired_mapValues_clickTrigger

theorem unwired_update (w : World) (id : ObjectId) (b : Option TriggerRef) :
    unwired (w.update id fun o => { o with clickTrigger := b }) = w.unwired := by
  ext1
  simp only [unwired, OrderedMap.update, OrderedMap.mapValues, List.map_map]
  refine List.map_congr_left fun e _ => ?_
  simp only [Function.comp_apply]
  split <;> rfl

end World

namespace Stage

/-- The target id of an object has been asked for: if the object is there, it carries a
    target id that is registered. -/
def Served (s : Stage) (id : ObjectId) : Prop :=
  s.world.contains id = true → ∃ target, s.Carries id target ∧ target ∈ s.targets.keys

/-- No target id is given to an object, and none is new to the registry. -/
structure Settles (s s' : Stage) : Prop where
  /-- The supply is the same. -/
  supply : s'.supply = s.supply
  /-- No id of it is used. -/
  minted : s'.minted = s.minted
  /-- Nothing but click triggers is written into objects. -/
  unwired : s'.world.unwired = s.world.unwired
  /-- The registry has the keys that it had, in their order. -/
  keys : s'.targets.keys = s.targets.keys

theorem Settles.refl (s : Stage) : s.Settles s :=
  ⟨rfl, rfl, rfl, rfl⟩

theorem Settles.trans {s s' s'' : Stage} (h : s.Settles s') (h' : s'.Settles s'') :
    s.Settles s'' :=
  ⟨h'.supply.trans h.supply, h'.minted.trans h.minted, h'.unwired.trans h.unwired,
    h'.keys.trans h.keys⟩

theorem Settles.carried {s s' : Stage} (h : s.Settles s') (id : ObjectId) :
    (s'.world.get? id).bind carriedId? = (s.world.get? id).bind carriedId? := by
  have hunwired : ∀ w : World,
      (w.get? id).bind carriedId? = (w.unwired.get? id).bind carriedId? := by
    intro w
    rw [World.get?_unwired]
    cases w.get? id <;> rfl
  rw [hunwired, h.unwired, ← hunwired]

theorem Settles.carriedBy {s s' : Stage} (h : s.Settles s') (ids : List ObjectId) :
    s'.carriedBy ids = s.carriedBy ids :=
  List.filterMap_congr fun id _ => by rw [h.carried]

theorem Settles.contains {s s' : Stage} (h : s.Settles s') (id : ObjectId) :
    s'.world.contains id = s.world.contains id := by
  have hunwired : ∀ w : World, w.contains id = w.unwired.contains id := by
    intro w
    rw [OrderedMap.contains, OrderedMap.contains, World.get?_unwired, Option.isSome_map]
  rw [hunwired, h.unwired, ← hunwired]

theorem Settles.served {s s' : Stage} (h : s.Settles s') {id : ObjectId} (hid : s.Served id) :
    s'.Served id := by
  intro hthere
  rw [h.contains] at hthere
  rcases hid hthere with ⟨target, hcarries, hkey⟩
  refine ⟨target, ?_, ?_⟩
  · rw [Carries, h.carried]
    exact hcarries
  · rw [h.keys]
    exact hkey

/-- A request that was served before mints nothing. -/
theorem tag_settles {s : Stage} {id : ObjectId} (h : s.Served id) : s.Settles (s.tag id).2 := by
  rcases tag_cases id s with ⟨-, htag⟩ | ⟨target, hcarries, htag⟩ | ⟨hthere, hnone, -⟩
  · rw [htag]
    exact Settles.refl s
  · rcases h (contains_of_carries hcarries) with ⟨own, hown, hkey⟩
    rw [hown.unique hcarries] at hkey
    rw [htag]
    refine ⟨rfl, rfl, rfl, ?_⟩
    rw [targets_register (not_isBlank_of_carries hcarries), OrderedMap.keys_insert, if_pos hkey]
  · -- An object that was asked about is not one that carries nothing.
    rcases h hthere with ⟨own, hown, -⟩
    rw [Carries, hnone] at hown
    exact absurd hown (by simp)

theorem bindClick_settles (graph : GraphRef) (id : ObjectId) (node : NodeId) (s : Stage) :
    s.Settles (s.bindClick graph id node) :=
  ⟨rfl, rfl, World.unwired_update s.world id _, rfl⟩

/-- Requests that were served before settle. -/
theorem serveAll_settles (graph : GraphRef) {rs : List BakeRequest} {s : Stage}
    (h : ∀ id ∈ rs.filterMap BakeRequest.target?, s.Served id) :
    s.Settles (rs.foldl (serve graph) s) := by
  induction rs generalizing s with
  | nil => exact Settles.refl s
  | cons r rs ih =>
      have hfirst : s.Settles (s.serve graph r) := by
        cases r with
        | target id => exact tag_settles (h id List.mem_cons_self)
        | click id node => exact bindClick_settles graph id node s
      refine hfirst.trans (ih fun id hid => hfirst.served (h id ?_))
      rw [List.filterMap_cons]
      split
      · exact hid
      · exact List.mem_cons_of_mem _ hid

/-- Whatever a bake has asked about carries a target id. -/
theorem exists_carries_serveAll (graph : GraphRef) {rs : List BakeRequest} {s : Stage}
    {id : ObjectId} (h : id ∈ rs.filterMap BakeRequest.target?)
    (hthere : s.world.contains id = true) :
    ∃ target, (rs.foldl (serve graph) s).Carries id target := by
  rcases List.mem_filterMap.1 h with ⟨r, hr, hid⟩
  have hr' : r = .target id := by
    cases r with
    | target id' => exact congrArg _ (Option.some.inj hid)
    | click id' node => cases hid
  rcases List.append_of_mem hr with ⟨before, later, rfl⟩
  rw [hr', List.foldl_append, List.foldl_cons]
  -- It is there when it is asked about, so it is given an answer, and it keeps what it has.
  rw [← (serveAll_tags graph before s).keeps.contains, ← isSome_tag,
    Option.isSome_iff_exists] at hthere
  rcases hthere with ⟨target, hanswer⟩
  exact ⟨target, (serveAll_tags graph later _).carries (tag_holds hanswer).carries⟩

theorem served_serveAll (graph : GraphRef) {rs : List BakeRequest} {s : Stage} {id : ObjectId}
    (h : id ∈ rs.filterMap BakeRequest.target?) : (rs.foldl (serve graph) s).Served id := by
  intro hthere
  rw [(serveAll_tags graph rs s).keeps.contains] at hthere
  rcases exists_carries_serveAll graph h hthere with ⟨target, hcarries⟩
  refine ⟨target, hcarries, ?_⟩
  -- It was registered, for this object or for another one that carries it.
  rcases exists_latest? (mem_carriedBy.2 ⟨h, hcarries⟩) with ⟨last, hlast⟩
  have hget : (rs.foldl (serve graph) s).targets.get? target = some last := by
    rw [get?_serveAll graph rs s target, hlast, Option.some_or]
  exact OrderedMap.mem_keys_of_mem (OrderedMap.get?_eq_some_iff.1 hget)

/-- Stages are told apart by click triggers and by what target ids stand for, if none is minted
    on the way from one to the other. -/
theorem Settles.eq {s s' : Stage} (h : s.Settles s')
    (hclick : ∀ id, s'.clickOf? id = s.clickOf? id)
    (hget : ∀ target, s'.targets.get? target = s.targets.get? target) : s' = s := by
  have hworld := World.eq_of_unwired h.unwired hclick
  have htargets := OrderedMap.eq_of_get? h.keys hget
  cases s
  cases s'
  simp only [mk.injEq]
  exact ⟨hworld, htargets, h.supply, h.minted⟩

theorem clickOf?_of_not_contains {s : Stage} {id : ObjectId} (h : s.world.contains id = false) :
    s.clickOf? id = none := by
  have hnone : s.world.get? id = none := by
    simpa [OrderedMap.contains] using h
  rw [clickOf?, hnone]
  rfl

/-- The same requests, served a second time, leave the stage as it is. -/
theorem serveAll_serveAll (graph : GraphRef) (rs : List BakeRequest) (s : Stage) :
    rs.foldl (serve graph) (rs.foldl (serve graph) s) = rs.foldl (serve graph) s := by
  have hserved : ∀ id ∈ rs.filterMap BakeRequest.target?, (rs.foldl (serve graph) s).Served id :=
    fun id hid => served_serveAll graph hid
  have hsettles := serveAll_settles graph hserved
  have hkeeps := (serveAll_tags graph rs s).keeps
  -- What is written a second time was written the first time.
  refine hsettles.eq (fun id => ?_) fun target => ?_
  · rcases hthere : s.world.contains id with _ | _
    · rw [← hkeeps.contains] at hthere
      rw [clickOf?_of_not_contains hthere]
      rw [← hsettles.contains] at hthere
      exact clickOf?_of_not_contains hthere
    · rw [clickOf?_serveAll rs ((hkeeps.contains id).trans hthere), clickOf?_serveAll rs hthere,
        ← Option.or_assoc, Option.or_self]
  · have honce := get?_serveAll graph rs s target
    rw [get?_serveAll, hsettles.carriedBy, honce, ← Option.or_assoc, Option.or_self]

/-- A graph that is baked again against the stage that its bake has left gives what it gave,
    and leaves the stage as it is. -/
theorem bake_bake (graph : GraphRef) (g : Graph) (s : Stage) :
    let first := g.bake (context graph) s
    first.2.1.bake (context graph) first.2.2 = first := by
  intro first
  have hagain := Graph.bake_again (steady_context graph s) g
  have hserved : ∀ s, (g.bake (context graph) s).2.2 = g.requests.foldl (serve graph) s := by
    intro s
    rw [← context_serve]
    exact g.state_bake (context graph) s
  have honce : first.2.2 = g.requests.foldl (serve graph) s := hserved s
  have htwice : (first.2.1.bake (context graph) first.2.2).2.2 =
      g.requests.foldl (serve graph) first.2.2 := hserved first.2.2
  have hstage : (first.2.1.bake (context graph) first.2.2).2.2 = first.2.2 := by
    rw [htwice, honce, serveAll_serveAll]
  exact Prod.ext hagain.1 (Prod.ext hagain.2 hstage)

end Stage

/-! ### Bakes -/

theorem Library.set_set (l : Library) (r : GraphRef) (g g' : Graph) :
    (l.set r g).set r g' = l.set r g' := by
  simp only [set, List.set_set]

namespace Session

variable (s : Session) (graph : GraphRef)

/-- What a bake makes of the graph and the stage goes back to where these came from. -/
theorem bake_eq : s.bake graph =
    let b := (s.library.get graph).bake (Stage.context graph) s.toStage
    (b.1, { s with toStage := b.2.2, library := s.library.set graph b.2.1 }) :=
  rfl

/-- The graph that a session has after a bake is the one that the bake made. -/
theorem get_library_bake : (s.bake graph).2.library.get graph =
    ((s.library.get graph).bake (Stage.context graph) s.toStage).2.1 := by
  refine (Library.get_set _ _ _).trans ?_
  split
  · rfl
  · -- A reference to no graph stands for one without nodes, and its bake leaves it so.
    next h =>
      have hmissing : s.library.get graph = Library.missing := by
        rw [Library.get, List.getElem?_eq_none (by simpa using h)]
        rfl
      rw [hmissing]
      rfl

/-- A graph that was just baked is baked again to what it is, in the session as it is. -/
theorem bake_bake : (s.bake graph).2.bake graph = s.bake graph := by
  have hstage : (s.bake graph).2.toStage =
      ((s.library.get graph).bake (Stage.context graph) s.toStage).2.2 := rfl
  rw [bake_eq (s.bake graph).2, get_library_bake, hstage, Stage.bake_bake]
  simp only [bake_eq s, Library.set_set]

end Session

/-- Baking a graph twice in a row is baking it once, whatever objects are missing, carry no
    target id or a blank one, or share one: the second bake gives the summary of the first
    and leaves the session as the first one left it, the program, the objects and their
    target ids and click triggers, the registry and the supply of ids. With any other context
    that sticks to its answers, the second bake gives the summary and the program of the
    first. -/
theorem bake_twice :
    (∀ (s : Session) (graph : GraphRef), (s.bake graph).2.bake graph = s.bake graph) ∧
      ∀ {σ : Type} (context : BakeContext σ) (g : Graph) (s : σ), context.Steady s →
        let first := g.bake context s
        let again := first.2.1.bake context first.2.2
        again.1 = first.1 ∧ again.2.1 = first.2.1 :=
  ⟨Session.bake_bake, fun _ g _ h => Graph.bake_again h g⟩

/-- A graph that wires an object to two of its nodes, and refers to objects that share a target
    id, carry a blank one, and are missing. -/
def menuGraph : Graph where
  name := "menu"
  nodes := [.ofKind ⟨"a"⟩ (.click (some ⟨1⟩)), .ofKind ⟨"b"⟩ (.click (some ⟨1⟩)),
    .ofKind ⟨"show"⟩ (.objects .on [some ⟨2⟩, some ⟨3⟩, some ⟨4⟩, none, some ⟨9⟩])]

/-- The menu before it is baked. -/
def menuScene : List Event :=
  [.author { graphs := [menuGraph] }, .spawn ⟨1⟩ { name := "Button", scene := "Menu" },
    .spawn ⟨3⟩ { name := "Left", scene := "Menu", targetId := some "panel" },
    .spawn ⟨2⟩ { name := "Right", scene := "Menu", targetId := some "panel" },
    .spawn ⟨4⟩ { name := "Blank", scene := "Menu", targetId := some " " }]

/-- The first bake mints two ids and gives the shared one to another object; the second does
    nothing. -/
theorem bake_twice_menu :
    let s := (Session.start {} .minted true).after menuScene
    let drafted := menuGraph.bake Draft.context {}
    (s.minted = 0 ∧ s.targets.get? "panel" = some ⟨2⟩) ∧
      ((s.bake ⟨0⟩).2.minted = 2 ∧ (s.bake ⟨0⟩).2.targets.get? "panel" = some ⟨3⟩) ∧
      (s.bake ⟨0⟩).2.bake ⟨0⟩ = s.bake ⟨0⟩ ∧
      Draft.context.Steady {} ∧
      (drafted.2.1.bake Draft.context drafted.2.2).2.1 = drafted.2.1 := by
  have hsteady := Draft.steady_context {}
  refine ⟨by decide +kernel, by decide +kernel, bake_twice.1 _ _, hsteady, ?_⟩
  exact (bake_twice.2 Draft.context menuGraph {} hsteady).2

end BehaviorGraph
