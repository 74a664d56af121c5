import BehaviorGraph.Proofs.BakeFrame
import BehaviorGraph.Proofs.LayerNames
import BehaviorGraph.Proofs.NodeOutcomes
import BehaviorGraph.Proofs.Punctuality
/-!
# Names Under Which Actions Are Called

Which action a baked call gets to, told from the table that the object keeps.

Three things lie between a call node and an action. The first is the target id. The step
carries the one that the object was found to carry when the node was compiled, and that stands
for the object when the bake is over, if no other object carries it. It goes on doing so as
long as the object is there, until a shutdown, whatever else happens; it only takes that no
other object is registered under it.

The second is the table. Names can be defined and removed any number of times, and what there is
under a name is what the last of these put there, whatever became of other names.

The third are the names themselves, and here they do not agree. The compiler trims both, the
table keeps them as they were given, and they are compared as they stand. So an action is
found under its own names if these are trimmed. An action that was defined under a name with
spaces around it is not called by the node that gives this very name, and in its place the one
is called that was defined under the trimmed name, if there is one.

## Main definitions

* `ActionTable.Edit`, `ActionTable.ofEdits`: Definitions and removals, and the table after them.

## Theorems

* `ActionTable.get?_ofEdits`: What a table has under a name.
* `compileAll_carries`, `Graph.stepAt?_carries`: The target ids of a step are carried by the
  objects that its node refers to.
* `Session.holds_bake_alone`, `Session.holds_after_alone`: A target id that one object carries.
* `Session.callee_of_call`: The action that a call gets to.
* `Session.call_after_bake`: When it is the one with the names of the node.
* `Session.spaced_action_not_called`: An action whose component has spaces around it.
-/

namespace BehaviorGraph

/-! ### Tables -/

namespace ActionTable

variable {α : Type}

/-- The names of an action, and the action that they are given, or none to remove it. -/
abbrev Edit (α : Type) :=
  (String × String) × Option α

/-- Define or remove an action. -/
def edit (e : Edit α) (t : ActionTable α) : ActionTable α :=
  match e.2 with
  | some a => t.define e.1.1 e.1.2 a
  | none => (t.remove e.1.1 e.1.2).2

/-- The table after some definitions and removals. -/
def ofEdits (edits : List (Edit α)) : ActionTable α :=
  edits.foldl (fun t e => t.edit e) empty

theorem get?_edit (e : Edit α) (t : ActionTable α) (names : String × String) :
    (t.edit e).entries.get? names = if e.1 = names then e.2 else t.entries.get? names := by
  obtain ⟨⟨component, method⟩, action⟩ := e
  unfold edit
  by_cases h : (component, method) = names
  · subst h
    cases action with
    | none => simp [remove, OrderedMap.get?_erase]
    | some a => simp [define, OrderedMap.get?_insert]
  · cases action with
    | none => simp [remove, OrderedMap.get?_erase, h, Ne.symm h]
    | some a => simp [define, OrderedMap.get?_insert, h, Ne.symm h]

/-- A table has under a name what was last put there. -/
theorem get?_ofEdits (edits : List (Edit α)) (names : String × String) :
    (ofEdits edits).entries.get? names = (latest? names edits).join := by
  induction edits using List.reverseRecOn with
  | nil => rfl
  | append_singleton edits e ih =>
      have hlast : ofEdits (edits ++ [e]) = (ofEdits edits).edit e := by
        simp [ofEdits]
      rw [hlast, get?_edit, latest?_append, latest?_cons, latest?_nil, Option.none_or]
      by_cases h : e.1 = names
      · rw [if_pos h, if_pos h]
        rfl
      · rw [if_neg h, if_neg h, ih, Option.none_or]

/-- Looking for an action by a component that is not blank. -/
theorem find?_ofEdits {component : String} (h : Text.isBlank component = false)
    (edits : List (Edit α)) (method : String) :
    (ofEdits edits).find? component method = (latest? (component, method) edits).join := by
  rw [find?, h, ← get?_ofEdits]
  rfl

end ActionTable

/-! ### Steps -/

section Carried

variable (graph : GraphRef)

/-- The answers about some slots are carried by the objects that exist in them. -/
theorem slotIds_carries (slots : List (Option ObjectId)) (s : Stage) :
    List.Forall₂ ((Stage.context graph).slotIds slots s).2.Carries
      ((slots.filterMap fun slot => slot).filter s.world.contains)
      ((Stage.context graph).slotIds slots s).1 := by
  induction slots generalizing s with
  | nil => exact List.Forall₂.nil
  | cons slot slots ih =>
      cases slot with
      | none => exact ih s
      | some id =>
          have htags := (Stage.coversBakes_tags graph).slotIds slots (s.tag id).2
          have hsame : (s.tag id).2.world.contains = s.world.contains :=
            funext (Stage.tag_tags id s).keeps.contains
          -- What the first slot was answered is carried from then on.
          have hfirst := (Stage.tag_names id s).imp fun _ _ hheld => htags.carries hheld.carries
          have hrest := ih (s.tag id).2
          rw [hsame] at hfirst hrest
          have hsplit : ((some id :: slots).filterMap fun slot => slot) =
              [id] ++ slots.filterMap fun slot => slot := rfl
          rw [hsplit, List.filter_append]
          exact List.rel_append hfirst hrest

/-- A node that takes part is compiled to its step, for target ids that are carried by the
    objects which it refers to when all is compiled. -/
theorem compileAll_carries {ns : List Node} {s : Stage} {e : Node × Option Step}
    (he : e ∈ (compileAll (Stage.context graph) ns s).1) (hpart : e.1.takesPart = true) :
    ∃ targets, e.2 = some (e.1.step targets) ∧
      List.Forall₂ (compileAll (Stage.context graph) ns s).2.Carries
        (e.1.kind.referents.filter s.world.contains) targets := by
  induction ns generalizing s with
  | nil => exact absurd he List.not_mem_nil
  | cons n ns ih =>
      have hcovers := Stage.coversBakes_tags graph
      have hlater := hcovers.compileAll ns (n.compile (Stage.context graph) s).2
      have hcases : e = (n, (n.compile (Stage.context graph) s).1) ∨
          e ∈ (compileAll (Stage.context graph) ns (n.compile (Stage.context graph) s).2).1 :=
        List.mem_cons.1 he
      rcases hcases with heq | htail
      · -- What was carried when this node was compiled is carried at the end.
        have hnode : e.1 = n := congrArg Prod.fst heq
        have hstep : e.2 = (n.compile (Stage.context graph) s).1 := congrArg Prod.snd heq
        have hattach := hcovers.attach n ((Stage.context graph).slotIds n.slots s).2
        have hslots := slotIds_carries graph n.slots s
        rw [n.filterMap_slots] at hslots
        rw [hnode] at hpart ⊢
        rw [Node.compile_eq, if_pos hpart] at hstep
        refine ⟨(n.ask (Stage.context graph) s).1, hstep, ?_⟩
        rw [Node.compile_eq, if_pos hpart] at hlater
        have hend : (compileAll (Stage.context graph) (n :: ns) s).2 =
            (compileAll (Stage.context graph) ns (n.compile (Stage.context graph) s).2).2 := rfl
        rw [hend, Node.compile_eq, if_pos hpart]
        exact hslots.imp fun id target hcarries => hlater.carries (hattach.carries hcarries)
      · have hsame : (n.compile (Stage.context graph) s).2.world.contains = s.world.contains :=
          funext (hcovers.compile n s).keeps.contains
        have hrest := ih htail
        rw [hsame] at hrest
        exact hrest

end Carried

namespace Node

variable {n : Node} {slot : Option ObjectId} {component method : String}

/-- The step of a call carries the names trimmed. -/
theorem names_step (hkind : n.kind = .call slot component method) (targets : List String) :
    (n.step targets).stringParam? .component = some (Text.trim component) ∧
      (n.step targets).stringParam? .method = some (Text.trim method) := by
  simp [step, hkind, Step.stringParam?_setString]

theorem takesPart_call (hkind : n.kind = .call slot component method)
    (hid : n.id.isBlank = false) (hmethod : Text.isBlank method = false) :
    n.takesPart = true := by
  simp [takesPart, hkind, hid, hmethod]

end Node

/-- The step of a node that takes part carries target ids that are carried by the objects which
    the node refers to. -/
theorem Graph.stepAt?_carries {g : Graph} {i : Nat} {n : Node} (hn : g.nodes[i]? = some n)
    (hpart : n.takesPart = true) (graph : GraphRef) (s : Stage) :
    ∃ targets, g.stepAt? (Stage.context graph) s i = some (n.step targets) ∧
      List.Forall₂ (g.bake (Stage.context graph) s).2.2.Carries
        (n.kind.referents.filter s.world.contains) targets := by
  have hplace : i ∈ g.compileOrder :=
    g.mem_compileOrder_iff.2 (List.getElem?_eq_some_iff.1 hn).1
  have hmem : (n, g.stepAt? (Stage.context graph) s i) ∈
      (compileAll (Stage.context graph) g.compileNodes s).1 := by
    rw [g.compileAll_compileNodes]
    exact List.mem_filterMap.2 ⟨i, hplace, by rw [hn]; rfl⟩
  exact compileAll_carries graph hmem hpart

namespace Session

/-! ### Target ids that one object carries -/

section Alone

variable {s : Session} {id : ObjectId} {target : String}

/-- After a bake the target id of an object stands for it, if no other object carries it: either
    the bake has asked about the object, or the id stood for it before. -/
theorem holds_bake_alone {graph : GraphRef}
    (hcarries : (s.bake graph).2.toStage.Carries id target)
    (halone : ∀ id', (s.bake graph).2.toStage.Carries id' target → id' = id)
    (h : id ∈ (s.library.get graph).asked ∨ s.targets.get? target = some id) :
    (s.bake graph).2.toStage.Holds id target := by
  refine ⟨hcarries, ?_⟩
  rw [s.targets_bake graph]
  rcases hlatest : latest? target ((s.bake graph).2.carriedBy (s.library.get graph).asked) with
    _ | id'
  · rcases h with hasked | hstands
    · -- The object was registered under the id.
      rcases exists_latest? (Stage.mem_carriedBy.2 ⟨hasked, hcarries⟩) with ⟨id', hid'⟩
      rw [hlatest] at hid'
      exact absurd hid' (by simp)
    · exact hstands
  · rw [halone id' (Stage.mem_carriedBy.1 (mem_of_latest? hlatest)).2]
    rfl

/-- An object that stays goes on holding its target id, as long as no other object carries it. -/
theorem holds_happen_alone {e : Event}
    (h : s.world.contains id = true → s.toStage.Holds id target) (hold : id ∉ e.spawned)
    (hrunning : e ≠ .shutdown)
    (halone : ∀ id', (s.happen e).toStage.Carries id' target → id' = id)
    (hthere : (s.happen e).world.contains id = true) :
    (s.happen e).toStage.Holds id target := by
  cases change_happen e s with
  | enlists henlists =>
      have hsame : (s.happen e).world.get? id = s.world.get? id :=
        henlists.get?_of_notMem (by rwa [← e.spawned_eq])
      have hbefore := h (by rwa [OrderedMap.contains, ← hsame])
      refine ⟨by rw [Stage.Carries, hsame]; exact hbefore.carries, ?_⟩
      rw [henlists.targets, Targets.get?_assignAll]
      rcases hlatest : latest? target (Targets.asked (e.enlisted (s.happen e).world)) with
        _ | id'
      · exact hbefore.stands
      · -- Whoever is registered under the id carries it.
        rcases Targets.mem_asked.1 (mem_of_latest? hlatest) with ⟨o, ho, htarget⟩
        rw [halone id' (Stage.carries_iff.2 ⟨o, henlists.listed_subset ho, htarget⟩)]
        rfl
  | goes hdrops =>
      have hkeeps := hdrops.keeps id
      exact hkeeps.holds hthere (h (hkeeps.contains hthere))
  | bakes graph he hbake =>
      have htags := s.tags_bake graph
      rw [hbake] at hthere halone ⊢
      have hbefore := h (by rwa [← htags.keeps.contains])
      exact holds_bake_alone (htags.carries hbefore.carries) halone (Or.inr hbefore.stands)
  | forgets he => exact absurd he hrunning
  | runs hruns =>
      have hkeeps := hruns _ (coversRuns_keeps id)
      exact hkeeps.holds hthere (h (hkeeps.contains hthere))

theorem holds_after_alone (h : s.world.contains id = true → s.toStage.Holds id target)
    {later : List Event} (hold : id ∉ later.flatMap Event.spawned)
    (hrunning : Event.shutdown ∉ later)
    (halone : ∀ past, past <+: later → ∀ id', (s.after past).toStage.Carries id' target → id' = id)
    (hthere : (s.after later).world.contains id = true) :
    (s.after later).toStage.Holds id target := by
  induction later using List.reverseRecOn with
  | nil => exact h hthere
  | append_singleton later e ih =>
      rw [List.flatMap_append, List.mem_append, not_or] at hold
      rw [List.mem_append, not_or, List.mem_singleton] at hrunning
      have hnow := halone (later ++ [e]) (List.prefix_refl _)
      rw [after_concat] at hthere hnow ⊢
      refine holds_happen_alone (fun hbefore => ?_) ?_ (Ne.symm hrunning.2) hnow hthere
      · refine ih hold.1 hrunning.1 (fun past hpast => ?_) hbefore
        exact halone past (hpast.trans (List.prefix_append _ _))
      · simpa using hold.2

end Alone

/-! ### Calls -/

/-- A call gets to what its action does, or nowhere. -/
theorem execute_of_call {st : Step} (htype : st.type = .call) (s : Session) :
    s.execute st =
      match s.callee st with
      | .ok a => (if (s.call a).1 then .ok .applied else .error (.failed st.node), (s.call a).2)
      | .error e => (.error e, s) := by
  rw [(execute_of_nanoseconds? (by simp [Step.nanoseconds?, htype]) s).1, perform, htype]
  simp only [performCall]
  rcases s.callee st with e | a
  · rfl
  · rcases hcall : s.call a with ⟨_ | _, s'⟩
    · simp [hcall]
    · simp [hcall]

/-- The action that a call gets to is the last one that was defined under the trimmed names. -/
theorem callee_of_call {s : Session} {n : Node} {slot : Option ObjectId}
    {component method target : String} {id : ObjectId} {o : SceneObject}
    {edits : List (ActionTable.Edit Action)} (hkind : n.kind = .call slot component method)
    (hcomponent : Text.isBlank component = false)
    (hresolve : s.targets.resolve? target = some id) (ho : s.world.get? id = some o)
    (htable : o.actions = .ofEdits edits) :
    s.callee (n.step [target]) =
      match (latest? (Text.trim component, Text.trim method) edits).join with
      | some a => .ok a
      | none => .error (.unresolvedAction n.id (Text.trim component) (Text.trim method)) := by
  have htrimmed : Text.isBlank (Text.trim component) = false := by
    rw [Text.isBlank_trim, hcomponent]
  have hnode : (n.step [target]).node = n.id := (n.header_step _).1
  rcases n.names_step hkind [target] with ⟨hfirst, hsecond⟩
  simp only [callee, Step.target?, Node.targets_step, List.head?_cons, hresolve, hfirst, hsecond,
    Option.getD_some, ho, Option.bind_some, htable, ActionTable.find?_ofEdits htrimmed, hnode]
  cases (latest? (Text.trim component, Text.trim method) edits).join <;> rfl

/-- A call node that has an id and names which are not blank, baked while its object is there. Its
    step carries the target id of the object, and this id leads to the object as long as it stays
    and no other object carries the id, unless there is a shutdown. Where it does, the step
    calls the action that was defined last under the trimmed names, whatever table the object
    has by then. So it gets to the action that was defined last under the names of the node
    exactly if this is that action; and it does if the names are trimmed. -/
theorem call_after_bake {s : Session} {graph : GraphRef} {i : Nat} {n : Node} {id : ObjectId}
    {component method : String} (hn : (s.library.get graph).nodes[i]? = some n)
    (hkind : n.kind = .call (some id) component method) (hid : n.id.isBlank = false)
    (hcomponent : Text.isBlank component = false) (hmethod : Text.isBlank method = false)
    (hthere : s.world.contains id = true) :
    let baked := (s.bake graph).2
    ∃ st target,
      (s.library.get graph).stepAt? (Stage.context graph) s.toStage i = some st ∧
      st ∈ (baked.library.get graph).fullSteps ∧
      st.targets = [target] ∧ baked.toStage.Carries id target ∧
      (∀ later, id ∉ later.flatMap Event.spawned → Event.shutdown ∉ later →
        (∀ past, past <+: later →
          ∀ id', (baked.after past).toStage.Carries id' target → id' = id) →
        (baked.after later).world.contains id = true →
        (baked.after later).targets.resolve? target = some id) ∧
      ∀ (run : Session) (o : SceneObject) (edits : List (ActionTable.Edit Action)),
        run.targets.resolve? target = some id → run.world.get? id = some o →
        o.actions = .ofEdits edits →
        let trimmed := (latest? (Text.trim component, Text.trim method) edits).join
        (run.execute st =
          match trimmed with
          | some a =>
            (if (run.call a).1 then .ok .applied else .error (.failed n.id), (run.call a).2)
          | none =>
            (.error (.unresolvedAction n.id (Text.trim component) (Text.trim method)), run)) ∧
        ∀ a, latest? (component, method) edits = some (some a) →
          (run.callee st = .ok a ↔ trimmed = some a) ∧
          (Text.trim component = component → Text.trim method = method →
            run.callee st = .ok a) := by
  intro baked
  have hpart := Node.takesPart_call hkind hid hmethod
  rcases Graph.stepAt?_carries hn hpart graph s.toStage with ⟨targets, hstep, hcarried⟩
  -- The one object that the node refers to is there.
  rw [hkind, NodeKind.referents, Option.toList_some, List.filter_cons_of_pos hthere,
    List.filter_nil, List.forall₂_cons_left_iff] at hcarried
  rcases hcarried with ⟨target, _, hcarries, hnil, rfl⟩
  rw [List.forall₂_nil_left_iff] at hnil
  subst hnil
  have hbaked : baked.toStage.Carries id target := hcarries
  refine ⟨n.step [target], target, hstep, ?_, n.targets_step _, hbaked, ?_, ?_⟩
  · have hprogram : (baked.library.get graph).fullSteps =
        ((s.library.get graph).bake (Stage.context graph) s.toStage).2.1.program :=
      s.fullSteps_bake graph
    rw [hprogram]
    exact Graph.mem_program_of_stepAt? _ _ _ hstep
  · intro later hold hrunning halone hstays
    have hasked : id ∈ (s.library.get graph).asked :=
      Graph.mem_asked.2 ⟨n, List.mem_of_getElem? hn, hpart, by simp [hkind, NodeKind.referents]⟩
    have hfirst := holds_bake_alone hbaked (halone [] List.nil_prefix) (Or.inl hasked)
    exact (holds_after_alone (fun _ => hfirst) hold hrunning halone hstays).resolve?
  · intro run o edits hresolve ho htable trimmed
    have hcallee := callee_of_call hkind hcomponent hresolve ho htable
    have htype : (n.step [target]).type = .call := by
      rw [(n.header_step _).2.1, Node.type, hkind]
      rfl
    have hiff : ∀ a, run.callee (n.step [target]) = .ok a ↔ trimmed = some a := by
      intro a
      rw [hcallee]
      cases htrimmed : (latest? (Text.trim component, Text.trim method) edits).join <;>
        simp [trimmed, htrimmed]
    refine ⟨?_, fun a ha => ⟨hiff a, fun hc hm => ?_⟩⟩
    · rw [execute_of_call htype, hcallee, (n.header_step _).1]
      cases htrimmed : (latest? (Text.trim component, Text.trim method) edits).join <;>
        simp [trimmed, htrimmed]
    · have hsame : trimmed = (latest? (component, method) edits).join := by
        simp only [trimmed, hc, hm]
      rw [hiff, hsame, ha]
      rfl

/-- An action that is defined, removed and defined again under the name of a component, and
    another one. -/
def stock (component : String) : List (ActionTable.Edit Action) :=
  [((component, "open"), some [.fail]), ((component, "open"), none),
    (("Stall", "open"), some [.log "stall"]), ((component, "open"), some [.log "opened"])]

/-- An object with these actions, and a graph that calls the first of them. -/
def shop (component : String) : Session where
  supply := .minted
  world := .ofList
    [(⟨1⟩, { name := "Shop", scene := "Main", actions := .ofEdits (stock component) })]
  library :=
    { graphs :=
        [{ name := "ui"
           nodes := [.ofKind ⟨"call"⟩ (.call (some ⟨1⟩) component "open")] }] }

/-- Another object comes, with a target id of its own. -/
def delivery : List Event :=
  [.spawn ⟨2⟩ { name := "Crate", scene := "Main", targetId := some "crate" }]

theorem call_after_bake_shop :
    let baked := ((shop "Shop").bake ⟨0⟩).2
    (shop "Shop").world.contains ⟨1⟩ = true ∧
      ∃ st ∈ (baked.library.get ⟨0⟩).fullSteps,
        ((baked.after delivery).execute st).1 = .ok .applied ∧
        ((baked.after delivery).execute st).2.log = ["opened"] := by
  intro baked
  have hthere : (shop "Shop").world.contains ⟨1⟩ = true := by decide +kernel
  have hnode : ((shop "Shop").library.get ⟨0⟩).nodes[0]? =
      some (.ofKind ⟨"call"⟩ (.call (some ⟨1⟩) "Shop" "open")) := rfl
  rcases call_after_bake hnode rfl (by decide +kernel) (by decide +kernel) (by decide +kernel)
    hthere with ⟨st, target, -, hst, -, hcarries, hresolve, hcall⟩
  -- No object that is there before or after the delivery carries the target id of another.
  have hapart : baked.TellsApart delivery := tellsApart_of_everCarried (by decide +kernel)
  have hstands : (baked.after delivery).targets.resolve? target = some ⟨1⟩ := by
    refine hresolve delivery (by decide +kernel) (by simp [delivery]) ?_ (by decide +kernel)
    intro past hpast id' hid'
    exact hapart past [] hpast List.nil_prefix id' ⟨1⟩ target hid' hcarries
  have htable : ((baked.after delivery).world.get? ⟨1⟩).map SceneObject.actions =
      some (.ofEdits (stock "Shop")) := by
    decide +kernel
  rcases Option.map_eq_some_iff.1 htable with ⟨o, ho, hactions⟩
  have hopen : (latest? (Text.trim "Shop", Text.trim "open") (stock "Shop")).join =
      some [.log "opened"] := by
    decide +kernel
  have hexecute := (hcall (baked.after delivery) o (stock "Shop") hstands ho hactions).1
  rw [hopen] at hexecute
  refine ⟨hthere, st, hst, ?_, ?_⟩
  · rw [hexecute]
    rfl
  · rw [hexecute]
    rfl

/-- The name of the component has a space on either side. The object is there and the only one
    that carries its target id, and the action is defined under the very names that the node
    gives; but the step looks for it under the trimmed name, and does not find it. -/
theorem spaced_action_not_called :
    let baked := ((shop " Shop ").bake ⟨0⟩).2
    ((shop " Shop ").library.get ⟨0⟩).nodes =
        [.ofKind ⟨"call"⟩ (.call (some ⟨1⟩) " Shop " "open")] ∧
      (baked.world.get? ⟨1⟩).map SceneObject.actions = some (.ofEdits (stock " Shop ")) ∧
      latest? (" Shop ", "open") (stock " Shop ") = some (some [.log "opened"]) ∧
      baked.toStage.Unshared ∧
      ((baked.library.get ⟨0⟩).fullSteps.map fun st =>
        (st.targets.map baked.targets.resolve?, (baked.execute st).1)) =
          [([some ⟨1⟩], .error (.unresolvedAction ⟨"call"⟩ "Shop" "open"))] := by
  intro baked
  refine ⟨rfl, by decide +kernel, by decide +kernel, ?_, by decide +kernel⟩
  exact Stage.unshared_of_nodup (by decide +kernel)

end Session

end BehaviorGraph
