import BehaviorGraph.Proofs.NodeOutcomes
/-!
# What a Node Asks Its Host

The references of a node, told once by the node and once by its step.

Authoring tools ask a node which objects it refers to, and the compiler asks a host about objects,
and both go by the type of the node on their own. They have to agree, or else a tool shows other
references than those that a program carries. What the compiler asks shows if the host is made
to write down each call and its own answer, which changes nothing else. It is asked about
the references of the node, each as often as it is listed and in this order, and the step carries
what it answered, but for the objects that do not exist. Only then, and only if the node is a click
with a target, does it hear of a click trigger.

The host may answer as it likes. It keeps a state, so it need not answer the same the next time
that it is asked about an object, and `answers` tells what it says to one question after the other.

## Main definitions

* `HostCall`: A call of a host, with its answer.
* `BakeContext.recording`: A host that writes down how it is called.
* `BakeContext.answers`: What a host says about some objects, one after the other.
* `Node.clickCalls`, `Node.calls`: The calls that a node makes.

## Theorems

* `BakeContext.slotIds_eq`: The target ids of some slots are answers about their objects.
* `BakeContext.slotIds_recording`, `Node.ask_recording`: What is written down for some slots, and
  for a node.
* `Node.compile_recording`: What is written down when a node is compiled.
* `Node.calls_agree`: The calls, the references and the step.
-/

namespace BehaviorGraph

/-- A call of a host. -/
inductive HostCall where
  /-- It was asked for the target id of an object, and gave this answer. -/
  | asked (id : ObjectId) (answer : Option String)
  /-- It was to have clicks on the object start runs from the node. -/
  | wired (id : ObjectId) (node : NodeId)
deriving DecidableEq

namespace BakeContext

variable {σ : Type} (context : BakeContext σ)

/-- The same host, which also writes down how it is called and what it answers. -/
def recording : BakeContext (σ × List HostCall) where
  targetId id t :=
    let (answer, s) := context.targetId id t.1
    (answer, s, t.2 ++ [.asked id answer])
  bindClick id node t := (context.bindClick id node t.1, t.2 ++ [.wired id node])

/-- What a host answers if it is asked about some objects, one after the other. -/
def answers : List ObjectId → σ → List (Option String)
  | [], _ => []
  | id :: ids, s => (context.targetId id s).1 :: answers ids (context.targetId id s).2

theorem length_answers (ids : List ObjectId) (s : σ) :
    (context.answers ids s).length = ids.length := by
  induction ids generalizing s with
  | nil => rfl
  | cons id ids ih => exact congrArg (· + 1) (ih _)

theorem slotIds_cons (id : ObjectId) (slots : List (Option ObjectId)) (s : σ) :
    context.slotIds (some id :: slots) s =
      ((context.targetId id s).1.toList ++ (context.slotIds slots (context.targetId id s).2).1,
        (context.slotIds slots (context.targetId id s).2).2) :=
  rfl

theorem targetId_recording (id : ObjectId) (s : σ) (calls : List HostCall) :
    context.recording.targetId id (s, calls) =
      ((context.targetId id s).1, (context.targetId id s).2,
        calls ++ [.asked id (context.targetId id s).1]) :=
  rfl

/-- The target ids of some slots are the answers about their objects, the missing ones left out. -/
theorem slotIds_eq (slots : List (Option ObjectId)) (s : σ) :
    (context.slotIds slots s).1 =
      (context.answers (slots.filterMap fun slot => slot) s).filterMap fun answer => answer := by
  induction slots generalizing s with
  | nil => rfl
  | cons slot slots ih =>
      cases slot with
      | none => exact ih s
      | some id =>
          rw [slotIds_cons, ih, List.filterMap_cons]
          cases hanswer : (context.targetId id s).1 <;> simp [answers, hanswer]

/-- For some slots a host writes down that it was asked about their objects. -/
theorem slotIds_recording (slots : List (Option ObjectId)) (s : σ) (calls : List HostCall) :
    context.recording.slotIds slots (s, calls) =
      ((context.slotIds slots s).1, (context.slotIds slots s).2,
        calls ++ List.zipWith .asked (slots.filterMap fun slot => slot)
          (context.answers (slots.filterMap fun slot => slot) s)) := by
  induction slots generalizing s calls with
  | nil => simp [slotIds]
  | cons slot slots ih =>
      cases slot with
      | none => exact ih s calls
      | some id =>
          -- The call about this slot is written down first, and the others follow it.
          rw [slotIds_cons, targetId_recording, ih, slotIds_cons, List.filterMap_cons]
          simp only [answers, List.zipWith_cons_cons, List.append_assoc, List.singleton_append]

end BakeContext

namespace Node

variable {σ : Type} (context : BakeContext σ)

/-- The call by which a click node with a target has clicks start runs. -/
def clickCalls (n : Node) : List HostCall :=
  match n.kind with
  | .click (some id) => [.wired id n.id]
  | _ => []

/-- The calls that the references of a node and its type ask for. -/
def calls (n : Node) (s : σ) : List HostCall :=
  List.zipWith .asked n.kind.referents (context.answers n.kind.referents s) ++ n.clickCalls

theorem attach_recording (n : Node) (s : σ) (calls : List HostCall) :
    n.attach context.recording (s, calls) = (n.attach context s, calls ++ n.clickCalls) := by
  unfold attach clickCalls
  cases n.kind with
  | click target =>
      cases target with
      | none => simp
      | some id => rfl
  | _ => simp

theorem ask_recording (n : Node) (s : σ) (calls : List HostCall) :
    n.ask context.recording (s, calls) =
      ((n.ask context s).1, (n.ask context s).2, calls ++ n.calls context s) := by
  simp only [ask, context.slotIds_recording, attach_recording, filterMap_slots]
  rw [Node.calls, List.append_assoc]

/-- The target ids that a node asks for are the answers about its references, the missing ones
    left out. -/
theorem targets_ask (n : Node) (s : σ) :
    (n.ask context s).1 =
      (context.answers n.kind.referents s).filterMap fun answer => answer := by
  rw [← filterMap_slots, ← context.slotIds_eq]
  rfl

/-- Compiling against a host that writes down how it is called gives the same step and leaves the
    host as it would be left otherwise. -/
theorem compile_recording (n : Node) (s : σ) (calls : List HostCall) :
    n.compile context.recording (s, calls) =
      ((n.compile context s).1, (n.compile context s).2,
        calls ++ if n.takesPart then n.calls context s else []) := by
  rw [compile_eq, compile_eq, ask_recording]
  cases n.takesPart
  · simp only [Bool.false_eq_true, ↓reduceIte, List.append_nil]
  · rfl

/-- Whatever a node is compiled against, and whatever that answers. If there is a step, the calls
    are one for each reference of the node, in order and with repetitions, and after them one for
    the click trigger, if it is a click with a target, and no others; and the target ids of the
    step are the answers to the first, in order, those left out that are none. If there is no step
    then nothing is called, and this is so exactly for a blank id and for a call whose method is
    blank. Writing down the calls makes no difference to the step and to the host. -/
theorem calls_agree {σ : Type} (context : BakeContext σ) (n : Node) (s : σ) :
    let recorded := n.compile context.recording (s, [])
    let calls := recorded.2.2
    let answers := context.answers n.kind.referents s
    recorded.1 = (n.compile context s).1 ∧ recorded.2.1 = (n.compile context s).2 ∧
      (recorded.1 = none ↔ n.id.isBlank = true ∨
        ∃ target component method,
          n.kind = .call target component method ∧ Text.isBlank method = true) ∧
      match recorded.1 with
      | none => calls = []
      | some st =>
        answers.length = n.kind.referents.length ∧
          calls = List.zipWith .asked n.kind.referents answers ++
            (match n.kind with
            | .click (some id) => [.wired id n.id]
            | _ => []) ∧
          st.targets = answers.filterMap fun answer => answer := by
  intro recorded calls answers
  have hrecorded : recorded = _ := n.compile_recording context s []
  refine ⟨by rw [hrecorded], by rw [hrecorded], ?_, ?_⟩
  · rw [hrecorded, compile_eq_none_iff, takesPart_eq_false_iff]
  · have hcalls : calls = _ := congrArg (fun r => r.2.2) hrecorded
    have hstep : recorded.1 = _ := congrArg Prod.fst hrecorded
    rw [List.nil_append] at hcalls
    rw [compile_eq] at hstep
    rcases hpart : n.takesPart with _ | _
    · simp only [hpart, Bool.false_eq_true, ↓reduceIte] at hcalls hstep
      rw [hstep]
      exact hcalls
    · simp only [hpart, ↓reduceIte] at hcalls hstep
      rw [hstep]
      exact ⟨context.length_answers _ _, hcalls, (n.targets_step _).trans (n.targets_ask context s)⟩

/-- A host that finds an object only every other time it is asked. -/
example :
    let fickle : BakeContext Nat :=
      { targetId := fun _ count => (if count % 2 = 0 then some "here" else none, count + 1)
        bindClick := fun _ _ count => count }
    let n := ofKind ⟨"hide"⟩ (.objects .off [some ⟨1⟩, none, some ⟨1⟩, some ⟨2⟩])
    let recorded := n.compile fickle.recording (0, [])
    recorded.1.map Step.targets = some ["here", "here"] ∧
      recorded.2.2 = [.asked ⟨1⟩ (some "here"), .asked ⟨1⟩ none, .asked ⟨2⟩ (some "here")] := by
  decide +kernel

end Node

end BehaviorGraph
