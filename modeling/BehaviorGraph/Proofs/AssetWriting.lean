import BehaviorGraph.Proofs.AssetReading
/-!
# What Assets Are Written As

A property of trees that every writer of a format respects holds of every asset.

A notation can put down some trees only: a number has to have digits, and a bare name
has to look like one. That the trees of assets are of this sort follows shape by shape.
Names deserve care. Texts, and the keys of maps, are whatever a designer typed, but the
values of enumerations and the members of records are known beforehand, so a property
that looks at names has to admit only these.

A reader may refuse a tree that nests too deep, so the property is one for every level of
nesting. What has no parts is on any level, an optional value is one above what it
holds, and everything else two above its parts. A graph is on the tenth.

## Main definitions

* `Format.enumerators`, `Format.memberNames`: The names that assets are spelled with.
* `Format.Respects`: A property that holds of all that a format writes, level by level.

## Theorems

* `Format.Respects.ofNode`, `Format.Respects.ofStep`: Nodes and steps have the property.
* `Format.Respects.ofGraph`: Graphs have the property.
-/

namespace BehaviorGraph

namespace Format

variable {V α : Type}

/-- The names of the values of enumerations. -/
def enumerators : List String :=
  NodeType.all.map NodeType.name ++ Key.all.map Key.name

theorem typeName_mem_enumerators (t : NodeType) : t.name ∈ enumerators :=
  List.mem_append_left _ (List.mem_map_of_mem t.mem_all)

theorem keyName_mem_enumerators (k : Key) : k.name ∈ enumerators :=
  List.mem_append_right _ (List.mem_map_of_mem k.mem_all)

/-- The names of the members of records. -/
def memberNames : List String :=
  nodeFields ++ edgeFields ++ stepFields ++ graphFields

theorem nodeFields_subset_memberNames : nodeFields ⊆ memberNames := by
  decide

theorem edgeFields_subset_memberNames : edgeFields ⊆ memberNames := by
  decide

theorem stepFields_subset_memberNames : stepFields ⊆ memberNames := by
  decide

theorem graphFields_subset_memberNames : graphFields ⊆ memberNames := by
  decide

/-- A property of trees of every level holds of what a format writes, as long as it holds of
    the parts and the floating point numbers fit. -/
structure Respects (w : Format V) (fits : Single → Prop) (P : Nat → V → Prop) : Prop where
  /-- Texts have the property. -/
  text : ∀ k s, P k (w.ofText s)
  /-- Integers have the property. -/
  integer : ∀ k n, P k (w.ofInteger n)
  /-- Floating point numbers that fit have the property. -/
  single : ∀ k x, fits x → P k (w.ofSingle x)
  /-- Values of enumerations have the property. -/
  name : ∀ k, ∀ s ∈ enumerators, P k (w.ofName s)
  /-- Pairs have the property. -/
  pair : ∀ k p, P k p.1 → P k p.2 → P (k + 2) (w.ofPair p)
  /-- Lists have the property. -/
  list : ∀ k vs, (∀ v ∈ vs, P k v) → P (k + 2) (w.ofList vs)
  /-- Maps have the property. -/
  entries : ∀ k es, (∀ e ∈ es, P k e.2) → P (k + 2) (w.ofEntries es)
  /-- Records have the property, if they have a member. -/
  record : ∀ (k : Nat) (typeName : String) (ms : List (String × V)), ms ≠ [] →
    ms.map Prod.fst ⊆ memberNames → (∀ m ∈ ms, P k m.2) → P (k + 2) (w.ofRecord typeName ms)
  /-- The missing value has the property. -/
  missing : ∀ k, P k (w.ofOption none)
  /-- Present values have the property. -/
  present : ∀ k v, P k v → P (k + 1) (w.ofPresent v)

namespace Respects

variable {w : Format V} {fits : Single → Prop} {P : Nat → V → Prop} (h : w.Respects fits P)
  {k : Nat}

include h

theorem ofItems {encode : α → V} {xs : List α} (hxs : ∀ x ∈ xs, P k (encode x)) :
    P (k + 2) (w.ofItems encode xs) := by
  refine h.list k _ fun v hv => ?_
  rcases List.mem_map.1 hv with ⟨x, hx, rfl⟩
  exact hxs x hx

theorem ofTexts (xs : List String) : P (k + 2) (w.ofItems w.ofText xs) :=
  h.ofItems fun x _ => h.text k x

theorem ofMap {encode : α → V} {m : OrderedMap String α} (hm : ∀ x ∈ m.values, P k (encode x)) :
    P (k + 2) (w.ofMap encode m) := by
  refine h.entries k _ fun e he => ?_
  rcases List.mem_map.1 he with ⟨entry, hentry, rfl⟩
  exact hm entry.2 (List.mem_map_of_mem hentry)

theorem ofSlot (slot : Option ObjectId) : P (k + 1) (w.ofOption (slot.map w.ofObjectId)) := by
  rcases slot with _ | o
  · exact h.missing (k + 1)
  · exact h.present k _ (h.text k _)

theorem ofOptional {name : String} {encode : α → V} {x : Option α}
    (hx : ∀ y ∈ x, P k (encode y)) : ∀ m ∈ w.ofOptional name encode x, P (k + 1) m.2 := by
  rcases x with _ | y
  · exact List.forall_mem_nil _
  · exact List.forall_mem_singleton.2 (h.present k _ (hx y rfl))

/-- The members that only some nodes have. -/
theorem ofKind {n : NodeKind} (hfits : ∀ x ∈ n.singles, fits x) :
    ∀ m ∈ w.ofKind n, P (k + 4) m.2 := by
  cases n with
  | click target => exact h.ofOptional fun o _ => h.text (k + 3) o.toString
  | key key => exact h.ofOptional fun key _ => h.name (k + 3) _ (keyName_mem_enumerators key)
  | layers s names => exact List.forall_mem_singleton.2 (h.present (k + 3) _ (h.ofTexts names))
  | objects s slots =>
      refine List.forall_mem_singleton.2 (h.present (k + 3) _ ?_)
      exact h.ofItems fun slot _ => h.ofSlot slot
  | delay seconds =>
      have hseconds := hfits seconds (List.mem_singleton_self seconds)
      exact List.forall_mem_singleton.2 (h.present (k + 3) _ (h.single (k + 3) seconds hseconds))
  | call target component method =>
      refine List.forall_mem_append.2
        ⟨h.ofOptional fun o _ => h.text (k + 3) o.toString, ?_⟩
      refine List.forall_iff_forall_mem.1 ?_
      exact ⟨h.present (k + 3) _ (h.text (k + 3) component),
        h.present (k + 3) _ (h.text (k + 3) method)⟩

theorem ofNode {n : Node} (hfits : ∀ x ∈ n.singles, fits x) : P (k + 6) (w.ofNode n) := by
  have hnames : (w.nodeMembers n).map Prod.fst ⊆ memberNames :=
    List.Subset.trans (w.names_nodeMembers_sublist n).subset nodeFields_subset_memberNames
  have hx : fits n.position.1 := hfits _ List.mem_cons_self
  have hy : fits n.position.2 := hfits _ (List.mem_cons_of_mem _ List.mem_cons_self)
  have hposition : P (k + 4) (w.ofPair (w.ofSingle n.position.1, w.ofSingle n.position.2)) :=
    h.pair (k + 2) _ (h.single (k + 2) _ hx) (h.single (k + 2) _ hy)
  have hkind : ∀ m ∈ w.ofKind n.kind, P (k + 4) m.2 := h.ofKind fun x hx =>
    hfits x (List.mem_cons_of_mem _ (List.mem_cons_of_mem _ hx))
  refine h.record (k + 4) "NodeRecord" _ (List.cons_ne_nil _ _) hnames
    (List.forall_mem_append.2 ⟨?_, hkind⟩)
  refine List.forall_iff_forall_mem.1 ?_
  exact ⟨h.text _ _, hposition, h.present (k + 3) _ (h.text (k + 3) _),
    h.name _ _ (typeName_mem_enumerators n.type)⟩

theorem ofEdge (c : Edge) : P (k + 2) (w.ofEdge c) := by
  refine h.record k "Connection" _ (List.cons_ne_nil _ _) edgeFields_subset_memberNames
    (List.forall_iff_forall_mem.1 ?_)
  exact ⟨h.text k _, h.text k _, h.integer k _, h.integer k _⟩

theorem ofStep {s : Step} (hfits : ∀ x ∈ s.floats.values, fits x) : P (k + 4) (w.ofStep s) := by
  refine h.record (k + 2) "ExecutionStep" _ (List.cons_ne_nil _ _) stepFields_subset_memberNames
    (List.forall_iff_forall_mem.1 ?_)
  exact ⟨h.name _ _ (typeName_mem_enumerators s.type), h.text _ _, h.ofMap fun x _ => h.text k x,
    h.ofMap fun n _ => h.integer k _, h.ofMap fun x hx => h.single k x (hfits x hx), h.ofTexts _,
    h.ofTexts _⟩

theorem ofGraph {g : Graph} (hfits : ∀ x ∈ g.singles, fits x) : P 10 (w.ofGraph g) := by
  have hnodes : P 8 (w.ofItems w.ofNode g.nodes) := h.ofItems fun n hn => h.ofNode fun x hx =>
    hfits x (List.mem_append_left _ (List.mem_flatMap.2 ⟨n, hn, hx⟩))
  have hedges : P 8 (w.ofItems w.ofEdge g.edges) := h.ofItems fun c _ => h.ofEdge c
  have hprogram : P 8 (w.ofItems w.ofStep g.program) := h.ofItems fun s hs => h.ofStep fun x hx =>
    hfits x (List.mem_append_right _ (List.mem_flatMap.2 ⟨s, hs, hx⟩))
  refine h.record 8 "Graph" _ (List.cons_ne_nil _ _) graphFields_subset_memberNames
    (List.forall_iff_forall_mem.1 ?_)
  exact ⟨h.text 8 _, hnodes, hedges, hprogram⟩

end Respects

end Format

end BehaviorGraph
