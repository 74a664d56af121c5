import BehaviorGraph.Asset.Graph
import BehaviorGraph.Proofs.NameReading
/-!
# Assets Read Back

A graph that was written in one format can be read in another that undoes it.

The encoders and decoders of assets are written against a format, and whether they
undo each other depends on the format only through its shapes: a text that is written
has to be read as that text, a list as that list, and so on. `Format.Undoes` collects
what is needed. Reader and writer may differ, since a notation may be written in one
style and read in another.

Two things are not true of every value. A floating point number may be out of what a
notation can write, so the law of numbers speaks of those that fit. An optional value
is told from a missing one by how it looks, so not every tree may stand for a
present one, and the law is stated for the shapes that assets keep there.

A record is a list of members, and the reader looks every field up in it. For most
records the members are fixed. Those of a node depend on its kind, and what
is left out must read as what it was left out for; `KindMembers.ofKind` says what has to be
found.

## Main definitions

* `Graph.singles`: The floating point numbers in a graph.
* `Format.Undoes`: What one format writes, another reads.
* `Format.KindMembers.ofKind`: What the members of a kind say.

## Theorems

* `Format.Undoes.fields?_ofRecord`: The members of a record are found.
* `Format.Undoes.node?_ofNode`: A written node reads back.
* `Format.Undoes.step?_ofStep`: A written step reads back.
* `Format.Undoes.graph?_ofGraph`: A written graph reads back.
-/

namespace BehaviorGraph

/-! ### The numbers in a graph -/

/-- The floating point numbers that configure a kind of node. -/
def NodeKind.singles : NodeKind → List Single
  | .delay seconds => [seconds]
  | _ => []

/-- The floating point numbers in a node. -/
def Node.singles (n : Node) : List Single :=
  n.position.1 :: n.position.2 :: n.kind.singles

/-- The floating point numbers in a graph. -/
def Graph.singles (g : Graph) : List Single :=
  g.nodes.flatMap Node.singles ++ g.program.flatMap fun s => s.floats.values

namespace Format

variable {V α : Type}

/-! ### Formats that undo each other -/

/-- A present value is told from a missing one. -/
def TellsPresent (r w : Format V) (v : V) : Prop :=
  r.option? (w.ofPresent v) = some (some v)

theorem TellsPresent.optionOf?_ofPresent {r w : Format V} {decode? : V → Option α} {v : V} {x : α}
    (htells : r.TellsPresent w v) (hread : decode? v = some x) :
    r.optionOf? decode? (w.ofPresent v) = some (some x) := by
  have hoption : r.option? (w.ofPresent v) = some (some v) := htells
  simp only [optionOf?, hoption, hread, Option.map_some]

/-- Members that say what is wanted are read so, those that are not set being missing. -/
theorem optional?_of_get? {r w : Format V} {decode? : V → Option α} {encode : α → V} {name : String}
    {ms : OrderedMap String V} {x : Option α}
    (hget : ms.get? name = x.map fun y => w.ofPresent (encode y))
    (hread : ∀ y ∈ x, r.TellsPresent w (encode y) ∧ decode? (encode y) = some y) :
    r.optional? decode? name ms = some x := by
  rcases x with _ | y
  · simp only [optional?, defaulted?, hget, Option.map_none]
  · rcases hread y rfl with ⟨htells, hdecode⟩
    simp only [optional?, defaulted?, hget, Option.map_some, htells.optionOf?_ofPresent hdecode]

/-- What the second format writes the first one reads: texts, names, integers of 32
    bits, floating point numbers that fit, and everything that is made of these. -/
structure Undoes (r w : Format V) (fits : Single → Prop) : Prop where
  /-- Texts read back. -/
  text : ∀ s, r.text? (w.ofText s) = some s
  /-- Integers read back, if their type has at most 32 bits. -/
  integer : ∀ (type : IntegerType) (n : Int), type.width ≤ 32 → type.contains n = true →
    r.integer? type (w.ofInteger n) = some n
  /-- Floating point numbers that fit read back. -/
  single : ∀ x, fits x → r.single? (w.ofSingle x) = some x
  /-- Names read back. -/
  name : ∀ s, r.name? (w.ofName s) = some s
  /-- Pairs read back. -/
  pair : ∀ p, r.pair? (w.ofPair p) = some p
  /-- Lists read back. -/
  list : ∀ vs, r.list? (w.ofList vs) = some vs
  /-- The entries of maps read back. -/
  entries : ∀ es, r.entries? (w.ofEntries es) = some es
  /-- The members of records read back, if each of them is a field. -/
  members : ∀ (typeName : String) (fields : List String) (ms : List (String × V)),
    (∀ m ∈ ms, m.1 ∈ fields) → r.members? typeName fields (w.ofRecord typeName ms) = some ms
  /-- A missing value reads as missing. -/
  missing : r.option? (w.ofOption none) = some none
  /-- A text may stand for a present value. -/
  tells_text : ∀ s, r.TellsPresent w (w.ofText s)
  /-- A name may stand for a present value. -/
  tells_name : ∀ s, r.TellsPresent w (w.ofName s)
  /-- A list may stand for a present value. -/
  tells_list : ∀ vs, r.TellsPresent w (w.ofList vs)
  /-- A number that fits may stand for a present value. -/
  tells_single : ∀ x, fits x → r.TellsPresent w (w.ofSingle x)

/-! ### The members of a node -/

/-- Nothing is said. -/
def KindMembers.unset : KindMembers :=
  ⟨none, none, none, none, none, none, none⟩

/-- What the members of a kind say. -/
def KindMembers.ofKind : NodeKind → KindMembers
  | .click target => { unset with target }
  | .key key => { unset with key }
  | .layers _ names => { unset with layers := some names }
  | .objects _ slots => { unset with slots := some slots }
  | .delay seconds => { unset with seconds := some seconds }
  | .call target component method =>
    { unset with target, component := some component, method := some method }

theorem KindMembers.kind_ofKind (k : NodeKind) : (ofKind k).kind k.type = k := by
  cases k <;> rfl

theorem KindMembers.mem_singles_of_seconds {k : NodeKind} {x : Single}
    (hx : x ∈ (ofKind k).seconds) : x ∈ k.singles := by
  cases k with
  | delay seconds =>
      rw [← Option.some.inj hx]
      exact List.mem_singleton_self _
  | _ => exact absurd hx (Option.not_mem_none x)

/-- The members of a record say what is wanted, each under its name. -/
structure KindMembers.StandsIn (w : Format V) (m : KindMembers) (ms : OrderedMap String V) :
    Prop where
  /-- The object of a click or a call. -/
  target : ms.get? "target" = m.target.map fun o => w.ofPresent (w.ofObjectId o)
  /-- The key of a key trigger. -/
  key : ms.get? "key" = m.key.map fun k => w.ofPresent (w.ofName k.name)
  /-- The names of layers. -/
  layers : ms.get? "layers" = m.layers.map fun names => w.ofPresent (w.ofItems w.ofText names)
  /-- The slots for objects. -/
  slots : ms.get? "targets" = m.slots.map fun slots =>
    w.ofPresent (w.ofItems (fun slot => w.ofOption (slot.map w.ofObjectId)) slots)
  /-- The duration of a delay. -/
  seconds : ms.get? "seconds" = m.seconds.map fun x => w.ofPresent (w.ofSingle x)
  /-- The component of a call. -/
  component : ms.get? "component" = m.component.map fun s => w.ofPresent (w.ofText s)
  /-- The method of a call. -/
  method : ms.get? "method" = m.method.map fun s => w.ofPresent (w.ofText s)

section Members

theorem nodup_nodeFields : nodeFields.Nodup := by
  decide

variable (w : Format V) (n : Node)

/-- The members that a node is written with. -/
def nodeMembers : List (String × V) :=
  [("id", w.ofNodeId n.id),
   ("position", w.ofPair (w.ofSingle n.position.1, w.ofSingle n.position.2)),
   ("displayName", w.ofPresent (w.ofText n.name)), ("type", w.ofName n.type.name)]
    ++ w.ofKind n.kind

theorem names_ofOptional_sublist (name : String) (encode : α → V) (x : Option α) :
    List.Sublist ((w.ofOptional name encode x).map Prod.fst) [name] := by
  rcases x with _ | y
  · exact List.nil_sublist _
  · exact List.Sublist.refl _

/-- The members of a node stand in the order of the fields, some fields left out. -/
theorem names_nodeMembers_sublist :
    List.Sublist ((w.nodeMembers n).map Prod.fst) nodeFields := by
  have hkind : List.Sublist ((w.ofKind n.kind).map Prod.fst) (nodeFields.drop 4) := by
    cases n.kind with
    | click target => exact (w.names_ofOptional_sublist _ _ target).trans (by decide)
    | key key => exact (w.names_ofOptional_sublist _ _ key).trans (by decide)
    | layers | objects | delay => simp [ofKind, nodeFields]
    | call target component method =>
        have htarget := w.names_ofOptional_sublist "target" w.ofObjectId target
        have hothers : ["target", "component", "method"].Sublist (nodeFields.drop 4) := by decide
        rw [ofKind, List.map_append]
        exact (htarget.append_right ["component", "method"]).trans hothers
  rw [nodeMembers, List.map_append]
  exact hkind.append_left _

/-- The members of a node, no two of them under one name. -/
def nodeRecord : OrderedMap String V :=
  ⟨w.nodeMembers n, nodup_nodeFields.sublist (w.names_nodeMembers_sublist n)⟩

/-- Every field is found under its name, and what was left out is not there. -/
theorem standsIn_nodeRecord : (KindMembers.ofKind n.kind).StandsIn w (w.nodeRecord n) := by
  rcases n with ⟨id, name, position, kind⟩
  -- A target or key that is unset is a case of its own, since its member is left out.
  rcases kind with ⟨_ | o⟩ | ⟨_ | k⟩ | _ | _ | _ | ⟨_ | o, component, method⟩
  all_goals
    constructor <;>
    simp [nodeRecord, nodeMembers, KindMembers.ofKind, KindMembers.unset, OrderedMap.get?, ofKind,
      ofOptional]

end Members

namespace Undoes

variable {r w : Format V} {fits : Single → Prop} (h : r.Undoes w fits)

include h

/-! ### Simple values -/

theorem unsigned32?_ofUnsigned32 (n : UInt32) : r.unsigned32? (w.ofUnsigned32 n) = some n := by
  have hrange : IntegerType.unsigned32.contains (n.toNat : Int) = true := by
    have hlt := n.toNat_lt
    simp [IntegerType.contains, IntegerType.unsigned32, IntegerType.limit]
    omega
  rw [unsigned32?, ofUnsigned32, h.integer _ _ (by decide) hrange, Option.map_some,
    Int.toNat_natCast, UInt32.ofNat_toNat]

theorem signed32?_ofSigned32 (n : Int32) : r.signed32? (w.ofSigned32 n) = some n := by
  have hrange : IntegerType.signed32.contains n.toInt = true := by
    have hle := n.le_toInt
    have hlt := n.toInt_lt
    simp [IntegerType.contains, IntegerType.signed32, IntegerType.limit]
    omega
  rw [signed32?, ofSigned32, h.integer _ _ (by decide) hrange, Option.map_some, Int32.ofInt_toInt]

theorem nodeId?_ofNodeId (id : NodeId) : r.nodeId? (w.ofNodeId id) = some id := by
  rw [nodeId?, ofNodeId, h.text, Option.map_some]

theorem objectId?_ofObjectId (o : ObjectId) : r.objectId? (w.ofObjectId o) = some o := by
  rw [objectId?, ofObjectId, h.text, Option.bind_some, ObjectId.ofString?_toString]

theorem nodeType?_ofName (t : NodeType) : r.nodeType? (w.ofName t.name) = some t := by
  rw [nodeType?, h.name, Option.bind_some, NodeType.ofName?_name]

theorem key?_ofName (k : Key) : r.key? (w.ofName k.name) = some k := by
  rw [key?, h.name, Option.bind_some, Key.ofName?_name]

/-! ### Values that are made of others -/

theorem pairOf?_ofPair {decode? : V → Option α} {v v' : V} {x x' : α} (hx : decode? v = some x)
    (hx' : decode? v' = some x') : r.pairOf? decode? (w.ofPair (v, v')) = some (x, x') := by
  simp [pairOf?, h.pair, hx, hx']

theorem items?_ofItems {encode : α → V} {decode? : V → Option α} {xs : List α}
    (hread : ∀ x ∈ xs, decode? (encode x) = some x) :
    r.items? decode? (w.ofItems encode xs) = some xs := by
  rw [items?, ofItems, h.list, Option.bind_some, mapM_map_eq_some hread]

theorem map?_ofMap {encode : α → V} {decode? : V → Option α} {m : OrderedMap String α}
    (hread : ∀ x ∈ m.values, decode? (encode x) = some x) :
    r.map? decode? (w.ofMap encode m) = some m := by
  have hentries : (m.entries.map fun e => (e.1, encode e.2)).mapM
      (fun e => (decode? e.2).map fun x => (e.1, x)) = some m.entries := by
    refine mapM_map_eq_some fun e he => ?_
    rw [hread e.2 (List.mem_map_of_mem he)]
    rfl
  simp [map?, ofMap, h.entries, hentries, OrderedMap.ofList_entries]

/-- A slot for an object, be it empty or not. -/
theorem optionOf?_ofSlot (slot : Option ObjectId) :
    r.optionOf? r.objectId? (w.ofOption (slot.map w.ofObjectId)) = some slot := by
  rcases slot with _ | o
  · simp [optionOf?, h.missing]
  · exact (h.tells_text _).optionOf?_ofPresent (h.objectId?_ofObjectId o)

/-! ### Records -/

/-- The members of a record are found, if they stand in the order of its fields. -/
theorem fields?_ofRecord {typeName : String} {fields : List String} {ms : List (String × V)}
    (hfields : fields.Nodup) (hnames : List.Sublist (ms.map Prod.fst) fields) :
    r.fields? typeName fields (w.ofRecord typeName ms) = some ⟨ms, hfields.sublist hnames⟩ := by
  have hmem : ∀ m ∈ ms, m.1 ∈ fields := fun m hm => hnames.subset (List.mem_map_of_mem hm)
  -- No member is passed over, so those that are known are all.
  have hknown : (ms.filter fun m => m.1 ∈ fields) = ms :=
    List.filter_eq_self.2 fun m hm => decide_eq_true (hmem m hm)
  rw [Format.fields?, h.members _ _ _ hmem, Option.bind_some]
  simp only [hknown, hfields.sublist hnames, ↓reduceDIte]

theorem edge?_ofEdge (c : Edge) : r.edge? (w.ofEdge c) = some c := by
  rw [edge?, ofEdge, h.fields?_ofRecord (by decide) (by simp [edgeFields])]
  simp [required?, defaulted?, OrderedMap.get?, h.nodeId?_ofNodeId, h.unsigned32?_ofUnsigned32]

theorem step?_ofStep {s : Step} (hfits : ∀ x ∈ s.floats.values, fits x) :
    r.step? (w.ofStep s) = some s := by
  have htexts (xs : List String) : r.items? r.text? (w.ofItems w.ofText xs) = some xs :=
    h.items?_ofItems fun x _ => h.text x
  have hstrings : r.map? r.text? (w.ofMap w.ofText s.strings) = some s.strings :=
    h.map?_ofMap fun x _ => h.text x
  have hints : r.map? r.signed32? (w.ofMap w.ofSigned32 s.ints) = some s.ints :=
    h.map?_ofMap fun n _ => h.signed32?_ofSigned32 n
  have hfloats : r.map? r.single? (w.ofMap w.ofSingle s.floats) = some s.floats :=
    h.map?_ofMap fun x hx => h.single x (hfits x hx)
  rw [step?, ofStep, h.fields?_ofRecord (by decide) (by simp [stepFields])]
  simp [required?, defaulted?, OrderedMap.get?, h.nodeType?_ofName, h.nodeId?_ofNodeId, htexts,
    hstrings, hints, hfloats]

/-! ### Nodes -/

theorem kindMembers?_of_standsIn {m : KindMembers} {ms : OrderedMap String V}
    (hms : m.StandsIn w ms) (hfits : ∀ x ∈ m.seconds, fits x) :
    r.kindMembers? ms = some m := by
  have htarget : r.optional? r.objectId? "target" ms = some m.target :=
    optional?_of_get? hms.target fun o _ => ⟨h.tells_text _, h.objectId?_ofObjectId o⟩
  have hkey : r.optional? r.key? "key" ms = some m.key :=
    optional?_of_get? hms.key fun k _ => ⟨h.tells_name _, h.key?_ofName k⟩
  have hlayers : r.optional? (r.items? r.text?) "layers" ms = some m.layers :=
    optional?_of_get? hms.layers fun _ _ =>
      ⟨h.tells_list _, h.items?_ofItems fun name _ => h.text name⟩
  have hslots : r.optional? (r.items? (r.optionOf? r.objectId?)) "targets" ms = some m.slots :=
    optional?_of_get? hms.slots fun _ _ =>
      ⟨h.tells_list _, h.items?_ofItems fun slot _ => h.optionOf?_ofSlot slot⟩
  have hseconds : r.optional? r.single? "seconds" ms = some m.seconds :=
    optional?_of_get? hms.seconds fun x hx =>
      ⟨h.tells_single x (hfits x hx), h.single x (hfits x hx)⟩
  have hcomponent : r.optional? r.text? "component" ms = some m.component :=
    optional?_of_get? hms.component fun s _ => ⟨h.tells_text s, h.text s⟩
  have hmethod : r.optional? r.text? "method" ms = some m.method :=
    optional?_of_get? hms.method fun s _ => ⟨h.tells_text s, h.text s⟩
  simp [kindMembers?, htarget, hkey, hlayers, hslots, hseconds, hcomponent, hmethod]

theorem node?_ofNode {n : Node} (hfits : ∀ x ∈ n.singles, fits x) :
    r.node? (w.ofNode n) = some n := by
  have hkind : ∀ x ∈ (KindMembers.ofKind n.kind).seconds, fits x := by
    intro x hx
    exact hfits x (List.mem_cons_of_mem _ (List.mem_cons_of_mem _
      (KindMembers.mem_singles_of_seconds hx)))
  have hposition : r.pairOf? r.single?
      (w.ofPair (w.ofSingle n.position.1, w.ofSingle n.position.2)) = some n.position :=
    h.pairOf?_ofPair (h.single _ (hfits _ List.mem_cons_self))
      (h.single _ (hfits _ (List.mem_cons_of_mem _ List.mem_cons_self)))
  have hname := (h.tells_text n.name).optionOf?_ofPresent (h.text n.name)
  have hmembers := h.kindMembers?_of_standsIn (w.standsIn_nodeRecord n) hkind
  have hfields : r.fields? "NodeRecord" nodeFields (w.ofNode n) = some (w.nodeRecord n) :=
    h.fields?_ofRecord nodup_nodeFields (w.names_nodeMembers_sublist n)
  simp only [node?, hfields, Option.bind_eq_bind, Option.bind_some, hmembers]
  simp [required?, optional?, defaulted?, OrderedMap.get?, nodeRecord, nodeMembers,
    h.nodeId?_ofNodeId, h.nodeType?_ofName, hposition, hname, Node.type, KindMembers.kind_ofKind]

/-! ### Graphs -/

theorem graph?_ofGraph {g : Graph} (hfits : ∀ x ∈ g.singles, fits x) :
    r.graph? (w.ofGraph g) = some g := by
  have hnodes : r.items? r.node? (w.ofItems w.ofNode g.nodes) = some g.nodes :=
    h.items?_ofItems fun n hn => h.node?_ofNode fun x hx =>
      hfits x (List.mem_append_left _ (List.mem_flatMap.2 ⟨n, hn, hx⟩))
  have hedges : r.items? r.edge? (w.ofItems w.ofEdge g.edges) = some g.edges :=
    h.items?_ofItems fun c _ => h.edge?_ofEdge c
  have hprogram : r.items? r.step? (w.ofItems w.ofStep g.program) = some g.program :=
    h.items?_ofItems fun s hs => h.step?_ofStep fun x hx =>
      hfits x (List.mem_append_right _ (List.mem_flatMap.2 ⟨s, hs, hx⟩))
  rw [graph?, ofGraph, h.fields?_ofRecord (by decide) (by simp [graphFields])]
  simp [required?, defaulted?, OrderedMap.get?, h.text, hnodes, hedges, hprogram]

end Undoes

end Format

end BehaviorGraph
