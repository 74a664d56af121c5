import BehaviorGraph.Proofs.JsonRoundTrip
import Mathlib.Data.List.Forall2
/-!
# Reloading From JSON

Writing a graph in JSON and reading it again gives the same graph exactly if the notation
keeps each of its floating point numbers.

That the notation keeps the numbers is enough was shown for graphs in general. Here is the
converse: whatever graph is written, its text can be parsed, and where the text is read as
a graph that compares equal, every number was kept. The comparison of numbers cannot
tell the zeros apart, but both of them are kept.

The reader turns a number that is too large into an infinity, and the writer puts down an
infinity as null. A position or a parameter that is null is refused when it is read again,
so such a graph does not load. A duration that is null counts as missing, and what is missing
is zero: a delay without end becomes one that takes no time, and nothing reports it.

## Theorems

* `Json.fits_of_same`: A number that is read back as the same number was kept.
* `Json.fits_of_node?`, `Json.fits_of_step?`: So were the numbers of nodes and of steps.
* `Graph.reload_iff`: A graph survives its JSON text exactly if its numbers are kept.
* `Graph.delay_lost_in_reload`: A text with a delay that does not survive.
-/

namespace BehaviorGraph

/-! ### Items that are read back -/

/-- Items that were read one after the other were read each. -/
theorem forall₂_of_mapM_map {α β γ : Type} {write : α → β} {read? : β → Option γ} {xs : List α}
    {ys : List γ} (h : (xs.map write).mapM read? = some ys) :
    List.Forall₂ (fun x y => read? (write x) = some y) xs ys := by
  induction xs generalizing ys with
  | nil =>
      cases h
      exact List.Forall₂.nil
  | cons x xs ih =>
      simp only [List.map_cons, List.mapM_cons, Option.bind_eq_bind, Option.bind_eq_some_iff] at h
      rcases h with ⟨y, hy, ys', hys', heq⟩
      cases heq
      exact List.Forall₂.cons hy (ih hys')

/-- What follows from two relations between the items of two lists. -/
theorem forall_mem_of_forall₂ {α β : Type} {R : α → β → Prop} {S : β → α → Prop} {P : α → Prop}
    (h : ∀ x y, R x y → S y x → P x) {xs : List α} {ys : List β} (hR : List.Forall₂ R xs ys)
    (hS : List.Forall₂ S ys xs) : ∀ x ∈ xs, P x := by
  induction hR with
  | nil => exact List.forall_mem_nil _
  | cons hxy _ ih =>
      cases hS with
      | cons hyx hS => exact List.forall_mem_cons.2 ⟨h _ _ hxy hyx, ih hS⟩

theorem Program.forall₂_of_same {p q : Program} (h : p.same q = true) :
    List.Forall₂ (fun s s' => s.same s' = true) p q := by
  induction p generalizing q with
  | nil =>
      cases q with
      | nil => exact List.Forall₂.nil
      | cons s' q => exact absurd h Bool.false_ne_true
  | cons s p ih =>
      cases q with
      | nil => exact absurd h Bool.false_ne_true
      | cons s' q =>
          rw [Program.same, Bool.and_eq_true] at h
          exact List.Forall₂.cons h.1 (ih h.2)

/-! ### Values that are equal to themselves -/

theorem Single.same_self {x : Single} (hx : x.isFinite = true) : x.same x = true := by
  have hnan : x.isNaN = false := by
    rw [isFinite, decide_eq_true_eq] at hx
    rw [isNaN, decide_eq_false hx, Bool.false_and]
  simp [same, hnan]

theorem Node.same_self {n : Node} (hfinite : ∀ x ∈ n.singles, x.isFinite = true) :
    n.same n = true := by
  have hx := Single.same_self (hfinite _ List.mem_cons_self)
  have hy := Single.same_self (hfinite _ (List.mem_cons_of_mem _ List.mem_cons_self))
  have hkind : n.kind.same n.kind = true := by
    rcases hk : n.kind with _ | _ | _ | _ | x | _
    case delay =>
      have hmem : x ∈ n.singles := by simp [singles, hk, NodeKind.singles]
      exact Single.same_self (hfinite x hmem)
    all_goals exact beq_self_eq_true _
  simp [same, hx, hy, hkind]

theorem OrderedMap.sameBy_self {κ ν : Type} [DecidableEq κ] {same : ν → ν → Bool}
    {m : OrderedMap κ ν} (hsame : ∀ v ∈ m.values, same v v = true) : m.sameBy same m = true := by
  have hentries : ∀ e ∈ m.entries, m.get? e.1 = some e.2 := fun e he => get?_eq_some_iff.2 he
  rw [sameBy, beq_self_eq_true, Bool.true_and, List.all_eq_true]
  intro e he
  rw [hentries e he]
  exact hsame e.2 (List.mem_map_of_mem he)

theorem Program.same_self {p : Program} (hfinite : ∀ s ∈ p, ∀ x ∈ s.floats.values,
    x.isFinite = true) : p.same p = true := by
  induction p with
  | nil => rfl
  | cons s p ih =>
      have htail := ih fun s' hs' => hfinite s' (List.mem_cons_of_mem s hs')
      have hstrings : s.strings.sameBy (· == ·) s.strings = true :=
        OrderedMap.sameBy_self fun _ _ => beq_self_eq_true _
      have hints : s.ints.sameBy (· == ·) s.ints = true :=
        OrderedMap.sameBy_self fun _ _ => beq_self_eq_true _
      have hfloats : s.floats.sameBy Single.same s.floats = true :=
        OrderedMap.sameBy_self fun x hx => Single.same_self (hfinite s List.mem_cons_self x hx)
      simp [same, Step.same, hstrings, hints, hfloats, htail]

/-! ### Numbers -/

theorem Single.eq_zero_of_isZero {x : Single} (hx : x.isZero = true) :
    x = Single.zero false ∨ x = Single.zero true := by
  simp only [isZero, exponentBits, fractionBits, Bool.and_eq_true, decide_eq_true_eq,
    Nat.shiftRight_eq_div_pow, Nat.one_shiftLeft] at hx
  have hlt : x.bits.toNat < 2 ^ 32 := x.bits.toNat_lt
  -- Only the sign bit is left.
  have hbits : x.bits.toNat = 0 ∨ x.bits.toNat = 2 ^ 31 := by omega
  rcases hbits with hbits | hbits
  · have heq : x.bits = (Single.zero false).bits := UInt32.toNat_inj.1 (hbits.trans (by decide))
    exact Or.inl (congrArg Single.mk heq)
  · have heq : x.bits = (Single.zero true).bits := UInt32.toNat_inj.1 (hbits.trans (by decide))
    exact Or.inr (congrArg Single.mk heq)

namespace Json

/-- Both zeros are kept. -/
theorem fits_zero {x : Single} (hx : x.isZero = true) : Fits x := by
  rcases Single.eq_zero_of_isZero hx with rfl | rfl <;>
    exact ⟨by decide +kernel, by decide +kernel⟩

/-- A number that is read back as the same number was kept. -/
theorem fits_of_same {x x' : Single} (hread : format.single? (format.ofSingle x) = some x')
    (hsame : x'.same x = true) : Fits x := by
  have hfinite : x.isFinite = true := by
    by_contra hinfinite
    have hnull : format.ofSingle x = .null := if_neg hinfinite
    rw [hnull] at hread
    exact absurd hread (Option.some_ne_none x').symm
  have hliteral : single? (singleLiteral x) = some x' := by
    have hnumber : format.ofSingle x = .number (singleLiteral x) := ofSingle_of_isFinite hfinite
    rw [hnumber] at hread
    exact hread
  simp only [Single.same, Bool.and_eq_true, Bool.or_eq_true, beq_iff_eq] at hsame
  rcases hsame.2 with rfl | hzero
  · exact ⟨hfinite, hliteral⟩
  · exact fits_zero hzero.2

/-- So was one that may be missing, although a number that was not kept is read as zero. -/
theorem fits_of_optional_same {x : Single} {x' : Option Single}
    (hread : format.optionOf? format.single? (format.ofPresent (format.ofSingle x)) = some x')
    (hsame : (x'.getD (Single.zero false)).same x = true) : Fits x := by
  by_cases hfinite : x.isFinite = true
  · have hnumber : format.ofSingle x = .number (singleLiteral x) := ofSingle_of_isFinite hfinite
    have htells : format.TellsPresent format (format.ofSingle x) := by
      rw [hnumber]
      rfl
    rw [Format.optionOf?, htells] at hread
    rcases Option.map_eq_some_iff.1 hread with ⟨y, hy, rfl⟩
    exact fits_of_same hy hsame
  · -- A number that is not finite counts as missing, and zero is not the same number.
    have hnull : format.ofSingle x = .null := if_neg hfinite
    rw [hnull] at hread
    have hmissing : x' = none := (Option.some.inj hread).symm
    rw [hmissing, Option.getD_none] at hsame
    simp only [Single.same, Bool.and_eq_true, Bool.or_eq_true, beq_iff_eq] at hsame
    rcases hsame.2 with rfl | hzero
    · exact fits_zero (by decide)
    · exact fits_zero hzero.2

/-! ### Nodes and steps -/

/-- The position of a node that was read. -/
theorem fits_of_position {x y : Single} {p : Single × Single}
    (hread : format.pairOf? format.single? (format.ofPair (format.ofSingle x, format.ofSingle y)) =
      some p) (hx : p.1.same x = true) (hy : p.2.same y = true) : Fits x ∧ Fits y := by
  simp only [Format.pairOf?, format_undoes.pair, Option.bind_eq_bind, Option.bind_some,
    Option.bind_eq_some_iff] at hread
  rcases hread with ⟨x', hx', y', hy', heq⟩
  cases heq
  exact ⟨fits_of_same hx' hx, fits_of_same hy' hy⟩

theorem fits_of_node? {n n' : Node} (hread : format.node? (format.ofNode n) = some n')
    (hsame : n'.same n = true) : ∀ x ∈ n.singles, Fits x := by
  have hfields : format.fields? "NodeRecord" Format.nodeFields (format.ofNode n) =
      some (format.nodeRecord n) :=
    format_undoes.fields?_ofRecord Format.nodup_nodeFields (format.names_nodeMembers_sublist n)
  simp only [Format.node?, hfields, Option.bind_eq_bind, Option.bind_some,
    Option.bind_eq_some_iff] at hread
  rcases hread with ⟨id, _, position, hposition, name, _, type, htype, kind, hkind, heq⟩
  cases heq
  simp only [Node.same, Bool.and_eq_true] at hsame
  rcases hsame with ⟨⟨⟨_, hsamex⟩, hsamey⟩, hsamekind⟩
  have hget : (format.nodeRecord n).get? "position" =
      some (format.ofPair (format.ofSingle n.position.1, format.ofSingle n.position.2)) := by
    simp [OrderedMap.get?, Format.nodeRecord, Format.nodeMembers]
  rw [Format.defaulted?, hget] at hposition
  rcases fits_of_position hposition hsamex hsamey with ⟨hx, hy⟩
  refine List.forall_mem_cons.2 ⟨hx, List.forall_mem_cons.2 ⟨hy, ?_⟩⟩
  -- Of the kinds of nodes, a delay alone has a number.
  rcases hk : n.kind with _ | _ | _ | _ | x | _
  case delay =>
    have hget : (format.nodeRecord n).get? "seconds" =
        some (format.ofPresent (format.ofSingle x)) := by
      simp [OrderedMap.get?, Format.nodeRecord, Format.nodeMembers, hk, Format.ofKind]
    have htypeget : (format.nodeRecord n).get? "type" = some (format.ofName n.type.name) := by
      simp [OrderedMap.get?, Format.nodeRecord, Format.nodeMembers]
    have htype : type = .delay := by
      rw [Format.required?, htypeget, Option.bind_some, format_undoes.nodeType?_ofName] at htype
      rw [← Option.some.inj htype, Node.type, hk]
      rfl
    simp only [Format.kindMembers?, Option.bind_eq_bind, Option.bind_eq_some_iff] at hkind
    rcases hkind with ⟨_, _, _, _, _, _, _, _, seconds, hseconds, _, _, _, _, heq⟩
    cases heq
    rw [Format.optional?, Format.defaulted?, hget] at hseconds
    rw [htype, hk] at hsamekind
    exact List.forall_mem_singleton.2 (fits_of_optional_same hseconds hsamekind)
  all_goals exact List.forall_mem_nil _

/-- The numbers of a map that was read. -/
theorem fits_of_map? {m m' : OrderedMap String Single}
    (hread : format.map? format.single? (format.ofMap format.ofSingle m) = some m')
    (hsame : m'.sameBy Single.same m = true) : ∀ x ∈ m.values, Fits x := by
  simp only [Format.map?, Format.ofMap, format_undoes.entries, Option.bind_eq_bind,
    Option.bind_some, Option.bind_eq_some_iff] at hread
  rcases hread with ⟨es, hes, heq⟩
  cases heq
  have hall : List.Forall₂ (fun e d => d.1 = e.1 ∧
      format.single? (format.ofSingle e.2) = some d.2) m.entries es := by
    refine (forall₂_of_mapM_map hes).imp fun e d hd => ?_
    rcases Option.map_eq_some_iff.1 hd with ⟨x', hx', rfl⟩
    exact ⟨rfl, hx'⟩
  -- The keys are read back in their order, so no entry is written over.
  have hkeys : es.map Prod.fst = m.keys := by
    have hfirst : List.Forall₂ (· = ·) (es.map Prod.fst) m.keys := by
      rw [OrderedMap.keys, List.forall₂_map_left_iff, List.forall₂_map_right_iff]
      exact hall.flip.imp fun _ _ hd => hd.1
    rwa [List.forall₂_eq_eq_eq] at hfirst
  have hentries : (OrderedMap.ofList es).entries = es :=
    congrArg OrderedMap.entries (OrderedMap.ofList_entries ⟨es, hkeys ▸ m.nodup⟩)
  have hsames : List.Forall₂ (fun d e => d.2.same e.2 = true) es m.entries := by
    refine List.forall₂_iff_zip.2 ⟨hall.length_eq.symm, fun {d e} hzip => ?_⟩
    have hkey : d.1 = e.1 := (List.forall₂_zip hall.flip hzip).1
    have hget : m.get? d.1 = some e.2 := by
      rw [hkey]
      exact OrderedMap.get?_eq_some_iff.2 (List.of_mem_zip hzip).2
    rw [OrderedMap.sameBy, hentries, Bool.and_eq_true, List.all_eq_true] at hsame
    have hd := hsame.2 d (List.of_mem_zip hzip).1
    rwa [hget] at hd
  intro x hx
  rcases List.mem_map.1 hx with ⟨e, he, rfl⟩
  exact forall_mem_of_forall₂ (fun _ _ hd hdsame => fits_of_same hd.2 hdsame) hall hsames e he

theorem fits_of_step? {s s' : Step} (hread : format.step? (format.ofStep s) = some s')
    (hsame : s'.same s = true) : ∀ x ∈ s.floats.values, Fits x := by
  have hfields : ∃ hnodup, format.fields? "ExecutionStep" Format.stepFields (format.ofStep s) =
      some ⟨_, hnodup⟩ :=
    ⟨_, format_undoes.fields?_ofRecord (by decide) (by simp [Format.stepFields])⟩
  rcases hfields with ⟨hnodup, hfields⟩
  simp only [Format.step?, hfields, Option.bind_eq_bind, Option.bind_some,
    Option.bind_eq_some_iff] at hread
  rcases hread with ⟨type, _, node, _, strings, _, ints, _, floats, hfloats, _, _, _, _, heq⟩
  cases heq
  simp only [Step.same, Bool.and_eq_true] at hsame
  refine fits_of_map? ?_ hsame.1.1.2
  simpa [Format.defaulted?, OrderedMap.get?] using hfloats

end Json

/-! ### Graphs -/

namespace Graph

theorem fromJson_eq_ok_iff {text : String} {g : Graph} :
    Graph.fromJson text = .ok g ↔ (Json.parse? text).bind Json.format.graph? = some g := by
  have hdecode : (Asset.decode? Json.format : Json → Option Graph) = Json.format.graph? := rfl
  rw [fromJson, Asset.fromJson, hdecode]
  rcases (Json.parse? text).bind Json.format.graph? with _ | g' <;> simp

/-- Whatever its numbers, a graph has a text that can be parsed. -/
theorem parse?_toJson (g : Graph) : Json.parse? g.toJson = some (Json.format.ofGraph g) :=
  Json.parse?_render (Json.format_respects.ofGraph fun _ _ => trivial) .lines

theorem fits_of_graph? {g g' : Graph} (hread : Json.format.graph? (Json.format.ofGraph g) = some g')
    (hsame : g'.same g = true) : ∀ x ∈ g.singles, Json.Fits x := by
  have hfields : ∃ hnodup, Json.format.fields? "Graph" Format.graphFields (Json.format.ofGraph g) =
      some ⟨_, hnodup⟩ :=
    ⟨_, Json.format_undoes.fields?_ofRecord (by decide) (by simp [Format.graphFields])⟩
  rcases hfields with ⟨hnodup, hfields⟩
  simp only [Format.graph?, hfields, Option.bind_eq_bind, Option.bind_some,
    Option.bind_eq_some_iff] at hread
  rcases hread with ⟨name, _, nodes, hnodes, edges, _, program, hprogram, heq⟩
  cases heq
  simp only [same, Bool.and_eq_true, beq_iff_eq, List.all_eq_true] at hsame
  rcases hsame with ⟨⟨⟨⟨_, hlength⟩, hzip⟩, _⟩, hsteps⟩
  have hnodes : (g.nodes.map Json.format.ofNode).mapM Json.format.node? = some nodes := by
    simpa [Format.required?, OrderedMap.get?, Format.items?, Format.ofItems,
      Json.format_undoes.list] using hnodes
  have hprogram : (g.program.map Json.format.ofStep).mapM Json.format.step? = some program := by
    simpa [Format.defaulted?, OrderedMap.get?, Format.items?, Format.ofItems,
      Json.format_undoes.list] using hprogram
  have hsamenodes : List.Forall₂ (fun n' n => n'.same n = true) nodes g.nodes :=
    List.forall₂_iff_zip.2 ⟨hlength, fun {n' n} hmem => hzip (n', n) hmem⟩
  refine List.forall_mem_append.2 ⟨fun x hx => ?_, fun x hx => ?_⟩
  · rcases List.mem_flatMap.1 hx with ⟨n, hn, hx⟩
    have hfits : ∀ n ∈ g.nodes, ∀ x ∈ n.singles, Json.Fits x :=
      forall_mem_of_forall₂ (fun _ _ hn hn' => Json.fits_of_node? hn hn')
        (forall₂_of_mapM_map hnodes) hsamenodes
    exact hfits n hn x hx
  · rcases List.mem_flatMap.1 hx with ⟨s, hs, hx⟩
    have hfits : ∀ s ∈ g.program, ∀ x ∈ s.floats.values, Json.Fits x :=
      forall_mem_of_forall₂ (fun _ _ hs hs' => Json.fits_of_step? hs hs')
        (forall₂_of_mapM_map hprogram) (Program.forall₂_of_same hsteps)
    exact hfits s hs x hx

/-- A graph whose numbers are finite is equal to itself. -/
theorem same_self {g : Graph} (hfinite : ∀ x ∈ g.singles, x.isFinite = true) :
    g.same g = true := by
  have hnodes : ∀ n ∈ g.nodes, n.same n = true := fun n hn => Node.same_self fun x hx =>
    hfinite x (List.mem_append_left _ (List.mem_flatMap.2 ⟨n, hn, hx⟩))
  have hpairs : List.Forall₂ (fun n n' => n.same n' = true) g.nodes g.nodes :=
    List.forall₂_same.2 hnodes
  have hzip : ((g.nodes.zip g.nodes).all fun e => e.1.same e.2) = true :=
    List.all_eq_true.2 fun _ he => List.forall₂_zip hpairs he
  have hprogram : g.program.same g.program = true := Program.same_self fun s hs x hx =>
    hfinite x (List.mem_append_right _ (List.mem_flatMap.2 ⟨s, hs, hx⟩))
  simp [same, hzip, hprogram]

/-- A graph is read back from its JSON text as an equal graph exactly if its floating point
    numbers are finite and the literal of each means that number again. -/
theorem reload_iff (g : Graph) :
    (∃ g', Graph.fromJson g.toJson = .ok g' ∧ g'.same g = true) ↔
      ∀ x ∈ g.singles, x.isFinite = true ∧ Json.single? (Json.singleLiteral x) = some x := by
  simp only [fromJson_eq_ok_iff, parse?_toJson, Option.bind_some]
  constructor
  · rintro ⟨g', hread, hsame⟩
    exact fits_of_graph? hread hsame
  · intro hfits
    exact ⟨g, Json.format_undoes.graph?_ofGraph hfits, same_self fun x hx => (hfits x hx).1⟩

/-- A graph that does nothing but wait. -/
def waiting (seconds : Single) : Graph where
  name := "g"
  nodes := [Node.ofKind ⟨"d"⟩ (.delay seconds)]

/-- A duration that is too large is read as an infinity, written as null, and read back as
    zero. -/
theorem delay_lost_in_reload :
    Graph.fromJson
        "\x7b\"name\":\"g\",\"nodes\":[\x7b\"id\":\"d\",\"type\":\"Delay\",\"seconds\":1e39\x7d]\x7d" =
          .ok (waiting (Single.infinity false)) ∧
      Graph.fromJson (waiting (Single.infinity false)).toJson = .ok (waiting (Single.zero false)) ∧
        (waiting (Single.zero false)).same (waiting (Single.infinity false)) = false := by
  refine ⟨by decide +kernel, ?_, by decide +kernel⟩
  rw [fromJson_eq_ok_iff, parse?_toJson]
  decide +kernel

end Graph

end BehaviorGraph
