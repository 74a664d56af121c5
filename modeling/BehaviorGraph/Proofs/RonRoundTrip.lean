import BehaviorGraph.Asset.Text
import BehaviorGraph.Proofs.AssetWriting
import BehaviorGraph.Proofs.RonReading
import BehaviorGraph.Settings
/-!
# Files Survive RON

Graphs and settings that are written in RON are read back as what they were.

RON is the notation of files, and both kinds of files go the same way. A value is encoded as
a tree and the tree written as a text; the text is read as the same tree, since everything
in it can be written and it nests less deep than a text may; and the tree decodes to the
same value, because the format undoes itself. Graphs are written without the names of types
and settings with them. The reader accepts either.

All is kept: texts in all characters, empty slots between others, members that are left
out, the order of lists and of maps, infinities and the sign of a zero. A NaN is the same
as nothing, so a graph with one could not be compared with what is read back.

## Main definitions

* `Ron.Fits`: The notation keeps the floating point number.

## Theorems

* `Ron.format_undoes`: What the format writes it reads, with the names of types or without.
* `Ron.format_respects`: What the format writes has a text.
* `Format.Undoes.settings?_encode`: Written settings read back.
* `fromRon_toRon`: Graphs and settings are read back from their texts.
-/

namespace BehaviorGraph

namespace Ron

/-- The number is one, and its token means the number again. -/
def Fits (x : Single) : Prop :=
  x.isNaN = false ∧ single? (singleToken x) = some x

theorem asEntries?_map (es : List (String × Ron)) :
    asEntries? (.map (es.map fun e => (.text e.1, e.2))) = some es :=
  mapM_map_eq_some fun _ _ => rfl

/-- A record is read whether it carries the name of its type or not. -/
theorem asMembers?_record (typeNames : Bool) (typeName : String) {fields : List String}
    {ms : List (String × Ron)} (hms : ∀ m ∈ ms, m.1 ∈ fields) :
    asMembers? {} typeName fields (.record (if typeNames then some typeName else none) ms) =
      some ms := by
  have hname : acceptsName {} typeName (if typeNames then some typeName else none) = true := by
    cases typeNames with
    | false => rfl
    | true => exact decide_eq_true rfl
  have hfields : (ms.all fun m => m.1 ∈ fields || m.2.isPassable) = true := by
    refine List.all_eq_true.2 fun m hm => ?_
    rw [decide_eq_true (hms m hm), Bool.true_or]
  exact if_pos ⟨hname, hfields⟩

/-- What the format writes it reads. -/
theorem format_undoes (typeNames : Bool) :
    Format.Undoes (format {}) (format { typeNames }) Fits where
  text _ := rfl
  integer _ _ _ hn := integer?_integerToken hn
  single _ hx := hx.2
  name _ := rfl
  pair _ := rfl
  list _ := rfl
  entries := asEntries?_map
  members typeName _ _ hms := asMembers?_record typeNames typeName hms
  missing := rfl
  tells_text _ := rfl
  tells_name _ := rfl
  tells_list _ := rfl
  tells_single _ _ := rfl

theorem isBareName_of_mem_enumerators : ∀ s ∈ Format.enumerators, isBareName s = true := by
  decide +kernel

theorem isWord_of_mem_memberNames : ∀ s ∈ Format.memberNames, isWord s.toList = true := by
  decide

theorem written_map {n : Nat} {es : List (String × Ron)} (hes : ∀ e ∈ es, Written n e.2) :
    Written (n + 2) (.map (es.map fun e => (.text e.1, e.2))) := by
  refine .map (fun e he => ?_) (fun e he => ?_)
  · rcases List.mem_map.1 he with ⟨e', _, rfl⟩
    exact .text e'.1
  · rcases List.mem_map.1 he with ⟨e', he', rfl⟩
    exact hes e' he'

/-- What the format writes has a text. -/
theorem format_respects : Format.Respects (format {}) Fits Written where
  text _ s := .text s
  integer _ n := .number (isNumberToken_integerToken n)
  single _ _ hx := .number (isNumberToken_singleToken hx.1 hx.2)
  name _ s hs := .name (isBareName_of_mem_enumerators s hs)
  pair _ p hfst hsnd := by
    refine .tuple (List.cons_ne_nil _ _) fun v hv => ?_
    rcases List.mem_pair.1 hv with rfl | rfl
    · exact hfst
    · exact hsnd
  list _ _ hvs := .list hvs
  entries _ _ hes := written_map hes
  record _ _ ms hne hnames hms := by
    refine .record hne (fun t ht => absurd ht (Option.not_mem_none t)) (fun m hm => ?_) hms
    exact isWord_of_mem_memberNames m.1 (hnames (List.mem_map_of_mem hm))
  missing _ := .missing
  present _ _ hv := .present hv

/-- Settings have a text, in which the name of their type stands in front. -/
theorem written_settings (c : Settings) :
    Written 4 (Settings.encode (format { typeNames := true }) c) := by
  have hlayers : Written 2 ((format { typeNames := true }).ofItems Ron.text c.layers) := by
    refine .list fun v hv => ?_
    rcases List.mem_map.1 hv with ⟨s, _, rfl⟩
    exact .text s
  have hactions : Written 2 ((format { typeNames := true }).ofMap Ron.text c.cancelActions) := by
    refine written_map fun e he => ?_
    rcases List.mem_map.1 he with ⟨e', _, rfl⟩
    exact .text e'.2
  have htype : ∀ t ∈ some "RuntimeConfig", isBareName t = true := by decide
  have hfields : ∀ s ∈ Settings.fields, isWord s.toList = true := by decide
  refine .record (List.cons_ne_nil _ _) htype (fun m hm => ?_) ?_
  · exact hfields m.1 (List.mem_map_of_mem (f := Prod.fst) hm)
  · exact List.forall_iff_forall_mem.1 ⟨hlayers, hactions, .text c.logFilter⟩

end Ron

/-- Written settings read back. -/
theorem Format.Undoes.settings?_encode {V : Type} {r w : Format V} {fits : Single → Prop}
    (h : r.Undoes w fits) (c : Settings) : Settings.decode? r (Settings.encode w c) = some c := by
  have htexts : r.items? r.text? (w.ofItems w.ofText c.layers) = some c.layers :=
    h.items?_ofItems fun s _ => h.text s
  have hactions : r.map? r.text? (w.ofMap w.ofText c.cancelActions) = some c.cancelActions :=
    h.map?_ofMap fun s _ => h.text s
  rw [Settings.decode?, Settings.encode, h.fields?_ofRecord (by decide) (by simp [Settings.fields])]
  simp [defaulted?, OrderedMap.get?, h.text, htexts, hactions]

/-- Graphs without a NaN and settings are read back from their RON texts, if the tokens of
    the floating point numbers mean these again. -/
theorem fromRon_toRon :
    (∀ g : Graph, (∀ x ∈ g.singles, x.isNaN = false) →
      (∀ x ∈ g.singles, Ron.single? (Ron.singleToken x) = some x) →
        Graph.fromRon g.toRon = .ok g) ∧
      ∀ c : Settings, Settings.fromRon c.toRon = .ok c := by
  refine ⟨fun g hnan htoken => ?_, fun c => ?_⟩
  · have hfits : ∀ x ∈ g.singles, Ron.Fits x := fun x hx => ⟨hnan x hx, htoken x hx⟩
    have hparse : Ron.parse? g.toRon = some ({}, (Ron.format {}).ofGraph g) :=
      Ron.parse?_render (Ron.format_respects.ofGraph hfits) (by decide) .lines
    have hdecode : Asset.decode? (Ron.format {}) ((Ron.format {}).ofGraph g) = some g :=
      (Ron.format_undoes false).graph?_ofGraph hfits
    rw [Graph.fromRon, Asset.fromRon, hparse, Option.bind_some]
    simp only [hdecode]
  · have hparse : Ron.parse? c.toRon =
        some ({}, Settings.encode (Ron.format { typeNames := true }) c) :=
      Ron.parse?_render (Ron.written_settings c) (by decide) .lines
    have hdecode : Settings.decode? (Ron.format {})
        (Settings.encode (Ron.format { typeNames := true }) c) = some c :=
      (Ron.format_undoes true).settings?_encode c
    rw [Settings.fromRon, hparse, Option.bind_some]
    simp only [hdecode]

/-- A graph with the numbers that are hard to write: both infinities, the negative zero, the
    least and the largest. -/
def extremes : Graph where
  name := "\x00 ' \" \\ \u200b \x7b ä"
  nodes :=
    [{ id := ⟨"None"⟩, name := "Some(", kind := .delay (Single.infinity false),
       position := (Single.infinity true, Single.zero true) },
     Node.ofKind ⟨"b"⟩ (.objects .over [none, some (ObjectId.minted 3), none]),
     Node.ofKind ⟨"c"⟩ (.key none)]
  program :=
    [{ type := .delay, node := ⟨"None"⟩, strings := .ofList [("z", ""), ("a", ")")],
       floats := .ofList [("seconds", Single.infinity true), ("", Single.ofDecimal false 1 (-45)),
         ("x", Single.ofDecimal true 34028235 31)] }]

theorem fromRon_toRon_of_extremes :
    (∀ x ∈ extremes.singles, x.isNaN = false) ∧
      (∀ x ∈ extremes.singles, Ron.single? (Ron.singleToken x) = some x) ∧
        Graph.fromRon extremes.toRon = .ok extremes := by
  have hnan : ∀ x ∈ extremes.singles, x.isNaN = false := by decide +kernel
  have htoken : ∀ x ∈ extremes.singles, Ron.single? (Ron.singleToken x) = some x := by
    decide +kernel
  exact ⟨hnan, htoken, fromRon_toRon.1 extremes hnan htoken⟩

end BehaviorGraph
