import BehaviorGraph.Asset.Text
import BehaviorGraph.Proofs.AssetWriting
import BehaviorGraph.Proofs.JsonNumbers
import BehaviorGraph.Proofs.JsonReading
/-!
# Assets Survive JSON

A graph that is written in JSON is read back as the same graph.

The way is there and back through trees. A graph is encoded as a tree and the tree
written as a text; the text is read as the same tree, because all literals in it can be
written, and the tree decoded to the same graph, because the format undoes itself.

The notation loses some floating point numbers. It has no infinities and writes null for
them, and the reader rounds twice, so a number fits only if it is finite and its literal
means that number again. Everything else is kept, the order of lists and of parameters
included: texts in all characters, slots that are empty, nodes whose target or key is
unset.

## Main definitions

* `Json.Fits`: The notation keeps the floating point number.

## Theorems

* `Json.format_undoes`: What the format writes it reads.
* `Json.format_respects`: What the format writes has a text.
* `Graph.fromJson_toJson`: A graph is read back from its JSON text.
-/

namespace BehaviorGraph

namespace Json

/-- The number is finite, and its literal means the number again. -/
def Fits (x : Single) : Prop :=
  x.isFinite = true ∧ single? (singleLiteral x) = some x

theorem ofSingle_of_isFinite {x : Single} (hx : x.isFinite = true) :
    ofSingle x = .number (singleLiteral x) :=
  if_pos hx

theorem asInteger?_intLiteral {type : IntegerType} {n : Int} (hwidth : type.width ≤ 32)
    (hn : type.contains n = true) : asInteger? type (.number (intLiteral n)) = some n := by
  have hlimit : type.limit ≤ 1 <<< 32 := by
    rw [IntegerType.limit, Nat.one_shiftLeft, Nat.one_shiftLeft]
    refine Nat.pow_le_pow_right (by decide) ?_
    split <;> omega
  have hrange : n.natAbs < 1 <<< 63 := by
    rw [IntegerType.contains, Bool.and_eq_true, decide_eq_true_eq] at hn
    have hlow : -(type.limit : Int) ≤ n := by
      rcases hsigned : type.signed with _ | _
      · have hnonneg : 0 ≤ n := by simpa [hsigned] using hn.1
        omega
      · simpa [hsigned] using hn.1
    omega
  rw [asInteger?, integer?_intLiteral hrange, Option.filter_some, if_pos hn]

theorem asEntries?_ofEntries (es : List (String × Json)) :
    asEntries? (ofEntries es) = some es := by
  refine mapM_map_eq_some fun e _ => ?_
  rw [text?_ofText]
  rfl

/-- What the format writes it reads. -/
theorem format_undoes : Format.Undoes format format Fits where
  text := text?_ofText
  integer _ _ hwidth hn := asInteger?_intLiteral hwidth hn
  single x hx := by
    rw [format]
    simp only [ofSingle_of_isFinite hx.1]
    exact hx.2
  name := text?_ofText
  pair _ := rfl
  list _ := rfl
  entries := asEntries?_ofEntries
  members _ _ ms _ := asEntries?_ofEntries ms
  missing := rfl
  tells_text _ := rfl
  tells_name _ := rfl
  tells_list _ := rfl
  tells_single x hx := by
    have hnumber : format.ofSingle x = .number (singleLiteral x) := ofSingle_of_isFinite hx.1
    rw [hnumber]
    rfl

theorem written_ofEntries {es : List (String × Json)} (hes : ∀ e ∈ es, Written e.2) :
    Written (ofEntries es) := by
  refine .object (fun m hm => ?_) (fun m hm => ?_)
  · rcases List.mem_map.1 hm with ⟨e, _, rfl⟩
    exact isWritten_ofText e.1
  · rcases List.mem_map.1 hm with ⟨e, he, rfl⟩
    exact hes e he

theorem written_ofSingle (x : Single) : Written (ofSingle x) := by
  rw [ofSingle]
  split
  · exact .number (isWritten_singleLiteral x)
  · exact .null

/-- What the format writes has a text, be the numbers in it kept or not. -/
theorem format_respects {fits : Single → Prop} :
    Format.Respects format fits fun _ => Written where
  text _ s := .string (isWritten_ofText s)
  integer _ n := .number (isWritten_intLiteral n)
  single _ x _ := written_ofSingle x
  name _ s _ := .string (isWritten_ofText s)
  pair _ p hfst hsnd := by
    refine .array fun v hv => ?_
    rcases List.mem_pair.1 hv with rfl | rfl
    · exact hfst
    · exact hsnd
  list _ _ hvs := .array hvs
  entries _ _ hes := written_ofEntries hes
  record _ _ _ _ _ hms := written_ofEntries hms
  missing _ := .null
  present _ _ hv := hv

end Json

/-- A graph is read back from its JSON text, if its floating point numbers are finite and
    the literal of each means that number again. -/
theorem Graph.fromJson_toJson (g : Graph) (hfinite : ∀ x ∈ g.singles, x.isFinite = true)
    (hliteral : ∀ x ∈ g.singles, Json.single? (Json.singleLiteral x) = some x) :
    Graph.fromJson g.toJson = .ok g := by
  have hfits : ∀ x ∈ g.singles, Json.Fits x := fun x hx => ⟨hfinite x hx, hliteral x hx⟩
  have hparse : Json.parse? g.toJson = some (Json.format.ofGraph g) :=
    Json.parse?_render (Json.format_respects.ofGraph hfits) .lines
  have hdecode : Json.format.graph? (Json.format.ofGraph g) = some g :=
    Json.format_undoes.graph?_ofGraph hfits
  have hread : (Json.parse? g.toJson).bind (Asset.decode? Json.format) = some g := by
    rw [hparse, Option.bind_some]
    exact hdecode
  rw [fromJson, Asset.fromJson, hread]

/-- A graph with much that a notation could lose: empty lists and unset members, empty slots
    between others, characters that have to be escaped, a negative zero, and parameters that
    are not in the order of their names. -/
def gallery : Graph where
  name := "Größe \"\\\n\x07 🚪"
  nodes :=
    [{ id := ⟨"a"⟩, name := "", kind := .click none,
       position := (Single.zero true, Single.ofInt (-16777216)) },
     Node.ofKind ⟨""⟩ (.key (some .escape)),
     Node.ofKind ⟨"a"⟩ (.layers .over []),
     Node.ofKind ⟨"b"⟩ (.objects .on [none, some (ObjectId.minted 7), none]),
     Node.ofKind ⟨"c"⟩ (.delay (Single.ofDecimal true 15 (-8))),
     Node.ofKind ⟨"d"⟩ (.call (some (ObjectId.minted 8)) "Door" "")]
  edges := [{ source := ⟨"a"⟩, target := ⟨"gone"⟩, sourcePin := 4294967295 }]
  program :=
    [{ type := .delay, node := ⟨"c"⟩, strings := .ofList [("z", "null"), ("a", "/")],
       ints := .ofList [("n", -2147483648), ("m", 2147483647)],
       floats := .ofList [("seconds", Single.ofDecimal false 34028235 31), ("", Single.zero false)],
       layers := ["HUD", ""] }]

theorem fromJson_toJson_of_gallery :
    (∀ x ∈ gallery.singles, x.isFinite = true) ∧
      (∀ x ∈ gallery.singles, Json.single? (Json.singleLiteral x) = some x) ∧
      Graph.fromJson gallery.toJson = .ok gallery := by
  have hfinite : ∀ x ∈ gallery.singles, x.isFinite = true := by decide +kernel
  have hliteral : ∀ x ∈ gallery.singles, Json.single? (Json.singleLiteral x) = some x := by
    decide +kernel
  exact ⟨hfinite, hliteral, gallery.fromJson_toJson hfinite hliteral⟩

end BehaviorGraph
