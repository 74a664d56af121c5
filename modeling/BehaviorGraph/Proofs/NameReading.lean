import BehaviorGraph.Graph.Node
import BehaviorGraph.Proofs.Tagging
import Mathlib.Algebra.BigOperators.Group.List.Basic
import Mathlib.Algebra.Ring.Nat
/-!
# Names Read Back

The names of node types and keys, and the written form of object ids, can be read
again.

Node types and keys are read by looking through the list of all of them for the one
with the name, so it is enough that no two share a name. An object id is written in
groups of hexadecimal digits. It starts with a digit, so neither braces nor the mark of
a resource stand in front of it, and it is longer than the digits alone because of
the hyphens; that leaves the groups, which are joined and split at the same places.

## Theorems

* `NodeType.ofName?_name`, `Key.ofName?_name`: Names of enumerations read back.
* `ofHexDigits_hexDigitsOf`: Hexadecimal digits spell the number they were taken from.
* `ObjectId.splitGroups?_joinGroups`: Groups of digits that were joined can be split.
* `ObjectId.ofString?_toString`: A written object id reads back.
-/

namespace BehaviorGraph

/-- Reading the items that were written, one after the other. -/
theorem mapM_map_eq_some {α β : Type} {write : α → β} {read? : β → Option α} {xs : List α}
    (h : ∀ x ∈ xs, read? (write x) = some x) : (xs.map write).mapM read? = some xs := by
  induction xs with
  | nil => rfl
  | cons x xs ih =>
      have hrest := ih fun y hy => h y (List.mem_cons_of_mem x hy)
      rw [List.map_cons, List.mapM_cons, h x List.mem_cons_self, hrest]
      rfl

/-! ### Enumerations -/

/-- Looking for the name of an element finds it, if no two share a name. -/
theorem find?_name_eq_some {α : Type} {name : α → String} {all : List α}
    (hnames : (all.map name).Nodup) {x : α} (hx : x ∈ all) :
    (all.find? fun y => name y == name x) = some x := by
  induction all with
  | nil => exact absurd hx List.not_mem_nil
  | cons y all ih =>
      rw [List.map_cons, List.nodup_cons] at hnames
      rcases List.mem_cons.1 hx with rfl | htail
      · simp
      · have hne : name y ≠ name x := fun heq =>
          hnames.1 (List.mem_map.2 ⟨x, htail, heq.symm⟩)
        simp [hne, ih hnames.2 htail]

theorem NodeType.ofName?_name (t : NodeType) : NodeType.ofName? t.name = some t :=
  find?_name_eq_some (by decide) t.mem_all

theorem Key.ofName?_name (k : Key) : Key.ofName? k.name = some k :=
  find?_name_eq_some (by decide +kernel) k.mem_all

/-! ### Object ids -/

theorem ofHexDigits_hexDigitsOf (count n : Nat) :
    ofHexDigits (hexDigitsOf count n) = n % 16 ^ count := by
  induction count generalizing n with
  | zero => simp [hexDigitsOf, ofHexDigits, Nat.mod_one]
  | succ count ih =>
      have hlast : ofHexDigits (hexDigitsOf (count + 1) n) =
          ofHexDigits (hexDigitsOf count (n / 16)) * 16 + n % 16 := by
        simp [hexDigitsOf, ofHexDigits]
      rw [hlast, ih, Nat.pow_succ', Nat.mod_mul]
      omega

theorem mapM_ofChar?_toChar (ds : List HexDigit) :
    (ds.map HexDigit.toChar).mapM HexDigit.ofChar? = some ds :=
  mapM_map_eq_some fun d _ => d.ofChar?_toChar

namespace ObjectId

/-- Groups that were joined are split at the same places. -/
theorem splitGroups?_joinGroups {n : Nat} {ns : List Nat} {cs : List Char}
    (h : cs.length = (n :: ns).sum) :
    splitGroups? (n :: ns) (joinGroups (n :: ns) cs) = some cs := by
  induction ns generalizing n cs with
  | nil =>
      have hlength : cs.length = n := by simpa using h
      simp [joinGroups, splitGroups?, hlength]
  | cons m ns ih =>
      have hle : n ≤ cs.length := by
        rw [h, List.sum_cons]
        exact Nat.le_add_right _ _
      have htake : (cs.take n).length = n := List.length_take_of_le hle
      have hrest : (cs.drop n).length = (m :: ns).sum := by
        rw [List.length_drop, h, List.sum_cons, Nat.add_sub_cancel_left]
      simp only [joinGroups, splitGroups?]
      rw [List.drop_left' htake, List.take_left' htake]
      simp only [ih hrest, Option.map_some, List.take_append_drop]

theorem length_joinGroups {n : Nat} {ns : List Nat} {cs : List Char}
    (h : cs.length = (n :: ns).sum) :
    (joinGroups (n :: ns) cs).length = cs.length + ns.length := by
  induction ns generalizing n cs with
  | nil => rfl
  | cons m ns ih =>
      rw [List.sum_cons] at h
      have hrest : (cs.drop n).length = (m :: ns).sum := by
        rw [List.length_drop, h, Nat.add_sub_cancel_left]
      have htake : (cs.take n).length = n := List.length_take_of_le (by omega)
      simp only [joinGroups, List.length_append, List.length_cons, ih hrest, htake,
        List.length_drop]
      omega

theorem ofDigits?_of_value (id : ObjectId) :
    ofDigits? ((hexDigitsOf 32 id.value.toNat).map HexDigit.toChar) = some id := by
  have hvalue : ofHexDigits (hexDigitsOf 32 id.value.toNat) = id.value.toNat := by
    rw [ofHexDigits_hexDigitsOf]
    exact Nat.mod_eq_of_lt id.value.isLt
  rw [ofDigits?, List.length_map, length_hexDigitsOf, if_pos rfl, mapM_ofChar?_toChar,
    Option.map_some, hvalue, BitVec.ofNat_toNat, BitVec.setWidth_eq]

/-- A written id starts with a digit. -/
theorem exists_chars_eq (id : ObjectId) : ∃ (d : HexDigit) (cs : List Char),
    id.chars = d.toChar :: cs := by
  have hlength := length_hexDigitsOf 32 id.value.toNat
  rcases hds : hexDigitsOf 32 id.value.toNat with _ | ⟨d, ds⟩
  · rw [hds] at hlength
    exact absurd hlength (by decide)
  · exact ⟨d, _, by rw [chars, hds]; rfl⟩

/-- Neither braces nor the mark of a resource start with a digit. -/
theorem ofChars?_of_digit {d : HexDigit} {cs : List Char} :
    ofChars? (d.toChar :: cs) =
      (ofDigits? (d.toChar :: cs)).or (ofGroups? (d.toChar :: cs)) := by
  have hbrace : ∀ d : HexDigit, d.toChar ≠ '\x7b' := by decide
  have hmark : ∀ d : HexDigit, Text.foldCase d.toChar ≠ 'u' := by decide
  have hbraces : dropBraces? (d.toChar :: cs) = none := by
    unfold dropBraces?
    split
    · next heq => exact absurd (List.cons.inj heq).1 (hbrace d)
    · rfl
  have hresource : dropResourceMark? (d.toChar :: cs) = none := by
    unfold dropResourceMark?
    rw [if_neg]
    intro heq
    have hhead := congrArg List.head? heq
    rw [show resourceMark.length = 8 + 1 from rfl, List.take_succ_cons, List.map_cons,
      List.head?_cons, show resourceMark.head? = some 'u' from rfl] at hhead
    exact hmark d (Option.some.inj hhead)
  rw [ofChars?, hbraces, hresource]

theorem ofString?_toString (id : ObjectId) : ofString? id.toString = some id := by
  have hlength := length_hexDigitsOf 32 id.value.toNat
  have hsum : ((hexDigitsOf 32 id.value.toNat).map HexDigit.toChar).length = groups.sum := by
    rw [List.length_map, hlength]
    rfl
  -- The hyphens make the id too long to be read as digits alone.
  have hlong : id.chars.length = 36 := by
    rw [chars, groups, length_joinGroups hsum, List.length_map, hlength]
    rfl
  have hdigits : ofDigits? id.chars = none := by
    rw [ofDigits?, hlong]
    rfl
  have hgroups : ofGroups? id.chars = some id := by
    rw [ofGroups?, chars, groups, splitGroups?_joinGroups hsum, Option.bind_some,
      ofDigits?_of_value]
  rcases id.exists_chars_eq with ⟨d, cs, hcs⟩
  rw [ofString?, ObjectId.toString, String.toList_ofList, hcs, ofChars?_of_digit, ← hcs, hdigits,
    hgroups]
  rfl

end ObjectId

end BehaviorGraph
