import BehaviorGraph.Proofs.Toggling
/-!
# Declared Layers

Which of the declared layers can be used under their own names.

A session that declares layers knows no others. A declared name is kept as it was given, unless
it is blank, and a name that is looked for is trimmed before it is compared. So there is only one
kind of declared name under which nothing is found: one with spaces around it that has no
trimmed form among the others, up to letter case. Other declared names are found, be it that a
spelling which was declared earlier is found in their place. And a name under which a layer is
found is good for everything else: an object that names it becomes a group of the layer and
is shown with it.

## Theorems

* `Layers.parse?_eq_find?`: Reading a name where layers are declared.
* `Layers.isSome_parse?_iff`: The declared names that are found.
* `Layers.mem_members_joinFor`, `Layers.isActive_setVisible`: Joining a layer, and showing it.
* `Layers.declared_usable_iff`: The declared names that can be used.
* `Layers.spaced_layer_not_found`: One that cannot.
-/

namespace BehaviorGraph

namespace Layers

variable {l : Layers} {names : List String} {d : String}

/-! ### Reading declared names -/

theorem mem_declared_declare {e : String} :
    e ∈ (declare names).declared ↔ e ∈ names ∧ Text.isBlank e = false := by
  simp [declare, List.mem_filter]

/-- Where some layers are declared, a name means the first of them that it agrees with when it
    is trimmed, unless it is blank or says that there is none. -/
theorem parse?_eq_find? (hdeclared : l.declared ≠ []) (hblank : Text.isBlank d = false)
    (hnone : Text.sameName (Text.trim d) noneName = false) :
    l.parse? d = l.declared.find? fun e => Text.sameName e (Text.trim d) := by
  have hempty : l.declared.isEmpty = false := by
    rwa [← Bool.not_eq_true, List.isEmpty_iff]
  simp only [parse?, Text.isBlank_trim, hblank, hnone, hempty, Bool.or_self, Bool.false_eq_true,
    ↓reduceIte]

section Declared

variable (hl : l.declared = (declare names).declared) (hd : d ∈ names)
  (hblank : Text.isBlank d = false) (hnone : Text.sameName (Text.trim d) noneName = false)
include hl hd hblank hnone

theorem parse?_of_declared :
    l.parse? d = (declare names).declared.find? fun e => Text.sameName e (Text.trim d) := by
  rw [← hl]
  apply parse?_eq_find? _ hblank hnone
  -- The name itself is among those that are declared.
  rw [hl]
  exact List.ne_nil_of_mem (mem_declared_declare.2 ⟨hd, hblank⟩)

/-- A declared name is found exactly if some declared name agrees with its trimmed form. -/
theorem isSome_parse?_iff :
    (l.parse? d).isSome = true ↔ ∃ e ∈ names, Text.sameName e (Text.trim d) = true := by
  rw [parse?_of_declared hl hd hblank hnone, List.find?_isSome]
  constructor
  · rintro ⟨e, he, hsame⟩
    exact ⟨e, (mem_declared_declare.1 he).1, hsame⟩
  · rintro ⟨e, he, hsame⟩
    -- What agrees with a name that is not blank is not blank either.
    refine ⟨e, mem_declared_declare.2 ⟨he, ?_⟩, hsame⟩
    rw [Text.isBlank_of_sameName hsame, Text.isBlank_trim, hblank]

/-- What is found is a declared name that agrees with the trimmed form. -/
theorem of_parse?_declared {key : String} (hkey : l.parse? d = some key) :
    key ∈ names ∧ Text.sameName key (Text.trim d) = true := by
  rw [parse?_of_declared hl hd hblank hnone] at hkey
  have hmem := mem_declared_declare.1 (List.mem_of_find?_eq_some hkey)
  have hsame := List.find?_some (p := fun e => Text.sameName e (Text.trim d)) hkey
  exact ⟨hmem.1, hsame⟩

end Declared

/-! ### Joining and showing -/

/-- An object that names a layer becomes a group of it exactly if there is such a layer. -/
theorem mem_members_joinFor {id : ObjectId} {o : SceneObject} (ho : o.layerGroup = some d) :
    id ∈ (l.joinFor id o).2.members d ↔ (l.parse? d).isSome = true := by
  rw [mem_members_iff, parse?_congr (declared_joinFor id o l), Option.isSome_iff_exists]
  constructor
  · rintro ⟨key, hkey, -⟩
    exact ⟨key, hkey⟩
  · rintro ⟨key, hkey⟩
    refine ⟨key, hkey, ?_⟩
    have hgrouped : l.grouped key [(id, o)] = [id] := by simp [grouped, ho, hkey]
    rw [groupsOf_joinFor, hgrouped, List.mem_append, mem_unseen, List.mem_singleton]
    by_cases hmem : id ∈ l.groupsOf key
    · exact Or.inl hmem
    · exact Or.inr ⟨rfl, hmem⟩

/-- A group of a layer that exists is active once the layer is shown. -/
theorem isActive_setVisible {id : ObjectId} (hid : id ∈ l.members d) {w : World}
    (hthere : w.contains id = true) :
    (l.setVisible d true w).1 = true ∧ (l.setVisible d true w).2.isActive id = true := by
  have hshown : l.setVisible d true w =
      (!(l.members d).isEmpty, w.setActiveAll (l.members d) true) := by rw [setVisible]
  rw [hshown]
  constructor
  · simpa using List.ne_nil_of_mem hid
  · rw [(World.sets_setActiveAll (l.members d) true).isActive w id, if_pos hid, hthere]
    rfl

/-- Take the layers of a session that declares some names, in whatever state their groups are, and
    a declared name that is not blank and does not say that there is none. A layer is found under
    it exactly if some declared name agrees with its trimmed form up to letter case, so in
    particular if it is trimmed. What is found is then a declared name that does. And exactly
    in this case an object that names it becomes a group, and is active when it is there and
    the name is shown. -/
theorem declared_usable_iff {l : Layers} {names : List String} {d : String}
    (hl : l.declared = (declare names).declared) (hd : d ∈ names)
    (hblank : Text.isBlank d = false)
    (hnone : Text.sameName (Text.trim d) noneName = false) :
    let found := ∃ key, l.parse? d = some key
    (found ↔ ∃ e ∈ names, Text.sameName e (Text.trim d) = true) ∧
    (Text.trim d = d → found) ∧
    (∀ key, l.parse? d = some key →
      key ∈ names ∧ Text.trim key = key ∧ Text.sameName key (Text.trim d) = true) ∧
    ∀ id o, o.layerGroup = some d →
      let l' := (l.joinFor id o).2
      (id ∈ l'.members d ↔ found) ∧
      (found → ∀ w : World, w.contains id = true →
        (l'.setVisible d true w).1 = true ∧ (l'.setVisible d true w).2.isActive id = true) := by
  intro found
  have hfound : found ↔ ∃ e ∈ names, Text.sameName e (Text.trim d) = true := by
    rw [← isSome_parse?_iff hl hd hblank hnone, Option.isSome_iff_exists]
  refine ⟨hfound, fun htrim => ?_, fun key hkey => ?_, fun id o ho => ?_⟩
  · rw [hfound, htrim]
    exact ⟨d, hd, Text.sameName_refl d⟩
  · rcases of_parse?_declared hl hd hblank hnone hkey with ⟨hmem, hsame⟩
    exact ⟨hmem, Text.trim_of_sameName hsame (Text.trim_trim d), hsame⟩
  · intro l'
    have hjoins : id ∈ l'.members d ↔ found := by
      rw [mem_members_joinFor ho, Option.isSome_iff_exists]
    exact ⟨hjoins, fun hkey w hthere => isActive_setVisible (hjoins.2 hkey) hthere⟩

/-- Two spellings of one name, the first of them with a space before it. -/
def spellings : List String :=
  [" menu", "MENU"]

theorem declared_usable_spellings :
    " menu" ∈ spellings ∧ Text.isBlank " menu" = false ∧
      Text.sameName (Text.trim " menu") noneName = false ∧
      (declare spellings).parse? " menu" = some "MENU" := by
  have hmem : " menu" ∈ spellings := List.mem_cons_self
  have hblank : Text.isBlank " menu" = false := by decide +kernel
  have hnone : Text.sameName (Text.trim " menu") noneName = false := by decide +kernel
  rcases declared_usable_iff (l := declare spellings) rfl hmem hblank hnone with
    ⟨hfound, -, hkeys, -⟩
  rcases hfound.2 ⟨"MENU", by decide, by decide +kernel⟩ with ⟨key, hkey⟩
  refine ⟨hmem, hblank, hnone, ?_⟩
  -- Of the two spellings only one is trimmed.
  rcases hkeys key hkey with ⟨hdeclared, htrim, -⟩
  simp only [spellings, List.mem_cons, List.not_mem_nil, or_false] at hdeclared
  rcases hdeclared with rfl | rfl
  · exact absurd htrim (by decide +kernel)
  · exact hkey

/-- With spaces around it a declared name is not found, and cannot be used. -/
theorem spaced_layer_not_found :
    let l := declare [" Menu "]
    let bag : SceneObject := { name := "Bag", scene := "Main", layerGroup := some " Menu " }
    " Menu " ∈ l.declared ∧ Text.isBlank " Menu " = false ∧
      Text.sameName (Text.trim " Menu ") noneName = false ∧
      l.parse? " Menu " = none ∧ (l.joinFor ⟨1⟩ bag).1 = false ∧
      ∀ w, ((l.joinFor ⟨1⟩ bag).2.setVisible " Menu " true w).1 = false := by
  intro l bag
  refine ⟨by decide +kernel, by decide +kernel, by decide +kernel, by decide +kernel,
    by decide +kernel, fun w => ?_⟩
  have hnobody : (l.joinFor ⟨1⟩ bag).2.members " Menu " = [] := by decide +kernel
  rw [setVisible, hnobody]
  rfl

end Layers

end BehaviorGraph
