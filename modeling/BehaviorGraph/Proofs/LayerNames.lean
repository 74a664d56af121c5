import BehaviorGraph.Bake.Basic
import BehaviorGraph.Scene.Layers
import Mathlib.Data.List.DropRight
/-!
# Layer Names

A step carries the layer names of its node trimmed, and without the blank ones.
Whoever reads a layer name trims it again, and a blank name names no layer, so
nothing is lost: switching the names of a step switches what switching the
names of the node does, and finds as many layers with groups.

Trimming twice is trimming once because the first character that is left is no
space, and the pass from the other end cannot move it.

What a name means, its key, is a name for itself. If layers are declared this takes more than
that: the key is a declared name, which nobody trimmed. But it agrees with a trimmed name up to
letter case, and no letter is a space, so there is nothing to trim from it either.

## Theorems

* `Text.trim_trim`: Trimming is idempotent.
* `Text.trim_of_sameName`: A name that agrees with a trimmed one up to letter case is trimmed.
* `Layers.parse?_trim`, `Layers.parse?_of_isBlank`: How names are read.
* `Layers.parse?_of_parse?`: The key that a name means is a name for itself.
* `Layers.switch_layerNames`: The names of a step do what the names of its node
  do.
-/

namespace BehaviorGraph

namespace Text

/-- Trimming as one pass from each end. -/
theorem trimList_eq_rdropWhile (cs : List Char) :
    trimList cs = (cs.dropWhile isSpace).rdropWhile isSpace :=
  rfl

/-- A text that does not start with a space starts with the same character when
    its end is trimmed. -/
theorem rdropWhile_isSpace_cons {c : Char} (h : isSpace c = false) (cs : List Char) :
    (c :: cs).rdropWhile isSpace = c :: cs.rdropWhile isSpace := by
  -- Characters are dropped from the end, so the induction takes them from there.
  induction cs using List.reverseRecOn with
  | nil => simp [List.rdropWhile_singleton, h]
  | append_singleton cs d ih =>
      rw [← List.cons_append]
      by_cases hd : isSpace d = true
      · rw [List.rdropWhile_concat_pos _ _ _ hd, List.rdropWhile_concat_pos _ _ _ hd, ih]
      · rw [List.rdropWhile_concat_neg _ _ _ hd, List.rdropWhile_concat_neg _ _ _ hd]
        rfl

theorem trimList_trimList (cs : List Char) : trimList (trimList cs) = trimList cs := by
  simp only [trimList_eq_rdropWhile]
  rcases dropWhile_isSpace_cases cs with hnil | ⟨c, rest, heq, hc⟩
  · rw [hnil]
    simp
  · -- The second pass from the front meets the character that stopped the first one.
    have hfirst : (c :: rest.rdropWhile isSpace).dropWhile isSpace =
        c :: rest.rdropWhile isSpace := by
      simp [hc]
    rw [heq, rdropWhile_isSpace_cons hc, hfirst, ← rdropWhile_isSpace_cons hc,
      List.rdropWhile_idempotent]

@[simp]
theorem trim_trim (s : String) : trim (trim s) = trim s := by
  simp only [trim, String.toList_ofList]
  rw [trimList_trimList]

theorem isBlank_trim (s : String) : isBlank (trim s) = isBlank s := by
  rw [Bool.eq_iff_iff, isBlank_iff_trim_eq_empty, isBlank_iff_trim_eq_empty, trim_trim]

theorem trimList_sublist (cs : List Char) : (trimList cs).Sublist cs := by
  rw [trimList_eq_rdropWhile]
  exact (List.rdropWhile_prefix _ _).sublist.trans (List.dropWhile_sublist _)

/-! ### Letter case -/

/-- Neither the letters `A` to `Z` nor what they are folded to are spaces. -/
theorem isSpace_comp_foldCase : isSpace ∘ foldCase = isSpace := by
  have hletters : ∀ n < 91, 65 ≤ n →
      isSpace (Char.ofNat n) = false ∧ isSpace (Char.ofNat (n + 32)) = false := by
    decide
  funext c
  rw [Function.comp_apply, foldCase]
  split
  · next h =>
      have hlow : 65 ≤ c.toNat := h.1
      have hhigh : c.toNat ≤ 90 := h.2
      rcases hletters c.toNat (by omega) hlow with ⟨hself, hfold⟩
      rw [Char.ofNat_toNat] at hself
      rw [hself, hfold]
  · rfl

theorem trimList_map_foldCase (cs : List Char) :
    trimList (cs.map foldCase) = (trimList cs).map foldCase := by
  simp only [trimList, List.dropWhile_map, ← List.map_reverse, isSpace_comp_foldCase]

theorem isBlank_of_sameName {a b : String} (h : sameName a b = true) : isBlank a = isBlank b := by
  have hfolded : ∀ s : String, isBlank s = (s.toList.map foldCase).all isSpace := by
    intro s
    rw [List.all_map, isSpace_comp_foldCase]
    rfl
  rw [hfolded, hfolded, (sameName_iff a b).1 h]

/-- A name that agrees with a trimmed one up to letter case is trimmed. -/
theorem trim_of_sameName {a b : String} (h : sameName a b = true) (hb : trim b = b) :
    trim a = a := by
  have hb' : trimList b.toList = b.toList := by
    simpa [trim] using congrArg String.toList hb
  -- Trimming takes nothing off the folded name, and so nothing off the name.
  have hfolded : (trimList a.toList).map foldCase = a.toList.map foldCase := by
    rw [← trimList_map_foldCase, (sameName_iff a b).1 h, trimList_map_foldCase, hb']
  have hlength : (trimList a.toList).length = a.toList.length := by
    simpa using congrArg List.length hfolded
  rw [trim, (trimList_sublist a.toList).eq_of_length hlength, String.ofList_toList]

/-- Names that agree up to letter case agree with the same names. -/
theorem sameName_congr {a b : String} (h : sameName a b = true) (name : String) :
    sameName a name = sameName b name ∧ sameName name a = sameName name b := by
  simp only [sameName, (sameName_iff a b).1 h, and_self]

end Text

namespace Layers

variable (l : Layers)

theorem parse?_trim (name : String) : l.parse? (Text.trim name) = l.parse? name := by
  simp only [parse?, Text.trim_trim]

theorem parse?_of_isBlank {name : String} (h : Text.isBlank name = true) :
    l.parse? name = none := by
  have hblank : Text.isBlank (Text.trim name) = true := by
    rw [Text.isBlank_trim]
    exact h
  simp [parse?, hblank]

/-- The key that a name means is a name for itself. -/
theorem parse?_of_parse? {name key : String} (h : l.parse? name = some key) :
    l.parse? key = some key := by
  unfold parse? at h
  simp only at h
  split at h
  · exact absurd h (by simp)
  · next hmeans =>
      split at h
      · -- Without declared layers the key is the trimmed name.
        next hopen =>
          rw [Option.some.injEq] at h
          subst h
          simp [parse?, hmeans, hopen]
      · -- Otherwise the same declared name is the first to agree with name and key.
        next hclosed =>
          have hsame : Text.sameName key (Text.trim name) = true :=
            List.find?_some (p := fun declared => Text.sameName declared (Text.trim name)) h
          have htrim : Text.trim key = key := Text.trim_of_sameName hsame (Text.trim_trim name)
          have hagree : (fun declared => Text.sameName declared key) =
              fun declared => Text.sameName declared (Text.trim name) :=
            funext fun declared => (Text.sameName_congr hsame declared).2
          have hfirst :
              l.declared.find? (fun declared => Text.sameName declared key) = some key := by
            rw [hagree]
            exact h
          simp [parse?, htrim, Text.isBlank_of_sameName hsame,
            (Text.sameName_congr hsame noneName).1, hmeans, hclosed, hfirst]

theorem members_trim (name : String) : l.members (Text.trim name) = l.members name := by
  simp only [members, parse?_trim]

theorem members_of_isBlank {name : String} (h : Text.isBlank name = true) :
    l.members name = [] := by
  simp only [members, l.parse?_of_isBlank h]

theorem setVisible_trim (name : String) : l.setVisible (Text.trim name) = l.setVisible name := by
  funext visible w
  simp only [setVisible, members_trim]

theorem isVisible_trim (w : World) (name : String) :
    l.isVisible w (Text.trim name) = l.isVisible w name := by
  simp only [isVisible, members_trim]

/-- A blank name switches nothing, and is not counted. -/
theorem setVisible_of_isBlank {name : String} (h : Text.isBlank name = true) (visible : Bool)
    (w : World) : l.setVisible name visible w = (false, w) := by
  simp only [setVisible, l.members_of_isBlank h]
  rfl

theorem layerNames_cons (name : String) (names : List String) :
    Node.layerNames (name :: names) =
      if Text.isBlank name then Node.layerNames names
      else Text.trim name :: Node.layerNames names := by
  by_cases h : Text.isBlank name = true
  · simp [Node.layerNames, Text.isBlank_trim, h]
  · simp [Node.layerNames, Text.isBlank_trim, h]

theorem setVisibleAll_layerNames (visible : Bool) (names : List String) (w : World) :
    l.setVisibleAll visible (Node.layerNames names) w = l.setVisibleAll visible names w := by
  induction names generalizing w with
  | nil => rfl
  | cons name names ih =>
      rw [layerNames_cons]
      split
      · next h => simp only [setVisibleAll, l.setVisible_of_isBlank h, ih, Bool.toNat_false,
          Nat.add_zero]
      · simp only [setVisibleAll, setVisible_trim, ih]

theorem toggle_layerNames (names : List String) (w : World) :
    l.toggle (Node.layerNames names) w = l.toggle names w := by
  induction names generalizing w with
  | nil => rfl
  | cons name names ih =>
      rw [layerNames_cons]
      split
      · next h => simp only [toggle, l.setVisible_of_isBlank h, ih, Bool.toNat_false,
          Nat.add_zero]
      · simp only [toggle, setVisible_trim, isVisible_trim, ih]

theorem switch_layerNames (s : Switch) (names : List String) (w : World) :
    l.switch s (Node.layerNames names) w = l.switch s names w := by
  rcases s with _ | _ | _
  · exact l.setVisibleAll_layerNames true names w
  · exact l.setVisibleAll_layerNames false names w
  · exact l.toggle_layerNames names w

end Layers

end BehaviorGraph
