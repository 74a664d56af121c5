import BehaviorGraph.Proofs.Fates
import BehaviorGraph.Proofs.FlagWrites
import BehaviorGraph.Proofs.LayerNames
import BehaviorGraph.Proofs.Registries
import Mathlib.Algebra.Ring.Parity
/-!
# Toggling Layers

What becomes of layers that are toggled, each as often as it is named.

A layer is toggled as a whole. It counts as visible as soon as one of its groups is active, and
then all of its groups are hidden; otherwise all are shown. So toggling loses something: of a
layer with active and inactive groups it leaves no trace of which were which, and toggling it
again does not bring that back. What it keeps is one bit, whether the layer was visible, and each
time that bit is turned over. Names differ in spaces and letter case and mean the same
layer all the same, so what counts is how many of the names mean it.

This takes that the groups are there, for a layer of missing objects never becomes visible, and
that no object is a group of two layers, for then either would be toggled with the other.

## Main definitions

* `Layers.toggleOne`: The world after one layer was toggled.
* `Layers.Settled`: Groups are there and belong to one layer each.

## Theorems

* `Layers.isVisible_of_parse?`: A layer is visible under each of its names or under none.
* `Layers.isActive_toggleOne`: What toggling one layer does to all.
* `Layers.isActive_toggle`: What toggling some layers does to one.
* `Layers.toggle_by_parity`: All of this together.
-/

namespace BehaviorGraph

namespace World

/-- An object is its flag and all the rest of it. -/
theorem get?_congr {w w' : World} (h : w'.awake = w.awake) {id : ObjectId}
    (hactive : w'.isActive id = w.isActive id) : w'.get? id = w.get? id := by
  have hsplit : ∀ w : World,
      w.get? id = (w.awake.get? id).map fun o => { o with active := w.isActive id } := by
    intro w
    have hwhole := congrArg (OrderedMap.get? · id) w.awake_mapValues_isActive
    rw [OrderedMap.get?_mapValues] at hwhole
    exact hwhole.symm
  rw [hsplit w', hsplit w, h, hactive]

end World

namespace Layers

variable {l : Layers} {w : World}

/-! ### Names of one layer -/

theorem members_of_parse? {name key : String} (h : l.parse? name = some key) :
    l.members name = l.groupsOf key := by
  rw [members_eq, h]
  rfl

/-- A layer is visible under each of its names or under none, its key being one. -/
theorem isVisible_of_parse? {name key : String} (h : l.parse? name = some key) :
    l.isVisible w name = l.isVisible w key := by
  rw [isVisible, isVisible, members_of_parse? h, members_of_parse? (l.parse?_of_parse? h)]

theorem mem_members_iff {name : String} {id : ObjectId} :
    id ∈ l.members name ↔ ∃ key, l.parse? name = some key ∧ id ∈ l.groupsOf key := by
  rw [members_eq]
  cases l.parse? name <;> simp

/-- A group belongs to an entry of the map of groups. -/
theorem exists_entry_of_mem_groupsOf {key : String} {id : ObjectId} (h : id ∈ l.groupsOf key) :
    ∃ e ∈ l.groups.entries, e.1 = key ∧ id ∈ e.2 := by
  rcases hget : l.groups.get? key with _ | ids
  · simp [groupsOf, hget] at h
  · rw [groupsOf, hget] at h
    exact ⟨(key, ids), OrderedMap.get?_eq_some_iff.1 hget, rfl, h⟩

/-! ### One layer -/

/-- The world after the layer of a name was toggled. -/
def toggleOne (l : Layers) (name : String) (w : World) : World :=
  w.setActiveAll (l.members name) (!l.isVisible w name)

theorem toggle_cons (name : String) (names : List String) (w : World) :
    (l.toggle (name :: names) w).2 = (l.toggle names (l.toggleOne name w)).2 := by
  simp only [toggle, toggleOne, setVisible]

/-- All groups are there, and none belongs to two layers. -/
structure Settled (l : Layers) (w : World) : Prop where
  /-- The groups exist. -/
  live : ∀ key, ∀ id ∈ l.groupsOf key, w.contains id = true
  /-- An object is a group of one layer at most. -/
  apart : ∀ key key' id, id ∈ l.groupsOf key → id ∈ l.groupsOf key' → key = key'

/-- Keys are no more than the entries of the map of groups, so that is where to look. -/
theorem Settled.of_entries (hlive : ∀ e ∈ l.groups.entries, ∀ id ∈ e.2, w.contains id = true)
    (hapart : ∀ e ∈ l.groups.entries, ∀ e' ∈ l.groups.entries, ∀ id ∈ e.2, id ∈ e'.2 →
      e.1 = e'.1) : l.Settled w where
  live key id hid := by
    rcases exists_entry_of_mem_groupsOf hid with ⟨e, he, -, hmem⟩
    exact hlive e he id hmem
  apart key key' id hid hid' := by
    rcases exists_entry_of_mem_groupsOf hid with ⟨e, he, rfl, hmem⟩
    rcases exists_entry_of_mem_groupsOf hid' with ⟨e', he', rfl, hmem'⟩
    exact hapart e he e' he' id hmem hmem'

theorem awake_toggleOne (name : String) : (l.toggleOne name w).awake = w.awake := by
  rw [toggleOne, World.awake_setActiveAll]

theorem Settled.toggleOne (h : l.Settled w) (name : String) : l.Settled (l.toggleOne name w) where
  live key id hid := by
    rw [World.contains_congr (awake_toggleOne name)]
    exact h.live key id hid
  apart := h.apart

/-- Toggling one layer gives all of its groups one flag, and leaves the groups of other layers
    alone. -/
theorem isActive_toggleOne (h : l.Settled w) {name key : String} {id : ObjectId}
    (hid : id ∈ l.groupsOf key) :
    (l.toggleOne name w).isActive id =
      if l.parse? name = some key then !l.isVisible w key else w.isActive id := by
  rw [toggleOne, (World.sets_setActiveAll (l.members name) (!l.isVisible w name)).isActive w id]
  by_cases hname : l.parse? name = some key
  · rw [if_pos hname, if_pos (members_of_parse? hname ▸ hid), h.live key id hid, Bool.true_and,
      isVisible_of_parse? hname]
  · -- A group of the layer that was toggled instead would be one of two layers.
    rw [if_neg hname, if_neg]
    intro hmem
    rcases mem_members_iff.1 hmem with ⟨key', hname', hid'⟩
    rw [h.apart key' key id hid' hid] at hname'
    exact hname hname'

/-- A layer that is toggled and has groups is visible afterwards if it was not, and the
    other way round; what is visible of other layers does not change. -/
theorem isVisible_toggleOne (h : l.Settled w) {name key : String}
    (hkey : l.parse? key = some key) (hgroups : l.groupsOf key ≠ []) :
    l.isVisible (l.toggleOne name w) key =
      if l.parse? name = some key then !l.isVisible w key else l.isVisible w key := by
  have hany : ∀ w' : World, l.isVisible w' key = (l.groupsOf key).any w'.isActive := by
    intro w'
    rw [isVisible, members_of_parse? hkey]
  rw [hany (l.toggleOne name w)]
  by_cases hname : l.parse? name = some key
  · -- One flag for all groups, of which there is at least one.
    have hsame : ∀ id ∈ l.groupsOf key,
        (l.toggleOne name w).isActive id = !l.isVisible w key := by
      intro id hid
      rw [isActive_toggleOne h hid, if_pos hname]
    rcases List.exists_mem_of_ne_nil _ hgroups with ⟨first, hfirst⟩
    rw [if_pos hname, Bool.eq_iff_iff, List.any_eq_true]
    constructor
    · rintro ⟨id, hid, hactive⟩
      rwa [hsame id hid] at hactive
    · intro hvisible
      exact ⟨first, hfirst, by rw [hsame first hfirst, hvisible]⟩
  · -- Each group keeps its flag, so one is active after if and only if it was before.
    have hsame : ∀ id ∈ l.groupsOf key, (l.toggleOne name w).isActive id = w.isActive id := by
      intro id hid
      rw [isActive_toggleOne h hid, if_neg hname]
    rw [if_neg hname, hany w, Bool.eq_iff_iff, List.any_eq_true, List.any_eq_true]
    exact exists_congr fun id => and_congr_right fun hid => by rw [hsame id hid]

/-! ### Some layers -/

/-- How many of the names mean the layer with a key. -/
def mentions (l : Layers) (key : String) (names : List String) : Nat :=
  names.countP fun name => l.parse? name = some key

/-- The groups of a layer that is not named keep their flags. Those of one that is named all have
    the same flag in the end, which is turned over with each mention. -/
theorem isActive_toggle (h : l.Settled w) {key : String} {id : ObjectId}
    (hid : id ∈ l.groupsOf key) (names : List String) :
    (l.toggle names w).2.isActive id =
      if l.mentions key names = 0 then w.isActive id
      else (l.isVisible w key ^^ decide (Odd (l.mentions key names))) := by
  -- The later names find the world that the first of them left, so this is about any world.
  induction names generalizing w with
  | nil => rfl
  | cons name names ih =>
      rw [toggle_cons, ih (h.toggleOne name), isActive_toggleOne h hid]
      by_cases hname : l.parse? name = some key
      · have hcount : l.mentions key (name :: names) = l.mentions key names + 1 := by
          simp [mentions, hname]
        have hvisible : l.isVisible (l.toggleOne name w) key = !l.isVisible w key := by
          rw [isVisible_toggleOne h (l.parse?_of_parse? hname) (List.ne_nil_of_mem hid),
            if_pos hname]
        rw [if_pos hname, hcount, hvisible, if_neg (Nat.succ_ne_zero _)]
        -- Without a later mention the layer was turned over once.
        by_cases hlater : l.mentions key names = 0
        · simp [hlater]
        · have hodd : decide (Odd (l.mentions key names + 1)) =
              !decide (Odd (l.mentions key names)) := by
            rw [← decide_not, decide_eq_decide]
            exact Nat.odd_add_one
          rw [if_neg hlater, hodd, Bool.not_xor, Bool.xor_not]
      · have hcount : l.mentions key (name :: names) = l.mentions key names := by
          simp [mentions, hname]
        rw [if_neg hname, hcount]
        by_cases hlater : l.mentions key names = 0
        · rw [if_pos hlater, if_pos hlater]
        · -- Some later name means the layer, so its key is a name.
          rw [if_neg hlater, if_neg hlater]
          rcases List.countP_pos_iff.1 (Nat.pos_of_ne_zero hlater) with ⟨later, -, hmeans⟩
          have hkey : l.parse? key = some key := l.parse?_of_parse? (by simpa using hmeans)
          rw [isVisible_toggleOne h hkey (List.ne_nil_of_mem hid), if_neg hname]

/-- Objects outside the layers that are named stay as they are. -/
theorem get?_toggle {names : List String} {id : ObjectId}
    (h : ∀ name ∈ names, id ∉ l.members name) : (l.toggle names w).2.get? id = w.get? id := by
  refine World.get?_congr (l.awake_toggle names w) ((l.confined_toggle names).frame w id ?_)
  rw [List.mem_flatMap]
  rintro ⟨name, hname, hid⟩
  exact h name hname hid

/-- Toggling some layers, where all groups are there and none belongs to two layers. The number
    that comes back is that of the names whose layer has a group. The groups of a layer that no
    name means stay as they are; those of a layer that is meant an odd number of times all end with
    the opposite of what the layer was, visible or not; and those of one that is meant an
    even number of times all end with what it was, though they need not have begun so. Nothing
    but active flags changes, and nothing of objects outside the layers that are named. -/
theorem toggle_by_parity (l : Layers) (w : World) (names : List String)
    (hlive : ∀ key, ∀ id ∈ l.groupsOf key, w.contains id = true)
    (hapart : ∀ key key' id, id ∈ l.groupsOf key → id ∈ l.groupsOf key' → key = key') :
    let w' := (l.toggle names w).2
    (l.toggle names w).1 = names.countP (fun name => !(l.members name).isEmpty) ∧
      (∀ key,
        let n := names.countP fun name => l.parse? name = some key
        (n = 0 → ∀ id ∈ l.groupsOf key, w'.get? id = w.get? id) ∧
          (Odd n → ∀ id ∈ l.groupsOf key, w'.isActive id = !l.isVisible w key) ∧
          (0 < n → Even n → ∀ id ∈ l.groupsOf key, w'.isActive id = l.isVisible w key)) ∧
      w'.awake = w.awake ∧
      ∀ id, (∀ name ∈ names, id ∉ l.members name) → w'.get? id = w.get? id := by
  intro w'
  have hsettled : l.Settled w := ⟨hlive, hapart⟩
  refine ⟨l.count_toggle names w, fun key => ?_, l.awake_toggle names w, fun id => get?_toggle⟩
  intro n
  have hflag : ∀ id ∈ l.groupsOf key,
      w'.isActive id = if n = 0 then w.isActive id else (l.isVisible w key ^^ decide (Odd n)) :=
    fun id hid => isActive_toggle hsettled hid names
  refine ⟨fun hnone id hid => ?_, fun hodd id hid => ?_, fun hpos heven id hid => ?_⟩
  · refine World.get?_congr (l.awake_toggle names w) ?_
    have hid' := hflag id hid
    rwa [if_pos hnone] at hid'
  · have hn : n ≠ 0 := fun hzero => by simp [hzero] at hodd
    rw [hflag id hid, if_neg hn, decide_eq_true hodd, Bool.xor_true]
  · have hodd : ¬ Odd n := Nat.not_odd_iff_even.2 heven
    rw [hflag id hid, if_neg hpos.ne', decide_eq_false hodd, Bool.xor_false]

/-- A menu with an active and an inactive group, a map that is hidden, and the frame around
    them, which no name means. -/
def panels : World :=
  .ofList [(⟨1⟩, { name := "Bag", scene := "Main" }),
    (⟨2⟩, { name := "Equip", scene := "Main", active := false }),
    (⟨3⟩, { name := "Map", scene := "Shop", active := false }),
    (⟨4⟩, { name := "Frame", scene := "Main" })]

/-- The layers of these objects; the layer of the map is declared in two spellings. -/
def panelLayers : Layers :=
  { declared := ["Menu", "map", "MAP", "HUD"]
    groups := .ofList [("Menu", [⟨1⟩, ⟨2⟩]), ("map", [⟨3⟩]), ("HUD", [⟨4⟩])] }

/-- The menu is named three times and the map twice. -/
def panelNames : List String :=
  ["menu", "MAP", " Menu\t", "none", "Shop", "MENU", "map"]

theorem toggle_panels :
    let w' := (panelLayers.toggle panelNames panels).2
    (∀ key, ∀ id ∈ panelLayers.groupsOf key, panels.contains id = true) ∧
      (∀ key key' id, id ∈ panelLayers.groupsOf key → id ∈ panelLayers.groupsOf key' →
        key = key') ∧
      (panelLayers.toggle panelNames panels).1 = 5 ∧
      (∀ id ∈ panelLayers.groupsOf "Menu",
        w'.isActive id = !panelLayers.isVisible panels "Menu") ∧
      (∀ id ∈ panelLayers.groupsOf "map", w'.isActive id = panelLayers.isVisible panels "map") ∧
      (∀ id ∈ panelLayers.groupsOf "HUD", w'.get? id = panels.get? id) ∧
      panelLayers.isVisible panels "Menu" = true ∧ panelLayers.isVisible panels "map" = false := by
  intro w'
  have hsettled : panelLayers.Settled panels :=
    Settled.of_entries (by decide +kernel) (by decide +kernel)
  rcases toggle_by_parity panelLayers panels panelNames hsettled.live hsettled.apart with
    ⟨hcount, hlayers, -, -⟩
  have hmenu : Odd (panelNames.countP fun name => panelLayers.parse? name = some "Menu") := by
    decide +kernel
  have hmap : 0 < (panelNames.countP fun name => panelLayers.parse? name = some "map") ∧
      Even (panelNames.countP fun name => panelLayers.parse? name = some "map") := by
    decide +kernel
  have hhud : (panelNames.countP fun name => panelLayers.parse? name = some "HUD") = 0 := by
    decide +kernel
  have hfive : (panelNames.countP fun name => !(panelLayers.members name).isEmpty) = 5 := by
    decide +kernel
  exact ⟨hsettled.live, hsettled.apart, hcount.trans hfive, (hlayers "Menu").2.1 hmenu,
    (hlayers "map").2.2 hmap.1 hmap.2, (hlayers "HUD").1 hhud, by decide +kernel,
    by decide +kernel⟩

end Layers

end BehaviorGraph
