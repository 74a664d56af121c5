import BehaviorGraph.Proofs.CanonicalKeys
import BehaviorGraph.Proofs.DeclaredLayers
import BehaviorGraph.Proofs.Enlisting
/-!
# Declared Layers Keep Others Out

Whether a session that declares layers knows any others.

Declaring layers is meant to rule out all other names. It does as soon as one of the declared
names is not blank. What a name means is then a declared layer, and since every key of the map of
groups means itself, all layers with groups are declared ones. A name outside of them leads
nowhere: nobody joins by it, no input action and no effect switches anything by it, and a step
does exactly what it would do without it.

Blank names are left out before it is asked whether layers are declared at all. So a session
that declares nothing but blank names is as open as one that declares none. Every name is
accepted there, and none of the layers is declared.

Whatever happens to a session, all that its layers undergo is a row of edits. So the keys stay
canonical, and names go on meaning what they meant at the start.

## Main definitions

* `Settings.declares`: A name is that of a declared layer.
* `Deed`, `Session.undergone`: What can happen, if layers are edited from outside as well.
* `Session.Closed`: No name outside the declared ones has a say.

## Theorems

* `Layers.of_parse?`, `Layers.parse?_of_open`: What names mean, with and without declared layers.
* `Layers.switch_filter`: Names that mean no layer switch nothing.
* `Session.exists_edits_happen`: What an event does to the layers is a row of edits.
* `Session.closed_of_canonical`: With a declared layer and canonical keys, a session is closed.
* `Session.layers_closed_iff`: Which settings close every session.
* `Session.blank_layer_opens`: Some that do not.
-/

namespace BehaviorGraph

namespace Layers

variable {l : Layers} {name key : String}

/-! ### What names mean -/

/-- A name that means a layer is not blank and does not say that there is none. -/
theorem of_parse?_eq_some (h : l.parse? name = some key) :
    Text.isBlank name = false ∧ Text.sameName (Text.trim name) noneName = false := by
  rw [← Bool.or_eq_false_iff, ← Bool.not_eq_true, ← Text.isBlank_trim name]
  intro hnothing
  simp only [parse?, hnothing, if_true] at h
  exact absurd h (by simp)

/-- Where layers are declared, a name means a declared layer that it agrees with. -/
theorem of_parse? (hdeclared : l.declared ≠ []) (h : l.parse? name = some key) :
    key ∈ l.declared ∧ Text.sameName key (Text.trim name) = true := by
  rcases of_parse?_eq_some h with ⟨hblank, hnone⟩
  rw [parse?_eq_find? hdeclared hblank hnone] at h
  exact ⟨List.mem_of_find?_eq_some h,
    List.find?_some (p := fun e => Text.sameName e (Text.trim name)) h⟩

/-- Where none is declared, a name means itself. -/
theorem parse?_of_open (hopen : l.declared = []) (hblank : Text.isBlank name = false)
    (hnone : Text.sameName (Text.trim name) noneName = false) :
    l.parse? name = some (Text.trim name) := by
  simp only [parse?, Text.isBlank_trim, hblank, hnone, hopen, Bool.or_self, Bool.false_eq_true,
    if_false, List.isEmpty_nil, if_true]

theorem declared_declare_ne_nil {names : List String} :
    (declare names).declared ≠ [] ↔ ∃ d ∈ names, Text.isBlank d = false := by
  rw [declare, ne_eq, List.filter_eq_nil_iff]
  simp

/-! ### Names that mean no layer -/

theorem join_of_parse? (h : l.parse? name = none) (id : ObjectId) :
    l.join name id = (false, l) := by
  rw [join, h]

theorem setVisible_of_parse? (h : l.parse? name = none) (visible : Bool) (w : World) :
    l.setVisible name visible w = (false, w) := by
  rw [setVisible, members_eq, h]
  rfl

section Filter

variable {keep : String → Bool} (h : ∀ name, keep name = false → l.parse? name = none)
include h

theorem setVisibleAll_filter (visible : Bool) (names : List String) (w : World) :
    l.setVisibleAll visible (names.filter keep) w = l.setVisibleAll visible names w := by
  induction names generalizing w with
  | nil => rfl
  | cons name names ih =>
      by_cases hkeep : keep name = true
      · rw [List.filter_cons_of_pos hkeep]
        simp only [setVisibleAll, ih]
      · have hnone := h name (Bool.eq_false_of_not_eq_true hkeep)
        rw [List.filter_cons_of_neg hkeep, ih]
        simp only [setVisibleAll, setVisible_of_parse? hnone, Bool.toNat_false, Nat.add_zero]

theorem toggle_filter (names : List String) (w : World) :
    l.toggle (names.filter keep) w = l.toggle names w := by
  induction names generalizing w with
  | nil => rfl
  | cons name names ih =>
      by_cases hkeep : keep name = true
      · rw [List.filter_cons_of_pos hkeep]
        simp only [toggle, ih]
      · have hnone := h name (Bool.eq_false_of_not_eq_true hkeep)
        rw [List.filter_cons_of_neg hkeep, ih]
        simp only [toggle, setVisible_of_parse? hnone, Bool.toNat_false, Nat.add_zero]

/-- Names that mean no layer can be left out of what is switched. -/
theorem switch_filter (s : Switch) (names : List String) (w : World) :
    l.switch s (names.filter keep) w = l.switch s names w := by
  cases s with
  | on => exact setVisibleAll_filter h true names w
  | off => exact setVisibleAll_filter h false names w
  | _ => exact toggle_filter h names w

end Filter

/-! ### Edits -/

theorem joinAll_eq_edited (es : List (ObjectId × SceneObject)) (l : Layers) :
    (l.joinAll es).2 = l.edited (es.map fun e => .joinFor e.1 e.2) := by
  induction es generalizing l with
  | nil => rfl
  | cons e es ih => exact ih (l.joinFor e.1 e.2).2

theorem leaveAll_eq_edited (ids : List ObjectId) (l : Layers) :
    l.leaveAll ids = l.edited (ids.map .leave) := by
  induction ids generalizing l with
  | nil => rfl
  | cons id ids ih => exact ih (l.leave id)

end Layers

/-- The name is that of a declared layer, up to the spaces around it and to letter case. -/
def Settings.declares (config : Settings) (name : String) : Bool :=
  config.layers.any fun d => Text.sameName d (Text.trim name)

/-- What can happen to a session whose layers are edited from outside as well. -/
inductive Deed where
  /-- An event takes place. -/
  | event (e : Event)
  /-- Somebody edits the layers. -/
  | edit (e : LayerEdit)

namespace Session

/-- The session after a deed. -/
def undergo (d : Deed) (s : Session) : Session :=
  match d with
  | .event e => s.happen e
  | .edit e => { s with layers := s.layers.edit e }

/-- The session after some deeds. -/
def undergone (s : Session) (deeds : List Deed) : Session :=
  deeds.foldl (fun s d => s.undergo d) s

variable {config : Settings} {s : Session}

/-! ### The layers of a session -/

theorem coversRuns_edited : CoversRuns fun s s' => ∃ edits, s'.layers = s.layers.edited edits where
  trans := by
    rintro s s' s'' ⟨edits, h⟩ ⟨later, h'⟩
    exact ⟨edits ++ later, by rw [h', h, Layers.edited_append]⟩
  calm hcalm := ⟨[], hcalm.layers⟩
  despawn id s := ⟨_, (s.despawn_drops id).layers.trans (Layers.leaveAll_eq_edited _ _)⟩

/-- Whatever an event does to the layers of a session, it does by edits. -/
theorem exists_edits_happen (e : Event) (s : Session) :
    ∃ edits, (s.happen e).layers = s.layers.edited edits := by
  cases change_happen e s with
  | enlists henlists => exact ⟨_, henlists.layers.trans (Layers.joinAll_eq_edited _ _)⟩
  | goes hdrops => exact ⟨_, hdrops.layers.trans (Layers.leaveAll_eq_edited _ _)⟩
  | bakes graph _ hbake =>
      refine ⟨[], ?_⟩
      rw [hbake]
      rfl
  | forgets _ hshutdown =>
      refine ⟨[.clear], ?_⟩
      rw [hshutdown]
      rfl
  | runs hruns => exact hruns _ coversRuns_edited

theorem exists_edits_undergo (d : Deed) (s : Session) :
    ∃ edits, (s.undergo d).layers = s.layers.edited edits := by
  cases d with
  | event e => exact exists_edits_happen e s
  | edit e => exact ⟨[e], rfl⟩

theorem exists_edits_undergone (deeds : List Deed) (s : Session) :
    ∃ edits, (s.undergone deeds).layers = s.layers.edited edits := by
  induction deeds generalizing s with
  | nil => exact ⟨[], rfl⟩
  | cons d deeds ih =>
      rcases exists_edits_undergo d s with ⟨edits, h⟩
      rcases ih (s.undergo d) with ⟨later, h'⟩
      exact ⟨edits ++ later, by rw [Layers.edited_append, ← h]; exact h'⟩

/-! ### Names outside the declared ones -/

/-- No name outside the declared ones has a say in a session. -/
structure Closed (config : Settings) (s : Session) : Prop where
  /-- A name that means a layer is that of a declared one, and means a declared one. -/
  means : ∀ name key, s.layers.parse? name = some key →
    config.declares name = true ∧ key ∈ config.layers
  /-- All layers that have groups are declared. -/
  groups : ∀ key ∈ s.layers.names, key ∈ config.layers
  /-- Nobody joins a layer by another name. -/
  joins : ∀ name id, config.declares name = false → s.layers.join name id = (false, s.layers)
  /-- A step does what it does without the other names. -/
  steps : ∀ st switch, st.type = .layers switch →
    s.perform st = s.perform { st with layers := st.layers.filter config.declares }
  /-- A step takes effect only if it names a declared layer that has groups. -/
  applied : ∀ st switch, st.type = .layers switch → (s.perform st).1 = .ok .applied →
    ∃ name ∈ st.layers, ∃ key ∈ config.layers,
      s.layers.parse? name = some key ∧ s.layers.members name ≠ []
  /-- Input actions that are bound to another name do nothing. -/
  actions : ∀ action name, s.bindings.layer? action = some name → config.declares name = false →
    s.performAction action = (false, s)
  /-- Nor does an effect that switches a layer by another name. -/
  effects : ∀ name visible, config.declares name = false →
    s.apply (.setLayer name visible) = (true, s)

theorem perform_layers (st : Step) {switch : Switch} (h : st.type = .layers switch)
    (s : Session) : s.perform st = s.performLayers switch st := by
  rw [perform, h]

/-- A step that switches layers takes effect if one of them has groups. -/
theorem perform_layers_applied_iff {st : Step} {switch : Switch} (h : st.type = .layers switch)
    (s : Session) :
    (s.perform st).1 = .ok .applied ↔ ∃ name ∈ st.layers, s.layers.members name ≠ [] := by
  have hcount : 0 < (s.layers.switch switch st.layers s.world).1 ↔
      ∃ name ∈ st.layers, s.layers.members name ≠ [] := by
    rw [Layers.count_switch, List.countP_pos_iff]
    simp
  rw [perform_layers st h, performLayers, ← hcount]
  simp

section Declared

variable (hdeclared : s.layers.declared = (Layers.declare config.layers).declared)
  (hsome : (Layers.declare config.layers).declared ≠ [])
include hdeclared hsome

/-- Where a layer is declared, a name that means one is that of a declared one, and means a
    declared one. -/
theorem declares_of_parse? {name key : String} (h : s.layers.parse? name = some key) :
    config.declares name = true ∧ key ∈ config.layers := by
  rcases Layers.of_parse? (by rwa [hdeclared]) h with ⟨hmem, hsame⟩
  rw [hdeclared] at hmem
  have hlisted := (Layers.mem_declared_declare.1 hmem).1
  exact ⟨List.any_eq_true.2 ⟨key, hlisted, hsame⟩, hlisted⟩

theorem parse?_of_not_declares (name : String) (h : config.declares name = false) :
    s.layers.parse? name = none := by
  rcases hkey : s.layers.parse? name with _ | key
  · rfl
  · rw [(declares_of_parse? hdeclared hsome hkey).1] at h
    exact absurd h (by simp)

/-- If the keys of layers are canonical besides, the session is closed. -/
theorem closed_of_canonical (hkeys : s.layers.Canonical) : s.Closed config := by
  have hnone := parse?_of_not_declares hdeclared hsome
  refine ⟨fun name key hkey => declares_of_parse? hdeclared hsome hkey, fun key hkey => ?_,
    fun name id hname => Layers.join_of_parse? (hnone name hname) id,
    fun st switch htype => ?_, fun st switch htype happlied => ?_,
    fun action name hlayer hname => ?_, fun name visible hname => ?_⟩
  · exact (declares_of_parse? hdeclared hsome (hkeys.mem_names_iff.1 hkey).1).2
  · rw [perform_layers st htype,
      perform_layers { st with layers := st.layers.filter config.declares } htype, performLayers,
      performLayers, Layers.switch_filter hnone]
  · rcases (perform_layers_applied_iff htype s).1 happlied with ⟨name, hname, hgroups⟩
    -- Groups are found under keys only.
    rcases hkey : s.layers.parse? name with _ | key
    · rw [Layers.members_eq, hkey] at hgroups
      exact absurd rfl hgroups
    · exact ⟨name, hname, key, (declares_of_parse? hdeclared hsome hkey).2, hkey, hgroups⟩
  · rw [performAction, hlayer]
    simp only [Layers.setVisible_of_parse? (hnone name hname)]
  · rw [apply]
    simp only [Layers.setVisible_of_parse? (hnone name hname)]

end Declared

/-! ### Which settings close a session -/

theorem closed_undergone (hsome : ∃ d ∈ config.layers, Text.isBlank d = false)
    (supply : Nat → ObjectId) (scheduled : Bool) (deeds : List Deed) :
    ((start config supply scheduled).undergone deeds).Closed config := by
  -- All that has happened to the layers is a row of edits of those that were declared.
  rcases exists_edits_undergone deeds (start config supply scheduled) with ⟨edits, h⟩
  have hstart : (start config supply scheduled).layers = Layers.declare config.layers := rfl
  rw [hstart] at h
  refine closed_of_canonical ?_ (Layers.declared_declare_ne_nil.2 hsome) ?_
  · rw [h, Layers.declared_edited]
  · rw [h]
    exact (Layers.canonical_declare config.layers).edited edits

/-- If all declared names are blank, layers are as open as if none was declared. -/
theorem parse?_of_blank (hblank : ∀ d ∈ config.layers, Text.isBlank d = true) (name : String)
    (hname : Text.isBlank name = false)
    (hnone : Text.sameName (Text.trim name) Layers.noneName = false) :
    (Layers.declare config.layers).parse? name = some (Text.trim name) ∧
      Text.trim name ∉ config.layers := by
  have hopen : (Layers.declare config.layers).declared = [] := by
    by_contra hsome
    rcases Layers.declared_declare_ne_nil.1 hsome with ⟨d, hd, hvisible⟩
    rw [hblank d hd] at hvisible
    exact absurd hvisible (by simp)
  refine ⟨Layers.parse?_of_open hopen hname hnone, fun hmem => ?_⟩
  -- What is left of a name that is not blank is not blank.
  have htrim := hblank _ hmem
  rw [Text.isBlank_trim, hname] at htrim
  exact absurd htrim (by simp)

theorem layers_spawn_start {name key : String} {o : SceneObject} (ho : o.layerGroup = some name)
    (hkey : (Layers.declare config.layers).parse? name = some key) (supply : Nat → ObjectId)
    (scheduled : Bool) (id : ObjectId) :
    ((start config supply scheduled).spawn id o).layers =
      { Layers.declare config.layers with groups := OrderedMap.empty.insert key [id] } := by
  have hlayers : ((start config supply scheduled).spawn id o).layers =
      ((Layers.declare config.layers).joinFor id o).2 := rfl
  rw [hlayers, Layers.joinFor_eq_join ho, Layers.join, hkey]
  rfl

/-- Take the settings of a session, whatever layers they declare. If all declared names are blank,
    or none is declared, then every name that is not blank and does not say that there is none
    means a layer of its own, which is not declared: an object that names it becomes a group of
    it when it is spawned, and a step that shows it takes effect. Otherwise the session is closed
    at all times, whatever happens to it and whoever edits its layers. So a session is closed at
    all times exactly if one of the declared names is not blank. -/
theorem layers_closed_iff (config : Settings) (supply : Nat → ObjectId) (scheduled : Bool) :
    ((∀ deeds, ((start config supply scheduled).undergone deeds).Closed config) ↔
      ∃ d ∈ config.layers, Text.isBlank d = false) ∧
    ((∀ d ∈ config.layers, Text.isBlank d = true) → ∀ name, Text.isBlank name = false →
      Text.sameName (Text.trim name) Layers.noneName = false →
      Text.trim name ∉ config.layers ∧
      ∀ id o, o.layerGroup = some name →
        let s := (start config supply scheduled).spawn id o
        s.layers.parse? name = some (Text.trim name) ∧ s.layers.names = [Text.trim name] ∧
        ∀ st, st.type = .layers .on → st.layers = [name] →
          (s.perform st).1 = .ok .applied) := by
  refine ⟨⟨fun hclosed => ?_, fun hsome deeds => closed_undergone hsome supply scheduled deeds⟩,
    fun hblank name hname hnone => ?_⟩
  · by_contra hall
    have hblank : ∀ d ∈ config.layers, Text.isBlank d = true := by simpa using hall
    -- Any name will do, since all of them are accepted.
    rcases parse?_of_blank hblank "Menu" (by decide +kernel) (by decide +kernel) with
      ⟨hkey, hother⟩
    exact hother ((hclosed []).means _ _ hkey).2
  · rcases parse?_of_blank hblank name hname hnone with ⟨hkey, hother⟩
    refine ⟨hother, fun id o ho => ?_⟩
    intro s
    have hlayers := layers_spawn_start ho hkey supply scheduled id
    have hkey' : s.layers.parse? name = some (Text.trim name) := by
      rw [hlayers]
      exact hkey
    refine ⟨hkey', by rw [hlayers]; rfl, fun st htype hnames => ?_⟩
    rw [perform_layers_applied_iff htype, hnames]
    refine ⟨name, List.mem_singleton_self name, ?_⟩
    rw [Layers.members_of_parse? hkey', Layers.groupsOf, hlayers, OrderedMap.get?_insert,
      if_pos rfl]
    exact List.cons_ne_nil id []

/-- A session whose only declared layer is a space knows other layers. -/
theorem blank_layer_opens :
    let config : Settings := { layers := [" "] }
    let bag : SceneObject :=
      { name := "Bag", scene := "Main", active := false, layerGroup := some "Menu" }
    let opening : Step := { type := .layers .on, node := ⟨"open"⟩, layers := ["Menu"] }
    let s := (start config .minted true).spawn ⟨1⟩ bag
    config.layers ≠ [] ∧ s.layers.parse? "Menu" = some "Menu" ∧ "Menu" ∉ config.layers ∧
      s.layers.names = ["Menu"] ∧ (s.perform opening).1 = .ok .applied ∧
      (s.perform opening).2.world.isActive ⟨1⟩ = true := by
  decide +kernel

end Session

end BehaviorGraph
