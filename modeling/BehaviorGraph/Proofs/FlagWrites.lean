import BehaviorGraph.Proofs.Switching
/-!
# Which Flags a Step Writes

What a step does to the world, and when two steps can change places.

Steps that switch write active flags and nothing else, so two worlds with the same objects
are the same once their flags are. A step that switches over reads flags before it writes
them, those of a whole layer even; but they are the flags that it writes. So a step is
confined to the objects it switches: it leaves the flags of others as they are, and what it
makes of its own does not depend on others. Two steps without a common object can
change places for this reason.

Steps that only show, or only hide, can change places whatever objects they share. All
flags that either of them writes are the same in the end.

## Main definitions

* `World.Confined`: A change reads and writes the flags of some objects only.
* `World.Sets`: A change shows some objects, or hides them.
* `Step.effect`, `Step.writes`: What a step does to a world, and the objects it switches.
* `Step.Alike`: Two steps both show, or both hide.

## Theorems

* `World.eq_of_isActive`: Worlds are told apart by objects and their flags.
* `World.Confined.comm`, `World.Sets.comm`: Changes that can change places.
* `Step.confined_effect`, `Step.sets_effect`: What steps are confined to, and set.
* `Step.effect_comm`: Steps that are alike, or share no object, can change places.
-/

namespace BehaviorGraph

namespace World

/-- A world is its objects and their active flags. -/
theorem awake_mapValues_isActive (w : World) :
    (w.awake.mapValues fun id o => { o with active := w.isActive id }) = w := by
  ext1
  simp only [awake, OrderedMap.mapValues, List.map_map]
  refine (List.map_congr_left ?_).trans (List.map_id _)
  rintro ⟨id, o⟩ hmem
  have hget : w.get? id = some o := OrderedMap.get?_eq_some_iff.2 hmem
  simp [isActive, hget]

theorem eq_of_isActive {w w' : World} (hawake : w'.awake = w.awake)
    (hactive : ∀ id, w'.isActive id = w.isActive id) : w' = w := by
  have hsame : w'.isActive = w.isActive := funext hactive
  rw [← w'.awake_mapValues_isActive, hawake, hsame, w.awake_mapValues_isActive]

theorem contains_congr {w w' : World} (h : w'.awake = w.awake) (id : ObjectId) :
    w'.contains id = w.contains id := by
  rw [← contains_awake, h, contains_awake]

/-- What does not exist is not active. -/
theorem isActive_of_not_contains {w : World} {id : ObjectId} (h : w.contains id = false) :
    w.isActive id = false := by
  have hnone : w.get? id = none := by
    simpa [OrderedMap.contains] using h
  simp [isActive, hnone]

/-! ### Confined changes -/

/-- A change reads and writes the active flags of some objects only. -/
structure Confined (ids : List ObjectId) (f : World → World) : Prop where
  /-- It changes nothing but active flags. -/
  awake : ∀ w : World, (f w).awake = w.awake
  /-- It leaves the flags of other objects as they are. -/
  frame : ∀ (w : World) (id : ObjectId), id ∉ ids → (f w).isActive id = w.isActive id
  /-- What it makes of the flags depends on these flags only. -/
  reads : ∀ w w' : World, w'.awake = w.awake → (∀ id ∈ ids, w'.isActive id = w.isActive id) →
    ∀ id ∈ ids, (f w').isActive id = (f w).isActive id

namespace Confined

variable {ids ids' : List ObjectId} {f g : World → World}

theorem rfl : Confined [] fun w => w :=
  ⟨fun _ => Eq.refl _, fun _ _ _ => Eq.refl _, fun _ _ _ hsame => hsame⟩

theorem congr (h : Confined ids f) (hfg : ∀ w, g w = f w) : Confined ids g := by
  rw [show g = f from funext hfg]
  exact h

/-- Flags that agree before a change agree after it, also those that it does not write. -/
theorem agree (h : Confined ids f) {w w' : World} (hawake : w'.awake = w.awake)
    (hsame : ∀ id ∈ ids, w'.isActive id = w.isActive id) {id : ObjectId}
    (hid : w'.isActive id = w.isActive id) : (f w').isActive id = (f w).isActive id := by
  by_cases hmem : id ∈ ids
  · exact h.reads w w' hawake hsame id hmem
  · rw [h.frame w' id hmem, h.frame w id hmem, hid]

theorem comp (h : Confined ids f) (h' : Confined ids' g) :
    Confined (ids ++ ids') fun w => g (f w) where
  awake w := by rw [h'.awake, h.awake]
  frame w id hid := by
    rw [List.mem_append, not_or] at hid
    rw [h'.frame _ id hid.2, h.frame w id hid.1]
  reads w w' hawake hsame id hid := by
    have hfirst : ∀ id ∈ ids, w'.isActive id = w.isActive id :=
      fun id hmem => hsame id (List.mem_append_left _ hmem)
    have hbetween : (f w').awake = (f w).awake := by rw [h.awake, h.awake, hawake]
    refine h'.agree hbetween (fun id' hmem => ?_) ?_
    · exact h.agree hawake hfirst (hsame id' (List.mem_append_right _ hmem))
    · exact h.agree hawake hfirst (hsame id hid)

/-- An object that a change would write, but that does not exist, is not changed either. -/
theorem unseen (h : Confined ids f) {w : World} {id : ObjectId}
    (hid : id ∈ ids → w.contains id = false) : (f w).isActive id = w.isActive id := by
  by_cases hmem : id ∈ ids
  · have hgone := hid hmem
    rw [isActive_of_not_contains hgone,
      isActive_of_not_contains ((contains_congr (h.awake w) id).trans hgone)]
  · exact h.frame w id hmem

/-- Changes without a common object that exists can change places. -/
theorem comm (h : Confined ids f) (h' : Confined ids' g) {w : World}
    (hdisjoint : ∀ id ∈ ids, id ∈ ids' → w.contains id = false) : f (g w) = g (f w) := by
  -- To either change it is the same whether the other one has been made.
  have hleft : ∀ id ∈ ids, (g w).isActive id = w.isActive id :=
    fun id hid => h'.unseen (hdisjoint id hid)
  have hright : ∀ id ∈ ids', (f w).isActive id = w.isActive id :=
    fun id hid' => h.unseen fun hid => hdisjoint id hid hid'
  refine eq_of_isActive (by rw [h.awake, h'.awake, h'.awake, h.awake]) fun id => ?_
  by_cases hid : id ∈ ids
  · have hlast : (g (f w)).isActive id = (f w).isActive id := by
      apply h'.unseen
      intro hid'
      rw [contains_congr (h.awake w)]
      exact hdisjoint id hid hid'
    rw [hlast]
    exact h.reads w (g w) (h'.awake w) hleft id hid
  · rw [h.frame _ id hid]
    exact (h'.agree (h.awake w) hright (h.frame w id hid)).symm

end Confined

/-! ### Showing and hiding -/

/-- A change shows some objects, or hides them. -/
structure Sets (active : Bool) (ids : List ObjectId) (f : World → World) : Prop where
  /-- It changes nothing but active flags. -/
  awake : ∀ w : World, (f w).awake = w.awake
  /-- The objects that exist are active afterwards, or they are not. -/
  isActive : ∀ (w : World) (id : ObjectId),
    (f w).isActive id = if id ∈ ids then w.contains id && active else w.isActive id

namespace Sets

variable {active : Bool} {ids ids' : List ObjectId} {f g : World → World}

theorem rfl : Sets active [] fun w => w :=
  ⟨fun _ => Eq.refl _, fun _ _ => Eq.refl _⟩

theorem congr (h : Sets active ids f) (hfg : ∀ w, g w = f w) : Sets active ids g := by
  rw [show g = f from funext hfg]
  exact h

theorem comp (h : Sets active ids f) (h' : Sets active ids' g) :
    Sets active (ids ++ ids') fun w => g (f w) where
  awake w := by rw [h'.awake, h.awake]
  isActive w id := by
    rw [h'.isActive, h.isActive, contains_congr (h.awake w)]
    by_cases hid : id ∈ ids <;> by_cases hid' : id ∈ ids' <;> simp [hid, hid']

/-- Changes that both show or both hide can change places. -/
theorem comm (h : Sets active ids f) (h' : Sets active ids' g) (w : World) :
    f (g w) = g (f w) := by
  refine eq_of_isActive ?_ fun id => ?_
  · rw [h.awake, h'.awake, h'.awake, h.awake]
  · have hleft := (h.comp h').isActive w id
    have hright := (h'.comp h).isActive w id
    simp only [List.mem_append] at hleft hright
    rw [hleft, hright]
    simp only [or_comm]

/-- What is made of the flags does not depend on any. -/
theorem confined (h : Sets active ids f) : Confined ids f where
  awake := h.awake
  frame w id hid := by rw [h.isActive, if_neg hid]
  reads w w' hawake _ id hid := by
    rw [h.isActive, h.isActive, if_pos hid, if_pos hid, contains_congr hawake]

end Sets

/-! ### Switching -/

theorem isActive_update (w : World) (id id' : ObjectId) (f : SceneObject → SceneObject) :
    isActive (w.update id f) id' =
      if id' = id then (w.get? id').any fun o => (f o).active else w.isActive id' := by
  rw [isActive, OrderedMap.get?_update]
  split
  · rw [Option.any_map]
  · rfl

theorem sets_setActive (id : ObjectId) (active : Bool) :
    Sets active [id] fun w => (setActive id active w).2 where
  awake := awake_setActive id active
  isActive w id' := by
    rw [setActive, isActive_update]
    simp only [List.mem_singleton, OrderedMap.contains]
    cases w.get? id' <;> simp

theorem sets_setActiveAll (ids : List ObjectId) (active : Bool) :
    Sets active ids fun w => w.setActiveAll ids active := by
  induction ids with
  | nil => exact .rfl
  | cons id ids ih => exact (sets_setActive id active).comp ih

theorem confined_toggleActive (id : ObjectId) :
    Confined [id] fun w => (toggleActive id w).2 where
  awake w := w.awake_switch .over id
  frame w id' hid := by
    rw [toggleActive, isActive_update, if_neg (by simpa using hid)]
  reads w w' hawake hsame id' hid := by
    have hmem := hid
    rw [List.mem_singleton] at hid
    have hactive := hsame id' hmem
    have hthere := contains_congr hawake id'
    simp only [toggleActive, isActive_update, if_pos hid]
    simp only [World.isActive, OrderedMap.contains] at hactive hthere
    -- Among objects that exist, being flipped to active is not being active.
    rcases hget : w.get? id' with _ | o <;> rcases hget' : w'.get? id' with _ | o' <;>
      simp_all

/-- Setting all flags to what the flags together tell. -/
theorem confined_setActiveAll_of (ids : List ObjectId) {c : World → Bool}
    (hc : ∀ w w' : World, (∀ id ∈ ids, w'.isActive id = w.isActive id) → c w' = c w) :
    Confined ids fun w => w.setActiveAll ids (c w) where
  awake w := w.awake_setActiveAll ids (c w)
  frame w id hid := ((sets_setActiveAll ids (c w)).isActive w id).trans (if_neg hid)
  reads w w' hawake hsame id hid := by
    rw [hc w w' hsame]
    exact (sets_setActiveAll ids (c w)).confined.reads w w' hawake hsame id hid

end World

/-- What a switch sets flags to, unless that depends on what they are. -/
def Switch.active? : Switch → Option Bool
  | .on => some true
  | .off => some false
  | .over => none

namespace World

theorem sets_switch {s : Switch} {active : Bool} (h : s.active? = some active) (id : ObjectId) :
    Sets active [id] fun w => (w.switch s id).2 := by
  rcases s with _ | _ | _
  · cases h
    exact sets_setActive id true
  · cases h
    exact sets_setActive id false
  · cases h

theorem confined_switch (s : Switch) (id : ObjectId) :
    Confined [id] fun w => (w.switch s id).2 := by
  rcases s with _ | _ | _
  · exact (sets_setActive id true).confined
  · exact (sets_setActive id false).confined
  · exact confined_toggleActive id

end World

namespace Layers

variable (l : Layers)

theorem sets_setVisibleAll (visible : Bool) (names : List String) :
    World.Sets visible (names.flatMap l.members) fun w => (l.setVisibleAll visible names w).2 := by
  induction names with
  | nil => exact .rfl
  | cons name names ih =>
      rw [List.flatMap_cons]
      have hfirst := World.sets_setActiveAll (l.members name) visible
      exact (hfirst.comp ih).congr fun w => by simp only [setVisibleAll, setVisible]

theorem confined_toggle (names : List String) :
    World.Confined (names.flatMap l.members) fun w => (l.toggle names w).2 := by
  induction names with
  | nil => exact .rfl
  | cons name names ih =>
      -- Whether a layer is visible is told from the flags that are set then.
      have hvisible : ∀ w w' : World,
          (∀ id ∈ l.members name, w'.isActive id = w.isActive id) →
            (!l.isVisible w' name) = !l.isVisible w name := by
        intro w w' hsame
        have hany : (l.members name).any w'.isActive = (l.members name).any w.isActive := by
          rw [Bool.eq_iff_iff, List.any_eq_true, List.any_eq_true]
          exact exists_congr fun id => and_congr_right fun hid => by rw [hsame id hid]
        simp only [isVisible, hany]
      rw [List.flatMap_cons]
      have hfirst := World.confined_setActiveAll_of (l.members name) hvisible
      exact (hfirst.comp ih).congr fun w => by simp only [toggle, setVisible]

theorem sets_switch {s : Switch} {active : Bool} (h : s.active? = some active)
    (names : List String) :
    World.Sets active (names.flatMap l.members) fun w => (l.switch s names w).2 := by
  rcases s with _ | _ | _
  · cases h
    exact l.sets_setVisibleAll true names
  · cases h
    exact l.sets_setVisibleAll false names
  · cases h

theorem confined_switch (s : Switch) (names : List String) :
    World.Confined (names.flatMap l.members) fun w => (l.switch s names w).2 := by
  rcases s with _ | _ | _
  · exact (l.sets_setVisibleAll true names).confined
  · exact (l.sets_setVisibleAll false names).confined
  · exact l.confined_toggle names

end Layers

namespace Targets

variable (t : Targets)

theorem switch_cons_none {target : String} (h : t.resolve? target = none) (s : Switch)
    (rest : List String) (w : World) : t.switch s (target :: rest) w = t.switch s rest w := by
  simp only [switch, h]

theorem switch_cons_some {target : String} {id : ObjectId} (h : t.resolve? target = some id)
    (s : Switch) (rest : List String) (w : World) :
    (t.switch s (target :: rest) w).2 = (t.switch s rest (w.switch s id).2).2 := by
  simp only [switch, h]

theorem sets_switch {s : Switch} {active : Bool} (h : s.active? = some active)
    (targets : List String) :
    World.Sets active (targets.filterMap t.resolve?) fun w => (t.switch s targets w).2 := by
  induction targets with
  | nil => exact .rfl
  | cons target rest ih =>
      rcases hresolve : t.resolve? target with _ | id
      · rw [List.filterMap_cons_none hresolve]
        exact ih.congr fun w => by rw [switch_cons_none t hresolve]
      · rw [List.filterMap_cons_some hresolve]
        exact ((World.sets_switch h id).comp ih).congr (switch_cons_some t hresolve s rest)

theorem confined_switch (s : Switch) (targets : List String) :
    World.Confined (targets.filterMap t.resolve?) fun w => (t.switch s targets w).2 := by
  induction targets with
  | nil => exact .rfl
  | cons target rest ih =>
      rcases hresolve : t.resolve? target with _ | id
      · rw [List.filterMap_cons_none hresolve]
        exact ih.congr fun w => by rw [switch_cons_none t hresolve]
      · rw [List.filterMap_cons_some hresolve]
        exact ((World.confined_switch s id).comp ih).congr (switch_cons_some t hresolve s rest)

end Targets

/-! ### Steps -/

namespace Step

/-- What a step does to a world, the doings of an action aside. -/
def effect (targets : Targets) (layers : Layers) (st : Step) (w : World) : World :=
  match st.type with
  | .layers s => (layers.switch s st.layers w).2
  | .objects s => (targets.switch s st.targets w).2
  | .click | .key | .delay | .call => w

/-- The objects that a step switches if they exist. -/
def writes (targets : Targets) (layers : Layers) (st : Step) : List ObjectId :=
  match st.type with
  | .layers _ => st.layers.flatMap layers.members
  | .objects _ => st.targets.filterMap targets.resolve?
  | .click | .key | .delay | .call => []

/-- Whether a step shows or hides what it switches, if it does one of the two. -/
def shows? (st : Step) : Option Bool :=
  match st.type with
  | .layers s | .objects s => s.active?
  | .click | .key | .delay | .call => none

/-- Two steps both show something, or both hide something. -/
def Alike (st st' : Step) : Prop :=
  ∃ active, st.shows? = some active ∧ st'.shows? = some active

instance (st st' : Step) : Decidable (st.Alike st') :=
  inferInstanceAs (Decidable (∃ active, st.shows? = some active ∧ st'.shows? = some active))

variable (targets : Targets) (layers : Layers)

theorem confined_effect (st : Step) :
    World.Confined (st.writes targets layers) (st.effect targets layers) := by
  unfold writes effect
  rcases st.type with _ | _ | s | s | _ | _
  · exact .rfl
  · exact .rfl
  · exact layers.confined_switch s st.layers
  · exact targets.confined_switch s st.targets
  · exact .rfl
  · exact .rfl

theorem sets_effect {st : Step} {active : Bool} (h : st.shows? = some active) :
    World.Sets active (st.writes targets layers) (st.effect targets layers) := by
  unfold shows? at h
  unfold writes effect
  rcases htype : st.type with _ | _ | s | s | _ | _ <;> rw [htype] at h
  · cases h
  · cases h
  · exact layers.sets_switch h st.layers
  · exact targets.sets_switch h st.targets
  · cases h
  · cases h

theorem awake_effect (st : Step) (w : World) : (st.effect targets layers w).awake = w.awake :=
  (st.confined_effect targets layers).awake w

/-- Two steps can change places if they share no object, or both show or both hide. -/
theorem effect_comm {st st' : Step} {w : World}
    (h : ∀ id ∈ st.writes targets layers, id ∈ st'.writes targets layers →
      w.contains id = true → st.Alike st') :
    st.effect targets layers (st'.effect targets layers w) =
      st'.effect targets layers (st.effect targets layers w) := by
  by_cases halike : st.Alike st'
  · rcases halike with ⟨active, hshows, hshows'⟩
    exact (sets_effect targets layers hshows).comm (sets_effect targets layers hshows') w
  · refine (st.confined_effect targets layers).comm (st'.confined_effect targets layers) ?_
    intro id hid hid'
    rw [← Bool.not_eq_true]
    exact fun hthere => halike (h id hid hid' hthere)

end Step

end BehaviorGraph
