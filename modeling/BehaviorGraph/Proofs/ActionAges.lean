import BehaviorGraph.Proofs.CallableActions
import Mathlib.Data.Set.Card
import Mathlib.Order.Lattice.Nat
/-!
# The Oldest Action of a Method

Which action a call gets to that does not name a component.

A blank component stands for any, and of several components with the method the one counts that
has had it longest. So the order of the entries shows, and an entry must not change its place when
others come and go. How old an entry is can be read off the edits: it is as old as the first
definition under its names since these were last removed. Definitions after that one give the
names another action and leave their age as it is, and so do edits of other names. Names that
are removed and defined again start anew.

The entries of a table stand in the order of their ages, and that is all there is to say about
the order. What stands under the names is told by `get?_ofEdits`, whatever the order.

## Main definitions

* `ActionTable.standing?`: The action that some edits leave under some names.
* `ActionTable.lasting`, `ActionTable.EntersAt`: The definitions that were not undone, and the
  first of them.
* `ActionTable.Spares`: An edit leaves the age of an entry as it is.
* `ActionTable.Older`, `ActionTable.Oldest`: Entries by age, and the oldest one of a method.

## Theorems

* `ActionTable.mem_lasting_concat`: What an edit does to the ages.
* `ActionTable.entersAt_concat`, `ActionTable.entersAt_concat_new`: The age of an entry that
  stays, and of a new one.
* `ActionTable.pairwise_keys_ofEdits`: The entries stand in the order of their ages.
* `ActionTable.ofMethod?_eq_some_iff`: The first entry of a method is the oldest one.
* `ActionTable.size_ofEdits`: How many entries there are.
* `ActionTable.actions_by_age`: What is found in a table, and how much there is in it.
-/

namespace BehaviorGraph

theorem getElem?_concat_eq_some_iff {β : Type} {l : List β} {x y : β} {i : Nat} :
    (l ++ [x])[i]? = some y ↔ l[i]? = some y ∨ i = l.length ∧ x = y := by
  rcases Nat.lt_trichotomy i l.length with h | rfl | h
  · rw [List.getElem?_append_left h]
    simp [h.ne]
  · simp
  · rw [List.getElem?_eq_none (by simpa using h), List.getElem?_eq_none h.le]
    simp [h.ne']

theorem OrderedMap.keys_erase {κ ν : Type} [DecidableEq κ] (k : κ) (m : OrderedMap κ ν) :
    (m.erase k).keys = m.keys.filter (· ≠ k) := by
  rw [keys, keys, erase, retain, List.filter_map]
  rfl

namespace ActionTable

variable {α : Type}

/-- The action that some edits leave under some names: what the last edit of these names put
    there, or none if that was a removal. -/
def standing? (edits : List (Edit α)) (names : String × String) : Option α :=
  (latest? names edits).join

/-- The places of the definitions under some names that no removal of these names follows. -/
def lasting (edits : List (Edit α)) (names : String × String) : Set Nat :=
  {k | (∃ a, edits[k]? = some (names, some a)) ∧ ∀ j, k < j → edits[j]? ≠ some (names, none)}

/-- The entry of the names is as old as the edit at a place, the first definition since the names
    were last removed. -/
def EntersAt (edits : List (Edit α)) (names : String × String) (k : Nat) : Prop :=
  IsLeast (lasting edits names) k

/-- The names have an entry of the method, and no entry of the method is older. -/
def Oldest (edits : List (Edit α)) (method : String) (names : String × String) : Prop :=
  names.2 = method ∧ ∃ k, EntersAt edits names k ∧
    ∀ names' k', names'.2 = method → EntersAt edits names' k' → k ≤ k'

/-- An edit leaves the age of an entry as it is: it is an edit of other names, or it defines an
    action where there is one. -/
def Spares (edits : List (Edit α)) (e : Edit α) (names : String × String) : Prop :=
  e.1 = names → e.2.isSome = true ∧ (standing? edits names).isSome = true

variable {edits : List (Edit α)} {e : Edit α} {names names' : String × String} {k : Nat}

/-! ### What stands under names -/

theorem standing?_concat (edits : List (Edit α)) (e : Edit α) (names : String × String) :
    standing? (edits ++ [e]) names = if e.1 = names then e.2 else standing? edits names := by
  rw [standing?, latest?_append, latest?_cons, latest?_nil, Option.none_or]
  split
  · rfl
  · rw [Option.none_or, standing?]

theorem ofEdits_concat (edits : List (Edit α)) (e : Edit α) :
    ofEdits (edits ++ [e]) = (ofEdits edits).edit e := by
  simp [ofEdits]

/-- Names are present in a table if an action stands under them. -/
theorem mem_keys_ofEdits :
    names ∈ (ofEdits edits).entries.keys ↔ (standing? edits names).isSome = true := by
  rw [← OrderedMap.contains_iff, OrderedMap.contains, get?_ofEdits, standing?]

/-! ### Ages -/

theorem lt_of_mem_lasting (h : k ∈ lasting edits names) : k < edits.length := by
  rcases h.1 with ⟨a, ha⟩
  exact (List.getElem?_eq_some_iff.1 ha).1

/-- A removal undoes the definitions before it, and a definition joins those that last. -/
theorem mem_lasting_concat :
    k ∈ lasting (edits ++ [e]) names ↔
      e ≠ (names, none) ∧
        (k ∈ lasting edits names ∨ k = edits.length ∧ ∃ a, e = (names, some a)) := by
  simp only [lasting, Set.mem_ofPred_eq, ne_eq, getElem?_concat_eq_some_iff]
  constructor
  · rintro ⟨⟨a, ha | ⟨rfl, rfl⟩⟩, hkept⟩
    · -- An edit before the last one is followed by the last one.
      have hlt := (List.getElem?_eq_some_iff.1 ha).1
      exact ⟨fun he => hkept edits.length hlt (Or.inr ⟨rfl, he⟩),
        Or.inl ⟨⟨a, ha⟩, fun j hj hremoved => hkept j hj (Or.inl hremoved)⟩⟩
    · exact ⟨by simp, Or.inr ⟨rfl, a, rfl⟩⟩
  · rintro ⟨hne, ⟨⟨a, ha⟩, hkept⟩ | ⟨rfl, a, rfl⟩⟩
    · refine ⟨⟨a, Or.inl ha⟩, fun j hj hremoved => ?_⟩
      rcases hremoved with hearlier | ⟨-, he⟩
      · exact hkept j hj hearlier
      · exact hne he
    · refine ⟨⟨a, Or.inr ⟨rfl, rfl⟩⟩, fun j hj hremoved => ?_⟩
      -- Nothing follows the last edit.
      rcases hremoved with hearlier | ⟨rfl, -⟩
      · have hlt := (List.getElem?_eq_some_iff.1 hearlier).1
        omega
      · omega

/-- Edits of other names do not matter to what lasts. -/
theorem lasting_concat_of_ne (h : e.1 ≠ names) :
    lasting (edits ++ [e]) names = lasting edits names := by
  ext j
  rw [mem_lasting_concat]
  constructor
  · rintro ⟨-, hj | ⟨-, a, rfl⟩⟩
    · exact hj
    · exact absurd rfl h
  · exact fun hj => ⟨fun he => h (congrArg Prod.fst he), Or.inl hj⟩

/-- Some definition of the names lasts exactly if an action stands under them. -/
theorem lasting_nonempty_iff :
    (lasting edits names).Nonempty ↔ (standing? edits names).isSome = true := by
  induction edits using List.reverseRecOn with
  | nil => simp [Set.Nonempty, lasting, standing?]
  | append_singleton edits e ih =>
      simp only [Set.Nonempty, mem_lasting_concat] at ih ⊢
      rw [standing?_concat]
      obtain ⟨named, action⟩ := e
      by_cases h : named = names
      · subst h
        cases action with
        | none => simp
        | some a =>
            simp only [ne_eq, Prod.mk.injEq, reduceCtorEq, and_false, not_false_eq_true, true_and]
            exact ⟨fun _ => by simp, fun _ => ⟨edits.length, Or.inr ⟨rfl, a, rfl⟩⟩⟩
      · simp [h, ih]

theorem exists_entersAt_iff :
    (∃ k, EntersAt edits names k) ↔ (standing? edits names).isSome = true := by
  rw [← lasting_nonempty_iff]
  constructor
  · rintro ⟨k, hk⟩
    exact ⟨k, hk.1⟩
  · intro h
    exact ⟨_, Nat.sInf_mem h, fun _ hk => Nat.sInf_le hk⟩

/-- Different names do not enter at one place. -/
theorem EntersAt.names_eq (h : EntersAt edits names k) (h' : EntersAt edits names' k) :
    names = names' := by
  rcases h.1.1 with ⟨a, ha⟩
  rcases h'.1.1 with ⟨a', ha'⟩
  rw [ha, Option.some.injEq, Prod.mk.injEq] at ha'
  exact ha'.1

/-- An entry keeps its age when it is given another action, and when other names are edited. -/
theorem entersAt_concat (h : Spares edits e names) :
    EntersAt (edits ++ [e]) names k ↔ EntersAt edits names k := by
  by_cases hnames : e.1 = names
  · have hne : e ≠ (names, none) := by
      rintro rfl
      exact absurd (h rfl).1 (by simp)
    -- The new definition lasts too, but there is one before it that does.
    rcases lasting_nonempty_iff.2 (h hnames).2 with ⟨first, hfirst⟩
    have hlt := lt_of_mem_lasting hfirst
    constructor
    · rintro ⟨hmem, hleast⟩
      refine ⟨?_, fun j hj => hleast (mem_lasting_concat.2 ⟨hne, Or.inl hj⟩)⟩
      rcases (mem_lasting_concat.1 hmem).2 with hold | ⟨rfl, -⟩
      · exact hold
      · have := hleast (mem_lasting_concat.2 ⟨hne, Or.inl hfirst⟩)
        omega
    · rintro ⟨hmem, hleast⟩
      refine ⟨mem_lasting_concat.2 ⟨hne, Or.inl hmem⟩, fun j hj => ?_⟩
      rcases (mem_lasting_concat.1 hj).2 with hold | ⟨rfl, -⟩
      · exact hleast hold
      · exact (lt_of_mem_lasting hmem).le
  · rw [EntersAt, EntersAt, lasting_concat_of_ne hnames]

/-- Names under which nothing stands enter where they are defined. -/
theorem entersAt_concat_new {a : α} (h : standing? edits names = none) :
    EntersAt (edits ++ [(names, some a)]) names k ↔ k = edits.length := by
  have hnone : ∀ j, j ∉ lasting edits names := fun j hj => by
    have hsome := lasting_nonempty_iff.1 ⟨j, hj⟩
    rw [h] at hsome
    exact absurd hsome (by simp)
  have hmem : ∀ j, j ∈ lasting (edits ++ [(names, some a)]) names ↔ j = edits.length := fun j => by
    simp [mem_lasting_concat, hnone]
  constructor
  · exact fun hk => (hmem k).1 hk.1
  · rintro rfl
    exact ⟨(hmem _).2 rfl, fun j hj => ((hmem j).1 hj).ge⟩

/-! ### The order of the entries -/

/-- The first names entered before the second ones. -/
def Older (edits : List (Edit α)) (names names' : String × String) : Prop :=
  ∀ k k', EntersAt edits names k → EntersAt edits names' k' → k < k'

theorem Older.concat (h : Older edits names names') (hspares : Spares edits e names)
    (hspares' : Spares edits e names') : Older (edits ++ [e]) names names' := by
  intro k k' hk hk'
  exact h k k' ((entersAt_concat hspares).1 hk) ((entersAt_concat hspares').1 hk')

/-- The entries of a table stand in the order of their ages. -/
theorem pairwise_keys_ofEdits (edits : List (Edit α)) :
    (ofEdits edits).entries.keys.Pairwise (Older edits) := by
  induction edits using List.reverseRecOn with
  | nil => exact List.Pairwise.nil
  | append_singleton edits e ih =>
      obtain ⟨named, action⟩ := e
      rw [ofEdits_concat]
      cases action with
      | none =>
          -- One entry is taken out, and the others stay in their order.
          have hkeys : ((ofEdits edits).edit (named, none)).entries.keys =
              (ofEdits edits).entries.keys.filter (· ≠ named) :=
            OrderedMap.keys_erase named _
          have hother : ∀ n ∈ (ofEdits edits).entries.keys.filter (· ≠ named),
              Spares edits (named, none) n := fun n hn heq => by
            rw [List.mem_filter, decide_eq_true_eq] at hn
            exact absurd heq.symm hn.2
          rw [hkeys]
          exact (ih.filter _).imp_of_mem fun hn hn' h => h.concat (hother _ hn) (hother _ hn')
      | some a =>
          have hentries : ((ofEdits edits).edit (named, some a)).entries =
              (ofEdits edits).entries.insert named a := rfl
          -- Whatever is in the table already is spared.
          have hold : ∀ n ∈ (ofEdits edits).entries.keys, Spares edits (named, some a) n :=
            fun n hn _ => ⟨rfl, mem_keys_ofEdits.1 hn⟩
          have hstays := ih.imp_of_mem fun hn hn' h => h.concat (hold _ hn) (hold _ hn')
          rw [hentries, OrderedMap.keys_insert]
          by_cases hthere : named ∈ (ofEdits edits).entries.keys
          · rw [if_pos hthere]
            exact hstays
          · rw [if_neg hthere, List.pairwise_append]
            refine ⟨hstays, List.pairwise_singleton _ _, fun n hn n' hn' k k' hk hk' => ?_⟩
            have hnone : standing? edits named = none := by
              rwa [mem_keys_ofEdits, Bool.not_eq_true, Option.isSome_eq_false_iff,
                Option.isNone_iff_eq_none] at hthere
            rw [List.mem_singleton.1 hn', entersAt_concat_new hnone] at hk'
            rw [hk']
            exact lt_of_mem_lasting ((entersAt_concat (hold n hn)).1 hk).1

theorem mem_entries_ofEdits {a : α} :
    (names, a) ∈ (ofEdits edits).entries.entries ↔ standing? edits names = some a := by
  rw [← OrderedMap.get?_eq_some_iff, get?_ofEdits, standing?]

/-! ### What is found -/

/-- No two names are the oldest of a method. -/
theorem Oldest.unique {method : String} (h : Oldest edits method names)
    (h' : Oldest edits method names') : names = names' := by
  rcases h with ⟨hmethod, k, hk, hleast⟩
  rcases h' with ⟨hmethod', k', hk', hleast'⟩
  have heq : k = k' := le_antisymm (hleast names' k' hmethod' hk') (hleast' names k hmethod hk)
  subst heq
  exact hk.names_eq hk'

/-- The first entry of a method is the oldest one. -/
theorem oldest_of_find? {method : String} {entry : (String × String) × α}
    (h : (ofEdits edits).entries.entries.find? (fun e => e.1.2 = method) = some entry) :
    Oldest edits method entry.1 ∧ standing? edits entry.1 = some entry.2 := by
  have hstands := mem_entries_ofEdits.1 (List.mem_of_find?_eq_some h)
  rcases List.find?_eq_some_iff_append.1 h with ⟨hmethod, before, after, hsplit, hbefore⟩
  rcases exists_entersAt_iff.2 (by rw [hstands]; rfl : (standing? edits entry.1).isSome = true)
    with ⟨k, hk⟩
  refine ⟨⟨of_decide_eq_true hmethod, k, hk, fun names' k' hmethod' hk' => ?_⟩, hstands⟩
  have hkeys : (ofEdits edits).entries.keys =
      before.map Prod.fst ++ entry.1 :: after.map Prod.fst := by
    rw [OrderedMap.keys, hsplit, List.map_append, List.map_cons]
  have hmem : names' ∈ (ofEdits edits).entries.keys :=
    mem_keys_ofEdits.2 (exists_entersAt_iff.1 ⟨k', hk'⟩)
  rw [hkeys, List.mem_append, List.mem_cons] at hmem
  rcases hmem with hearlier | rfl | hlater
  · -- The entries before it are of other methods.
    rcases List.mem_map.1 hearlier with ⟨e, he, rfl⟩
    exact absurd (hbefore e he) (by simp [hmethod'])
  · rw [hk.unique hk']
  · have horder := pairwise_keys_ofEdits edits
    rw [hkeys, List.pairwise_append, List.pairwise_cons] at horder
    exact (horder.2.1.1 names' hlater k k' hk hk').le

theorem ofMethod?_eq_some_iff {method : String} {a : α} :
    (ofEdits edits).ofMethod? method = some a ↔
      ∃ names, Oldest edits method names ∧ standing? edits names = some a := by
  constructor
  · intro h
    rcases Option.map_eq_some_iff.1 h with ⟨entry, hentry, rfl⟩
    exact ⟨entry.1, oldest_of_find? hentry⟩
  · rintro ⟨names, holdest, hstands⟩
    have hthere : ∃ e ∈ (ofEdits edits).entries.entries, decide (e.1.2 = method) = true :=
      ⟨(names, a), mem_entries_ofEdits.2 hstands, decide_eq_true holdest.1⟩
    rcases Option.isSome_iff_exists.1 (List.find?_isSome.2 hthere) with ⟨entry, hentry⟩
    rcases oldest_of_find? hentry with ⟨holdest', hstands'⟩
    rw [holdest'.unique holdest, hstands] at hstands'
    rw [ofMethod?, hentry, Option.map_some, ← hstands']

theorem ofMethod?_eq_none_iff {method : String} :
    (ofEdits edits).ofMethod? method = none ↔
      ∀ names, names.2 = method → standing? edits names = none := by
  rw [ofMethod?, Option.map_eq_none_iff, List.find?_eq_none]
  constructor
  · intro h names hmethod
    rw [Option.eq_none_iff_forall_ne_some]
    intro a ha
    exact h (names, a) (mem_entries_ofEdits.2 ha) (by simp [hmethod])
  · rintro h ⟨names, a⟩ hentry hmethod
    rw [mem_entries_ofEdits, h names (of_decide_eq_true hmethod)] at hentry
    exact absurd hentry (by simp)

/-- A table has one entry for each pair of names under which an action stands. -/
theorem size_ofEdits (edits : List (Edit α)) :
    ((ofEdits edits).size : ℕ∞) = {names | (standing? edits names).isSome = true}.encard := by
  have hkeys : {names | (standing? edits names).isSome = true} =
      ↑(ofEdits edits).entries.keys.toFinset := by
    ext names
    rw [Set.mem_ofPred_eq, List.coe_toFinset, Set.mem_ofPred_eq, mem_keys_ofEdits]
  have hnodup : (ofEdits edits).entries.keys.Nodup := (ofEdits edits).entries.nodup
  rw [hkeys, Set.encard_coe_eq_coe_finsetCard, List.toFinset_card_of_nodup hnodup,
    OrderedMap.keys, List.length_map]
  rfl

/-- After any definitions and removals, what is found under a component that is not blank is what
    was last defined under exactly these names, if it was not removed since. Under a blank
    component it is what stands under the oldest names with the method, and nothing only if no
    names with the method are present; names are as old as their first definition since they
    were last removed. A further definition of names that are present leaves all ages as they
    are, an edit of other names leaves the age of an entry as it is, and a definition of names
    that are not present makes the youngest entry. A removal gives what stands under exactly
    these names, and there are as many entries as names that are present. -/
theorem actions_by_age (edits : List (Edit α)) :
    let t := ofEdits edits
    (∀ component method, Text.isBlank component = false →
      t.find? component method = standing? edits (component, method)) ∧
    (∀ component method, Text.isBlank component = true →
      (∀ a, t.find? component method = some a ↔
        ∃ names, Oldest edits method names ∧ standing? edits names = some a) ∧
      (t.find? component method = none ↔
        ∀ names, names.2 = method → standing? edits names = none)) ∧
    (∀ e names k, Spares edits e names →
      (EntersAt (edits ++ [e]) names k ↔ EntersAt edits names k)) ∧
    (∀ names a k, standing? edits names = none →
      (EntersAt (edits ++ [(names, some a)]) names k ↔ k = edits.length)) ∧
    (∀ component method, (t.remove component method).1 = standing? edits (component, method)) ∧
    (t.size : ℕ∞) = {names | (standing? edits names).isSome = true}.encard := by
  intro t
  refine ⟨fun component method hcomponent => ?_, fun component method hblank => ?_,
    fun _ _ _ => entersAt_concat, fun _ _ _ => entersAt_concat_new, fun component method => ?_,
    size_ofEdits edits⟩
  · exact find?_ofEdits hcomponent edits method
  · have hany : t.find? component method = t.ofMethod? method := if_pos hblank
    rw [hany]
    exact ⟨fun _ => ofMethod?_eq_some_iff, ofMethod?_eq_none_iff⟩
  · exact get?_ofEdits edits (component, method)

/-- The shop is first with the method and is given another action, but then it is removed; what it
    is defined as after that is younger than the entry of the bank. One component has no name. -/
def market : List (Edit Nat) :=
  [(("Shop", "open"), some 1), (("Bank", "close"), some 2), (("Bank", "open"), some 3),
    (("Shop", "open"), some 4), (("", "open"), some 5), (("Shop", "open"), none),
    (("Shop", "open"), some 6)]

theorem actions_by_age_market :
    (Text.isBlank "Shop" = false ∧ (ofEdits market).find? "Shop" "open" = some 6) ∧
      (Text.isBlank " " = true ∧ (ofEdits market).find? " " "open" = some 3 ∧
        Oldest market "open" ("Bank", "open")) ∧
      (Spares market (("Bank", "open"), some 7) ("Bank", "open") ∧
        (EntersAt (market ++ [(("Bank", "open"), some 7)]) ("Bank", "open") 2 ↔
          EntersAt market ("Bank", "open") 2)) ∧
      (standing? market ("Stall", "open") = none ∧
        EntersAt (market ++ [(("Stall", "open"), some 8)]) ("Stall", "open") 7) ∧
      ((ofEdits market).remove "" "open").1 = some 5 := by
  rcases actions_by_age market with ⟨hexact, hany, hspared, hnew, hremove, -⟩
  have hshop : Text.isBlank "Shop" = false := by decide +kernel
  have hblank : Text.isBlank " " = true := by decide +kernel
  have hfound : (ofEdits market).find? " " "open" = some 3 := by decide +kernel
  have hstays : Spares market (("Bank", "open"), some 7) ("Bank", "open") := fun _ => by
    decide +kernel
  have hstall : standing? market ("Stall", "open") = none := by decide +kernel
  -- The bank is the only one with this action.
  have hoffers : ∀ names, standing? market names = some 3 → names = ("Bank", "open") :=
    fun names hnames => by
      have hmem := mem_of_latest? (Option.join_eq_some_iff.1 hnames)
      simpa [market] using hmem
  rcases ((hany " " "open" hblank).1 3).1 hfound with ⟨names, holdest, hstands⟩
  refine ⟨⟨hshop, (hexact "Shop" "open" hshop).trans (by decide +kernel)⟩,
    ⟨hblank, hfound, hoffers names hstands ▸ holdest⟩, ⟨hstays, hspared _ _ _ hstays⟩,
    ⟨hstall, (hnew _ _ _ hstall).2 rfl⟩, (hremove "" "open").trans (by decide +kernel)⟩

end ActionTable

end BehaviorGraph
