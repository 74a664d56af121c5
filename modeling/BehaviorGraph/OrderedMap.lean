/-!
# Ordered Maps

Maps from distinct keys to values that remember the order in which the keys
came.

Parameters of a step, actions of an object, objects of a scene and bindings
of keys are all shown in the order they were made, so the map is the list of
its entries together with a proof that no key stands in it twice. Writing to a
key that is present keeps the key's place; a new key goes to the end; erasing a
key keeps the order of the others. A key that is erased and written again is a
new key.

## Main definitions

* `OrderedMap`: Entries in order, under distinct keys.
* `OrderedMap.get?`: The value under a key.
* `OrderedMap.insert`: Write to a key, in place or at the end.
* `OrderedMap.erase`: Remove a key.
* `OrderedMap.update`: Change the value under a key, if it is there.
* `OrderedMap.retain`: Keep the entries that pass a test.
* `OrderedMap.ofList`: Write entries one after the other.

## Theorems

* `OrderedMap.keys_insert`: Where a key goes.
* `OrderedMap.ofList_entries`: Writing all entries again gives the same map.
* `OrderedMap.get?_insert`: What reading after writing gives.
* `OrderedMap.get?_erase`: What reading after erasing gives.
-/

namespace BehaviorGraph

universe u v w

/-- Entries in the order their keys came, no key twice. -/
structure OrderedMap (κ : Type u) (ν : Type v) where
  /-- The entries, oldest key first. -/
  entries : List (κ × ν)
  /-- The keys are distinct. -/
  nodup : (entries.map Prod.fst).Nodup
deriving DecidableEq

namespace OrderedMap

variable {κ : Type u} {ν : Type v}

/-- The map with no entry. -/
def empty : OrderedMap κ ν :=
  ⟨[], List.nodup_nil⟩

instance : Inhabited (OrderedMap κ ν) :=
  ⟨empty⟩

/-- The keys, oldest first. -/
def keys (m : OrderedMap κ ν) : List κ :=
  m.entries.map Prod.fst

/-- The values, in the order of their keys. -/
def values (m : OrderedMap κ ν) : List ν :=
  m.entries.map Prod.snd

/-- The number of entries. -/
def size (m : OrderedMap κ ν) : Nat :=
  m.entries.length

/-- Whether there is no entry. -/
def isEmpty (m : OrderedMap κ ν) : Bool :=
  m.entries.isEmpty

/-- Keep the entries that pass a test, in their order. -/
def retain (keep : κ → ν → Bool) (m : OrderedMap κ ν) : OrderedMap κ ν where
  entries := m.entries.filter fun e => keep e.1 e.2
  nodup := m.nodup.sublist (List.Sublist.map _ List.filter_sublist)

/-- Change every value, knowing its key. -/
def mapValues {μ : Type w} (f : κ → ν → μ) (m : OrderedMap κ ν) : OrderedMap κ μ where
  entries := m.entries.map fun e => (e.1, f e.1 e.2)
  nodup := by
    rw [List.map_map]
    exact m.nodup

@[ext]
theorem ext {a b : OrderedMap κ ν} (h : a.entries = b.entries) : a = b := by
  cases a
  cases b
  cases h
  rfl

@[simp]
theorem keys_empty : (empty : OrderedMap κ ν).keys = [] :=
  rfl

theorem keys_mapValues {μ : Type w} (f : κ → ν → μ) (m : OrderedMap κ ν) :
    (m.mapValues f).keys = m.keys := by
  simp [keys, mapValues]

theorem mem_keys_of_mem {m : OrderedMap κ ν} {k : κ} {v : ν} (h : (k, v) ∈ m.entries) :
    k ∈ m.keys :=
  List.mem_map.2 ⟨(k, v), h, rfl⟩

variable [DecidableEq κ]

/-- The value under a key. -/
def get? (m : OrderedMap κ ν) (k : κ) : Option ν :=
  (m.entries.find? fun e => e.1 = k).map Prod.snd

/-- Whether the key is present. -/
def contains (m : OrderedMap κ ν) (k : κ) : Bool :=
  (m.get? k).isSome

/-- Change the value under a key, if it is there. -/
def update (k : κ) (f : ν → ν) (m : OrderedMap κ ν) : OrderedMap κ ν :=
  m.mapValues fun k' v => if k' = k then f v else v

/-- Write to a key: in its place if it is there, else at the end. -/
def insert (k : κ) (v : ν) (m : OrderedMap κ ν) : OrderedMap κ ν :=
  if h : k ∈ m.keys then
    m.update k fun _ => v
  else
    { entries := m.entries ++ [(k, v)]
      nodup := by
        rw [List.map_append, List.nodup_append]
        refine ⟨m.nodup, by simp, ?_⟩
        intro a ha b hb
        simp only [List.map_cons, List.map_nil, List.mem_singleton] at hb
        rintro rfl
        exact h (hb ▸ ha) }

/-- Remove a key; the others keep their order. -/
def erase (k : κ) (m : OrderedMap κ ν) : OrderedMap κ ν :=
  m.retain fun k' _ => k' ≠ k

/-- Write the entries one after the other: a repeated key keeps its first
    place and takes its last value. -/
def ofList (es : List (κ × ν)) : OrderedMap κ ν :=
  es.foldl (fun m e => m.insert e.1 e.2) empty

/-- The same keys with the same values, whatever their order, where `same`
    compares the values. -/
def sameBy (same : ν → ν → Bool) (a b : OrderedMap κ ν) : Bool :=
  a.size == b.size &&
    a.entries.all fun e =>
      match b.get? e.1 with
      | some v => same e.2 v
      | none => false

/-! ### Laws -/

@[simp]
theorem get?_empty (k : κ) : (empty : OrderedMap κ ν).get? k = none :=
  rfl

@[simp]
theorem keys_update (k : κ) (f : ν → ν) (m : OrderedMap κ ν) :
    (m.update k f).keys = m.keys :=
  keys_mapValues _ m

theorem keys_insert (k : κ) (v : ν) (m : OrderedMap κ ν) :
    (m.insert k v).keys = if k ∈ m.keys then m.keys else m.keys ++ [k] := by
  by_cases h : k ∈ m.keys
  · simp [insert, h]
  · simp only [insert, h, ↓reduceDIte, ↓reduceIte]
    simp [keys]

/-- Looking a key up in a list of entries under distinct keys finds its entry. -/
theorem find?_eq_some_of_mem {es : List (κ × ν)} (hn : (es.map Prod.fst).Nodup)
    {k : κ} {v : ν} (h : (k, v) ∈ es) : es.find? (fun e => e.1 = k) = some (k, v) := by
  induction es with
  | nil => simp at h
  | cons e es ih =>
      rw [List.map_cons, List.nodup_cons] at hn
      rcases List.mem_cons.1 h with rfl | htail
      · simp
      · have hne : e.1 ≠ k := by
          rintro rfl
          exact hn.1 (List.mem_map.2 ⟨(e.1, v), htail, rfl⟩)
        simp [hne, ih hn.2 htail]

theorem get?_eq_some_iff {m : OrderedMap κ ν} {k : κ} {v : ν} :
    m.get? k = some v ↔ (k, v) ∈ m.entries := by
  constructor
  · intro h
    simp only [get?, Option.map_eq_some_iff] at h
    rcases h with ⟨e, he, hv⟩
    have hk : e.1 = k := by simpa using List.find?_some he
    have hm := List.mem_of_find?_eq_some he
    rw [← hk, ← hv]
    exact hm
  · intro h
    simp [get?, find?_eq_some_of_mem m.nodup h]

theorem get?_eq_none_iff {m : OrderedMap κ ν} {k : κ} : m.get? k = none ↔ k ∉ m.keys := by
  constructor
  · intro h hk
    rcases List.mem_map.1 hk with ⟨e, he, hek⟩
    have : m.get? k = some e.2 := get?_eq_some_iff.2 (by rw [← hek]; exact he)
    rw [h] at this
    exact absurd this (by simp)
  · intro h
    rcases hg : m.get? k with _ | v
    · rfl
    · exact absurd (mem_keys_of_mem (get?_eq_some_iff.1 hg)) h

theorem contains_iff {m : OrderedMap κ ν} {k : κ} : m.contains k = true ↔ k ∈ m.keys := by
  rw [contains, Option.isSome_iff_ne_none, ne_eq, get?_eq_none_iff, Classical.not_not]

theorem get?_update (k k' : κ) (f : ν → ν) (m : OrderedMap κ ν) :
    (m.update k f).get? k' = if k' = k then (m.get? k').map f else m.get? k' := by
  rcases h : m.get? k' with _ | v
  · have : (m.update k f).get? k' = none := by
      rw [get?_eq_none_iff, keys_update]
      exact get?_eq_none_iff.1 h
    simp [this]
  · have hm := get?_eq_some_iff.1 h
    have : (k', if k' = k then f v else v) ∈ (m.update k f).entries :=
      List.mem_map.2 ⟨(k', v), hm, rfl⟩
    rw [get?_eq_some_iff.2 this]
    by_cases hk : k' = k <;> simp [hk]

theorem get?_insert (k k' : κ) (v : ν) (m : OrderedMap κ ν) :
    (m.insert k v).get? k' = if k' = k then some v else m.get? k' := by
  by_cases h : k ∈ m.keys
  · have hu : m.insert k v = m.update k fun _ => v := by simp [insert, h]
    rw [hu, get?_update]
    by_cases hk : k' = k
    · subst hk
      rcases hg : m.get? k' with _ | x
      · exact absurd h (get?_eq_none_iff.1 hg)
      · simp
    · simp [hk]
  · by_cases hk : k' = k
    · subst hk
      rw [if_pos rfl, get?_eq_some_iff]
      simp [insert, h]
    · rw [if_neg hk]
      rcases hg : m.get? k' with _ | x
      · rw [get?_eq_none_iff, keys_insert, if_neg h, List.mem_append, not_or]
        exact ⟨get?_eq_none_iff.1 hg, by simpa using hk⟩
      · rw [get?_eq_some_iff] at hg ⊢
        simp [insert, h, hg]

theorem entries_insert_of_notMem {k : κ} {v : ν} {m : OrderedMap κ ν} (h : k ∉ m.keys) :
    (m.insert k v).entries = m.entries ++ [(k, v)] := by
  simp [insert, h]

/-- Writing entries under new keys puts them at the end. -/
theorem entries_foldl_insert {es : List (κ × ν)} {m : OrderedMap κ ν}
    (h : (m.keys ++ es.map Prod.fst).Nodup) :
    (es.foldl (fun m e => m.insert e.1 e.2) m).entries = m.entries ++ es := by
  induction es generalizing m with
  | nil => simp
  | cons e es ih =>
      have hsplit : m.keys ++ (e :: es).map Prod.fst = (m.keys ++ [e.1]) ++ es.map Prod.fst := by
        simp
      rw [hsplit] at h
      have hnew : e.1 ∉ m.keys := by
        intro hmem
        have hold := (List.nodup_append.1 h).1
        exact (List.nodup_append.1 hold).2.2 _ hmem _ (List.mem_singleton_self _) rfl
      have hkeys : (m.insert e.1 e.2).keys = m.keys ++ [e.1] := by
        rw [keys_insert, if_neg hnew]
      rw [List.foldl_cons, ih (by rw [hkeys]; exact h), entries_insert_of_notMem hnew]
      simp

/-- Writing the entries of a map one after the other gives the map back. -/
theorem ofList_entries (m : OrderedMap κ ν) : ofList m.entries = m := by
  ext1
  have h : ((empty : OrderedMap κ ν).keys ++ m.entries.map Prod.fst).Nodup := m.nodup
  exact entries_foldl_insert h

theorem get?_retain (keep : κ → ν → Bool) (k : κ) (m : OrderedMap κ ν) :
    (m.retain keep).get? k = (m.get? k).filter (keep k) := by
  rcases hg : m.get? k with _ | x
  · have : (m.retain keep).get? k = none := by
      rw [get?_eq_none_iff]
      intro hk
      rcases List.mem_map.1 hk with ⟨e, he, hek⟩
      have hm : e ∈ m.entries := (List.mem_filter.1 he).1
      exact get?_eq_none_iff.1 hg (List.mem_map.2 ⟨e, hm, hek⟩)
    simp [this]
  · have hm := get?_eq_some_iff.1 hg
    by_cases hkeep : keep k x = true
    · have : (k, x) ∈ (m.retain keep).entries := List.mem_filter.2 ⟨hm, hkeep⟩
      rw [get?_eq_some_iff.2 this]
      simp [Option.filter, hkeep]
    · have : (m.retain keep).get? k = none := by
        rw [get?_eq_none_iff]
        intro hk
        rcases List.mem_map.1 hk with ⟨e, he, hek⟩
        rcases List.mem_filter.1 he with ⟨hem, hek2⟩
        have hx : m.get? k = some e.2 := get?_eq_some_iff.2 (by rw [← hek]; exact hem)
        rw [hg] at hx
        simp only [Option.some.injEq] at hx
        rw [hek, ← hx] at hek2
        exact hkeep hek2
      simp [this, Option.filter, hkeep]

theorem get?_erase (k k' : κ) (m : OrderedMap κ ν) :
    (m.erase k).get? k' = if k' = k then none else m.get? k' := by
  rw [erase, get?_retain]
  by_cases h : k' = k
  · simp only [h, ↓reduceIte]
    rcases m.get? k with _ | x <;> simp [Option.filter]
  · simp only [h, ↓reduceIte]
    rcases m.get? k' with _ | x <;> simp [Option.filter, h]

end OrderedMap

end BehaviorGraph
