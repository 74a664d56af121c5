import BehaviorGraph.Bake.Basic
import Mathlib.Data.List.Nodup
import Mathlib.Logic.Relation
/-!
# Depth First Walks

The recursion behind a walk that keeps a stack.

`Visits` is the walk as one would explain it: take the places of a list one after
the other; pass over a place that was visited, and for any other, place it and
visit its children before going on. A derivation is a recursion that ends, and
there is one outcome at most.

`visitAll` has no recursion to return from. It puts the children of a place on top
of its stack, those left out that were visited by then, and looks again when it
takes a place from the stack. Both are harmless: what was visited stays visited,
so leaving it out early (`visits_filter_iff`) is passing over it later, and what
stands on the stack is visited part by part (`visits_append_iff`).

Every round takes a place from the stack, and puts at most the arcs out of a new
place there, so the places on the stack and the arcs out of places not yet
visited bound the rounds together.

## Main definitions

* `Visits`: The recursive walk.
* `pendingArcs`: The arcs out of places that were not visited.

## Theorems

* `visits_visitAll`: The walk with a stack is the recursive walk.
* `Visits.unique`: The recursive walk has one outcome.
* `Visits.nodup`: No place is placed twice.
* `Visits.mem_iff_reachable`: It places what can be reached.
* `Visits.exists_parent`: A place that the walk does not start with comes after a parent.
-/

namespace BehaviorGraph

/-- Visit the places of a list one after the other, where some places were visited
    before, and end with these and the places added to them. -/
inductive Visits (next : Nat → List Nat) : List Nat → List Nat → List Nat → Prop where
  /-- There is nothing left to visit. -/
  | done (visited : List Nat) : Visits next [] visited visited
  /-- A place that was visited is passed over. -/
  | passOver {i : Nat} {todo visited out : List Nat} (old : i ∈ visited)
      (rest : Visits next todo visited out) : Visits next (i :: todo) visited out
  /-- A new place is added, and its children are visited before going on. -/
  | place {i : Nat} {todo visited inner out : List Nat} (new : i ∉ visited)
      (below : Visits next (next i) (visited ++ [i]) inner)
      (rest : Visits next todo inner out) : Visits next (i :: todo) visited out

variable {next : Nat → List Nat} {todo visited out : List Nat}

/-! ### What a walk adds -/

/-- Places are only added, at the end. -/
theorem Visits.isPrefix (h : Visits next todo visited out) : visited <+: out := by
  induction h with
  | done visited => exact List.prefix_refl visited
  | passOver _ _ ih => exact ih
  | place _ _ _ ihbelow ihrest =>
      exact ((List.prefix_append _ _).trans ihbelow).trans ihrest

theorem Visits.subset (h : Visits next todo visited out) : visited ⊆ out :=
  h.isPrefix.subset

theorem Visits.unique (h : Visits next todo visited out) {out' : List Nat}
    (h' : Visits next todo visited out') : out = out' := by
  -- Which rule applies is told by the list and by what was visited, so both
  -- derivations take the same one.
  induction h generalizing out' with
  | done visited =>
      cases h'
      rfl
  | passOver old _ ih =>
      cases h' with
      | passOver _ rest' => exact ih rest'
      | place new _ _ => exact absurd old new
  | place new _ _ ihbelow ihrest =>
      cases h' with
      | passOver old _ => exact absurd old new
      | place _ below' rest' =>
          rw [← ihbelow below'] at rest'
          exact ihrest rest'

theorem Visits.nodup (h : Visits next todo visited out) (hv : visited.Nodup) : out.Nodup := by
  induction h with
  | done visited => exact hv
  | passOver _ _ ih => exact ih hv
  | place new _ _ ihbelow ihrest =>
      refine ihrest (ihbelow ?_)
      rw [List.nodup_append]
      refine ⟨hv, List.nodup_singleton _, ?_⟩
      intro a ha b hb hab
      rw [List.mem_singleton] at hb
      exact new (hb ▸ hab ▸ ha)

/-- Everything that was to be visited has been, and so have the children of
    everything that was added. -/
theorem Visits.closed (h : Visits next todo visited out) :
    todo ⊆ out ∧ ∀ i ∈ out, i ∉ visited → next i ⊆ out := by
  induction h with
  | done visited =>
      exact ⟨List.nil_subset visited, fun i hi hnew => absurd hi hnew⟩
  | passOver old rest ih =>
      exact ⟨List.cons_subset.2 ⟨rest.subset old, ih.1⟩, ih.2⟩
  | place new below rest ihbelow ihrest =>
      rename_i i todo visited inner out
      have hi : i ∈ inner := below.subset (by simp)
      refine ⟨List.cons_subset.2 ⟨rest.subset hi, ihrest.1⟩, fun j hj hnew => ?_⟩
      by_cases hjinner : j ∈ inner
      · -- Added below, or the place itself.
        refine List.Subset.trans ?_ rest.subset
        by_cases hji : j = i
        · rw [hji]
          exact ihbelow.1
        · exact ihbelow.2 j hjinner (by simp [hnew, hji])
      · exact ihrest.2 j hj hjinner

theorem Visits.reachable (h : Visits next todo visited out) :
    ∀ j ∈ out, j ∈ visited ∨ ∃ i ∈ todo, Relation.ReflTransGen (fun a b => b ∈ next a) i j := by
  -- What is visited below a place is reached from it, by the arc to the child first.
  induction h with
  | done visited => exact fun j hj => Or.inl hj
  | passOver _ _ ih =>
      intro j hj
      rcases ih j hj with hold | ⟨i, hi, hreach⟩
      · exact Or.inl hold
      · exact Or.inr ⟨i, List.mem_cons_of_mem _ hi, hreach⟩
  | place _ _ _ ihbelow ihrest =>
      rename_i i todo visited inner out _ _ _
      intro j hj
      rcases ihrest j hj with hinner | ⟨k, hk, hreach⟩
      · rcases ihbelow j hinner with hold | ⟨k, hk, hreach⟩
        · rcases List.mem_append.1 hold with hv | hi
          · exact Or.inl hv
          · rw [List.mem_singleton] at hi
            exact Or.inr ⟨i, List.mem_cons_self, hi ▸ Relation.ReflTransGen.refl⟩
        · exact Or.inr ⟨i, List.mem_cons_self, Relation.ReflTransGen.head hk hreach⟩
      · exact Or.inr ⟨k, List.mem_cons_of_mem _ hk, hreach⟩

/-- A place that was not visited before and that the walk does not start with is placed
    after one of its parents: the one whose children were being visited. -/
theorem Visits.exists_parent (h : Visits next todo visited out) :
    ∀ j ∈ out, j ∈ visited ∨ j ∈ todo ∨ ∃ i, j ∈ next i ∧ List.Sublist [i, j] out := by
  induction h with
  | done visited => exact fun j hj => Or.inl hj
  | passOver _ _ ih =>
      intro j hj
      rcases ih j hj with hold | htodo | hparent
      · exact Or.inl hold
      · exact Or.inr (Or.inl (List.mem_cons_of_mem _ htodo))
      · exact Or.inr (Or.inr hparent)
  | place new below rest ihbelow ihrest =>
      rename_i i todo visited inner out
      intro j hj
      by_cases hfirst : j ∈ visited ++ [i]
      · rcases List.mem_append.1 hfirst with hold | hi
        · exact Or.inl hold
        · rw [List.mem_singleton] at hi
          exact Or.inr (Or.inl (hi ▸ List.mem_cons_self))
      rcases ihrest j hj with hinner | htodo | hparent
      · rcases ihbelow j hinner with hold | hchild | ⟨k, hk, hbefore⟩
        · exact absurd hold hfirst
        · -- A child of the place `i`, which was the last one when its children were begun with.
          rcases below.isPrefix with ⟨added, rfl⟩
          have hadded : j ∈ added := (List.mem_append.1 hinner).resolve_left hfirst
          have hpair : List.Sublist [i, j] (visited ++ [i] ++ added) :=
            (List.singleton_sublist.2 (by simp)).append (List.singleton_sublist.2 hadded)
          exact Or.inr (Or.inr ⟨i, hchild, hpair.trans rest.isPrefix.sublist⟩)
        · exact Or.inr (Or.inr ⟨k, hk, hbefore.trans rest.isPrefix.sublist⟩)
      · exact Or.inr (Or.inl (List.mem_cons_of_mem _ htodo))
      · exact Or.inr (Or.inr hparent)

/-- A walk that starts with nothing visited places exactly what can be reached. -/
theorem Visits.mem_iff_reachable (h : Visits next todo [] out) {j : Nat} :
    j ∈ out ↔ ∃ i ∈ todo, Relation.ReflTransGen (fun a b => b ∈ next a) i j := by
  constructor
  · intro hj
    rcases h.reachable j hj with hold | hreach
    · exact absurd hold List.not_mem_nil
    · exact hreach
  · -- Nothing was visited before, so all of the outcome is closed under arcs.
    rintro ⟨i, hi, hreach⟩
    induction hreach with
    | refl => exact h.closed.1 hi
    | tail _ hedge ih => exact h.closed.2 _ ih List.not_mem_nil hedge

/-! ### Lists that are put together or thinned out -/

theorem visits_append_iff {todo' : List Nat} :
    Visits next (todo ++ todo') visited out ↔
      ∃ mid, Visits next todo visited mid ∧ Visits next todo' mid out := by
  constructor
  · intro h
    induction todo generalizing visited with
    | nil => exact ⟨visited, Visits.done visited, h⟩
    | cons i todo ih =>
        rw [List.cons_append] at h
        cases h with
        | passOver old rest =>
            rcases ih rest with ⟨mid, hleft, hright⟩
            exact ⟨mid, Visits.passOver old hleft, hright⟩
        | place new below rest =>
            rcases ih rest with ⟨mid, hleft, hright⟩
            exact ⟨mid, Visits.place new below hleft, hright⟩
  · -- The first walk is rebuilt on top of the second, which takes the place of its end.
    rintro ⟨mid, hleft, hright⟩
    induction hleft with
    | done _ => exact hright
    | passOver old _ ih => exact Visits.passOver old (ih hright)
    | place new below _ _ ih => exact Visits.place new below (ih hright)

/-- Places that were visited can be left out at any time before. -/
theorem visits_filter_iff {old : List Nat} (hold : old ⊆ visited) :
    Visits next (todo.filter (· ∉ old)) visited out ↔ Visits next todo visited out := by
  -- What was visited grows on the way, so `old` stays a part of it.
  induction todo generalizing visited with
  | nil => rfl
  | cons i todo ih =>
      by_cases hi : i ∈ old
      · rw [List.filter_cons_of_neg (by simpa using hi), ih hold]
        constructor
        · exact Visits.passOver (hold hi)
        · intro h
          cases h with
          | passOver _ rest => exact rest
          | place new _ _ => exact absurd (hold hi) new
      · rw [List.filter_cons_of_pos (by simpa using hi)]
        constructor
        · intro h
          cases h with
          | passOver hv rest => exact Visits.passOver hv ((ih hold).1 rest)
          | place hv below rest =>
              have hinner := List.Subset.trans (List.subset_append_left visited [i]) below.subset
              exact Visits.place hv below ((ih (List.Subset.trans hold hinner)).1 rest)
        · intro h
          cases h with
          | passOver hv rest => exact Visits.passOver hv ((ih hold).2 rest)
          | place hv below rest =>
              have hinner := List.Subset.trans (List.subset_append_left visited [i]) below.subset
              exact Visits.place hv below ((ih (List.Subset.trans hold hinner)).2 rest)

/-! ### The walk with a stack -/

/-- The arcs out of places that were not visited. -/
def pendingArcs (arcs : List (Nat × Nat)) (visited : List Nat) : List (Nat × Nat) :=
  arcs.filter fun a => a.1 ∉ visited

/-- A new place takes its arcs from those pending. -/
theorem length_pendingArcs_add (arcs : List (Nat × Nat)) {i : Nat} {visited : List Nat}
    (hi : i ∉ visited) :
    (pendingArcs arcs (visited ++ [i])).length + (children arcs i).length
      = (pendingArcs arcs visited).length := by
  rw [children, List.length_map]
  induction arcs with
  | nil => rfl
  | cons a arcs ih =>
      simp only [pendingArcs, List.filter_cons, List.mem_append, List.mem_singleton] at ih ⊢
      by_cases ha : a.1 = i
      · simp only [ha, hi, or_true, not_true_eq_false, decide_false, Bool.false_eq_true,
          not_false_eq_true, decide_true, ↓reduceIte, List.length_cons]
        omega
      · by_cases hv : a.1 ∈ visited
        · simpa [ha, hv] using ih
        · simp only [ha, hv, or_self, not_false_eq_true, decide_true, decide_false,
            Bool.false_eq_true, ↓reduceIte, List.length_cons]
          omega

theorem visits_visitAll (arcs : List (Nat × Nat)) {rounds : Nat} {stack visited : List Nat}
    (h : stack.length + (pendingArcs arcs visited).length ≤ rounds) :
    Visits (children arcs) stack visited (visitAll arcs rounds stack visited) := by
  -- A round that places a child pays for its place with a round, and for its
  -- children with the arcs that are no longer pending.
  induction rounds generalizing stack visited with
  | zero =>
      rcases stack with _ | ⟨i, stack⟩
      · exact Visits.done visited
      · rw [List.length_cons] at h
        omega
  | succ rounds ih =>
      rcases stack with _ | ⟨i, stack⟩
      · exact Visits.done visited
      rw [List.length_cons] at h
      by_cases hi : i ∈ visited
      · rw [visitAll, if_pos hi]
        exact Visits.passOver hi (ih (by omega))
      · rw [visitAll, if_neg hi]
        have harcs := length_pendingArcs_add arcs hi
        have hkept := List.length_filter_le (fun j => decide (j ∉ visited ++ [i])) (children arcs i)
        have hbound : ((children arcs i).filter (· ∉ visited ++ [i]) ++ stack).length
            + (pendingArcs arcs (visited ++ [i])).length ≤ rounds := by
          rw [List.length_append]
          omega
        -- The children and the old stack are one stack here, and two walks in the recursion.
        rcases visits_append_iff.1 (ih hbound) with ⟨inner, hbelow, htail⟩
        exact Visits.place hi ((visits_filter_iff (List.Subset.refl _)).1 hbelow) htail

end BehaviorGraph
