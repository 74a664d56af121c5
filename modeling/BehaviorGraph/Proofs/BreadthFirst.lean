import BehaviorGraph.Graph.Basic
import Mathlib.Data.List.Nodup
import Mathlib.Logic.Relation
/-!
# Breadth First Walks by Levels

What a breadth first walk visits, and in which order.

`walk` is given the number of rounds its loop may take. `Walks` is the loop
without such a number: a derivation exists exactly if the queue runs empty, so
deriving it is a proof that the loop ends. A walk that ends is the same for every
number of rounds that is large enough, which is `walk_eq_of_walks`.

The order is told by levels. The first level is the start; the next one are the
successors of the last, in its order, less those that stood in a level before.
A queue that holds a level is turned into one that holds the next level by
visiting all of it, and this is the only fact about the queue that is needed.

The levels also measure distance: an element stands in the level whose number is
the length of the shortest path to it. If all successors come from a finite list,
a level behind the end of that list is empty, and then the walk is over.

## Main definitions

* `Walks`: The loop of a walk, without a bound on its rounds.
* `Walk.level`, `Walk.met`: The levels from a start, and what they hold so far.
* `Walk.Path`: Paths of a length.
* `Walk.IsDistance`: The length of a shortest path.

## Theorems

* `walk_eq_of_walks`: A walk that ends does not depend on its bound.
* `walks_append`: Visiting a part of the queue.
* `Walks.exists_before`: What is visited was in the queue, or comes after what leads to it.
* `Walk.walks_level`: Visiting a level leaves the next one in the queue.
* `Walk.walks_met`: A walk visits level after level.
* `Walk.mem_level_iff`: Levels measure distance.
* `Walk.level_eq_nil`: Levels come to an end.
* `Walk.walk_eq_met`, `Walk.mem_met_iff_reflTransGen`: A walk whose successors come from a
  list meets all that can be reached.
-/

namespace BehaviorGraph

variable {α : Type} [DecidableEq α]

/-! ### New elements -/

theorem mem_unseen {seen xs : List α} {x : α} : x ∈ unseen seen xs ↔ x ∈ xs ∧ x ∉ seen := by
  induction xs generalizing seen with
  | nil => simp [unseen]
  | cons y ys ih =>
      by_cases hy : y ∈ seen
      · rw [unseen, if_pos hy, ih, List.mem_cons]
        constructor
        · rintro ⟨hx, hs⟩
          exact ⟨Or.inr hx, hs⟩
        · rintro ⟨rfl | hx, hs⟩
          · exact absurd hy hs
          · exact ⟨hx, hs⟩
      · rw [unseen, if_neg hy, List.mem_cons, List.mem_cons, ih, List.mem_cons]
        by_cases hxy : x = y
        · subst hxy
          simp [hy]
        · simp [hxy]

theorem nodup_unseen (seen xs : List α) : (unseen seen xs).Nodup := by
  induction xs generalizing seen with
  | nil => exact List.nodup_nil
  | cons y ys ih =>
      by_cases hy : y ∈ seen
      · rw [unseen, if_pos hy]
        exact ih seen
      · rw [unseen, if_neg hy, List.nodup_cons]
        refine ⟨?_, ih _⟩
        rw [mem_unseen, not_and_not_right]
        exact fun _ => List.mem_cons_self

/-- Only membership in what was seen matters. -/
theorem unseen_congr {seen seen' : List α} (h : ∀ x, x ∈ seen ↔ x ∈ seen') (xs : List α) :
    unseen seen xs = unseen seen' xs := by
  induction xs generalizing seen seen' with
  | nil => rfl
  | cons y ys ih =>
      by_cases hy : y ∈ seen
      · rw [unseen, unseen, if_pos hy, if_pos ((h y).1 hy)]
        exact ih h
      · rw [unseen, unseen, if_neg hy, if_neg (fun hc => hy ((h y).2 hc))]
        have hcons : ∀ x, x ∈ y :: seen ↔ x ∈ y :: seen' := by
          intro x
          simp only [List.mem_cons, h x]
        rw [ih hcons]

theorem unseen_append (seen xs ys : List α) :
    unseen seen (xs ++ ys) = unseen seen xs ++ unseen (unseen seen xs ++ seen) ys := by
  induction xs generalizing seen with
  | nil => rfl
  | cons x xs ih =>
      rw [List.cons_append, unseen, unseen]
      by_cases hx : x ∈ seen
      · rw [if_pos hx, if_pos hx]
        exact ih seen
      · rw [if_neg hx, if_neg hx, ih, List.cons_append]
        congr 2
        refine unseen_congr (fun y => ?_) ys
        simp only [List.mem_append, List.mem_cons]
        tauto

/-- The new elements are those outside `seen`, repetitions left out. -/
theorem unseen_eq_eraseDups (seen xs : List α) :
    unseen seen xs = (xs.filter (· ∉ seen)).eraseDups := by
  induction xs generalizing seen with
  | nil => rfl
  | cons x xs ih =>
      by_cases hx : x ∈ seen
      · rw [unseen, if_pos hx, ih, List.filter_cons_of_neg (by simpa using hx)]
      · rw [unseen, if_neg hx, ih, List.filter_cons_of_pos (by simpa using hx),
          List.eraseDups_cons, List.filter_filter]
        congr 2
        refine List.filter_congr (fun y _ => ?_)
        by_cases hy : y = x <;> simp [hy]

/-- Elements that were seen before can be left out from the start. -/
theorem unseen_map_filter {β : Type} (f : β → α) {keep : β → Bool} {seen : List α} {bs : List β}
    (h : ∀ b ∈ bs, keep b = false → f b ∈ seen) :
    unseen seen ((bs.filter keep).map f) = unseen seen (bs.map f) := by
  induction bs generalizing seen with
  | nil => rfl
  | cons b bs ih =>
      have htail : ∀ b' ∈ bs, keep b' = false → f b' ∈ seen :=
        fun b' hb' => h b' (List.mem_cons_of_mem b hb')
      by_cases hseen : f b ∈ seen
      · rw [List.map_cons, unseen, if_pos hseen, ← ih htail]
        by_cases hkeep : keep b = true
        · rw [List.filter_cons_of_pos hkeep, List.map_cons, unseen, if_pos hseen]
        · rw [List.filter_cons_of_neg hkeep]
      · have hkeep : keep b = true := by
          by_contra hk
          exact hseen (h b List.mem_cons_self (Bool.eq_false_iff.2 hk))
        rw [List.filter_cons_of_pos hkeep, List.map_cons, List.map_cons, unseen, unseen,
          if_neg hseen, if_neg hseen]
        rw [ih fun b' hb' hk => List.mem_cons_of_mem _ (htail b' hb' hk)]

/-- What passes a test is new among what passes it if it is new at all. -/
theorem filter_unseen (keep : α → Bool) {seen seen' : List α}
    (h : ∀ x, keep x = true → (x ∈ seen ↔ x ∈ seen')) (xs : List α) :
    (unseen seen xs).filter keep = unseen seen' (xs.filter keep) := by
  -- What was seen may differ on the two sides, by elements that fail the test.
  induction xs generalizing seen seen' with
  | nil => rfl
  | cons x xs ih =>
      by_cases hkeep : keep x = true
      · rw [List.filter_cons_of_pos hkeep, unseen, unseen]
        by_cases hx : x ∈ seen
        · rw [if_pos hx, if_pos ((h x hkeep).1 hx)]
          exact ih h
        · rw [if_neg hx, if_neg (fun hc => hx ((h x hkeep).2 hc)), List.filter_cons_of_pos hkeep]
          have hcons : ∀ y, keep y = true → (y ∈ x :: seen ↔ y ∈ x :: seen') := by
            intro y hy
            simp only [List.mem_cons, h y hy]
          rw [ih hcons]
      · rw [List.filter_cons_of_neg hkeep, unseen]
        by_cases hx : x ∈ seen
        · rw [if_pos hx]
          exact ih h
        · rw [if_neg hx, List.filter_cons_of_neg hkeep]
          refine ih (fun y hy => ?_)
          rw [List.mem_cons, h y hy]
          constructor
          · rintro (rfl | hmem)
            · exact absurd hy hkeep
            · exact hmem
          · exact Or.inr

/-! ### The loop without a bound -/

/-- The loop of a walk: what is visited from a queue, where the elements in `met`
    are not queued again. -/
inductive Walks (next : α → List α) : List α → List α → List α → Prop where
  /-- Nothing is visited from an empty queue. -/
  | done (met : List α) : Walks next [] met []
  /-- The first of the queue is visited, and its new successors are queued. -/
  | visit {x : α} {queue met out : List α}
      (rest : Walks next (queue ++ unseen met (next x)) (unseen met (next x) ++ met) out) :
      Walks next (x :: queue) met (x :: out)

/-- A loop that ends is told by `walk` for every bound that leaves it enough
    rounds. -/
theorem walk_eq_of_walks {next : α → List α} {queue met out : List α}
    (h : Walks next queue met out) {rounds : Nat} (hr : out.length ≤ rounds) :
    walk next rounds queue met = out := by
  induction h generalizing rounds with
  | done met => cases rounds <;> rfl
  | visit _ ih =>
      -- Each element visited takes one round.
      rw [List.length_cons] at hr
      rcases rounds with _ | n
      · omega
      · rw [walk, ih (by omega)]

/-- The loop has one outcome. -/
theorem Walks.unique {next : α → List α} {queue met out out' : List α}
    (h : Walks next queue met out) (h' : Walks next queue met out') : out = out' := by
  -- Both are what `walk` gives for a bound that is large enough for either.
  have hleft := walk_eq_of_walks h (Nat.le_max_left out.length out'.length)
  have hright := walk_eq_of_walks h' (Nat.le_max_right out.length out'.length)
  rw [← hleft, hright]

/-- The loop looks at what was met for membership only. -/
theorem Walks.congr {next : α → List α} {queue met met' out : List α}
    (hm : ∀ x, x ∈ met ↔ x ∈ met') (h : Walks next queue met out) :
    Walks next queue met' out := by
  induction h generalizing met' with
  | done met => exact Walks.done met'
  | visit _ ih =>
      have hnew := unseen_congr hm
      refine Walks.visit ?_
      rw [← hnew]
      exact ih fun x => by rw [List.mem_append, List.mem_append, hm x]

/-- Successor functions that differ in nothing new give the same walk. -/
theorem Walks.of_agree {next : α → List α} {queue met out : List α} (next' : α → List α)
    (h : Walks next queue met out)
    (hagree : ∀ x ∈ out, ∀ seen, met ⊆ seen → unseen seen (next' x) = unseen seen (next x)) :
    Walks next' queue met out := by
  induction h with
  | done met => exact Walks.done met
  | visit _ ih =>
      rename_i x queue met out _
      refine Walks.visit ?_
      rw [hagree x List.mem_cons_self met (List.Subset.refl met)]
      refine ih (fun y hy seen hseen => ?_)
      refine hagree y (List.mem_cons_of_mem x hy) seen (fun z hz => hseen ?_)
      exact List.mem_append_right _ hz

/-- Elements that fail a test, and never lead to new ones that pass it, can be
    left out of a walk. -/
theorem Walks.filter {next : α → List α} {queue met met' out : List α} (next' : α → List α)
    (keep : α → Bool) (h : Walks next queue met out)
    (hkeep : ∀ x ∈ out, keep x = true → next' x = (next x).filter keep)
    (hdrop : ∀ x ∈ out, keep x = false → ∀ y ∈ next x, keep y = true → y ∈ met)
    (hmet : ∀ x, keep x = true → (x ∈ met ↔ x ∈ met')) :
    Walks next' (queue.filter keep) met' (out.filter keep) := by
  induction h generalizing met' with
  | done met => exact Walks.done met'
  | visit _ ih =>
      rename_i x queue met out _
      have hnew := filter_unseen keep hmet (next x)
      have hkeep' : ∀ y ∈ out, keep y = true → next' y = (next y).filter keep :=
        fun y hy => hkeep y (List.mem_cons_of_mem x hy)
      have hdrop' : ∀ y ∈ out, keep y = false →
          ∀ z ∈ next y, keep z = true → z ∈ unseen met (next x) ++ met :=
        fun y hy hk z hz hkz =>
          List.mem_append_right _ (hdrop y (List.mem_cons_of_mem x hy) hk z hz hkz)
      by_cases hx : keep x = true
      · rw [List.filter_cons_of_pos hx, List.filter_cons_of_pos hx]
        refine Walks.visit ?_
        rw [hkeep x List.mem_cons_self hx, ← hnew, ← List.filter_append]
        refine ih hkeep' hdrop' (fun y hy => ?_)
        simp only [List.mem_append, List.mem_filter, hmet y hy, hy, and_true]
      · rw [List.filter_cons_of_neg hx, List.filter_cons_of_neg hx]
        -- Nothing that passes the test is queued here.
        have hnone : (unseen met (next x)).filter keep = [] := by
          rw [List.filter_eq_nil_iff]
          intro y hy hky
          rw [mem_unseen] at hy
          exact hy.2 (hdrop x List.mem_cons_self (Bool.eq_false_iff.2 hx) y hy.1 hky)
        have hmet' : ∀ y, keep y = true → (y ∈ unseen met (next x) ++ met ↔ y ∈ met') := by
          intro y hy
          rw [List.mem_append, ← hmet y hy]
          constructor
          · rintro (hy' | hy')
            · have hf : y ∈ (unseen met (next x)).filter keep := List.mem_filter.2 ⟨hy', hy⟩
              rw [hnone] at hf
              exact absurd hf List.not_mem_nil
            · exact hy'
          · exact Or.inr
        have hrest := ih hkeep' hdrop' hmet'
        rwa [List.filter_append, hnone, List.append_nil] at hrest

/-- What did not stand in the queue at the start comes after something that leads to it. -/
theorem Walks.exists_before {next : α → List α} {queue met out before after : List α} {y : α}
    (h : Walks next queue met out) (hsplit : out = before ++ y :: after) (hy : y ∉ queue) :
    ∃ x ∈ before, y ∈ next x := by
  induction h generalizing before with
  | done met => exact absurd hsplit (by simp)
  | visit _ ih =>
      rename_i x queue met out _
      rcases before with _ | ⟨x', before⟩
      · -- The first one visited is the first of the queue.
        have hfirst : x = y := (List.cons.inj hsplit).1
        exact absurd (hfirst ▸ List.mem_cons_self) hy
      · rcases List.cons.inj hsplit with ⟨rfl, htail⟩
        by_cases hnew : y ∈ unseen met (next x)
        · exact ⟨x, List.mem_cons_self, (mem_unseen.1 hnew).1⟩
        · have hqueue : y ∉ queue ++ unseen met (next x) := by
            rw [List.mem_append, not_or]
            exact ⟨fun hold => hy (List.mem_cons_of_mem x hold), hnew⟩
          rcases ih htail hqueue with ⟨z, hz, hnext⟩
          exact ⟨z, List.mem_cons_of_mem x hz, hnext⟩

/-- Visiting the first part of a queue leaves the rest of it, with what is new
    behind that part. -/
theorem walks_append {next : α → List α} (xs : List α) {ys met out : List α}
    (h : Walks next (ys ++ unseen met (xs.flatMap next))
      (unseen met (xs.flatMap next) ++ met) out) :
    Walks next (xs ++ ys) met (xs ++ out) := by
  induction xs generalizing ys met with
  | nil => simpa [unseen] using h
  | cons x xs ih =>
      rw [List.cons_append, List.cons_append]
      refine Walks.visit ?_
      rw [List.append_assoc]
      refine ih ?_
      -- What was met is told in another order here, which does not matter.
      rw [List.flatMap_cons, unseen_append, ← List.append_assoc] at h
      refine Walks.congr (fun y => ?_) h
      simp only [List.mem_append]
      tauto

namespace Walk

/-! ### Levels -/

/-- The level with a number, and all that stands in the levels up to it. -/
def levelAndMet (next : α → List α) (start : α) : Nat → List α × List α
  | 0 => ([start], [start])
  | k + 1 =>
    let (last, met) := levelAndMet next start k
    let new := ((last.flatMap next).filter (· ∉ met)).eraseDups
    (new, met ++ new)

/-- The level with a number: the successors of the last level, in its order, that
    stand in no level before, each once. -/
def level (next : α → List α) (start : α) (k : Nat) : List α :=
  (levelAndMet next start k).1

/-- All that stands in the levels up to a number. -/
def met (next : α → List α) (start : α) (k : Nat) : List α :=
  (levelAndMet next start k).2

variable (next : α → List α) (start : α)

@[simp]
theorem level_zero : level next start 0 = [start] :=
  rfl

@[simp]
theorem met_zero : met next start 0 = [start] :=
  rfl

theorem level_succ (k : Nat) :
    level next start (k + 1) = unseen (met next start k) ((level next start k).flatMap next) := by
  rw [unseen_eq_eraseDups]
  rfl

theorem met_succ (k : Nat) :
    met next start (k + 1) = met next start k ++ level next start (k + 1) :=
  rfl

theorem met_eq_flatMap (k : Nat) :
    met next start k = (List.range (k + 1)).flatMap (level next start) := by
  induction k with
  | zero => rfl
  | succ k ih =>
      have hrange : List.range (k + 2) = List.range (k + 1) ++ [k + 1] := List.range_succ
      rw [met_succ, ih, hrange, List.flatMap_append, List.flatMap_singleton]

/-- Levels do not overlap, and hold nothing twice. -/
theorem nodup_met (k : Nat) : (met next start k).Nodup := by
  induction k with
  | zero => exact List.nodup_singleton start
  | succ k ih =>
      rw [met_succ, List.nodup_append]
      refine ⟨ih, ?_, ?_⟩
      · rw [level_succ]
        exact nodup_unseen _ _
      · intro a ha b hb hab
        rw [level_succ, mem_unseen] at hb
        exact hb.2 (hab ▸ ha)

/-- Visiting a level leaves the next level in the queue. -/
theorem walks_level {k : Nat} {out : List α}
    (h : Walks next (level next start (k + 1)) (met next start (k + 1)) out) :
    Walks next (level next start k) (met next start k) (level next start k ++ out) := by
  have hwalk : Walks next (level next start k ++ []) (met next start k)
      (level next start k ++ out) := by
    refine walks_append _ ?_
    rw [List.nil_append, ← level_succ]
    refine Walks.congr (fun x => ?_) h
    rw [met_succ, List.mem_append, List.mem_append, or_comm]
  rwa [List.append_nil] at hwalk

/-- A walk from the start visits level after level. -/
theorem walks_met {k : Nat} (hend : level next start (k + 1) = []) :
    Walks next [start] [start] (met next start k) := by
  -- The last level leaves nothing, and each level before it goes in front.
  have hback : ∀ d j, j + d = k →
      Walks next (level next start j) (met next start j)
        ((List.range' j (d + 1)).flatMap (level next start)) := by
    intro d
    induction d with
    | zero =>
        intro j hj
        rw [Nat.add_zero] at hj
        subst hj
        have hlast : Walks next (level next start (j + 1)) (met next start (j + 1)) [] := by
          rw [hend]
          exact Walks.done _
        simpa using walks_level next start hlast
    | succ d ih =>
        intro j hj
        rw [List.range'_succ, List.flatMap_cons]
        exact walks_level next start (ih (j + 1) (by omega))
  have h := hback k 0 (Nat.zero_add k)
  rwa [← List.range_eq_range', ← met_eq_flatMap] at h

/-! ### Distance -/

/-- A path of some length. -/
inductive Path (next : α → List α) : Nat → α → α → Prop where
  /-- The path that stays where it is. -/
  | here (x : α) : Path next 0 x x
  /-- A path with one more edge at its end. -/
  | onward {k : Nat} {x y z : α} (path : Path next k x y) (edge : z ∈ next y) :
      Path next (k + 1) x z

omit [DecidableEq α] in
/-- There is a path of some length where single edges lead. -/
theorem exists_path_iff {x y : α} :
    (∃ k, Path next k x y) ↔ Relation.ReflTransGen (fun a b => b ∈ next a) x y := by
  constructor
  · rintro ⟨k, h⟩
    induction h with
    | here x => exact Relation.ReflTransGen.refl
    | onward _ edge ih => exact ih.tail edge
  · intro h
    induction h with
    | refl => exact ⟨0, Path.here x⟩
    | tail _ edge ih =>
        rcases ih with ⟨k, path⟩
        exact ⟨k + 1, path.onward edge⟩

/-- The length of a shortest path. -/
def IsDistance (next : α → List α) (x : α) (k : Nat) (y : α) : Prop :=
  Path next k x y ∧ ∀ j < k, ¬ Path next j x y

omit [DecidableEq α] in
theorem IsDistance.unique {next : α → List α} {x y : α} {j k : Nat}
    (hj : IsDistance next x j y) (hk : IsDistance next x k y) : j = k := by
  rcases Nat.lt_trichotomy j k with h | h | h
  · exact absurd hj.1 (hk.2 j h)
  · exact h
  · exact absurd hk.1 (hj.2 k h)

omit [DecidableEq α] in
theorem exists_isDistance {next : α → List α} {x y : α} {k : Nat} (h : Path next k x y) :
    ∃ j ≤ k, IsDistance next x j y := by
  induction k using Nat.strongRecOn with
  | ind k ih =>
      -- A path that is not shortest gives way to a shorter one.
      by_cases hmin : ∃ j < k, Path next j x y
      · rcases hmin with ⟨j, hjk, hj⟩
        rcases ih j hjk hj with ⟨i, hij, hi⟩
        exact ⟨i, by omega, hi⟩
      · push Not at hmin
        exact ⟨k, Nat.le_refl k, h, hmin⟩

/-- Levels and distances, together with what was met and paths: each level needs
    the other half for the level before. -/
theorem level_and_met_spec (k : Nat) :
    (∀ x, x ∈ level next start k ↔ IsDistance next start k x) ∧
      ∀ x, x ∈ met next start k ↔ ∃ j ≤ k, Path next j start x := by
  induction k with
  | zero =>
      have hzero : ∀ x, Path next 0 start x ↔ x = start := by
        intro x
        constructor
        · rintro ⟨⟩
          rfl
        · rintro rfl
          exact Path.here x
      constructor
      · intro x
        simp [IsDistance, hzero]
      · intro x
        simp [hzero]
  | succ k ih =>
      rcases ih with ⟨hlevel, hmet⟩
      have hnext : ∀ x, x ∈ level next start (k + 1) ↔ IsDistance next start (k + 1) x := by
        intro x
        rw [level_succ, mem_unseen, List.mem_flatMap, hmet]
        constructor
        · rintro ⟨⟨y, hy, edge⟩, hnew⟩
          refine ⟨((hlevel y).1 hy).1.onward edge, fun j hj path => ?_⟩
          exact hnew ⟨j, by omega, path⟩
        · -- The last edge of a shortest path leaves an element of the last level.
          rintro ⟨path, hmin⟩
          constructor
          · cases path with
            | onward path edge =>
                rename_i y
                refine ⟨y, (hlevel y).2 ⟨path, fun j hj shorter => ?_⟩, edge⟩
                exact hmin (j + 1) (by omega) (shorter.onward edge)
          · rintro ⟨j, hj, shorter⟩
            exact hmin j (by omega) shorter
      refine ⟨hnext, fun x => ?_⟩
      rw [met_succ, List.mem_append, hmet, hnext]
      constructor
      · rintro (⟨j, hj, path⟩ | hd)
        · exact ⟨j, by omega, path⟩
        · exact ⟨k + 1, Nat.le_refl _, hd.1⟩
      · rintro ⟨j, hj, path⟩
        rcases exists_isDistance path with ⟨i, hi, hd⟩
        rcases Nat.lt_or_ge i (k + 1) with hlt | hge
        · exact Or.inl ⟨i, by omega, hd.1⟩
        · have hik : i = k + 1 := by omega
          exact Or.inr (hik ▸ hd)

/-- Levels measure distance. -/
theorem mem_level_iff {k : Nat} {x : α} :
    x ∈ level next start k ↔ IsDistance next start k x :=
  (level_and_met_spec next start k).1 x

theorem mem_met_iff {k : Nat} {x : α} :
    x ∈ met next start k ↔ ∃ j ≤ k, Path next j start x :=
  (level_and_met_spec next start k).2 x

/-! ### The end of the levels -/

theorem level_succ_eq_nil {k : Nat} (h : level next start k = []) :
    level next start (k + 1) = [] := by
  rw [level_succ, h]
  rfl

theorem level_ne_nil_of_le {j k : Nat} (h : level next start k ≠ []) (hjk : j ≤ k) :
    level next start j ≠ [] := by
  intro hj
  -- Behind an empty level all levels are empty.
  have hafter : ∀ d, level next start (j + d) = [] := by
    intro d
    induction d with
    | zero => exact hj
    | succ d ih => exact level_succ_eq_nil next start ih
  rw [← Nat.add_sub_cancel' hjk] at h
  exact h (hafter (k - j))

/-- As long as levels are not empty, each adds something. -/
theorem lt_length_met {k : Nat} (h : level next start k ≠ []) :
    k < (met next start k).length := by
  induction k with
  | zero => exact Nat.zero_lt_one
  | succ k ih =>
      have hk := ih (level_ne_nil_of_le next start h (Nat.le_succ k))
      have hpos := List.length_pos_of_ne_nil h
      rw [met_succ, List.length_append]
      omega

variable {next start}

theorem met_subset {domain : List α} (hu : ∀ x, next x ⊆ domain) (k : Nat) :
    met next start k ⊆ start :: domain := by
  intro x hx
  rcases (mem_met_iff next start).1 hx with ⟨j, -, path⟩
  cases path with
  | here => exact List.mem_cons_self
  | onward path edge => exact List.mem_cons_of_mem _ (hu _ edge)

theorem length_met_le {domain : List α} (hu : ∀ x, next x ⊆ domain) (k : Nat) :
    (met next start k).length ≤ domain.length + 1 :=
  (nodup_met next start k).length_le_of_subset (met_subset hu k)

/-- If all successors come from a list, nothing stands in a level with a larger
    number than the list is long. -/
theorem level_eq_nil {domain : List α} (hu : ∀ x, next x ⊆ domain) {k : Nat}
    (hk : domain.length < k) : level next start k = [] := by
  by_contra hne
  -- The levels up to `k` would hold more elements than there are.
  have hlt := lt_length_met next start hne
  have hle : (met next start k).length ≤ domain.length + 1 := length_met_le hu k
  omega

/-- A walk whose successors come from a list ends. -/
theorem walks_met_length {domain : List α} (hu : ∀ x, next x ⊆ domain) :
    Walks next [start] [start] (met next start domain.length) :=
  walks_met next start (level_eq_nil hu (Nat.lt_succ_self domain.length))

/-- It needs one round for each element of the list, and one for the start. -/
theorem walk_eq_met {domain : List α} (hu : ∀ x, next x ⊆ domain) :
    walk next (domain.length + 1) [start] [start] = met next start domain.length :=
  walk_eq_of_walks (walks_met_length hu) (length_met_le hu domain.length)

/-- It meets all that can be reached from the start. -/
theorem mem_met_iff_reflTransGen {domain : List α} (hu : ∀ x, next x ⊆ domain) {x : α} :
    x ∈ met next start domain.length ↔
      Relation.ReflTransGen (fun a b => b ∈ next a) start x := by
  rw [mem_met_iff, ← exists_path_iff]
  constructor
  · rintro ⟨k, -, path⟩
    exact ⟨k, path⟩
  · rintro ⟨k, path⟩
    rcases exists_isDistance path with ⟨j, -, hj⟩
    refine ⟨j, ?_, hj.1⟩
    -- A level that holds something is none of those behind the end.
    by_contra hlt
    have hmem := (mem_level_iff next start).2 hj
    rw [level_eq_nil hu (by omega)] at hmem
    exact List.not_mem_nil hmem

end Walk

end BehaviorGraph
