import BehaviorGraph.Number.Plain
import Mathlib.Algebra.Order.Field.Power
import Mathlib.Algebra.Order.Field.Rat
import Mathlib.Algebra.Order.Floor.Ring
import Mathlib.Data.Rat.Floor
/-!
# Leading Digits

The shortest decimal of a number that is not zero starts with a digit that is not zero.

The shortest decimal is searched on grids of powers of ten, the first of which is the
largest power that the number reaches. So on every grid that is tried the number is at
least one step away from zero, and both its neighbours there have a digit to show. That the
first grid is the right one is a matter of lengths: a number of so many digits lies between
two powers of ten.

## Main definitions

* `Decimal.LeadsNonzero`: The first digit is not zero.
* `RoundingInterval.below`: The lower neighbour of a number on a grid.

## Theorems

* `digitsOf_eq_cons`: The digits of a number that is not zero have no leading zero.
* `pow_decimalExponent_le`: The search starts on a grid that the number reaches.
* `RoundingInterval.onGrid?_neighbour`: A grid offers a neighbour of the number.
* `Single.leadsNonzero_shortest`: The shortest decimal has no leading zero.
-/

namespace BehaviorGraph

/-! ### Digits of natural numbers -/

theorem digitsOf_ne_nil (n : Nat) : digitsOf n ≠ [] := by
  rw [digitsOf]
  split
  · exact List.cons_ne_nil _ _
  · exact List.append_ne_nil_of_right_ne_nil _ (List.cons_ne_nil _ _)

theorem digitsOf_eq_cons {n : Nat} (hn : n ≠ 0) :
    ∃ d ds, digitsOf n = d :: ds ∧ d ≠ Digit.zero := by
  fun_induction digitsOf n with
  | case1 n h => exact ⟨_, [], rfl, fun heq => hn (congrArg Fin.val heq)⟩
  | case2 n h ih =>
      rcases ih (by omega) with ⟨d, ds, heq, hd⟩
      exact ⟨d, _, by rw [heq, List.cons_append], hd⟩

theorem lt_pow_length_digitsOf (n : Nat) : n < 10 ^ (digitsOf n).length := by
  fun_induction digitsOf n with
  | case1 n h => simpa using h
  | case2 n h ih =>
      rw [List.length_append, List.length_singleton, Nat.pow_succ]
      omega

theorem pow_length_digitsOf_le {n : Nat} (hn : n ≠ 0) : 10 ^ ((digitsOf n).length - 1) ≤ n := by
  fun_induction digitsOf n with
  | case1 n h => simpa using Nat.one_le_iff_ne_zero.2 hn
  | case2 n h ih =>
      have hle := ih (by omega)
      have hlength := List.length_pos_iff.2 (digitsOf_ne_nil (n / 10))
      obtain ⟨k, hk⟩ : ∃ k, (digitsOf (n / 10)).length = k + 1 :=
        Nat.exists_eq_add_of_le' hlength
      rw [hk, Nat.add_sub_cancel] at hle
      rw [List.length_append, List.length_singleton, hk, Nat.add_sub_cancel, Nat.pow_succ]
      omega

/-! ### The first grid -/

/-- The number reaches the power of ten with its decimal exponent. -/
theorem pow_decimalExponent_le {x : Rat} (hx : 0 < x) : (10 : Rat) ^ decimalExponent x ≤ x := by
  have hne : x.num.natAbs ≠ 0 := Int.natAbs_ne_zero.2 (ne_of_gt (Rat.num_pos.2 hx))
  have hvalue : x = (x.num.natAbs : Rat) / (x.den : Rat) := by
    have hnum : ((x.num.natAbs : Int) : Rat) = x.num := by
      rw [Int.natAbs_of_nonneg (Rat.num_nonneg.2 hx.le)]
    rw [← Int.cast_natCast x.num.natAbs, hnum, Rat.num_div_den]
  rw [decimalExponent]
  split
  · -- A number with as many digits as these is at least the quotient of two powers.
    have hnum : (10 : Rat) ^ ((digitsOf x.num.natAbs).length - 1) ≤ x.num.natAbs := by
      exact_mod_cast pow_length_digitsOf_le hne
    have hden : (x.den : Rat) ≤ 10 ^ (digitsOf x.den).length := by
      exact_mod_cast (lt_pow_length_digitsOf x.den).le
    have hexponent : ((digitsOf x.num.natAbs).length : Int) - (digitsOf x.den).length - 1 =
        ((digitsOf x.num.natAbs).length - 1 : Nat) - ((digitsOf x.den).length : Int) := by
      have hlength := List.length_pos_iff.2 (digitsOf_ne_nil x.num.natAbs)
      omega
    have hpos : (0 : Rat) < x.den := by exact_mod_cast x.den_pos
    calc (10 : Rat) ^ (((digitsOf x.num.natAbs).length : Int) - (digitsOf x.den).length - 1)
      _ = 10 ^ ((digitsOf x.num.natAbs).length - 1) / 10 ^ (digitsOf x.den).length := by
          rw [hexponent, zpow_sub₀ (by norm_num), zpow_natCast, zpow_natCast]
      _ ≤ x.num.natAbs / x.den := div_le_div₀ (Nat.cast_nonneg _) hnum hpos hden
      _ = x := hvalue.symm
  · next hge => exact not_lt.1 hge

/-! ### Grids -/

/-- The decimal has a digit, and the first is not zero. -/
def Decimal.LeadsNonzero (d : Decimal) : Prop :=
  ∃ c cs, d.digits = c :: cs ∧ c ≠ Digit.zero

theorem Decimal.leadsNonzero_normalize {n : Nat} (hn : n ≠ 0) (e : Int) :
    (normalize n e).LeadsNonzero := by
  fun_induction normalize n e with
  | case1 n e h ih => exact ih (by omega)
  | case2 n e h => exact digitsOf_eq_cons hn

namespace RoundingInterval

variable {i : RoundingInterval} {k : Int}

/-- The lower neighbour of the number on the grid `10 ^ k`, in steps. -/
def below (i : RoundingInterval) (k : Int) : Nat :=
  (i.value / (10 : Rat) ^ k).floor.toNat

/-- On a grid that the number reaches there is a whole step below it. -/
theorem below_ne_zero (hk : (10 : Rat) ^ k ≤ i.value) : i.below k ≠ 0 := by
  have hunit : (0 : Rat) < 10 ^ k := zpow_pos (by norm_num) k
  have hone : (1 : Rat) ≤ i.value / 10 ^ k := (one_le_div hunit).2 hk
  have hfloor : (1 : Int) ≤ (i.value / (10 : Rat) ^ k).floor :=
    Rat.le_floor_iff.2 (by simpa using hone)
  rw [below]
  omega

/-- What a grid offers is one of the two neighbours of the number there. -/
theorem onGrid?_neighbour {tie : Tie} {n : Nat} (h : i.onGrid? tie k = some n) :
    n = i.below k ∨ n = i.below k + 1 := by
  unfold onGrid? at h
  simp only at h
  rw [below]
  repeat' split at h
  all_goals cases h
  all_goals omega

theorem leadsNonzero_shortest {steps : Nat} (hk : (10 : Rat) ^ k ≤ i.value) (tie : Tie) :
    (i.shortest tie steps k).LeadsNonzero := by
  -- A finer grid is reached if a coarser one is, so the search may go on.
  induction steps generalizing k with
  | zero => exact Decimal.leadsNonzero_normalize (below_ne_zero hk) k
  | succ steps ih =>
      rw [shortest]
      split
      · next n hgrid =>
          have hbelow := below_ne_zero hk
          have hneighbour := onGrid?_neighbour hgrid
          exact Decimal.leadsNonzero_normalize (by omega) k
      · refine ih ((zpow_le_zpow_right₀ ?_ ?_).trans hk)
        · norm_num
        · omega

end RoundingInterval

theorem Single.roundingInterval_pos {x : Single} (hx : x.isZero = false) :
    0 < x.roundingInterval.value := by
  -- Only a number without exponent bits can have no fraction bits either.
  have hmantissa : x.magnitude.1 ≠ 0 := by
    rw [isZero] at hx
    rw [magnitude]
    split
    · next hexponent => simpa [hexponent] using hx
    · simp
  have hpow : (0 : Rat) < 2 ^ x.magnitude.2 := zpow_pos (by norm_num) _
  exact mul_pos (Nat.cast_pos.2 (Nat.pos_of_ne_zero hmantissa)) hpow

/-- The shortest decimal of a number that is not zero has no leading zero. -/
theorem Single.leadsNonzero_shortest {x : Single} (hx : x.isZero = false) (tie : Tie) :
    (x.shortest tie).LeadsNonzero := by
  have hreached := pow_decimalExponent_le (roundingInterval_pos hx)
  rw [shortest, if_neg (by simp [hx])]
  exact RoundingInterval.leadsNonzero_shortest hreached tie

end BehaviorGraph
