import BehaviorGraph.Json.Number
import BehaviorGraph.Proofs.JsonLiterals
import BehaviorGraph.Proofs.LeadingDigits
/-!
# Numbers Written in JSON

The literals that integers and floating point numbers are written as have a text, and an
integer that is not too large is read back from its literal.

A literal may not start with a zero that other digits follow. The digits of an integer never
do. A decimal is written out with its point somewhere among its digits, or with an exponent
behind the first of them; either way, what stands before the point is a zero alone or
starts as the decimal does.

## Theorems

* `Json.integer?_intLiteral`: An integer is read back from its literal.
* `Json.isWritten_intLiteral`: The literal of an integer has a text.
* `Json.isWritten_singleLiteral`: The literal of a floating point number has a text.
-/

namespace BehaviorGraph

theorem le_appendDigits (n : Nat) (ds : List Digit) : n ≤ appendDigits n ds := by
  induction ds generalizing n with
  | nil => exact Nat.le_refl n
  | cons d ds ih =>
      have hle := ih (n * 10 + d.val)
      rw [appendDigits, List.foldl_cons, ← appendDigits]
      omega

namespace Json

/-! ### Integers -/

/-- Digits are all taken, if the number they spell fits. -/
theorem takeFitting_eq {n : Nat} {ds : List Digit} (h : appendDigits n ds < 1 <<< 64) :
    takeFitting n ds = (appendDigits n ds, []) := by
  induction ds generalizing n with
  | nil => rfl
  | cons d ds ih =>
      rw [appendDigits, List.foldl_cons, ← appendDigits] at h ⊢
      rw [takeFitting, if_pos (Nat.lt_of_le_of_lt (le_appendDigits _ ds) h), ih h]

theorem takeFitting_digitsOf {n : Nat} (h : n < 1 <<< 64) :
    takeFitting 0 (digitsOf n) = (n, []) := by
  have hvalue : appendDigits 0 (digitsOf n) = n := ofDigits_digitsOf n
  rw [takeFitting_eq (by rw [hvalue]; exact h), hvalue]

/-- An integer of fewer than 64 bits is read back from its literal. -/
theorem integer?_intLiteral {n : Int} (h : n.natAbs < 1 <<< 63) :
    integer? (intLiteral n) = some n := by
  have htake : takeFitting 0 (digitsOf n.natAbs) = (n.natAbs, []) :=
    takeFitting_digitsOf (h.trans (by decide))
  have hvalue : numberValue? (intLiteral n) = some (.integer n) := by
    by_cases hn : n < 0
    · have hrange : ¬(n.natAbs = 0 ∨ 1 <<< 63 < n.natAbs) := by omega
      have hnegated : -(n.natAbs : Int) = n := by omega
      simp only [numberValue?, intLiteral, htake, hn, hrange, hnegated, List.isEmpty_nil,
        Option.isNone_none, and_self, ↓reduceIte, decide_true, Bool.not_true, Bool.false_eq_true]
    · have habs : (n.natAbs : Int) = n := by omega
      simp only [numberValue?, intLiteral, htake, hn, habs, List.isEmpty_nil,
        Option.isNone_none, and_self, ↓reduceIte, decide_false, Bool.not_false]
  rw [integer?, hvalue]

/-! ### Literals that have a text -/

/-- A literal has a text if its first digit is not zero. -/
theorem NumberLiteral.isWritten_of_head {lit : NumberLiteral} {d : Digit}
    (hhead : lit.whole.head? = some d) (hd : d ≠ Digit.zero)
    (hexponent : ∀ e ∈ lit.exponent?, e.2 ≠ []) : lit.IsWritten where
  whole_ne_nil := List.ne_nil_of_mem (List.mem_of_head? hhead)
  zero_alone := by
    intro hzero
    rw [hhead] at hzero
    exact absurd (Option.some.inj hzero) hd
  exponent_ne_nil := hexponent

/-- A literal has a text if a zero stands alone before the point. -/
theorem NumberLiteral.isWritten_of_zero {lit : NumberLiteral} (hwhole : lit.whole = [Digit.zero])
    (hexponent : ∀ e ∈ lit.exponent?, e.2 ≠ []) : lit.IsWritten where
  whole_ne_nil := by
    rw [hwhole]
    exact List.cons_ne_nil _ _
  zero_alone := fun _ => by rw [hwhole, List.length_singleton]
  exponent_ne_nil := hexponent

theorem isWritten_intLiteral (n : Int) : (intLiteral n).IsWritten := by
  have hexponent : ∀ e ∈ (intLiteral n).exponent?, e.2 ≠ [] :=
    fun e he => absurd he (Option.not_mem_none e)
  by_cases hn : n.natAbs = 0
  · have hzero : digitsOf 0 = [Digit.zero] := by rw [digitsOf]; rfl
    exact NumberLiteral.isWritten_of_zero ((congrArg digitsOf hn).trans hzero) hexponent
  · rcases digitsOf_eq_cons hn with ⟨d, ds, hdigits, hd⟩
    exact NumberLiteral.isWritten_of_head (congrArg List.head? hdigits) hd hexponent

theorem isWritten_decimalLiteral (negative : Bool) {d : Decimal} (hd : d.LeadsNonzero) :
    (decimalLiteral negative d).IsWritten := by
  rcases hd with ⟨c, cs, hdigits, hc⟩
  unfold decimalLiteral
  split
  · have hexponent : ∀ e ∈ (none : Option (Bool × List Digit)), e.2 ≠ [] :=
      fun e he => absurd he (Option.not_mem_none e)
    unfold Decimal.fixed
    simp only
    split
    -- All digits stand before the point.
    · refine NumberLiteral.isWritten_of_head ?_ hc hexponent
      simp only [hdigits, List.cons_append, List.head?_cons]
    split
    -- The point stands among the digits.
    · next hpoint =>
        have hne : (d.exponent + d.digits.length).toNat ≠ 0 := by omega
        have hhead : (d.digits.take (d.exponent + d.digits.length).toNat).head? = some c := by
          rw [List.head?_take, if_neg hne, hdigits, List.head?_cons]
        exact NumberLiteral.isWritten_of_head hhead hc hexponent
    -- The point stands in front of the digits.
    · exact NumberLiteral.isWritten_of_zero rfl hexponent
  · refine NumberLiteral.isWritten_of_head ?_ hc ?_
    · simp only [hdigits, List.take_succ_cons, List.head?_cons]
    · intro e he
      rw [← Option.some.inj he]
      exact digitsOf_ne_nil _

theorem isWritten_singleLiteral (x : Single) : (singleLiteral x).IsWritten := by
  by_cases hx : x.isZero = true
  · have hshortest : x.shortest .even = ⟨[Digit.zero], 0⟩ := by rw [Single.shortest, if_pos hx]
    rw [singleLiteral, hshortest]
    exact NumberLiteral.isWritten_of_zero rfl fun e he => absurd he (Option.not_mem_none e)
  · exact isWritten_decimalLiteral _ (Single.leadsNonzero_shortest (Bool.not_eq_true _ ▸ hx) _)

end Json

end BehaviorGraph
