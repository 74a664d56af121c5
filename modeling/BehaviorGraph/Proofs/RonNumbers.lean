import BehaviorGraph.Number.Plain
import BehaviorGraph.Proofs.LeadingDigits
import BehaviorGraph.Proofs.RonLiterals
/-!
# Numbers Written in RON

The tokens that numbers are written as are read as numbers, and an integer is read back from
its token.

A token may end in the name of a type and begin with the name of a base. What is written does
neither: an integer consists of digits and perhaps a minus sign, and no digit is a letter. A
floating point number is written with a point between its digits, except for an infinity,
whose word is a token of its own; behind a minus sign it is a token like any other.

What number the token of a floating point number means is left to the reader of numbers.
It is enough here that it means some number.

## Theorems

* `Ron.integer?_integerToken`: An integer is read back from its token.
* `Ron.isNumberToken_integerToken`: The token of an integer is read as a number.
* `Ron.isNumberToken_singleToken`: So is the token of a floating point number.
-/

namespace BehaviorGraph.Ron

/-! ### Integers -/

/-- The characters of an integer. -/
theorem mem_intChars {n : Int} {c : Char} (hc : c ∈ intChars n) :
    c = '-' ∨ ∃ d : Digit, c = d.toChar := by
  have hdigit : c ∈ natChars n.natAbs → ∃ d : Digit, c = d.toChar := by
    intro hmem
    rcases List.mem_map.1 hmem with ⟨d, _, rfl⟩
    exact ⟨d, rfl⟩
  rw [intChars] at hc
  split at hc
  · rcases List.mem_cons.1 hc with rfl | hmem
    · exact Or.inl rfl
    · exact Or.inr (hdigit hmem)
  · exact Or.inr (hdigit hc)

/-- What holds of the minus sign and of all digits holds of the characters of an integer. -/
theorem all_intChars {p : Char → Bool} (hsign : p '-' = true)
    (hdigit : ∀ d : Digit, p d.toChar = true) (n : Int) : (intChars n).all p = true := by
  refine List.all_eq_true.2 fun c hc => ?_
  rcases mem_intChars hc with rfl | ⟨d, rfl⟩
  · exact hsign
  · exact hdigit d

theorem splitBase_digitChars (ds : List Digit) :
    splitBase (digitChars ds) = (10, digitChars ds) := by
  -- Behind a zero another digit may stand, but no letter that names a base.
  have hletter : ∀ c ∈ ['b', 'o', 'x'], c ∉ digitChars ds := by
    intro c hc hmem
    rcases List.mem_map.1 hmem with ⟨d, _, rfl⟩
    have hdigit : ∀ d : Digit, d.toChar ∉ ['b', 'o', 'x'] := by decide
    exact hdigit d hc
  unfold splitBase
  split
  · next heq => exact absurd (heq ▸ by simp) (hletter 'b' (by decide))
  · next heq => exact absurd (heq ▸ by simp) (hletter 'o' (by decide))
  · next heq => exact absurd (heq ▸ by simp) (hletter 'x' (by decide))
  · rfl

theorem splitSign_digitChars (ds : List Digit) :
    splitSign (digitChars ds) = (false, digitChars ds) := by
  have hsign : ∀ d : Digit, d.toChar ≠ '-' ∧ d.toChar ≠ '+' := by decide
  rcases ds with _ | ⟨d, ds⟩
  · rfl
  · rw [digitChars, List.map_cons, splitSign]
    · exact fun _ heq => (hsign d).1 (List.cons.inj heq).1
    · exact fun _ heq => (hsign d).2 (List.cons.inj heq).1

theorem splitSign_intChars (n : Int) :
    splitSign (intChars n) = (decide (n < 0), natChars n.natAbs) := by
  rw [intChars]
  split
  · next hn => rw [splitSign, decide_eq_true hn]
  · next hn => rw [natChars, splitSign_digitChars, decide_eq_false hn]

theorem digitsInBase?_digitChars (n : Nat) (ds : List Digit) :
    digitsInBase? 10 n (digitChars ds) = some (appendDigits n ds) := by
  have hseparator : ∀ d : Digit, d.toChar ≠ '_' := by decide
  have hvalue : ∀ d : Digit, HexDigit.ofChar? d.toChar = some ⟨d.val, by omega⟩ := by decide
  induction ds generalizing n with
  | nil => rfl
  | cons d ds ih =>
      rw [digitChars, List.map_cons, ← digitChars, digitsInBase?, if_neg (hseparator d), hvalue]
      simp only [d.isLt, ↓reduceIte, ih]
      rfl

theorem magnitude?_natChars (n : Nat) : magnitude? (natChars n) = some (10, n) := by
  have hseparator : ∀ d : Digit, d.toChar ≠ '_' := by decide
  have hvalue : digitsInBase? 10 0 (natChars n) = some n := by
    rw [natChars, digitsInBase?_digitChars, ← ofDigits, ofDigits_digitsOf]
  rw [magnitude?, natChars, splitBase_digitChars]
  rw [natChars] at hvalue
  rcases hdigits : digitsOf n with _ | ⟨d, ds⟩
  · exact absurd hdigits (digitsOf_ne_nil n)
  · rw [hdigits, digitChars, List.map_cons] at hvalue
    simp only [digitChars, List.map_cons, hseparator d, ↓reduceIte, hvalue, Option.map_some]

theorem signedInteger?_intChars (n : Int) : signedInteger? (intChars n) = some (10, n) := by
  rw [signedInteger?, splitSign_intChars]
  simp only [magnitude?_natChars, Option.map_some, Option.some.injEq, Prod.mk.injEq, true_and,
    decide_eq_true_eq]
  split <;> omega

/-- The token of an integer names no type. -/
theorem splitIntegerSuffix_intChars (n : Int) :
    splitIntegerSuffix (intChars n) = (intChars n, none) := by
  have hnamed : (IntegerType.named.find? fun t => t.name.isSuffixOf (intChars n)) = none := by
    refine List.find?_eq_none.2 fun t _ hsuffix => ?_
    -- The name of a type starts with a letter.
    have hletter : (if t.signed then 'i' else 'u') ∈ intChars n :=
      (List.isSuffixOf_iff_suffix.1 hsuffix).subset List.mem_cons_self
    have hdigit : ∀ (signed : Bool) (d : Digit), (if signed then 'i' else 'u') ≠ d.toChar := by
      decide
    rcases mem_intChars hletter with hsign | ⟨d, heq⟩
    · rcases ht : t.signed with _ | _ <;> simp [ht] at hsign
    · exact hdigit t.signed d heq
  rw [splitIntegerSuffix, splitSign_intChars]
  simp only [natChars, splitBase_digitChars, hnamed]
  rfl

/-- An integer is read back from its token. -/
theorem integer?_integerToken {type : IntegerType} {n : Int} (hn : type.contains n = true) :
    integer? type (integerToken n) = some n := by
  simp [integer?, integerToken, splitIntegerSuffix_intChars, signedInteger?_intChars, hn]

theorem head?_any_of_all {p : Char → Bool} {cs : List Char} (hne : cs ≠ [])
    (hcs : cs.all p = true) : cs.head?.any p = true := by
  rcases cs with _ | ⟨c, cs⟩
  · exact absurd rfl hne
  · exact (Bool.and_eq_true_iff.1 hcs).1

/-- A number whose characters can all start numbers is read as one. -/
theorem isNumberToken_of_all {token : List Char} (hne : token ≠ [])
    (hstarts : token.all startsNumber = true) (hchars : token.all isTokenChar = true)
    (hnumber : isNumber token = true) : isNumberToken token = true := by
  rw [isNumberToken, head?_any_of_all hne hstarts, hchars, hnumber]
  exact Bool.or_true _

theorem intChars_ne_nil (n : Int) : intChars n ≠ [] := by
  have hdigits : natChars n.natAbs ≠ [] := fun heq =>
    digitsOf_ne_nil n.natAbs (List.map_eq_nil_iff.1 heq)
  rw [intChars]
  split
  · exact List.cons_ne_nil _ _
  · exact hdigits

theorem isNumberToken_integerToken (n : Int) : isNumberToken (integerToken n) = true := by
  have hinteger : isInteger (integerToken n) = true := by
    simp [isInteger, integerToken, splitIntegerSuffix_intChars, signedInteger?_intChars]
  have hnumber : isNumber (integerToken n) = true := by rw [isNumber, hinteger, Bool.or_true]
  exact isNumberToken_of_all (intChars_ne_nil n) (all_intChars (by decide) (by decide) n)
    (all_intChars (by decide) (by decide) n) hnumber

/-! ### Floating point numbers -/

/-- A token that means a number is the token of some number. -/
theorem isNumber_of_single? {token : List Char} {x : Single} (h : single? token = some x) :
    isNumber token = true := by
  have hbody : (singleBody? (splitFloatSuffix token).1).isSome = true := by
    simp only [single?] at h
    split at h
    · exact absurd h (Option.some_ne_none x).symm
    · rw [h, Option.isSome_some]
  rw [isNumber, hbody, Bool.true_or]

/-- A finite number is written with a point, even if it is whole. -/
theorem exists_plainDigits_eq (x : Single) : ∃ whole fraction : List Digit,
    x.plainDigits true = digitChars whole ++ '.' :: digitChars fraction := by
  rcases hfixed : (x.shortest .up).fixed with ⟨whole, _ | ⟨d, ds⟩⟩
  · exact ⟨whole, [.zero], by rw [Single.plainDigits, hfixed]; rfl⟩
  · exact ⟨whole, d :: ds, by rw [Single.plainDigits, hfixed]; rfl⟩

/-- What holds of the sign, the point and all digits holds of the characters of a finite
    number. -/
theorem all_singleToken {p : Char → Bool} (hsign : p '-' = true) (hpoint : p '.' = true)
    (hdigit : ∀ d : Digit, p d.toChar = true) {x : Single} (hx : x.isNaN = false)
    (hfinite : x.isFinite = true) : (singleToken x).all p = true := by
  have hdigits (ds : List Digit) : (digitChars ds).all p = true := by
    refine List.all_eq_true.2 fun c hc => ?_
    rcases List.mem_map.1 hc with ⟨d, _, rfl⟩
    exact hdigit d
  rcases exists_plainDigits_eq x with ⟨whole, fraction, hplain⟩
  rcases hnegative : x.negative with _ | _ <;>
    simp [singleToken, Single.plainChars, hx, hfinite, hnegative, hplain, hdigits, hsign, hpoint]

theorem isNumberToken_singleToken {x : Single} (hx : x.isNaN = false)
    (hread : single? (singleToken x) = some x) : isNumberToken (singleToken x) = true := by
  have hnumber := isNumber_of_single? hread
  by_cases hfinite : x.isFinite = true
  · have hne : singleToken x ≠ [] := by
      rcases exists_plainDigits_eq x with ⟨whole, fraction, hplain⟩
      simp [singleToken, Single.plainChars, hx, hfinite, hplain]
    exact isNumberToken_of_all hne
      (all_singleToken (by decide) (by decide) (by decide) hx hfinite)
      (all_singleToken (by decide) (by decide) (by decide) hx hfinite) hnumber
  · -- An infinity is its word, behind a sign if it is negative.
    rcases hnegative : x.negative with _ | _
    · have htoken : singleToken x = "inf".toList := by
        simp [singleToken, Single.plainChars, hx, hfinite, hnegative]
      rw [htoken]
      rfl
    · have htoken : singleToken x = '-' :: "inf".toList := by
        simp [singleToken, Single.plainChars, hx, hfinite, hnegative]
      rw [htoken] at hnumber ⊢
      rw [isNumberToken, hnumber]
      decide

end BehaviorGraph.Ron
