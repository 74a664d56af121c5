import BehaviorGraph.Json.Parser
import BehaviorGraph.Json.Printer
import BehaviorGraph.Proofs.NameReading
/-!
# JSON Literals Read Back

The reader of a literal takes exactly the characters it was written with.

A string tells by its closing quote where it ends. A number does not: it goes on as long
as the text does, so what follows it must not look like more of it. Not every literal
can be written at all. A number needs digits and has no zero in front of others, and
only some characters of a string stand for themselves.

## Main definitions

* `Json.NumberLiteral.IsWritten`, `Json.StringItem.isWritten`: The literal has a text.
* `Json.EndsNumber`: A text in front of which a number ends.

## Theorems

* `Json.number?_numberChars`: A written number is read back.
* `Json.stringItems?_itemChars`: The items of a written string are read back.
* `Json.isWritten_ofText`: Every text has a string literal that can be written.
-/

namespace BehaviorGraph.Json

/-! ### Numbers -/

/-- The number has digits, and no zero in front of others. -/
structure NumberLiteral.IsWritten (lit : NumberLiteral) : Prop where
  /-- There are digits before the point. -/
  whole_ne_nil : lit.whole ≠ []
  /-- A zero before the point stands alone. -/
  zero_alone : lit.whole.head? = some .zero → lit.whole.length = 1
  /-- An exponent has digits. -/
  exponent_ne_nil : ∀ e ∈ lit.exponent?, e.2 ≠ []

/-- The character can belong to a number that was begun. -/
def continuesNumber (c : Char) : Bool :=
  (Digit.ofChar? c).isSome || c = '.' || c = 'e' || c = 'E'

/-- A number ends in front of the text. -/
def EndsNumber (rest : List Char) : Prop :=
  ∀ c ∈ rest.head?, continuesNumber c = false

/-- No digit stands at the front of the text. -/
def EndsDigits (rest : List Char) : Prop :=
  ∀ c ∈ rest.head?, Digit.ofChar? c = none

theorem endsDigits_cons {c : Char} (hc : Digit.ofChar? c = none) (cs : List Char) :
    EndsDigits (c :: cs) := by
  intro c' hc'
  rw [← Option.some.inj hc']
  exact hc

theorem endsNumber_cons {c : Char} (hc : continuesNumber c = false) (rest : List Char) :
    EndsNumber (c :: rest) := by
  intro c' hc'
  rw [← Option.some.inj hc']
  exact hc

theorem EndsNumber.endsDigits {rest : List Char} (h : EndsNumber rest) : EndsDigits rest := by
  intro c hc
  have hcontinues := h c hc
  simp only [continuesNumber, Bool.or_eq_false_iff] at hcontinues
  exact Option.not_isSome_iff_eq_none.1 (by simp [hcontinues])

theorem EndsNumber.ne_cons {rest : List Char} (h : EndsNumber rest) {c : Char}
    (hc : continuesNumber c = true) (cs : List Char) : rest ≠ c :: cs := by
  rintro rfl
  exact absurd (h c rfl) (by simp [hc])

theorem digits?_digitChars {ds : List Digit} (hds : ds ≠ []) {rest : List Char}
    (hrest : EndsDigits rest) : digits? (digitChars ds ++ rest) = some (ds, rest) := by
  have htake : takeDigits (digitChars ds ++ rest) = (ds, rest) :=
    takeDigits_append ds fun c cs hcs => hrest c (by rw [hcs]; rfl)
  rcases ds with _ | ⟨d, ds⟩
  · exact absurd rfl hds
  · rw [digits?, htake]

theorem fraction?_fractionChars (ds : List Digit) {rest : List Char} (hdigits : EndsDigits rest)
    (hpoint : ∀ cs, rest ≠ '.' :: cs) :
    fraction? (fractionChars ds ++ rest) = some (ds, rest) := by
  rcases ds with _ | ⟨d, ds⟩
  · rw [fractionChars, List.nil_append, fraction?]
    exact hpoint
  · exact digits?_digitChars (List.cons_ne_nil d ds) hdigits

theorem exponent?_exponentChars {e : Option (Bool × List Digit)} (he : ∀ p ∈ e, p.2 ≠ [])
    {rest : List Char} (hrest : EndsNumber rest) :
    exponent? (exponentChars e ++ rest) = some (e, rest) := by
  rcases e with _ | ⟨negative, ds⟩
  · rw [exponentChars, List.nil_append, exponent?]
    · exact hrest.ne_cons (by decide)
    · exact hrest.ne_cons (by decide)
  · have hds := digits?_digitChars (he _ rfl) hrest.endsDigits
    cases negative <;> simp [exponentChars, exponent?, exponentDigits?, hds]

/-- What stands behind the digits before the point is no digit. -/
theorem endsDigits_exponentChars (e : Option (Bool × List Digit)) {rest : List Char}
    (hrest : EndsNumber rest) : EndsDigits (exponentChars e ++ rest) := by
  rcases e with _ | ⟨negative, ds⟩
  · exact hrest.endsDigits
  · exact endsDigits_cons (by decide) _

theorem endsDigits_fractionChars (ds : List Digit) {rest : List Char} (hrest : EndsDigits rest) :
    EndsDigits (fractionChars ds ++ rest) := by
  rcases ds with _ | ⟨d, ds⟩
  · exact hrest
  · exact endsDigits_cons (by decide) _

theorem unsigned?_numberChars {lit : NumberLiteral} (hlit : lit.IsWritten) {rest : List Char}
    (hrest : EndsNumber rest) :
    unsigned? lit.negative (digitChars lit.whole ++ (fractionChars lit.fraction ++
      (exponentChars lit.exponent? ++ rest))) = some (lit, rest) := by
  -- Each part of the number ends where the next one starts.
  have hexponent := endsDigits_exponentChars lit.exponent? hrest
  have hpoint : ∀ cs, exponentChars lit.exponent? ++ rest ≠ '.' :: cs := by
    rcases lit.exponent? with _ | ⟨negative, ds⟩
    · exact hrest.ne_cons (by decide)
    · intro cs heq
      exact absurd (List.cons.inj heq).1 (by decide)
  have hzero : ¬(lit.whole.head? = some .zero ∧ lit.whole.length ≠ 1) :=
    fun hand => hand.2 (hlit.zero_alone hand.1)
  rw [unsigned?, digits?_digitChars hlit.whole_ne_nil (endsDigits_fractionChars _ hexponent)]
  simp only [Option.bind_eq_bind, Option.bind_some, hzero, ↓reduceIte,
    fraction?_fractionChars _ hexponent hpoint, exponent?_exponentChars hlit.exponent_ne_nil hrest]
  rfl

/-- A number is read back, if it ends where it was written to end. -/
theorem number?_numberChars {lit : NumberLiteral} (hlit : lit.IsWritten) {rest : List Char}
    (hrest : EndsNumber rest) : number? (numberChars lit ++ rest) = some (lit, rest) := by
  have hunsigned := unsigned?_numberChars hlit hrest
  simp only [numberChars, List.append_assoc]
  rcases hnegative : lit.negative with _ | _
  · rw [hnegative] at hunsigned
    rw [if_neg Bool.false_ne_true, List.nil_append, number?, hunsigned]
    -- A number without a sign starts with a digit, which is no sign.
    rcases hwhole : lit.whole with _ | ⟨d, ds⟩
    · exact absurd hwhole hlit.whole_ne_nil
    · intro cs heq
      have hsign : ∀ d : Digit, d.toChar ≠ '-' := by decide
      exact hsign d (List.cons.inj heq).1
  · rw [hnegative] at hunsigned
    exact hunsigned

/-! ### Strings -/

/-- The item has a text: what stands for itself is neither a quote nor a backslash nor a
    control, and the escape of one letter means something. -/
def StringItem.isWritten : StringItem → Bool
  | .plain c => c ≠ '\x22' && c ≠ '\\' && 32 ≤ c.toNat
  | .short letter => (shortMeaning? letter).isSome
  | .unit _ => true

/-- A code unit is read from its four digits. -/
theorem stringItems?_unit (u : UInt16) (cs : List Char) :
    stringItems? (itemChars (.unit u) ++ cs) =
      (stringItems? cs).map fun (items, rest) => (.unit u :: items, rest) := by
  obtain ⟨a, b, c, d, hds⟩ : ∃ a b c d, hexDigitsOf 4 u.toNat = [a, b, c, d] :=
    ⟨_, _, _, _, rfl⟩
  have hvalue : UInt16.ofNat (ofHexDigits [a, b, c, d]) = u := by
    have hlt : u.toNat < 16 ^ 4 := u.toNat_lt
    rw [← hds, ofHexDigits_hexDigitsOf, Nat.mod_eq_of_lt hlt, UInt16.ofNat_toNat]
  have hread : [a.toChar, b.toChar, c.toChar, d.toChar].mapM HexDigit.ofChar? =
      some [a, b, c, d] := mapM_ofChar?_toChar [a, b, c, d]
  simp only [itemChars, hds, List.map_cons, List.map_nil, List.cons_append, List.nil_append]
  rw [stringItems?, hread, Option.bind_eq_bind, Option.bind_some, hvalue]
  rcases stringItems? cs with _ | _ <;> rfl

/-- An item is read from its characters. -/
theorem stringItems?_item {item : StringItem} (h : item.isWritten = true) (cs : List Char) :
    stringItems? (itemChars item ++ cs) =
      (stringItems? cs).map fun (items, rest) => (item :: items, rest) := by
  cases item with
  | plain c =>
      simp only [StringItem.isWritten, Bool.and_eq_true, decide_eq_true_eq] at h
      rcases h with ⟨⟨hquote, hbackslash⟩, hcontrol⟩
      rw [itemChars, List.singleton_append, stringItems?, if_neg]
      · rintro (heq | hlt)
        · exact hbackslash heq
        · omega
      · exact hquote
      · exact fun _ _ _ _ _ heq => absurd heq hbackslash
      · exact fun _ _ heq => absurd heq hbackslash
  | short letter =>
      rw [StringItem.isWritten] at h
      -- The letter that stands in front of a code unit means no character.
      have hletter : letter ≠ 'u' := by
        rintro rfl
        exact absurd h (by decide)
      rw [itemChars, List.cons_append, List.singleton_append, stringItems?, if_pos h]
      exact fun _ _ _ _ _ heq => absurd heq hletter
  | unit u => exact stringItems?_unit u cs

/-- The items of a string are read back up to its closing quote. -/
theorem stringItems?_itemChars {items : List StringItem}
    (hitems : ∀ i ∈ items, i.isWritten = true) (rest : List Char) :
    stringItems? (items.flatMap itemChars ++ '\x22' :: rest) = some (items, rest) := by
  induction items with
  | nil => rw [List.flatMap_nil, List.nil_append, stringItems?]
  | cons item items ih =>
      have htail := ih fun i hi => hitems i (List.mem_cons_of_mem item hi)
      have hitem := hitems item List.mem_cons_self
      rw [List.flatMap_cons, List.append_assoc, stringItems?_item hitem, htail]
      rfl

theorem isWritten_itemOf (c : Char) : (itemOf c).isWritten = true := by
  unfold itemOf
  split
  · next h => rcases h with rfl | rfl <;> decide
  · next h =>
      -- Five controls have an escape of one letter, the others are code units.
      iterate 6
        split
        · rfl
      have hcontrol : 32 ≤ c.toNat := by omega
      rw [not_or] at h
      simp [StringItem.isWritten, h, hcontrol]

/-- A text is written as items that can be read. -/
theorem isWritten_ofText (s : String) : ∀ i ∈ ofText s, i.isWritten = true := by
  intro i hi
  rcases List.mem_map.1 hi with ⟨c, _, rfl⟩
  exact isWritten_itemOf c

end BehaviorGraph.Json
