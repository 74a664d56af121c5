/-!
# Names

White space at the ends of names, names that consist of nothing else, and names that
differ only in the case of letters.

Ids, layer names and component names are typed by designers, so a name that
only differs by white space around it, or that is white space throughout, has
to be recognised. White space is the property `White_Space` of Unicode, so the
ideographic space counts, while the zero width space and the byte order mark,
which do not carry the property, are ordinary characters.

Key names and layer names are compared without regard to the case of the
letters `A` to `Z`. Letters outside that range are compared as they are: the
Kelvin sign is not a `k`, and a long s is not an `s`.

## Main definitions

* `Text.isSpace`: The character has the property `White_Space`.
* `Text.trim`: A text without the white space at its two ends.
* `Text.isBlank`: The text is white space throughout.
* `Text.sameName`: Two names agree once `A` to `Z` are read as `a` to `z`.

## Theorems

* `Text.trimList_eq_nil_iff`: Trimming leaves nothing exactly of blank text.
* `Text.isBlank_iff_trim_eq_empty`: The same for strings.
-/

namespace BehaviorGraph.Text

/-! ### White space -/

/-- The characters with the property `White_Space`. -/
def isSpace (c : Char) : Bool :=
  let n := c.toNat
  (9 ≤ n && n ≤ 13) || n = 0x20 || n = 0x85 || n = 0xa0 || n = 0x1680
    || (0x2000 ≤ n && n ≤ 0x200a) || n = 0x2028 || n = 0x2029 || n = 0x202f
    || n = 0x205f || n = 0x3000

/-- Characters without the white space at both ends. -/
def trimList (cs : List Char) : List Char :=
  ((cs.dropWhile isSpace).reverse.dropWhile isSpace).reverse

/-- A text without the white space at both ends. -/
def trim (s : String) : String :=
  String.ofList (trimList s.toList)

/-- A blank text is empty or white space throughout. -/
def isBlank (s : String) : Bool :=
  s.toList.all isSpace

/-- Nothing is left of a list exactly when it is dropped to its end. -/
theorem dropWhile_isSpace_eq_nil_iff (cs : List Char) :
    cs.dropWhile isSpace = [] ↔ cs.all isSpace = true := by
  induction cs with
  | nil => simp
  | cons c cs ih =>
      by_cases h : isSpace c = true
      · simp [h, ih]
      · simp [h]

/-- Dropping white space from the front leaves a list that is empty or starts
    with another character. -/
theorem dropWhile_isSpace_cases (cs : List Char) :
    cs.dropWhile isSpace = [] ∨
      ∃ c rest, cs.dropWhile isSpace = c :: rest ∧ isSpace c = false := by
  induction cs with
  | nil => exact Or.inl rfl
  | cons c cs ih =>
      by_cases h : isSpace c = true
      · simpa [h] using ih
      · refine Or.inr ⟨c, cs, ?_, ?_⟩
        · simp [h]
        · simpa using h

theorem trimList_eq_nil_iff (cs : List Char) :
    trimList cs = [] ↔ cs.all isSpace = true := by
  rw [← dropWhile_isSpace_eq_nil_iff]
  constructor
  · intro h
    rcases dropWhile_isSpace_cases cs with hnil | ⟨c, rest, heq, hc⟩
    · exact hnil
    · -- A first character that is no space survives both passes.
      rw [trimList, List.reverse_eq_nil_iff, dropWhile_isSpace_eq_nil_iff, heq] at h
      simp [hc] at h
  · intro h
    simp [trimList, h]

theorem isBlank_iff_trim_eq_empty (s : String) : isBlank s = true ↔ trim s = "" := by
  rw [isBlank, ← trimList_eq_nil_iff, trim]
  constructor
  · intro h
    rw [h]
  · intro h
    have := congrArg String.toList h
    simpa using this

/-! ### Letter case -/

/-- `A` to `Z` as `a` to `z`, and every other character as it is. -/
def foldCase (c : Char) : Char :=
  if 'A' ≤ c ∧ c ≤ 'Z' then Char.ofNat (c.toNat + 32) else c

/-- The two names agree up to the case of `A` to `Z`. -/
def sameName (a b : String) : Bool :=
  a.toList.map foldCase == b.toList.map foldCase

theorem sameName_iff (a b : String) :
    sameName a b = true ↔ a.toList.map foldCase = b.toList.map foldCase := by
  simp [sameName]

theorem sameName_refl (a : String) : sameName a a = true := by
  simp [sameName]

theorem sameName_symm {a b : String} (h : sameName a b = true) : sameName b a = true := by
  rw [sameName_iff] at h ⊢
  exact h.symm

theorem sameName_trans {a b c : String} (hab : sameName a b = true)
    (hbc : sameName b c = true) : sameName a c = true := by
  rw [sameName_iff] at hab hbc ⊢
  exact hab.trans hbc

end BehaviorGraph.Text
