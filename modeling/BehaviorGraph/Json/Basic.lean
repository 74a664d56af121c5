import BehaviorGraph.Number.Digits
/-!
# JSON Values

A JSON text as a tree.

The tree keeps numbers and strings as they are written, digit by digit and
escape by escape. What a literal means is decided where its value is wanted: a
number that no field asks for may be out of every range, and a string that no
field asks for may hold half of a surrogate pair.

## Main definitions

* `Json.NumberLiteral`: A number as written.
* `Json.StringItem`: A character or an escape of a string as written.
* `Json`: A JSON value.
* `Json.text?`: The text that a string literal spells, if it spells one.
* `Json.ofText`: The string literal that a text is written as.

## Theorems

* `Json.text?_ofText`: A written text reads back.
-/

namespace BehaviorGraph

namespace Json

/-- A number as written. Without digits after the point there is no point. -/
structure NumberLiteral where
  /-- Whether a minus sign stands in front. -/
  negative : Bool
  /-- The digits before the point. -/
  whole : List Digit
  /-- The digits after the point. -/
  fraction : List Digit := []
  /-- Whether the exponent is negative, and its digits. -/
  exponent? : Option (Bool × List Digit) := none
deriving DecidableEq, Inhabited

/-- A character of a string as written. -/
inductive StringItem where
  /-- The character itself. -/
  | plain (c : Char)
  /-- A backslash and a letter. -/
  | short (letter : Char)
  /-- A backslash, a `u` and a code unit of sixteen bits. -/
  | unit (u : UInt16)
deriving DecidableEq, Inhabited

end Json

/-- A JSON value. -/
inductive Json where
  /-- The null value. -/
  | null
  /-- A truth value. -/
  | bool (b : Bool)
  /-- A number. -/
  | number (n : Json.NumberLiteral)
  /-- A string. -/
  | string (items : List Json.StringItem)
  /-- An array. -/
  | array (elements : List Json)
  /-- An object; a name may occur more than once. -/
  | object (members : List (List Json.StringItem × Json))
deriving Inhabited

namespace Json

/-- The escapes of one letter, each with the character it means. -/
def shortEscapes : List (Char × Char) :=
  [('\x22', '\x22'), ('\\', '\\'), ('/', '/'), ('b', '\x08'), ('f', '\x0c'), ('n', '\n'),
   ('r', '\r'), ('t', '\t')]

/-- The character that an escape of one letter means. -/
def shortMeaning? (letter : Char) : Option Char :=
  (shortEscapes.find? fun e => e.1 = letter).map Prod.snd

/-- The first unit of a surrogate pair. -/
def isHighSurrogate (u : UInt16) : Bool :=
  0xd800 ≤ u.toNat && u.toNat < 0xdc00

/-- The second unit of a surrogate pair. -/
def isLowSurrogate (u : UInt16) : Bool :=
  0xdc00 ≤ u.toNat && u.toNat < 0xe000

/-- The text that a string literal spells; none if it holds a surrogate outside
    a pair. -/
def spell? : List StringItem → Option (List Char)
  | [] => some []
  | .plain c :: rest => (spell? rest).map (c :: ·)
  | .short letter :: rest => (shortMeaning? letter).bind fun c => (spell? rest).map (c :: ·)
  | .unit u :: .unit v :: rest =>
    if isHighSurrogate u then
      if isLowSurrogate v then
        (spell? rest).map
          (Char.ofNat (0x10000 + (u.toNat - 0xd800) * 0x400 + (v.toNat - 0xdc00)) :: ·)
      else none
    else if isLowSurrogate u then none
    else (spell? (.unit v :: rest)).map (Char.ofNat u.toNat :: ·)
  | .unit u :: rest =>
    if isHighSurrogate u || isLowSurrogate u then none
    else (spell? rest).map (Char.ofNat u.toNat :: ·)

/-- The text that a string literal spells. -/
def text? (items : List StringItem) : Option String :=
  (spell? items).map String.ofList

/-- A character as it is written in a string: the quote, the backslash and the
    controls are escaped, all others stand for themselves. -/
def itemOf (c : Char) : StringItem :=
  if c = '\x22' ∨ c = '\\' then .short c
  else if c = '\x08' then .short 'b'
  else if c = '\x0c' then .short 'f'
  else if c = '\n' then .short 'n'
  else if c = '\r' then .short 'r'
  else if c = '\t' then .short 't'
  else if c.toNat < 32 then .unit (UInt16.ofNat c.toNat)
  else .plain c

/-- The string literal that a text is written as. -/
def ofText (s : String) : List StringItem :=
  s.toList.map itemOf

/-- A code unit that is no surrogate spells a character of its own. -/
theorem spell?_unit (u : UInt16) (hHigh : isHighSurrogate u = false)
    (hLow : isLowSurrogate u = false) (rest : List StringItem) :
    spell? (.unit u :: rest) = (spell? rest).map (Char.ofNat u.toNat :: ·) := by
  rcases rest with _ | ⟨item, rest⟩
  · simp [spell?, hHigh, hLow]
  · cases item <;> simp [spell?, hHigh, hLow]

theorem spell?_itemOf (c : Char) (rest : List StringItem) :
    spell? (itemOf c :: rest) = (spell? rest).map (c :: ·) := by
  unfold itemOf
  split
  · rename_i h
    rcases h with rfl | rfl <;> simp [spell?, shortMeaning?, shortEscapes]
  split
  · subst c
    simp [spell?, shortMeaning?, shortEscapes]
  split
  · subst c
    simp [spell?, shortMeaning?, shortEscapes]
  split
  · subst c
    simp [spell?, shortMeaning?, shortEscapes]
  split
  · subst c
    simp [spell?, shortMeaning?, shortEscapes]
  split
  · subst c
    simp [spell?, shortMeaning?, shortEscapes]
  split
  · rename_i h
    have hu : (UInt16.ofNat c.toNat).toNat = c.toNat := by
      rw [UInt16.toNat_ofNat']
      omega
    rw [spell?_unit]
    · rw [hu, Char.ofNat_toNat]
    · simp only [isHighSurrogate, hu]
      simp
      omega
    · simp only [isLowSurrogate, hu]
      simp
      omega
  · simp [spell?]

theorem text?_ofText (s : String) : text? (ofText s) = some s := by
  have h : ∀ cs : List Char, spell? (cs.map itemOf) = some cs := by
    intro cs
    induction cs with
    | nil => simp [spell?]
    | cons c cs ih => rw [List.map_cons, spell?_itemOf, ih, Option.map_some]
  rw [text?, ofText, h, Option.map_some, String.ofList_toList]

/-- A literal without sign, point and exponent. -/
def natLiteral (n : Nat) : NumberLiteral where
  negative := false
  whole := digitsOf n

/-- The literal that an integer is written as. -/
def intLiteral (n : Int) : NumberLiteral where
  negative := n < 0
  whole := digitsOf n.natAbs

end Json

end BehaviorGraph
