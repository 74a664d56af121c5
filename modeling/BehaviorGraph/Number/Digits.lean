/-!
# Integers and Their Digits

Natural numbers as lists of decimal digits, most significant first, and the types of
integers that a field can have or a literal can name.

Both text formats, the printed floats and the times of delays are built from
digit lists. `digitsOf` never writes a leading zero, and reading the digits
again gives the number back.

## Main definitions

* `Digit`: A decimal digit.
* `digitsOf`: The digits of a natural number.
* `ofDigits`: The number that digits spell, leading zeros allowed.
* `takeDigits`: The digits at the front of a text, and what follows them.
* `IntegerType`: A signedness and a width.
* `IntegerType.contains`: Whether an integer is in range.

## Theorems

* `ofDigits_digitsOf`: Reading the written digits gives the number back.
* `takeDigits_append`: Digits in front of anything that is no digit are taken
  exactly.
-/

namespace BehaviorGraph

/-- A decimal digit. -/
abbrev Digit :=
  Fin 10

/-- The digit that stands for zero. -/
def Digit.zero : Digit :=
  ⟨0, by decide⟩

/-- The character that stands for a digit. -/
def Digit.toChar (d : Digit) : Char :=
  Char.ofNat (48 + d.val)

/-- The digit that a character stands for. -/
def Digit.ofChar? (c : Char) : Option Digit :=
  if h : 48 ≤ c.toNat ∧ c.toNat < 58 then some ⟨c.toNat - 48, by omega⟩ else none

/-- The decimal digits of a number, most significant first. Zero has one. -/
def digitsOf (n : Nat) : List Digit :=
  if h : n < 10 then [⟨n, h⟩]
  else digitsOf (n / 10) ++ [⟨n % 10, Nat.mod_lt _ (by decide)⟩]
termination_by n
decreasing_by omega

/-- Continue a number by further digits. -/
def appendDigits (n : Nat) (ds : List Digit) : Nat :=
  ds.foldl (fun acc d => acc * 10 + d.val) n

/-- The number that the digits spell. -/
def ofDigits (ds : List Digit) : Nat :=
  appendDigits 0 ds

/-- The digits as characters. -/
def digitChars (ds : List Digit) : List Char :=
  ds.map Digit.toChar

/-- A natural number in decimal. -/
def natChars (n : Nat) : List Char :=
  digitChars (digitsOf n)

/-- An integer in decimal, with a minus sign if it is negative. -/
def intChars (n : Int) : List Char :=
  if n < 0 then '-' :: natChars n.natAbs else natChars n.natAbs

/-- The digits at the front of a text, and the text after them. -/
def takeDigits : List Char → List Digit × List Char
  | [] => ([], [])
  | c :: cs =>
    match Digit.ofChar? c with
    | some d => (d :: (takeDigits cs).1, (takeDigits cs).2)
    | none => ([], c :: cs)

theorem appendDigits_append (n : Nat) (as bs : List Digit) :
    appendDigits n (as ++ bs) = appendDigits (appendDigits n as) bs :=
  List.foldl_append

theorem ofDigits_digitsOf (n : Nat) : ofDigits (digitsOf n) = n := by
  fun_induction digitsOf n with
  | case1 n h => simp [ofDigits, appendDigits]
  | case2 n h ih =>
      rw [ofDigits, appendDigits_append, ← ofDigits, ih]
      simp [appendDigits]
      omega

theorem Digit.ofChar?_toChar (d : Digit) : Digit.ofChar? d.toChar = some d := by
  revert d
  decide

theorem takeDigits_append (ds : List Digit) {rest : List Char}
    (h : ∀ c cs, rest = c :: cs → Digit.ofChar? c = none) :
    takeDigits (digitChars ds ++ rest) = (ds, rest) := by
  induction ds with
  | nil =>
      rcases rest with _ | ⟨c, cs⟩
      · rfl
      · simp [digitChars, takeDigits, h c cs rfl]
  | cons d ds ih =>
      simp only [digitChars, List.map_cons, List.cons_append] at ih ⊢
      simp [takeDigits, Digit.ofChar?_toChar, ih]

/-! ### Types of integers -/

/-- A type of integers. -/
structure IntegerType where
  /-- Whether there are negative integers. -/
  signed : Bool
  /-- The number of bits. -/
  width : Nat
deriving DecidableEq

namespace IntegerType

/-- The name of the type. -/
def name (t : IntegerType) : List Char :=
  (if t.signed then 'i' else 'u') :: natChars t.width

/-- The first integer above the range. -/
def limit (t : IntegerType) : Nat :=
  1 <<< (if t.signed then t.width - 1 else t.width)

/-- Whether an integer is in range. -/
def contains (t : IntegerType) (n : Int) : Bool :=
  (if t.signed then -(t.limit : Int) ≤ n else 0 ≤ n) && n < t.limit

/-- The unsigned integers of 32 bits. -/
def unsigned32 : IntegerType :=
  ⟨false, 32⟩

/-- The signed integers of 32 bits. -/
def signed32 : IntegerType :=
  ⟨true, 32⟩

/-- The types whose names may stand behind an integer. -/
def named : List IntegerType :=
  [8, 16, 32, 64].flatMap fun width => [⟨true, width⟩, ⟨false, width⟩]

end IntegerType

end BehaviorGraph
