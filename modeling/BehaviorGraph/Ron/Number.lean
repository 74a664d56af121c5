import BehaviorGraph.Number.Digits
import BehaviorGraph.Number.Plain
import BehaviorGraph.ObjectId
/-!
# Numbers in RON Texts

What a number token means.

A token for a floating point number is a decimal with an optional point and
exponent, in which underscores may separate digits, or one of the words for
infinity and for what is no number; it may end in the name of its type. A token
for an integer may have a base of two, eight or sixteen, and it too may end in
the name of its type. The value of a field of single precision is the nearest
number to the decimal; an integer has to be in the range of its type.

## Main definitions

* `Ron.single?`: The number of single precision that a token means.
* `Ron.integer?`: The integer of a type that a token means.
* `Ron.isNumber`: The token is a number of some type.
* `Ron.singleToken`, `Ron.integerToken`: The tokens that numbers are written as.
-/

namespace BehaviorGraph.Ron

/-! ### Floating point numbers -/

/-- The precision that a floating point token names at its end. -/
inductive FloatSuffix where
  /-- No precision is named. -/
  | unnamed
  /-- Single precision. -/
  | single
  /-- Double precision. -/
  | double
deriving DecidableEq

/-- A floating point token: its body and the precision it names. -/
def splitFloatSuffix (token : List Char) : List Char × FloatSuffix :=
  if "f32".toList.isSuffixOf token then (token.take (token.length - 3), .single)
  else if "f64".toList.isSuffixOf token then (token.take (token.length - 3), .double)
  else (token, .unnamed)

/-- Cut off a sign: whether it is negative, and what follows it. -/
def splitSign : List Char → Bool × List Char
  | '-' :: rest => (true, rest)
  | '+' :: rest => (false, rest)
  | cs => (false, cs)

/-- Drop the underscores of a decimal; none if one stands where it separates
    nothing. One may stand behind a digit or the mark of the exponent, signs in
    between not counting, but not at the beginning and not behind the point. -/
def dropSeparators? : Bool → List Char → Option (List Char)
  | _, [] => some []
  | allowed, c :: rest =>
    if c = '_' then if allowed then dropSeparators? allowed rest else none
    else
      let allowed :=
        if c = '.' then false
        else allowed || (Digit.ofChar? c).isSome || c = 'e' || c = 'E'
      (dropSeparators? allowed rest).map (c :: ·)

/-- The digits before the point and behind it, and what follows. At least one
    digit is needed. -/
def mantissa? (cs : List Char) : Option (List Digit × List Digit × List Char) :=
  let (whole, rest) := takeDigits cs
  let (fraction, rest) :=
    match rest with
    | '.' :: rest => takeDigits rest
    | rest => ([], rest)
  if whole.isEmpty ∧ fraction.isEmpty then none else some (whole, fraction, rest)

/-- The value of what follows the mantissa. -/
def exponent? : List Char → Option Int
  | [] => some 0
  | c :: rest =>
    if c = 'e' ∨ c = 'E' then
      let (negative, rest) := splitSign rest
      match takeDigits rest with
      | ([], _) => none
      | (ds, []) => some (if negative then -(ofDigits ds : Int) else ofDigits ds)
      | _ => none
    else none

/-- The value of an unsigned decimal, as digits and a power of ten. -/
def decimal? (cs : List Char) : Option (Nat × Int) := do
  let (whole, fraction, rest) ← mantissa? cs
  let e ← exponent? rest
  return (ofDigits (whole ++ fraction), e - fraction.length)

/-- The number of single precision that the body of a token means. -/
def singleBody? (body : List Char) : Option Single :=
  let (negative, rest) := splitSign body
  if rest = "inf".toList then some (Single.infinity negative)
  else if rest = "NaN".toList then some (Single.nan negative)
  else do
    let plain ← dropSeparators? false body
    let (negative, rest) := splitSign plain
    let (d, e) ← decimal? rest
    return Single.ofDecimal negative d e

/-- The number of single precision that a token means. -/
def single? (token : List Char) : Option Single :=
  let (body, suffix) := splitFloatSuffix token
  if suffix = .double then none else singleBody? body

/-! ### Integers -/

/-- The base that the beginning of an integer names, and what follows. -/
def splitBase : List Char → Nat × List Char
  | '0' :: 'b' :: rest => (2, rest)
  | '0' :: 'o' :: rest => (8, rest)
  | '0' :: 'x' :: rest => (16, rest)
  | cs => (10, cs)

/-- Continue a number by the digits of a base, underscores between them not
    counting. -/
def digitsInBase? (base : Nat) : Nat → List Char → Option Nat
  | n, [] => some n
  | n, c :: rest =>
    if c = '_' then digitsInBase? base n rest
    else
      match HexDigit.ofChar? c with
      | some d => if d.val < base then digitsInBase? base (n * base + d.val) rest else none
      | none => none

/-- The base and the value of an unsigned integer. The first character behind
    the base is a digit. -/
def magnitude? (cs : List Char) : Option (Nat × Nat) :=
  let (base, rest) := splitBase cs
  match rest with
  | [] => none
  | c :: _ => if c = '_' then none else (digitsInBase? base 0 rest).map fun n => (base, n)

/-- A signed integer, with its base. -/
def signedInteger? (cs : List Char) : Option (Nat × Int) :=
  let (negative, rest) := splitSign cs
  (magnitude? rest).map fun (base, n) => (base, if negative then -(n : Int) else n)

/-- An integer token: its body and the type it names. An integer of base eight
    or sixteen names no type. -/
def splitIntegerSuffix (token : List Char) : List Char × Option IntegerType :=
  let (base, _) := splitBase (splitSign token).2
  if base = 8 ∨ base = 16 then (token, none)
  else
    match IntegerType.named.find? fun t => t.name.isSuffixOf token with
    | none => (token, none)
    | some t => (token.take (token.length - t.name.length), some t)

/-- The integer of a type that a token means. -/
def integer? (type : IntegerType) (token : List Char) : Option Int :=
  let (body, suffix) := splitIntegerSuffix token
  if suffix.any (· ≠ type) then none
  else
    match signedInteger? body with
    | some (_, n) => if type.contains n then some n else none
    | none => none

/-- The integers that an integer in another base than ten can be when it names no
    type: those of the widest types. -/
def fitsWidest (n : Int) : Bool :=
  IntegerType.contains ⟨true, 64⟩ n || IntegerType.contains ⟨false, 64⟩ n

/-- The token is an integer of some type. A decimal integer that names no type
    may have any size. -/
def isInteger (token : List Char) : Bool :=
  let (body, suffix) := splitIntegerSuffix token
  match signedInteger? body, suffix with
  | none, _ => false
  | some (_, n), some type => type.contains n
  | some (base, n), none => base = 10 || fitsWidest n

/-- The token is a number of some type. -/
def isNumber (token : List Char) : Bool :=
  (singleBody? (splitFloatSuffix token).1).isSome || isInteger token

/-! ### Writing -/

/-- The token that a number of single precision is written as. What is no number
    keeps its sign too. -/
def singleToken (x : Single) : List Char :=
  if x.isNaN && x.negative then '-' :: x.plainChars true else x.plainChars true

/-- The token that an integer is written as. -/
def integerToken (n : Int) : List Char :=
  intChars n

end BehaviorGraph.Ron
