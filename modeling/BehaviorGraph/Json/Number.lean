import BehaviorGraph.Json.Basic
import BehaviorGraph.Number.Plain
/-!
# Numbers in JSON Texts

What a number literal means, and how a floating point number is written.

A literal without point and exponent that fits 64 bits is an integer. Every
other literal is a number of double precision, computed in the cheap way: the
digits that fit 64 bits are taken as an integer, and that integer, rounded to
double precision, is multiplied or divided by a power of ten, rounding again.
The result can differ from the nearest double in its last bits, and a literal
that overflows on the way is refused. A field of single precision rounds once
more; there, too large a number becomes an infinity.

## Main definitions

* `Json.NumberValue`: An integer, or a number of double precision.
* `Json.numberValue?`: The value of a literal.
* `Json.integer?`: The value of a literal that is an integer.
* `Json.single?`: The value of a literal in single precision.
* `Json.singleLiteral`: The literal that a finite number is written as.
-/

namespace BehaviorGraph.Json

/-- The value of a number literal. -/
inductive NumberValue where
  /-- An integer of at most 64 bits. -/
  | integer (n : Int)
  /-- The sign and magnitude of a number of double precision. -/
  | double (negative : Bool) (magnitude : Rat)

/-- Continue an integer by digits for as long as it fits 64 bits, and return
    the digits that were left. -/
def takeFitting (n : Nat) : List Digit → Nat × List Digit
  | [] => (n, [])
  | d :: ds =>
    if n * 10 + d.val < 1 <<< 64 then takeFitting (n * 10 + d.val) ds else (n, d :: ds)

/-- The nearest double to `10 ^ k`, for `k` up to 308. -/
def powerOfTen (k : Nat) : Rat :=
  (BinaryFormat.double.roundValue? ((10 : Rat) ^ k)).getD 0

/-- Divide a double by `10 ^ k`, by at most `10 ^ 308` at a time. -/
def scaleDown (x : Rat) (k : Nat) : Option Rat :=
  if _h : k ≤ 308 then BinaryFormat.double.roundValue? (x / powerOfTen k)
  else if x = 0 then some 0
  else
    match BinaryFormat.double.roundValue? (x / powerOfTen 308) with
    | none => none
    | some y => scaleDown y (k - 308)
termination_by k
decreasing_by omega

/-- Multiply a double by `10 ^ k`; none if that is out of range. -/
def scaleUp (x : Rat) (k : Nat) : Option Rat :=
  if k ≤ 308 then BinaryFormat.double.roundValue? (x * powerOfTen k)
  else if x = 0 then some 0
  else none

/-- The double that an integer of 64 bits times `10 ^ e` is computed as. -/
def scale (n : Nat) (e : Int) : Option Rat :=
  match BinaryFormat.double.roundValue? (n : Rat) with
  | none => none
  | some x => if 0 ≤ e then scaleUp x e.toNat else scaleDown x (-e).toNat

/-- The exponents that are told apart; those beyond are taken for the nearest
    of them. -/
def maxExponent : Nat :=
  (1 <<< 31) - 1

/-- The value of a number literal, or none if it is out of range. -/
def numberValue? (lit : NumberLiteral) : Option NumberValue :=
  let (n, left) := takeFitting 0 lit.whole
  if lit.fraction.isEmpty ∧ lit.exponent?.isNone ∧ left.isEmpty then
    if !lit.negative then some (.integer n)
    else if n = 0 ∨ 1 <<< 63 < n then (scale n 0).map (.double true)
    else some (.integer (-n))
  else
    let (n, unread) := takeFitting n lit.fraction
    let shift : Int := left.length - (lit.fraction.length - unread.length : Nat)
    match lit.exponent? with
    | none => (scale n shift).map (.double lit.negative)
    | some (negative, ds) =>
      let e := ofDigits ds
      if maxExponent < e then
        if n ≠ 0 ∧ !negative then none else some (.double lit.negative 0)
      else (scale n (if negative then shift - e else shift + e)).map (.double lit.negative)

/-- The value of a literal that is an integer. -/
def integer? (lit : NumberLiteral) : Option Int :=
  match numberValue? lit with
  | some (.integer n) => some n
  | _ => none

/-- The value of a literal in single precision. -/
def single? (lit : NumberLiteral) : Option Single :=
  match numberValue? lit with
  | some (.integer n) => some (Single.ofInt n)
  | some (.double negative magnitude) => some (Single.round negative magnitude)
  | none => none

/-- A decimal is written out if the exponent of its first digit is at least -6
    and at most 12. -/
def isWrittenOut (d : Decimal) : Bool :=
  -6 ≤ d.scientificExponent && d.scientificExponent ≤ 12

/-- The literal of a decimal. A whole number keeps a zero after the point, and
    beyond the range of numbers that are written out an exponent follows the
    first digit and its fraction. -/
def decimalLiteral (negative : Bool) (d : Decimal) : NumberLiteral :=
  if isWrittenOut d then
    let (whole, fraction) := d.fixed
    { negative, whole, fraction := if fraction.isEmpty then [.zero] else fraction }
  else
    let e := d.scientificExponent
    { negative, whole := d.digits.take 1, fraction := d.digits.drop 1,
      exponent? := some (e < 0, digitsOf e.natAbs) }

/-- The literal that a finite number is written as: its shortest decimal, a tie
    going to the even digit. -/
def singleLiteral (x : Single) : NumberLiteral :=
  decimalLiteral x.negative (x.shortest .even)

end BehaviorGraph.Json
