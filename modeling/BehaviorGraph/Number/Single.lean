import BehaviorGraph.Number.Digits
/-!
# Single Precision Numbers

Positions and durations of a graph are floating point numbers of 32 bits.

A finite number of a binary format is `m * 2 ^ q`, where `m` has at most a fixed
number of bits and `q` lies between two bounds. Rounding takes the nearest such
number and, of two equally near, the one with the even `m`; what would need a
larger `q` than the format has is out of range.

A `Single` is its bit pattern, so that two numbers are the same value of the
type exactly if no observation can tell them apart. The comparison that the
numbers themselves come with is `Single.same`: it tells no zero from the
other, and a NaN from everything, itself included.

## Main definitions

* `roundEven`: The nearest integer, ties to the even one.
* `BinaryFormat`: A precision and the bounds of the exponent.
* `BinaryFormat.round?`: Rounding, or `none` if the result is out of range.
* `BinaryFormat.single`, `BinaryFormat.double`: The two formats in use.
* `Single`: A floating point number of 32 bits.
* `Single.same`: The comparison of floating point numbers.
* `Single.toRat`: The value of a finite number.
* `Single.round`: The nearest number to a rational.
* `Single.ofDecimal`: The nearest number to a decimal.
* `Single.ofInt`: The nearest number to an integer.
-/

namespace BehaviorGraph

/-! ### Binary formats -/

/-- The nearest integer; of two equally near, the even one. -/
def roundEven (x : Rat) : Int :=
  let below := x.floor
  let part := x - below
  if part < 1 / 2 then below
  else if 1 / 2 < part then below + 1
  else if below % 2 = 0 then below
  else below + 1

/-- The largest `k` with `2 ^ k ≤ x`, for positive `x`. -/
def binaryExponent (x : Rat) : Int :=
  let guess : Int := (Nat.log2 x.num.natAbs : Int) - Nat.log2 x.den
  if x < (2 : Rat) ^ guess then guess - 1 else guess

/-- The numbers `m * 2 ^ q` with `m < 2 ^ precision` and `q` between the
    bounds. -/
structure BinaryFormat where
  /-- The number of bits of `m`. -/
  precision : Nat
  /-- The least `q`. -/
  minExponent : Int
  /-- The greatest `q`. -/
  maxExponent : Int

namespace BinaryFormat

/-- The format with 32 bits. -/
def single : BinaryFormat :=
  ⟨24, -149, 104⟩

/-- The format with 64 bits. -/
def double : BinaryFormat :=
  ⟨53, -1074, 971⟩

/-- The nearest number of the format as the pair of `m` and `q`, ties to the
    even `m`; `none` if it is out of range. The argument is not negative. -/
def round? (fmt : BinaryFormat) (x : Rat) : Option (Nat × Int) :=
  if x = 0 then some (0, fmt.minExponent)
  else
    let q := max fmt.minExponent (binaryExponent x - (fmt.precision - 1))
    let m := (roundEven (x / (2 : Rat) ^ q)).toNat
    let (m, q) := if m = 1 <<< fmt.precision then (1 <<< (fmt.precision - 1), q + 1) else (m, q)
    if fmt.maxExponent < q then none else some (m, q)

/-- The value of the nearest number of the format. -/
def roundValue? (fmt : BinaryFormat) (x : Rat) : Option Rat :=
  (fmt.round? x).map fun (m, q) => (m : Rat) * (2 : Rat) ^ q

end BinaryFormat

/-! ### Numbers of 32 bits -/

/-- A floating point number of 32 bits: one sign bit, eight bits of exponent
    and 23 bits of fraction. -/
structure Single where
  /-- The bit pattern. -/
  bits : UInt32
deriving DecidableEq

namespace Single

/-- The sign bit. -/
def negative (x : Single) : Bool :=
  x.bits.toNat.testBit 31

/-- The exponent bits. -/
def exponentBits (x : Single) : Nat :=
  (x.bits.toNat >>> 23) % (1 <<< 8)

/-- The fraction bits. -/
def fractionBits (x : Single) : Nat :=
  x.bits.toNat % (1 <<< 23)

/-- Neither an infinity nor a NaN. -/
def isFinite (x : Single) : Bool :=
  x.exponentBits ≠ 255

/-- Not a number. -/
def isNaN (x : Single) : Bool :=
  x.exponentBits = 255 && x.fractionBits ≠ 0

/-- The positive and the negative zero. -/
def isZero (x : Single) : Bool :=
  x.exponentBits = 0 && x.fractionBits = 0

/-- The comparison of floating point numbers: the two zeros are the same, and
    a NaN is the same as nothing. -/
def same (x y : Single) : Bool :=
  !x.isNaN && !y.isNaN && (x == y || x.isZero && y.isZero)

/-- The pair of `m` and `q` for which a finite number is `m * 2 ^ q`, its sign
    aside. -/
def magnitude (x : Single) : Nat × Int :=
  if x.exponentBits = 0 then (x.fractionBits, -149)
  else ((1 <<< 23) + x.fractionBits, (x.exponentBits : Int) - 150)

/-- The value of a finite number. -/
def toRat (x : Single) : Rat :=
  let (m, q) := x.magnitude
  let v := (m : Rat) * (2 : Rat) ^ q
  if x.negative then -v else v

/-- The number with the given sign, exponent and fraction bits. -/
def ofFields (negative : Bool) (exponent fraction : Nat) : Single :=
  ⟨UInt32.ofNat ((if negative then 1 <<< 31 else 0) + exponent <<< 23 + fraction)⟩

/-- The zero with the given sign. -/
def zero (negative : Bool) : Single :=
  ofFields negative 0 0

/-- The infinity with the given sign. -/
def infinity (negative : Bool) : Single :=
  ofFields negative 255 0

/-- The NaN with the given sign. -/
def nan (negative : Bool) : Single :=
  ofFields negative 255 (1 <<< 22)

instance : Inhabited Single :=
  ⟨zero false⟩

/-- The nearest number to a sign and a non-negative rational; an infinity if
    that is out of range. -/
def round (negative : Bool) (x : Rat) : Single :=
  match BinaryFormat.single.round? x with
  | none => infinity negative
  | some (m, q) =>
    if m < (1 <<< 23) then ofFields negative 0 m
    else ofFields negative (q + 150).toNat (m - (1 <<< 23))

/-- The nearest number to `d * 10 ^ e`. A decimal whose first digit stands far
    above or below the range is not multiplied out. -/
def ofDecimal (negative : Bool) (d : Nat) (e : Int) : Single :=
  if d = 0 then zero negative
  else
    let top := (digitsOf d).length + e
    if 64 < top then infinity negative
    else if top < -64 then zero negative
    else round negative ((d : Rat) * (10 : Rat) ^ e)

/-- The nearest number to an integer. -/
def ofInt (n : Int) : Single :=
  round (n < 0) (n.natAbs : Rat)

end Single

end BehaviorGraph
