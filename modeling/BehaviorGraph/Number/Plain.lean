import BehaviorGraph.Number.Single
/-!
# Plain Decimals

The fewest decimal digits that read back as a given floating point number, and the text
of the number without an exponent.

The reals that round to a number `m * 2 ^ q` form an interval around it, which
contains its ends exactly if `m` is even. Of the decimals in that interval,
the shortest are those on the coarsest grid of powers of ten that meets it; if
both neighbours of the number on that grid lie inside, the nearer is taken. A
tie between them is broken by the format that writes the number.

The text of a number is its shortest decimal, a tie going up, with all its digits
before and after the point written out. A whole number has no point, or a single zero
behind it, as the reader of the text wants it.

## Main definitions

* `Decimal`: Digits and a power of ten.
* `Decimal.fixed`: The digits before and after the point.
* `Tie`: How a tie between two shortest decimals is broken.
* `Single.shortest`: The shortest decimal of a finite number, its sign aside.
* `Single.plainChars`: The text of a number.
* `Single.plainText`: The text of a number, whole numbers without a point.
-/

namespace BehaviorGraph

/-! ### Shortest decimals -/

/-- The number that `digits` spell times `10 ^ exponent`. -/
structure Decimal where
  /-- The digits, most significant first. -/
  digits : List Digit
  /-- The power of ten that the digits are scaled by. -/
  exponent : Int
deriving DecidableEq

namespace Decimal

/-- The exponent of the first digit, when one digit is written before the
    point. -/
def scientificExponent (d : Decimal) : Int :=
  d.exponent + d.digits.length - 1

/-- The digits before and after the point. At least one digit stands before
    it; none stands after it if the number is whole. -/
def fixed (d : Decimal) : List Digit × List Digit :=
  let point := d.exponent + d.digits.length
  if 0 ≤ d.exponent then (d.digits ++ List.replicate d.exponent.toNat .zero, [])
  else if 0 < point then (d.digits.take point.toNat, d.digits.drop point.toNat)
  else ([.zero], List.replicate (-point).toNat .zero ++ d.digits)

/-- Drop zeros from the end of the digits. -/
def normalize (n : Nat) (e : Int) : Decimal :=
  if h : n ≠ 0 ∧ n % 10 = 0 then normalize (n / 10) (e + 1) else ⟨digitsOf n, e⟩
termination_by n
decreasing_by omega

end Decimal

/-- What happens to a number midway between two shortest decimals. -/
inductive Tie where
  /-- The even of the two is taken. -/
  | even
  /-- The larger of the two is taken. -/
  | up
deriving DecidableEq

/-- The largest `k` with `10 ^ k ≤ x`, for positive `x`. -/
def decimalExponent (x : Rat) : Int :=
  let guess : Int := ((digitsOf x.num.natAbs).length : Int) - (digitsOf x.den).length
  if x < (10 : Rat) ^ guess then guess - 1 else guess

/-- The interval of reals that round to a number. -/
structure RoundingInterval where
  /-- The lower end. -/
  low : Rat
  /-- The number itself. -/
  value : Rat
  /-- The upper end. -/
  high : Rat
  /-- Whether the ends round to the number too. -/
  closed : Bool

namespace RoundingInterval

/-- Whether a real rounds to the number. -/
def contains (i : RoundingInterval) (x : Rat) : Bool :=
  if i.closed then i.low ≤ x && x ≤ i.high else i.low < x && x < i.high

/-- The multiple of `10 ^ k` that stands for the number, if one lies in the
    interval: the nearer of its two neighbours on that grid. -/
def onGrid? (i : RoundingInterval) (tie : Tie) (k : Int) : Option Nat :=
  let unit := (10 : Rat) ^ k
  let below := (i.value / unit).floor.toNat
  let lower := (below : Rat) * unit
  let upper := ((below + 1 : Nat) : Rat) * unit
  match i.contains lower, i.contains upper with
  | false, false => none
  | true, false => some below
  | false, true => some (below + 1)
  | true, true =>
    let down := i.value - lower
    let up := upper - i.value
    if down < up then some below
    else if up < down then some (below + 1)
    else match tie with
      | .up => some (below + 1)
      | .even => some (if below % 2 = 0 then below else below + 1)

/-- The first of the grids `10 ^ k`, `10 ^ (k - 1)`, ... that meets the
    interval. Nine digits tell any two numbers of single precision apart, so
    the search ends before the steps it is given. -/
def shortest (i : RoundingInterval) (tie : Tie) : Nat → Int → Decimal
  | 0, k => Decimal.normalize (i.value / (10 : Rat) ^ k).floor.toNat k
  | steps + 1, k =>
    match i.onGrid? tie k with
    | some n => Decimal.normalize n k
    | none => i.shortest tie steps (k - 1)

end RoundingInterval

/-- The reals that round to a finite number, its sign aside. -/
def Single.roundingInterval (x : Single) : RoundingInterval :=
  let (m, q) := x.magnitude
  let half := (2 : Rat) ^ (q - 1)
  let value := (m : Rat) * (2 : Rat) ^ q
  -- Below a power of two the numbers lie twice as dense.
  let halfBelow := if x.fractionBits = 0 ∧ 1 < x.exponentBits then half / 2 else half
  { low := value - halfBelow, value := value, high := value + half, closed := m % 2 = 0 }

/-- The shortest decimal that reads back as a finite number, its sign aside. -/
def Single.shortest (tie : Tie) (x : Single) : Decimal :=
  if x.isZero then ⟨[.zero], 0⟩
  else
    let i := x.roundingInterval
    i.shortest tie 16 (decimalExponent i.value)

/-! ### Text without an exponent -/

namespace Single

/-- The digits of a finite number, its sign aside. -/
def plainDigits (pointZero : Bool) (x : Single) : List Char :=
  let (whole, fraction) := (x.shortest .up).fixed
  let fraction := if fraction.isEmpty ∧ pointZero then [.zero] else fraction
  if fraction.isEmpty then digitChars whole
  else digitChars whole ++ '.' :: digitChars fraction

/-- The text of a number. Whole numbers end in a point and a zero if
    `pointZero` is set. -/
def plainChars (pointZero : Bool) (x : Single) : List Char :=
  if x.isNaN then "NaN".toList
  else
    (if x.negative then ['-'] else [])
      ++ if x.isFinite then x.plainDigits pointZero else "inf".toList

/-- The text of a number, whole numbers without a point. -/
def plainText (x : Single) : String :=
  String.ofList (x.plainChars false)

end Single

end BehaviorGraph
