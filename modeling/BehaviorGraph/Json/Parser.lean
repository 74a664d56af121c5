import BehaviorGraph.Json.Basic
import BehaviorGraph.ObjectId
/-!
# Reading JSON Texts

The tree of a JSON text.

The grammar is taken strictly: white space is the space, the tabulator and the
two line ends; a number has no leading zero and at least one digit wherever it
may have digits; a string holds no control character; nothing follows the value,
and no comma the last item.

Readers take the rest of a text and return what they read together with what
follows it. The reader of values recurses to a given depth; since a text nests no
deeper than it is long, its length is depth enough.

## Main definitions

* `Json.number?`, `Json.string?`: Readers of literals.
* `Json.items?`: The reader of a list of items between commas.
* `Json.value?`: The reader of values.
* `Json.parse?`: The value of a whole text.
-/

namespace BehaviorGraph.Json

/-- White space between tokens. -/
def isSpace (c : Char) : Bool :=
  c = ' ' || c = '\t' || c = '\n' || c = '\r'

/-- Drop white space. -/
def skipSpace (cs : List Char) : List Char :=
  cs.dropWhile isSpace

/-- Read at least one digit. -/
def digits? (cs : List Char) : Option (List Digit × List Char) :=
  match takeDigits cs with
  | ([], _) => none
  | (ds, rest) => some (ds, rest)

/-- Read the digits after a point, if a point follows. -/
def fraction? : List Char → Option (List Digit × List Char)
  | '.' :: rest => digits? rest
  | cs => some ([], cs)

/-- Read the sign and digits behind the mark of an exponent. -/
def exponentDigits? : List Char → Option (Option (Bool × List Digit) × List Char)
  | '+' :: rest => (digits? rest).map fun (ds, rest) => (some (false, ds), rest)
  | '-' :: rest => (digits? rest).map fun (ds, rest) => (some (true, ds), rest)
  | cs => (digits? cs).map fun (ds, rest) => (some (false, ds), rest)

/-- Read an exponent, if one follows. -/
def exponent? : List Char → Option (Option (Bool × List Digit) × List Char)
  | 'e' :: rest => exponentDigits? rest
  | 'E' :: rest => exponentDigits? rest
  | cs => some (none, cs)

/-- Read a number without its sign. -/
def unsigned? (negative : Bool) (cs : List Char) : Option (NumberLiteral × List Char) := do
  let (whole, cs) ← digits? cs
  if whole.head? = some .zero ∧ whole.length ≠ 1 then none
  else
    let (fraction, cs) ← fraction? cs
    let (exponent, cs) ← exponent? cs
    return ({ negative, whole, fraction, exponent? := exponent }, cs)

/-- Read a number. -/
def number? : List Char → Option (NumberLiteral × List Char)
  | '-' :: rest => unsigned? true rest
  | cs => unsigned? false cs

/-- Read four hexadecimal digits as a code unit. -/
def codeUnit? : List Char → Option (UInt16 × List Char)
  | a :: b :: c :: d :: rest => do
    let ds ← [a, b, c, d].mapM HexDigit.ofChar?
    return (UInt16.ofNat (ofHexDigits ds), rest)
  | _ => none

/-- Read the items of a string up to its closing quote. -/
def stringItems? : List Char → Option (List StringItem × List Char)
  | [] => none
  | '\x22' :: rest => some ([], rest)
  | '\\' :: 'u' :: a :: b :: c :: d :: rest => do
    let ds ← [a, b, c, d].mapM HexDigit.ofChar?
    let (items, rest) ← stringItems? rest
    return (.unit (UInt16.ofNat (ofHexDigits ds)) :: items, rest)
  | '\\' :: letter :: rest =>
    if (shortMeaning? letter).isSome then
      (stringItems? rest).map fun (items, rest) => (.short letter :: items, rest)
    else none
  | c :: rest =>
    if c = '\\' ∨ c.toNat < 32 then none
    else (stringItems? rest).map fun (items, rest) => (.plain c :: items, rest)

/-- Read a string. -/
def string? : List Char → Option (List StringItem × List Char)
  | '\x22' :: rest => stringItems? rest
  | _ => none

/-- Read items between commas up to a closing character; at least one. Every
    item takes a step. -/
def items? {α : Type} (close : Char) (item? : List Char → Option (α × List Char)) :
    Nat → List Char → Option (List α × List Char)
  | 0, _ => none
  | steps + 1, cs =>
    match item? cs with
    | none => none
    | some (x, cs) =>
      match skipSpace cs with
      | [] => none
      | c :: rest =>
        if c = ',' then
          (items? close item? steps rest).map fun (xs, rest) => (x :: xs, rest)
        else if c = close then some ([x], rest)
        else none

/-- Read items between commas up to a closing character; there may be none. -/
def group? {α : Type} (close : Char) (item? : List Char → Option (α × List Char))
    (cs : List Char) : Option (List α × List Char) :=
  match skipSpace cs with
  | [] => none
  | c :: rest => if c = close then some ([], rest) else items? close item? cs.length cs

/-- Read the name and the value of a member. -/
def member? (value? : List Char → Option (Json × List Char)) (cs : List Char) :
    Option ((List StringItem × Json) × List Char) :=
  match string? (skipSpace cs) with
  | none => none
  | some (name, cs) =>
    match skipSpace cs with
    | ':' :: rest => (value? rest).map fun (v, rest) => ((name, v), rest)
    | _ => none

/-- Read a word that must follow. -/
def word? (word : List Char) (cs : List Char) : Option (List Char) :=
  if word.isPrefixOf cs then some (cs.drop word.length) else none

/-- Read a value that nests no deeper than the given depth. -/
def value? : Nat → List Char → Option (Json × List Char)
  | 0, _ => none
  | depth + 1, cs =>
    match skipSpace cs with
    | '\x22' :: rest => (stringItems? rest).map fun (items, rest) => (.string items, rest)
    | '[' :: rest => (group? ']' (value? depth) rest).map fun (vs, rest) => (.array vs, rest)
    | '\x7b' :: rest =>
      (group? '\x7d' (member? (value? depth)) rest).map fun (ms, rest) => (.object ms, rest)
    | 'n' :: rest => (word? "ull".toList rest).map fun rest => (.null, rest)
    | 't' :: rest => (word? "rue".toList rest).map fun rest => (.bool true, rest)
    | 'f' :: rest => (word? "alse".toList rest).map fun rest => (.bool false, rest)
    | cs => (number? cs).map fun (lit, rest) => (.number lit, rest)

/-- The value of a whole text. -/
def parse? (s : String) : Option Json :=
  let cs := s.toList
  match value? (cs.length + 1) cs with
  | some (v, rest) => if (skipSpace rest).isEmpty then some v else none
  | none => none

end BehaviorGraph.Json
