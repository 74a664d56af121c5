import BehaviorGraph.Json.Basic
import BehaviorGraph.ObjectId
import BehaviorGraph.Text.Writing
/-!
# Writing JSON Texts

A JSON value as text, either without any white space or with one element or
member on each line.

## Main definitions

* `Json.numberChars`, `Json.stringChars`: Literals as text.
* `Json.render`: A value as text.
-/

namespace BehaviorGraph

namespace Json

/-- What stands in front of an item at a depth, two spaces for each level. -/
def indent (layout : Layout) (depth : Nat) : List Char :=
  layout.indent 2 depth

/-- The exponent of a literal, with a sign in any case. -/
def exponentChars : Option (Bool × List Digit) → List Char
  | none => []
  | some (negative, ds) => 'e' :: (if negative then '-' else '+') :: digitChars ds

/-- The digits after the point, if there are any. -/
def fractionChars : List Digit → List Char
  | [] => []
  | ds => '.' :: digitChars ds

/-- A number literal as text. -/
def numberChars (lit : NumberLiteral) : List Char :=
  (if lit.negative then ['-'] else [])
    ++ digitChars lit.whole ++ fractionChars lit.fraction ++ exponentChars lit.exponent?

/-- An item of a string literal as text. A code unit has four digits. -/
def itemChars : StringItem → List Char
  | .plain c => [c]
  | .short letter => ['\\', letter]
  | .unit u => '\\' :: 'u' :: (hexDigitsOf 4 u.toNat).map HexDigit.toChar

/-- A string literal as text. -/
def stringChars (items : List StringItem) : List Char :=
  '\x22' :: (items.flatMap itemChars ++ ['\x22'])

mutual

/-- A value at a depth as text. -/
def render (layout : Layout) (depth : Nat) : Json → List Char
  | .null => "null".toList
  | .bool true => "true".toList
  | .bool false => "false".toList
  | .number lit => numberChars lit
  | .string items => stringChars items
  | .array [] => ['[', ']']
  | .array (v :: vs) =>
    '[' :: (indent layout (depth + 1) ++ render layout (depth + 1) v
      ++ renderElements layout (depth + 1) vs ++ indent layout depth ++ [']'])
  | .object [] => ['\x7b', '\x7d']
  | .object ((k, v) :: ms) =>
    '\x7b' :: (indent layout (depth + 1) ++ stringChars k ++ layout.colon
      ++ render layout (depth + 1) v
      ++ renderMembers layout (depth + 1) ms ++ indent layout depth ++ ['\x7d'])

/-- The further elements of an array, each behind a comma. -/
def renderElements (layout : Layout) (depth : Nat) : List Json → List Char
  | [] => []
  | v :: vs =>
    ',' :: (indent layout depth ++ render layout depth v ++ renderElements layout depth vs)

/-- The further members of an object, each behind a comma. -/
def renderMembers (layout : Layout) (depth : Nat) :
    List (List StringItem × Json) → List Char
  | [] => []
  | (k, v) :: ms =>
    ',' :: (indent layout depth ++ stringChars k ++ layout.colon ++ render layout depth v
      ++ renderMembers layout depth ms)

end

/-- A value without any white space. -/
def compactText (v : Json) : String :=
  String.ofList (v.render .compact 0)

/-- A value with every item on a line of its own. -/
def prettyText (v : Json) : String :=
  String.ofList (v.render .lines 0)

end Json

end BehaviorGraph
