import BehaviorGraph.Ron.Basic
import BehaviorGraph.Text.Writing
/-!
# Writing RON Texts

A RON value as text, either without any white space or with one item on each
line and a comma behind it. Tuples stay on one line in both layouts.

## Main definitions

* `Ron.render`: A value as text.
-/

namespace BehaviorGraph

namespace Ron

/-- What stands in front of an item at a depth, four spaces for each level. -/
def indent (layout : Layout) (depth : Nat) : List Char :=
  layout.indent 4 depth

/-- What stands between two items. -/
def separator (layout : Layout) (depth : Nat) : List Char :=
  ',' :: indent layout depth

/-- What stands behind the last item. -/
def closing (layout : Layout) (depth : Nat) : List Char :=
  match layout with
  | .compact => []
  | .lines => separator layout depth

/-- What stands between two parts of a tuple. -/
def tupleSeparator : Layout → List Char
  | .compact => [',']
  | .lines => [',', ' ']

/-- The name in front of a parenthesis. -/
def typeNameChars : Option String → List Char
  | none => []
  | some n => n.toList

mutual

/-- A value at a depth as text. -/
def render (layout : Layout) (depth : Nat) : Ron → List Char
  | .name n => n.toList
  | .number token => token
  | .text s => Text.quote true s
  | .literal content => Text.quote true (String.ofList content)
  | .missing => "None".toList
  | .present v | .unclear v => "Some(".toList ++ render layout depth v ++ [')']
  | .list [] => ['[', ']']
  | .list (v :: vs) =>
    '[' :: (indent layout (depth + 1) ++ render layout (depth + 1) v
      ++ renderItems layout (depth + 1) vs ++ closing layout depth ++ [']'])
  | .map [] => ['\x7b', '\x7d']
  | .map ((k, v) :: es) =>
    '\x7b' :: (indent layout (depth + 1) ++ render layout (depth + 1) k ++ layout.colon
      ++ render layout (depth + 1) v
      ++ renderEntries layout (depth + 1) es ++ closing layout depth ++ ['\x7d'])
  | .tuple typeName [] => typeNameChars typeName ++ ['(', ')']
  | .tuple typeName (v :: vs) =>
    typeNameChars typeName ++ '(' :: (render layout depth v
      ++ renderParts layout depth vs ++ [')'])
  | .record typeName [] => typeNameChars typeName ++ ['(', ')']
  | .record typeName ((k, v) :: ms) =>
    typeNameChars typeName ++ '(' :: (indent layout (depth + 1) ++ k.toList ++ layout.colon
      ++ render layout (depth + 1) v
      ++ renderMembers layout (depth + 1) ms ++ closing layout depth ++ [')'])

/-- The further items of a list, each behind a comma. -/
def renderItems (layout : Layout) (depth : Nat) : List Ron → List Char
  | [] => []
  | v :: vs => separator layout depth ++ render layout depth v ++ renderItems layout depth vs

/-- The further parts of a tuple, each behind a comma. -/
def renderParts (layout : Layout) (depth : Nat) : List Ron → List Char
  | [] => []
  | v :: vs => tupleSeparator layout ++ render layout depth v ++ renderParts layout depth vs

/-- The further entries of a map, each behind a comma. -/
def renderEntries (layout : Layout) (depth : Nat) : List (Ron × Ron) → List Char
  | [] => []
  | (k, v) :: es =>
    separator layout depth ++ render layout depth k ++ layout.colon ++ render layout depth v
      ++ renderEntries layout depth es

/-- The further members of a record, each behind a comma. -/
def renderMembers (layout : Layout) (depth : Nat) : List (String × Ron) → List Char
  | [] => []
  | (k, v) :: ms =>
    separator layout depth ++ k.toList ++ layout.colon ++ render layout depth v
      ++ renderMembers layout depth ms

end

/-- A value without any white space. -/
def compactText (v : Ron) : String :=
  String.ofList (v.render .compact 0)

/-- A value with every item on a line of its own. -/
def linesText (v : Ron) : String :=
  String.ofList (v.render .lines 0)

end Ron

end BehaviorGraph
