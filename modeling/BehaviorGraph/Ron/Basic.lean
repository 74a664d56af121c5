import BehaviorGraph.Number.Digits
/-!
# RON Values

A text of the object notation RON as a tree.

The notation has names that stand for themselves, numbers, quoted text, optional
values, lists, maps, tuples and records; a tuple and a record may carry a type
name in front of their parenthesis. The tree keeps numbers as they are written:
whether one is in range depends on the field that asks for it.

## Main definitions

* `Ron`: A value of the notation.
* `Ron.Extensions`: The liberties a text can ask for in its first lines.
* `Ron.isPassable`: A record can pass over the value if it has no field for it.
-/

namespace BehaviorGraph

/-- A value of the notation. -/
inductive Ron where
  /-- A name that stands for itself. -/
  | name (text : String)
  /-- A number, character by character. -/
  | number (token : List Char)
  /-- A quoted text. -/
  | text (s : String)
  /-- A character, or a string of bytes; no field of an asset asks for one. -/
  | literal (content : List Char)
  /-- The missing optional value. -/
  | missing
  /-- A present optional value. -/
  | present (value : Ron)
  /-- A present optional value of which it cannot be told whether it has dropped
      its own parentheses. A field that asks for it can read it; it cannot be
      passed over. -/
  | unclear (value : Ron)
  /-- A list. -/
  | list (items : List Ron)
  /-- A map; a key may occur more than once. -/
  | map (entries : List (Ron × Ron))
  /-- A tuple, with a type name or without. -/
  | tuple (typeName : Option String) (items : List Ron)
  /-- A record, with a type name or without; a member may occur more than
      once. -/
  | record (typeName : Option String) (members : List (String × Ron))
deriving Inhabited

/-- The liberties that a text asks for. -/
structure Ron.Extensions where
  /-- A present optional value may be written without its marker. -/
  implicitSome : Bool := false
  /-- Every record has to carry its type name. -/
  explicitNames : Bool := false
  /-- The tuple or record in an optional value may drop its parentheses. -/
  bareContent : Bool := false
deriving DecidableEq

namespace Ron

mutual

/-- The value can be passed over by a record that has no field for it. -/
def isPassable : Ron → Bool
  | .unclear _ => false
  | .present v => v.isPassable
  | .list vs => areItemsPassable vs
  | .map es => areEntriesPassable es
  | .tuple _ vs => areItemsPassable vs
  | .record _ ms => areMembersPassable ms
  | .name _ | .number _ | .text _ | .literal _ | .missing => true

/-- All items can be passed over. -/
def areItemsPassable : List Ron → Bool
  | [] => true
  | v :: vs => v.isPassable && areItemsPassable vs

/-- All keys and values can be passed over. -/
def areEntriesPassable : List (Ron × Ron) → Bool
  | [] => true
  | (k, v) :: es => k.isPassable && v.isPassable && areEntriesPassable es

/-- The values of all members can be passed over. -/
def areMembersPassable : List (String × Ron) → Bool
  | [] => true
  | (_, v) :: ms => v.isPassable && areMembersPassable ms

end

end Ron

end BehaviorGraph
