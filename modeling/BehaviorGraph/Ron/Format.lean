import BehaviorGraph.Asset.Format
import BehaviorGraph.Ron.Basic
import BehaviorGraph.Ron.Number
/-!
# The RON Format

How assets are put down in RON.

A record is a record of the notation; its type name may be left out, but no other
name may stand in its place, and a text can ask for type names to be required.
Empty parentheses are a record without members. An optional value carries a
marker, which a text can ask to leave out where the value is present. A value of
an enumeration is its bare name, and a pair is a tuple.

## Main definitions

* `Ron.Style`: Whether type names are written, and the extensions in force.
* `Ron.format`: The choices of the notation.
-/

namespace BehaviorGraph.Ron

/-- The choices that the notation leaves open. -/
structure Style where
  /-- Whether records are written with their type names. -/
  typeNames : Bool := false
  /-- The extensions that are in force when reading. -/
  extensions : Extensions := {}

/-- The value of a quoted text. -/
def asText? : Ron → Option String
  | .text s => some s
  | _ => none

/-- The value of an integer of a type. -/
def asInteger? (type : IntegerType) : Ron → Option Int
  | .number token => integer? type token
  | _ => none

/-- The value of a number. -/
def asSingle? : Ron → Option Single
  | .number token => single? token
  | _ => none

/-- The text of a name that stands for itself. -/
def asName? : Ron → Option String
  | .name n => some n
  | _ => none

/-- The two parts of a pair. -/
def asPair? : Ron → Option (Ron × Ron)
  | .tuple none [v, w] => some (v, w)
  | _ => none

/-- The items of a list. -/
def asList? : Ron → Option (List Ron)
  | .list vs => some vs
  | _ => none

/-- The entries of a map whose keys are texts. -/
def asEntries? : Ron → Option (List (String × Ron))
  | .map es => es.mapM fun e => (asText? e.1).map fun key => (key, e.2)
  | _ => none

/-- Whether a record may carry a type name, or the lack of one. -/
def acceptsName (e : Extensions) (expected : String) : Option String → Bool
  | none => !e.explicitNames
  | some found => found = expected

/-- The members of a record of a named type. Those that none of the fields asks
    for are passed over. -/
def asMembers? (e : Extensions) (expected : String) (fields : List String) :
    Ron → Option (List (String × Ron))
  | .record typeName ms =>
    if acceptsName e expected typeName ∧ ms.all fun m => m.1 ∈ fields || m.2.isPassable then
      some ms
    else none
  | .tuple typeName [] => if acceptsName e expected typeName then some [] else none
  | _ => none

/-- An optional value. -/
def asOption? (e : Extensions) : Ron → Option (Option Ron)
  | .missing => some none
  | .present v | .unclear v => some (some v)
  | v => if e.implicitSome then some (some v) else none

/-- How assets are put down in RON. -/
def format (style : Style) : Format Ron where
  ofText := .text
  text? := asText?
  ofInteger n := .number (integerToken n)
  integer? := asInteger?
  ofSingle x := .number (singleToken x)
  single? := asSingle?
  ofName := .name
  name? := asName?
  ofPair p := .tuple none [p.1, p.2]
  pair? := asPair?
  ofList := .list
  list? := asList?
  ofEntries es := .map (es.map fun e => (.text e.1, e.2))
  entries? := asEntries?
  ofRecord typeName ms := .record (if style.typeNames then some typeName else none) ms
  members? typeName fields := asMembers? style.extensions typeName fields
  ofOption v := v.elim .missing .present
  option? := asOption? style.extensions

end BehaviorGraph.Ron
