import BehaviorGraph.Asset.Format
import BehaviorGraph.Json.Number
/-!
# The JSON Format

How assets are put down in JSON.

A record is an object, or the array of its fields in the order of their
declaration, from which fields at the end may be left out. A missing optional
value is null, and a present one stands for itself. A value of an enumeration
is its name, or an object that maps its name to null. JSON has no infinities,
so a number that is not finite is written as null, and does not read back.

## Main definitions

* `Json.format`: The choices of the notation.
-/

namespace BehaviorGraph.Json

/-- The value of a string. -/
def asText? : Json → Option String
  | .string items => text? items
  | _ => none

/-- The value of an integer that is in the range of a type. -/
def asInteger? (type : IntegerType) : Json → Option Int
  | .number lit => (integer? lit).filter type.contains
  | _ => none

/-- The value of a number. -/
def asSingle? : Json → Option Single
  | .number lit => single? lit
  | _ => none

/-- The literal of a number; null if it is not finite. -/
def ofSingle (x : Single) : Json :=
  if x.isFinite then .number (singleLiteral x) else .null

/-- The name of a value of an enumeration. -/
def asName? : Json → Option String
  | .string items => text? items
  | .object [(name, .null)] => text? name
  | _ => none

/-- The two elements of a pair. -/
def asPair? : Json → Option (Json × Json)
  | .array [v, w] => some (v, w)
  | _ => none

/-- The elements of an array. -/
def asList? : Json → Option (List Json)
  | .array vs => some vs
  | _ => none

/-- The members of an object. -/
def asEntries? : Json → Option (List (String × Json))
  | .object ms => ms.mapM fun m => (text? m.1).map fun name => (name, m.2)
  | _ => none

/-- An object. -/
def ofEntries (es : List (String × Json)) : Json :=
  .object (es.map fun e => (ofText e.1, e.2))

/-- The members of a record. -/
def asMembers? (fields : List String) : Json → Option (List (String × Json))
  | .array vs => if vs.length ≤ fields.length then some (fields.zip vs) else none
  | v => asEntries? v

/-- An optional value. -/
def asOption? : Json → Option (Option Json)
  | .null => some none
  | v => some (some v)

/-- How assets are put down in JSON. -/
def format : Format Json where
  ofText s := .string (ofText s)
  text? := asText?
  ofInteger n := .number (intLiteral n)
  integer? := asInteger?
  ofSingle := ofSingle
  single? := asSingle?
  ofName s := .string (ofText s)
  name? := asName?
  ofPair p := .array [p.1, p.2]
  pair? := asPair?
  ofList := .array
  list? := asList?
  ofEntries := ofEntries
  entries? := asEntries?
  ofRecord _ := ofEntries
  members? _ := asMembers?
  ofOption v := v.getD .null
  option? := asOption?

end BehaviorGraph.Json
