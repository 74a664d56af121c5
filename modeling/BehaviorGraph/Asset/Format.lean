import BehaviorGraph.Number.Digits
import BehaviorGraph.Number.Single
import BehaviorGraph.OrderedMap
/-!
# Formats

What a notation for structured values has to offer so that assets can be
written in it and read from it.

Assets are persisted in two notations. They agree on which members a record has
and differ in how a record, an optional value, an enumeration or a number is put
down. A `Format` is the list of these choices: for every shape of value a
writer and a reader, over the trees of the notation. The encoders and decoders
of assets are written once, against a format.

A reader of records ignores members that no field asks for, and refuses a member
that is there twice.

## Main definitions

* `Format`: Writers and readers of the shapes of values.
* `Format.fields?`: The members of a record that its fields ask for.
* `Format.required?`, `Format.defaulted?`, `Format.optional?`: One member of a
  record.
* `Format.items?`, `Format.map?`, `Format.ofMap`: Lists and maps of values.
-/

namespace BehaviorGraph

/-- Writers and readers of the shapes of values, over trees of type `V`. -/
structure Format (V : Type) where
  /-- Write a text. -/
  ofText : String → V
  /-- Read a text. -/
  text? : V → Option String
  /-- Write an integer. -/
  ofInteger : Int → V
  /-- Read an integer of a type. -/
  integer? : IntegerType → V → Option Int
  /-- Write a floating point number. -/
  ofSingle : Single → V
  /-- Read a floating point number. -/
  single? : V → Option Single
  /-- Write a value of an enumeration by its name. -/
  ofName : String → V
  /-- Read the name of a value of an enumeration. -/
  name? : V → Option String
  /-- Write two values as a pair. -/
  ofPair : V × V → V
  /-- Read a pair. -/
  pair? : V → Option (V × V)
  /-- Write a list. -/
  ofList : List V → V
  /-- Read a list. -/
  list? : V → Option (List V)
  /-- Write the entries of a map. -/
  ofEntries : List (String × V) → V
  /-- Read the entries of a map. -/
  entries? : V → Option (List (String × V))
  /-- Write a record of a named type. -/
  ofRecord : String → List (String × V) → V
  /-- Read the members of a record of a named type, given its fields in the
      order of their declaration. -/
  members? : String → List String → V → Option (List (String × V))
  /-- Write an optional value. -/
  ofOption : Option V → V
  /-- Read an optional value. -/
  option? : V → Option (Option V)

namespace Format

variable {V : Type} {α : Type}

/-- The members of a record that its fields ask for, each of them once. -/
def fields? (fmt : Format V) (typeName : String) (fields : List String) (v : V) :
    Option (OrderedMap String V) :=
  (fmt.members? typeName fields v).bind fun members =>
    let known := members.filter fun m => m.1 ∈ fields
    if h : (known.map Prod.fst).Nodup then some ⟨known, h⟩ else none

/-- A member that has to be there. -/
def required? (decode? : V → Option α) (name : String) (members : OrderedMap String V) :
    Option α :=
  (members.get? name).bind decode?

/-- A member that may be missing. -/
def defaulted? (decode? : V → Option α) (default : α) (name : String)
    (members : OrderedMap String V) : Option α :=
  match members.get? name with
  | none => some default
  | some v => decode? v

/-- Read an optional value. -/
def optionOf? (fmt : Format V) (decode? : V → Option α) (v : V) : Option (Option α) :=
  match fmt.option? v with
  | none => none
  | some none => some none
  | some (some w) => (decode? w).map some

/-- A member that is an optional value and may be missing. -/
def optional? (fmt : Format V) (decode? : V → Option α) (name : String)
    (members : OrderedMap String V) : Option (Option α) :=
  defaulted? (fmt.optionOf? decode?) none name members

/-- Read a list of values. -/
def items? (fmt : Format V) (decode? : V → Option α) (v : V) : Option (List α) :=
  (fmt.list? v).bind fun vs => vs.mapM decode?

/-- Write a list of values. -/
def ofItems (fmt : Format V) (encode : α → V) (xs : List α) : V :=
  fmt.ofList (xs.map encode)

/-- Read a map: a repeated key keeps its first place and takes its last
    value. -/
def map? (fmt : Format V) (decode? : V → Option α) (v : V) : Option (OrderedMap String α) := do
  let entries ← fmt.entries? v
  let decoded ← entries.mapM fun e => (decode? e.2).map fun x => (e.1, x)
  return .ofList decoded

/-- Write a map. -/
def ofMap (fmt : Format V) (encode : α → V) (m : OrderedMap String α) : V :=
  fmt.ofEntries (m.entries.map fun e => (e.1, encode e.2))

/-- Read a pair of two values of one kind. -/
def pairOf? (fmt : Format V) (decode? : V → Option α) (v : V) : Option (α × α) := do
  let (v, w) ← fmt.pair? v
  let x ← decode? v
  let y ← decode? w
  return (x, y)

/-- Read an unsigned integer of 32 bits. -/
def unsigned32? (fmt : Format V) (v : V) : Option UInt32 :=
  (fmt.integer? .unsigned32 v).map fun n => UInt32.ofNat n.toNat

/-- Write an unsigned integer of 32 bits. -/
def ofUnsigned32 (fmt : Format V) (n : UInt32) : V :=
  fmt.ofInteger n.toNat

/-- Read a signed integer of 32 bits. -/
def signed32? (fmt : Format V) (v : V) : Option Int32 :=
  (fmt.integer? .signed32 v).map Int32.ofInt

/-- Write a signed integer of 32 bits. -/
def ofSigned32 (fmt : Format V) (n : Int32) : V :=
  fmt.ofInteger n.toInt

end Format

end BehaviorGraph
