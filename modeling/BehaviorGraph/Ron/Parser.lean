import BehaviorGraph.Ron.Outline
/-!
# Reading RON Texts

The tree of a RON text.

A text may begin with lines that ask for extensions; one value follows. Items
stand between commas, and a comma may follow the last one. What stands in
parentheses is a record if a name and a colon come first, and a tuple otherwise.

The reader of values is given a budget of nesting, which bounds its recursion: a
list, a map, a tuple or a record costs one, each of its items another, and so
does the content of an optional value. A text that nests deeper is refused.

## Main definitions

* `Ron.items?`: The reader of items between commas.
* `Ron.optional?`: The reader of optional values.
* `Ron.value?`: The reader of values.
* `Ron.extensions?`: The reader of the lines that ask for extensions.
* `Ron.parse?`: The value of a whole text.
-/

namespace BehaviorGraph.Ron

/-! ### Items -/

/-- Read items between commas up to a closing character, within a number of
    steps. -/
def itemsFrom? {α : Type} (close : Char) (item? : Reader α) : Nat → Reader (List α)
  | 0, _ => none
  | steps + 1, cs => do
    let cs ← skip? cs
    match char? close cs with
    | some rest => return ([], rest)
    | none =>
      let (x, cs) ← item? cs
      let cs ← skip? cs
      match char? ',' cs with
      | some rest => (itemsFrom? close item? steps rest).map fun (xs, rest) => (x :: xs, rest)
      | none => (char? close cs).map fun rest => ([x], rest)

/-- Read items between commas up to a closing character. Every item but the last
    ends in a comma, so the length of the text is steps enough. -/
def items? {α : Type} (close : Char) (item? : Reader α) (cs : List Char) :
    Option (List α × List Char) :=
  itemsFrom? close item? (cs.length + 1) cs

/-- Read a value, a colon and another value. -/
def pair? {α : Type} (key? : Reader α) (item? : Reader Ron) (cs : List Char) :
    Option ((α × Ron) × List Char) := do
  let (k, cs) ← key? cs
  let cs ← skip? cs
  let cs ← char? ':' cs
  let (v, cs) ← spaced? item? cs
  return ((k, v), cs)

/-- Read what stands behind an opening parenthesis. -/
def parenthesised? (typeName : Option String) (item? : Reader Ron) (cs : List Char) :
    Option (Ron × List Char) := do
  let cs ← skip? cs
  if isMember cs then
    (items? ')' (pair? name? item?) cs).map fun (ms, rest) => (.record typeName ms, rest)
  else
    (items? ')' item? cs).map fun (vs, rest) => (.tuple typeName vs, rest)

/-- Read a name, and what stands in parentheses behind it. -/
def named? (item? : Reader Ron) (cs : List Char) : Option (Ron × List Char) := do
  let (n, cs) ← name? cs
  let cs ← skip? cs
  match char? '(' cs with
  | some rest => parenthesised? n item? rest
  | none => return (.name n, cs)

/-! ### Optional values -/

/-- Read the content of an optional value and its closing parenthesis. A comma may
    stand in between. -/
def closed? (content? : Reader Ron) (cs : List Char) : Option (Ron × List Char) := do
  let (v, cs) ← content? cs
  let cs ← skip? cs
  let cs ← skip? ((char? ',' cs).getD cs)
  let cs ← char? ')' cs
  return (v, cs)

/-- Read the content of an optional value that may have dropped its own
    parentheses. `bareItem?` reads the items that stood in them. -/
def bare? (content? : Reader Ron) (bareItem? : Option (Reader Ron)) (cs : List Char) :
    Option (Ron × List Char) :=
  match char? ')' cs with
  | some rest => some (.present (.tuple none []), rest)
  | none =>
    match outline? cs with
    | none => (closed? content? cs).map fun (v, rest) => (.unclear v, rest)
    | some .single => (closed? content? cs).map fun (v, rest) => (.present v, rest)
    | some _ =>
      bareItem?.bind fun item? =>
        (parenthesised? none item? cs).map fun (v, rest) => (.present v, rest)

/-- Read an optional value behind its marker. The content stands in parentheses,
    or follows as it is if the text asks for that. -/
def optional? (e : Extensions) (content? : Reader Ron) (bareItem? : Option (Reader Ron))
    (cs : List Char) : Option (Ron × List Char) := do
  let cs ← skip? cs
  match char? '(' cs with
  | some rest =>
    let rest ← skip? rest
    if e.bareContent then bare? content? bareItem? rest
    else (closed? content? rest).map fun (v, rest) => (.present v, rest)
  | none =>
    if e.implicitSome then (content? cs).map fun (v, rest) => (.present v, rest) else none

/-! ### Values -/

/-- Read a value without parts that is no name. -/
def leaf? (cs : List Char) : Option (Ron × List Char) :=
  (wordValue? cs).or ((quotation? cs).or (number? cs))

/-- Read a value that needs no nesting: one without parts, or an empty tuple
    without space in it. -/
def atom? (cs : List Char) : Option (Ron × List Char) :=
  match cs with
  | '(' :: ')' :: rest => some (.tuple none [], rest)
  | cs =>
    if (word? "Some" cs).isSome then none
    else (leaf? cs).or ((name? cs).map fun (n, rest) => (.name n, rest))

/-- Read a value, given readers of the content of an optional value, of items, and
    of the items of a content that has dropped its parentheses, if it may. -/
def valueOf? (e : Extensions) (content? item? : Reader Ron) (bareItem? : Option (Reader Ron))
    (cs : List Char) : Option (Ron × List Char) :=
  match cs with
  | '(' :: rest => parenthesised? none item? rest
  | '[' :: rest => (items? ']' item? rest).map fun (vs, rest) => (.list vs, rest)
  | '\x7b' :: rest =>
    (items? '\x7d' (pair? item? item?) rest).map fun (es, rest) => (.map es, rest)
  | cs =>
    match word? "Some" cs with
    | some rest => optional? e content? bareItem? rest
    | none => (leaf? cs).or (named? item? cs)

/-- The reader that reads nothing. -/
def refuse : Reader Ron :=
  fun _ => none

/-- Read a value within a budget of nesting. -/
def value? (e : Extensions) : Nat → Reader Ron
  | 0 => atom?
  | 1 => valueOf? e (value? e 0) refuse none
  | 2 => valueOf? e (value? e 1) (value? e 0) (some refuse)
  | budget + 3 =>
    valueOf? e (value? e (budget + 2)) (value? e (budget + 1)) (some (value? e budget))

/-! ### Texts -/

/-- How deep a text may nest. -/
def nestingBudget : Nat :=
  128

/-- The extensions that there are, each with its effect. One of them concerns a
    form that assets do not have. -/
def extension? (name : String) (e : Extensions) : Option Extensions :=
  if name = "implicit_some" then some { e with implicitSome := true }
  else if name = "explicit_struct_names" then some { e with explicitNames := true }
  else if name = "unwrap_variant_newtypes" then some { e with bareContent := true }
  else if name = "unwrap_newtypes" then some e
  else none

/-- Read the names of extensions between commas, within a number of steps. -/
def extensionNames? : Nat → Extensions → Reader Extensions
  | 0, _, _ => none
  | steps + 1, e, cs => do
    let (n, cs) ← name? cs
    let e ← extension? n e
    let cs ← skip? cs
    match char? ',' cs with
    | none => return (e, cs)
    | some rest =>
      let cs ← skip? rest
      if cs.head?.any Text.continuesIdentifier then extensionNames? steps e cs
      else return (e, cs)

/-- Read marks that must follow one another, and the space behind each. -/
def marks? : List Char → List Char → Option (List Char)
  | [], cs => some cs
  | m :: ms, cs => do
    let cs ← char? m cs
    let cs ← skip? cs
    marks? ms cs

/-- Read a line that asks for extensions, behind its hash sign. -/
def extensionLine? (e : Extensions) (cs : List Char) : Option (Extensions × List Char) := do
  let cs ← skip? cs
  let cs ← marks? ['!', '['] cs
  let cs ← afterMark? "enable".toList cs
  let cs ← skip? cs
  let cs ← marks? ['('] cs
  let (e, cs) ← extensionNames? (cs.length + 1) e cs
  let cs ← marks? [')', ']'] cs
  return (e, cs)

/-- Read the lines that ask for extensions, within a number of steps. -/
def extensions? : Nat → Extensions → Reader Extensions
  | 0, _, _ => none
  | steps + 1, e, cs => do
    let cs ← skip? cs
    match char? '#' cs with
    | none => return (e, cs)
    | some rest =>
      let (e, cs) ← extensionLine? e rest
      extensions? steps e cs

/-- The value of a whole text, and the extensions that the text asks for. -/
def parse? (s : String) : Option (Extensions × Ron) := do
  let cs := s.toList
  let (e, cs) ← extensions? (cs.length + 1) {} cs
  let (v, cs) ← value? e nestingBudget cs
  let cs ← skip? cs
  if cs.isEmpty then return (e, v) else none

end BehaviorGraph.Ron
