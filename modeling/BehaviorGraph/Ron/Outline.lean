import BehaviorGraph.Ron.Token
/-!
# What Stands in Parentheses

Telling, without reading it, whether the text behind an opening parenthesis is
one value or several.

A text can ask that the parentheses of a tuple or a record be dropped inside the
parentheses of an optional value. Whether they were dropped is then read off the
outline of the content: a name and a colon in front are the first member of a
record, and a comma that is neither nested nor the last mark makes a tuple. The
outline is followed bracket by bracket, whatever their kinds, passing over
comments, texts and characters. The mark behind a text is taken as it is, even
if it is the first half of the start of a comment; what follows need not make
sense then, and the outline is unknown.

## Main definitions

* `Ron.Outline`: One value, several values, or members.
* `Ron.outline?`: The outline of what stands behind an opening parenthesis.
-/

namespace BehaviorGraph.Ron

/-- What stands in parentheses, as far as it can be told from afar. -/
inductive Outline where
  /-- One value, with or without a comma behind it. -/
  | single
  /-- Several values. -/
  | several
  /-- The members of a record. -/
  | members
deriving DecidableEq

/-- A name and a colon come next. -/
def isMember (cs : List Char) : Bool :=
  match name? cs with
  | none => false
  | some (_, rest) => ((skip? rest).bind (char? ':')).isSome

/-- The outline behind a comma that is not nested. -/
def outlineBehindComma? (cs : List Char) : Option Outline :=
  (skip? cs).map fun cs => if cs.head? = some ')' then .single else .several

/-- The text without the character, the text or the string of bytes in front, if
    one is there. -/
def dropQuotation (cs : List Char) : List Char :=
  let drop := fun (read? : Reader (List Char)) cs => ((read? cs).map Prod.snd).getD cs
  let character : Reader (List Char) := fun cs => (char? '\x27' cs).bind (character? false)
  let text : Reader (List Char) := fun cs =>
    match cs with
    | '\x22' :: rest => quoted? rest
    | 'r' :: rest => raw? rest
    | _ => none
  let bytes : Reader (List Char) := fun cs =>
    match cs with
    | 'b' :: '\x22' :: rest => quotedFrom? true .between rest
    | 'b' :: 'r' :: rest => raw? rest
    | _ => none
  drop bytes (drop text (drop character cs))

/-- Follow the brackets until the open ones are closed or an unnested comma
    comes, within a number of steps. -/
def outlineFrom? : Nat → Nat → List Char → Option Outline
  | 0, _, _ => none
  | steps + 1, nested, cs => do
    let cs ← skip? cs
    match dropQuotation cs with
    | [] => none
    | c :: rest =>
      if c = '(' ∨ c = '[' ∨ c = '\x7b' then outlineFrom? steps (nested + 1) rest
      else if c = ')' ∨ c = ']' ∨ c = '\x7d' then
        if nested = 0 then return .single else outlineFrom? steps (nested - 1) rest
      else if c = ',' ∧ nested = 0 then outlineBehindComma? rest
      else outlineFrom? steps nested rest

/-- The outline of what stands behind an opening parenthesis and the space that
    follows it. -/
def outline? (cs : List Char) : Option Outline :=
  if isMember cs then some .members
  else outlineFrom? (cs.length + 1) 0 (((name? cs).map Prod.snd).getD cs)

end BehaviorGraph.Ron
