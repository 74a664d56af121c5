import BehaviorGraph.Ron.Basic
import BehaviorGraph.Ron.Number
import BehaviorGraph.Ron.Text
import BehaviorGraph.Text.Identifier
/-!
# Tokens of RON Texts

The parts of a RON text that have no parts themselves: names, words, numbers,
and texts, characters and strings of bytes in quotes.

What may stand between tokens is pattern white space, comments to the end of the line,
and comments between marks, which nest. Readers of tokens expect that the space in
front was dropped. A number token is everything that could belong to a number, so that
a number and a name never touch.

## Main definitions

* `Ron.isSpace`: The property `Pattern_White_Space` of Unicode.
* `Ron.skip?`: Drop space and comments.
* `Ron.Reader`: A reader of the front of a text.
* `Ron.name?`, `Ron.word?`: The readers of names and of given words.
* `Ron.number?`, `Ron.quotation?`: The readers of numbers and of quoted values.

## Theorems

* `Ron.skip?_of_ne_slash`: Only a slash starts a comment.
-/

namespace BehaviorGraph.Ron

/-! ### Space between tokens -/

/-- The characters with the property `Pattern_White_Space`. -/
def isSpace (c : Char) : Bool :=
  let n := c.toNat
  (9 ≤ n && n ≤ 13) || n = 0x20 || n = 0x85 || n = 0x200e || n = 0x200f || n = 0x2028
    || n = 0x2029

/-- Where a reader of space is. -/
inductive SkipState where
  /-- Between tokens. -/
  | space
  /-- In a comment that ends with the line. -/
  | line
  /-- In a comment between marks, with this many more around it. -/
  | block (outer : Nat)
deriving DecidableEq

/-- Drop space and comments. A comment that is not closed, and a slash that
    starts none, are errors. -/
def skipFrom? : SkipState → List Char → Option (List Char)
  | .space, '/' :: '/' :: rest => skipFrom? .line rest
  | .space, '/' :: '*' :: rest => skipFrom? (.block 0) rest
  | .space, c :: rest =>
    if c = '/' then none
    else if isSpace c then skipFrom? .space rest
    else some (c :: rest)
  | .line, c :: rest => skipFrom? (if c = '\n' then .space else .line) rest
  | .block (outer + 1), '*' :: '/' :: rest => skipFrom? (.block outer) rest
  | .block 0, '*' :: '/' :: rest => skipFrom? .space rest
  | .block outer, '/' :: '*' :: rest => skipFrom? (.block (outer + 1)) rest
  | .block outer, _ :: rest => skipFrom? (.block outer) rest
  | .block _, [] => none
  | _, [] => some []

/-- Drop space and comments. -/
def skip? (cs : List Char) : Option (List Char) :=
  skipFrom? .space cs

/-- A character that is no slash starts no comment. -/
theorem skip?_of_ne_slash {c : Char} (hc : c ≠ '/') (cs : List Char) :
    skip? (c :: cs) = if isSpace c then skip? cs else some (c :: cs) := by
  rw [skip?, skipFrom?, if_neg hc]
  · rfl
  · exact fun _ heq => absurd heq hc
  · exact fun _ heq => absurd heq hc

/-! ### Readers -/

/-- A reader takes a text and returns what it read and what follows. -/
abbrev Reader (α : Type) :=
  List Char → Option (α × List Char)

/-- Drop the space in front and read. -/
def spaced? {α : Type} (read? : Reader α) (cs : List Char) : Option (α × List Char) :=
  (skip? cs).bind read?

/-- Read a character that must come next. -/
def char? (c : Char) (cs : List Char) : Option (List Char) :=
  match cs with
  | [] => none
  | d :: rest => if d = c then some rest else none

/-! ### Names and words -/

/-- The rest of a text that starts with a mark. -/
def afterMark? (mark : List Char) (cs : List Char) : Option (List Char) :=
  if mark.isPrefixOf cs then some (cs.drop mark.length) else none

/-- A name can start with the character. -/
def startsName (c : Char) : Bool :=
  c = '_' || Text.startsIdentifier c

/-- The character may stand in a name that is marked as raw. -/
def isRawNameChar (c : Char) : Bool :=
  Text.continuesIdentifier c || c = '.' || c = '+' || c = '-'

/-- The beginnings of raw texts and byte strings, which are no names. -/
def textMarks : List (List Char) :=
  ["r\"", "r#\"", "r##", "b\"", "b'", "br\"", "br#\"", "br##"].map String.toList

/-- Read a name. Behind the mark of a raw name the point and the signs belong to
    it. -/
def name? (cs : List Char) : Option (String × List Char) :=
  if textMarks.any (·.isPrefixOf cs) then none
  else
    match afterMark? "r#".toList cs with
    | some rest =>
      let raw := rest.takeWhile isRawNameChar
      if raw.isEmpty then none else some (String.ofList raw, rest.drop raw.length)
    | none =>
      let plain := cs.takeWhile Text.continuesIdentifier
      if cs.head?.any startsName then some (String.ofList plain, cs.drop plain.length) else none

/-- Read a given word that no further character of a name follows. -/
def word? (word : String) (cs : List Char) : Option (List Char) :=
  match afterMark? word.toList cs with
  | none => none
  | some rest => if rest.head?.any Text.continuesIdentifier then none else some rest

/-- The words that are numbers. -/
def numberWords : List String :=
  ["inf", "NaN", "inff32", "NaNf32", "inff64", "NaNf64"]

/-- Read a word that is a value by itself: a number, a truth value or the missing
    optional value. -/
def wordValue? (cs : List Char) : Option (Ron × List Char) :=
  let words : List (String × Ron) :=
    [("None", .missing), ("true", .name "true"), ("false", .name "false")]
      ++ numberWords.map fun w => (w, .number w.toList)
  words.findSome? fun (w, v) => (word? w cs).map fun rest => (v, rest)

/-! ### Numbers and quotations -/

/-- A number can start with the character. -/
def startsNumber (c : Char) : Bool :=
  c.isDigit || c = '+' || c = '-' || c = '.'

/-- The character may stand in a number token. -/
def isTokenChar (c : Char) : Bool :=
  c.isAlphanum || c = '_' || c = '+' || c = '-' || c = '.'

/-- Read a number token. -/
def number? (cs : List Char) : Option (Ron × List Char) :=
  let token := cs.takeWhile isTokenChar
  if cs.head?.any startsNumber && isNumber token then
    some (.number token, cs.drop token.length)
  else none

/-- Read a text, a character or a string of bytes, in any of their forms. -/
def quotation? (cs : List Char) : Option (Ron × List Char) :=
  let literal := fun r : List Char × List Char => (Ron.literal r.1, r.2)
  let text := fun r : List Char × List Char => (Ron.text (String.ofList r.1), r.2)
  match cs with
  | '\x22' :: rest => (quoted? rest).map text
  | '\x27' :: rest => (character? false rest).map literal
  | 'b' :: '\x22' :: rest => (quotedFrom? true .between rest).map literal
  | 'b' :: '\x27' :: rest => (character? true rest).map literal
  | 'b' :: 'r' :: rest => (raw? rest).map literal
  | 'r' :: rest => (raw? rest).map text
  | _ => none

end BehaviorGraph.Ron
