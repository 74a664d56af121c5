import BehaviorGraph.ObjectId
/-!
# Text in RON

Texts in quotes.

A backslash starts an escape: a single character, a byte in two hexadecimal
digits, or a code point in braces. Bytes beyond ASCII have to spell a character
in UTF-8 together with the byte escapes that follow. A raw text has no escapes;
it opens with a number of hash signs and a quote and ends at the first quote
that as many hash signs follow.

## Main definitions

* `Ron.decodeUtf8?`: The character that some bytes spell.
* `Ron.quoted?`: The reader of a text behind its opening quote.
* `Ron.raw?`: The reader of a raw text behind its opening mark.

## Theorems

* `Ron.quotedFrom?_plain`: Most characters stand for themselves.
-/

namespace BehaviorGraph.Ron

/-- The code point whose bits the bytes of an encoded character carry. -/
def payload : List UInt8 → Nat
  | [a, b] => a.toNat % 32 * 64 + b.toNat % 64
  | [a, b, c] => (a.toNat % 16 * 64 + b.toNat % 64) * 64 + c.toNat % 64
  | [a, b, c, d] =>
    ((a.toNat % 8 * 64 + b.toNat % 64) * 64 + c.toNat % 64) * 64 + d.toNat % 64
  | _ => 0

/-- The character beyond ASCII that exactly these bytes spell in UTF-8. -/
def decodeUtf8? (bytes : List UInt8) : Option Char :=
  let c := Char.ofNat (payload bytes)
  if String.utf8EncodeChar c = bytes then some c else none

/-- The character with a code point, if there is one. -/
def charOfCode? (n : Nat) : Option Char :=
  if n.isValidChar then some (Char.ofNat n) else none

/-- The character that an escape of one letter means. -/
def shortMeaning? (c : Char) : Option Char :=
  if c = '\x22' ∨ c = '\x27' ∨ c = '\\' then some c
  else if c = 'n' then some '\n'
  else if c = 'r' then some '\r'
  else if c = 't' then some '\t'
  else if c = '0' then some '\x00'
  else none

/-- The byte that two hexadecimal digits spell. -/
def byte? (a b : Char) : Option Nat :=
  match HexDigit.ofChar? a, HexDigit.ofChar? b with
  | some x, some y => some (x.val * 16 + y.val)
  | _, _ => none

/-- Where a reader of quoted text is. -/
inductive QuoteState where
  /-- Between characters. -/
  | between
  /-- Behind byte escapes that do not yet spell a character. -/
  | bytes (pending : List UInt8)
  /-- In the braces of a code point, behind this many digits of this value. -/
  | code (digits value : Nat)

/-- Put a character in front of what was read. -/
def prepend (c : Char) (r : List Char × List Char) : List Char × List Char :=
  (c :: r.1, r.2)

/-- Read a text behind its opening quote, up to its closing quote. In a string
    of bytes, `binary`, an escaped byte stands for itself. -/
def quotedFrom? (binary : Bool) : QuoteState → List Char → Option (List Char × List Char)
  | .between, '\x22' :: rest => some ([], rest)
  | .between, '\\' :: 'u' :: '\x7b' :: rest => quotedFrom? binary (.code 0 0) rest
  | .between, '\\' :: 'x' :: a :: b :: rest =>
    match byte? a b with
    | none => none
    | some n =>
      if n < 128 ∨ binary then (quotedFrom? binary .between rest).map (prepend (Char.ofNat n))
      else quotedFrom? binary (.bytes [UInt8.ofNat n]) rest
  | .between, '\\' :: c :: rest =>
    match shortMeaning? c with
    | none => none
    | some m => (quotedFrom? binary .between rest).map (prepend m)
  | .between, c :: rest =>
    if c = '\\' then none else (quotedFrom? binary .between rest).map (prepend c)
  | .bytes pending, '\\' :: 'x' :: a :: b :: rest =>
    match byte? a b with
    | none => none
    | some n =>
      let bytes := pending ++ [UInt8.ofNat n]
      match decodeUtf8? bytes with
      | some c => (quotedFrom? binary .between rest).map (prepend c)
      | none => if bytes.length < 4 then quotedFrom? binary (.bytes bytes) rest else none
  | .bytes _, _ => none
  | .code digits value, c :: rest =>
    if c = '\x7d' then
      if digits = 0 then none
      else (charOfCode? value).bind fun c =>
        (quotedFrom? binary .between rest).map (prepend c)
    else
      match HexDigit.ofChar? c with
      | some d =>
        if digits < 6 then quotedFrom? binary (.code (digits + 1) (value * 16 + d.val)) rest
        else none
      | none => none
  | _, [] => none

/-- A character that is neither a quote nor a backslash stands for itself. -/
theorem quotedFrom?_plain (binary : Bool) {c : Char} (hquote : c ≠ '\x22') (hbackslash : c ≠ '\\')
    (rest : List Char) :
    quotedFrom? binary .between (c :: rest) =
      (quotedFrom? binary .between rest).map (prepend c) := by
  rw [quotedFrom?, if_neg hbackslash]
  · exact hquote
  · exact fun _ heq => absurd heq hbackslash
  · exact fun _ _ _ heq => absurd heq hbackslash
  · exact fun _ _ heq => absurd heq hbackslash

/-- Read a text behind its opening quote. -/
def quoted? (cs : List Char) : Option (List Char × List Char) :=
  quotedFrom? false .between cs

/-- Read a raw text up to a quote that the given number of hash signs
    follows. -/
def rawBody? (hashes : Nat) : List Char → Option (List Char × List Char)
  | [] => none
  | c :: rest =>
    if c = '\x22' ∧ (List.replicate hashes '#').isPrefixOf rest then
      some ([], rest.drop hashes)
    else (rawBody? hashes rest).map (prepend c)

/-- Read a raw text behind its opening letter. -/
def raw? (cs : List Char) : Option (List Char × List Char) :=
  let hashes := (cs.takeWhile (· = '#')).length
  match cs.drop hashes with
  | '\x22' :: rest => rawBody? hashes rest
  | _ => none

/-- Read one character behind an opening apostrophe, and the closing one. An
    escape of more than one byte spells no character here. -/
def character? (binary : Bool) : List Char → Option (List Char × List Char)
  | '\\' :: 'x' :: a :: b :: '\x27' :: rest =>
    (byte? a b).bind fun n =>
      if n < 128 ∨ binary then some ([Char.ofNat n], rest) else none
  | '\\' :: 'u' :: '\x7b' :: rest =>
    if binary then none
    else
      let body := rest.takeWhile (· ≠ '\x7d')
      match rest.drop body.length with
      | '\x7d' :: '\x27' :: rest =>
        if body.isEmpty ∨ 6 < body.length then none
        else (body.mapM HexDigit.ofChar?).bind fun ds =>
          (charOfCode? (ofHexDigits ds)).map fun c => ([c], rest)
      | _ => none
  | '\\' :: c :: '\x27' :: rest => (shortMeaning? c).map fun m => ([m], rest)
  | c :: '\x27' :: rest =>
    if c = '\\' ∨ (binary ∧ 127 < c.toNat) then none else some ([c], rest)
  | _ => none

end BehaviorGraph.Ron
