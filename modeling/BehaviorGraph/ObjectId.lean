import BehaviorGraph.Text.Name
/-!
# Object Ids

Scene objects are known by universally unique ids of 128 bits.

An id is written as 32 lower case hexadecimal digits in five groups joined by
hyphens. It is read in that form, as 32 digits without hyphens, in braces, or
behind the mark of a resource name; digits and mark may be of either case.

## Main definitions

* `ObjectId`: An id of 128 bits.
* `ObjectId.chars`: The written form.
* `ObjectId.ofChars?`: Reading any of the accepted forms.
* `ObjectId.minted`: The ids of version 4 that are handed out, numbered.
* `ObjectId.isVersion4`: The id carries the marks of version 4.
-/

namespace BehaviorGraph

/-- A universally unique id. -/
structure ObjectId where
  /-- The 128 bits. -/
  value : BitVec 128
deriving DecidableEq, Inhabited

/-- A hexadecimal digit. -/
abbrev HexDigit :=
  Fin 16

/-- The lower case character of a hexadecimal digit. -/
def HexDigit.toChar (d : HexDigit) : Char :=
  Char.ofNat (if d.val < 10 then 48 + d.val else 87 + d.val)

/-- The hexadecimal digit that a character stands for, in either case. -/
def HexDigit.ofChar? (c : Char) : Option HexDigit :=
  let n := c.toNat
  if h : 48 ≤ n ∧ n < 58 then some ⟨n - 48, by omega⟩
  else if h : 97 ≤ n ∧ n < 103 then some ⟨n - 87, by omega⟩
  else if h : 65 ≤ n ∧ n < 71 then some ⟨n - 55, by omega⟩
  else none

theorem HexDigit.ofChar?_toChar (d : HexDigit) : HexDigit.ofChar? d.toChar = some d := by
  revert d
  decide

/-- The number that hexadecimal digits spell. -/
def ofHexDigits (ds : List HexDigit) : Nat :=
  ds.foldl (fun acc d => acc * 16 + d.val) 0

/-- The `count` lowest hexadecimal digits of a number, most significant
    first. -/
def hexDigitsOf : Nat → Nat → List HexDigit
  | 0, _ => []
  | count + 1, n => hexDigitsOf count (n / 16) ++ [⟨n % 16, Nat.mod_lt _ (by decide)⟩]

namespace ObjectId

/-- The lengths of the groups of digits between the hyphens. -/
def groups : List Nat :=
  [8, 4, 4, 4, 12]

/-- Cut a list into groups of the given lengths and join them by hyphens. -/
def joinGroups : List Nat → List Char → List Char
  | [], cs => cs
  | [_], cs => cs
  | n :: ns, cs => cs.take n ++ '-' :: joinGroups ns (cs.drop n)

/-- Undo `joinGroups`: every group has its length and every hyphen is there. -/
def splitGroups? : List Nat → List Char → Option (List Char)
  | [], cs => if cs.isEmpty then some [] else none
  | [n], cs => if cs.length = n then some cs else none
  | n :: ns, cs =>
    match cs.drop n with
    | '-' :: rest => (splitGroups? ns rest).map (cs.take n ++ ·)
    | _ => none

/-- The id that 32 hexadecimal digits spell. -/
def ofDigits? (cs : List Char) : Option ObjectId :=
  if cs.length = 32 then
    (cs.mapM HexDigit.ofChar?).map fun ds => ⟨BitVec.ofNat 128 (ofHexDigits ds)⟩
  else none

/-- The id whose digits stand in groups joined by hyphens. -/
def ofGroups? (cs : List Char) : Option ObjectId :=
  (splitGroups? groups cs).bind ofDigits?

/-- What stands in front of an id that is written as a resource name. -/
def resourceMark : List Char :=
  "urn:uuid:".toList

/-- The rest of a text that starts with the resource mark, its letters in either
    case. -/
def dropResourceMark? (cs : List Char) : Option (List Char) :=
  if (cs.take resourceMark.length).map Text.foldCase = resourceMark then
    some (cs.drop resourceMark.length)
  else none

/-- The id without its enclosing braces. -/
def dropBraces? : List Char → Option (List Char)
  | '\x7b' :: rest => if rest.getLast? = some '\x7d' then some rest.dropLast else none
  | _ => none

/-- Read an id in any of its accepted forms. -/
def ofChars? (cs : List Char) : Option ObjectId :=
  match dropBraces? cs with
  | some inner => ofGroups? inner
  | none =>
    match dropResourceMark? cs with
    | some rest => ofGroups? rest
    | none => (ofDigits? cs).or (ofGroups? cs)

/-- Read an id in any of its accepted forms. -/
def ofString? (s : String) : Option ObjectId :=
  ofChars? s.toList

/-- The written form of an id. -/
def chars (id : ObjectId) : List Char :=
  joinGroups groups ((hexDigitsOf 32 id.value.toNat).map HexDigit.toChar)

/-- The written form of an id. -/
protected def toString (id : ObjectId) : String :=
  String.ofList id.chars

instance : ToString ObjectId :=
  ⟨ObjectId.toString⟩

/-- The id of version 4 whose free bits spell the given number. Ids below
    `2 ^ 122` are distinct. -/
def minted (n : Nat) : ObjectId :=
  let low := n % (1 <<< 62)
  let middle := (n >>> 62) % (1 <<< 12)
  let high := (n >>> 74) % (1 <<< 48)
  ⟨BitVec.ofNat 128 (high <<< 80 + 4 <<< 76 + middle <<< 64 + 2 <<< 62 + low)⟩

/-- The version is 4 and the variant is the one that goes with it. -/
def isVersion4 (id : ObjectId) : Bool :=
  (id.value.toNat >>> 76) % 16 = 4 && (id.value.toNat >>> 62) % 4 = 2

end ObjectId

end BehaviorGraph
