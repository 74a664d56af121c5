import BehaviorGraph.Number.Digits
import BehaviorGraph.Text.Name
/-!
# Keys

The keys of a keyboard that a trigger can wait for.

Every key has one name. A name that a designer types is read without regard to
letter case and to white space around it.

## Main definitions

* `Key`: A key.
* `Key.all`: Every key, in the order they are listed.
* `Key.name`: The name of a key.
* `Key.parse`: The key that a typed name means.
* `UnknownKey`: The typed name means no key.

## Theorems

* `Key.mem_all`: No key is missing from the list.
-/

namespace BehaviorGraph

/-- A key that a trigger can wait for. -/
inductive Key where
  /-- A letter, counted from A. -/
  | letter (n : Fin 26)
  /-- A digit of the top row. -/
  | digit (n : Fin 10)
  /-- A function key, counted from zero. -/
  | function (n : Fin 12)
  /-- The escape key. -/
  | escape
  /-- The enter key. -/
  | enter
  /-- The space bar. -/
  | space
  /-- The tabulator key. -/
  | tab
  /-- The backspace key. -/
  | backspace
  /-- The arrow upwards. -/
  | up
  /-- The arrow downwards. -/
  | down
  /-- The arrow to the left. -/
  | left
  /-- The arrow to the right. -/
  | right
deriving DecidableEq, Inhabited

namespace Key

/-- Every key, in listing order. -/
def all : List Key :=
  (List.finRange 26).map .letter ++ (List.finRange 10).map .digit
    ++ (List.finRange 12).map .function
    ++ [.escape, .enter, .space, .tab, .backspace, .up, .down, .left, .right]

/-- The name of a key. -/
def name : Key → String
  | .letter n => String.ofList [Char.ofNat (65 + n.val)]
  | .digit n => String.ofList ("Digit".toList ++ natChars n.val)
  | .function n => String.ofList ('F' :: natChars (n.val + 1))
  | .escape => "Escape"
  | .enter => "Enter"
  | .space => "Space"
  | .tab => "Tab"
  | .backspace => "Backspace"
  | .up => "Up"
  | .down => "Down"
  | .left => "Left"
  | .right => "Right"

theorem mem_all (k : Key) : k ∈ all := by
  cases k <;> simp [all]

/-- The key with exactly this name. -/
def ofName? (s : String) : Option Key :=
  all.find? fun k => k.name == s

end Key

/-- A typed name that means no key. -/
structure UnknownKey where
  /-- The name, without the white space around it. -/
  name : String
deriving DecidableEq

/-- The wording of the error. -/
def UnknownKey.message (e : UnknownKey) : String :=
  "Unknown key: " ++ e.name

/-- The key that a typed name means. -/
def Key.parse (s : String) : Except UnknownKey Key :=
  let typed := Text.trim s
  match Key.all.find? fun k => Text.sameName k.name typed with
  | some k => .ok k
  | none => .error ⟨typed⟩

end BehaviorGraph
