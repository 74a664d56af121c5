import BehaviorGraph.Bake.Basic
import BehaviorGraph.Number.Digits
/-!
# Baking Without a Scene

A bake context for graphs that have no scene yet.

Objects receive the target ids `target-0`, `target-1`, ... in the order they are
first asked about, except for objects that are declared missing. Click triggers
are attached to nothing; the requests are collected.

## Main definitions

* `Draft`: The ids handed out and the click triggers requested.
* `Draft.context`: The bake context over drafts.
-/

namespace BehaviorGraph

/-- A stand-in for a scene. -/
structure Draft where
  /-- The objects that do not exist. -/
  missing : List ObjectId := []
  /-- The target ids handed out so far. -/
  ids : OrderedMap ObjectId String := .empty
  /-- The click triggers requested so far. -/
  clicks : List (ObjectId × NodeId) := []

namespace Draft

/-- The target id with a number. -/
def numbered (n : Nat) : String :=
  "target-" ++ String.ofList (natChars n)

/-- The target id of an object: the one it has, or the next number. -/
def targetId (o : ObjectId) (d : Draft) : Option String × Draft :=
  if o ∈ d.missing then (none, d)
  else
    match d.ids.get? o with
    | some id => (some id, d)
    | none =>
      let id := numbered d.ids.size
      (some id, { d with ids := d.ids.insert o id })

/-- The bake context over drafts. -/
def context : BakeContext Draft where
  targetId := targetId
  bindClick o id d := { d with clicks := d.clicks ++ [(o, id)] }

end Draft

end BehaviorGraph
