import BehaviorGraph.Graph.Node
import BehaviorGraph.OrderedMap
/-!
# The Node Palette

The node types an authoring tool offers, in the order they were put there.

## Main definitions

* `PaletteEntry`: How the palette presents a node type.
* `Palette`: The types that are offered.
* `Palette.standard`: The palette of every type.
* `Palette.newNode?`: An unconfigured node of an offered type.
-/

namespace BehaviorGraph

/-- How the palette presents a node type. -/
structure PaletteEntry where
  /-- The type. -/
  type : NodeType
  /-- The name that designers see. -/
  name : String
  /-- The shelf. -/
  shelf : Shelf
  /-- What a node of this type does, in a sentence. -/
  description : String
deriving DecidableEq

/-- The node types that are offered. -/
structure Palette where
  /-- The entries, under their types. -/
  types : OrderedMap NodeType PaletteEntry

namespace Palette

/-- The palette that offers nothing. -/
def empty : Palette :=
  ⟨.empty⟩

/-- Offer a type. Offering it again replaces its description and keeps its
    place. -/
def offer (t : NodeType) (description : String) (p : Palette) : Palette :=
  ⟨p.types.insert t ⟨t, t.displayName, t.shelf, description⟩⟩

/-- The entry of a type. -/
def get? (p : Palette) (t : NodeType) : Option PaletteEntry :=
  p.types.get? t

/-- Every entry, in the order the types were first offered. -/
def all (p : Palette) : List PaletteEntry :=
  p.types.values

/-- The entries on one shelf. -/
def onShelf (p : Palette) (shelf : Shelf) : List PaletteEntry :=
  p.all.filter fun d => d.shelf = shelf

/-- An unconfigured node of an offered type, under the given id. -/
def newNode? (p : Palette) (t : NodeType) (id : NodeId) : Option Node :=
  (p.get? t).map fun d => { Node.ofKind id (.empty t) with name := d.name }

/-- A sentence on every node type. -/
def standardDescriptions : List (NodeType × String) :=
  [(.click, "Runs the connected nodes when a button is clicked"),
   (.key, "Runs the connected nodes when a key is pressed"),
   (.layers .on, "Shows every group of the listed layers"),
   (.layers .off, "Hides every group of the listed layers"),
   (.layers .over, "Hides a layer if any of its groups is visible, shows it otherwise"),
   (.objects .on, "Activates the target objects"),
   (.objects .off, "Deactivates the target objects"),
   (.objects .over, "Flips the active state of the target objects"),
   (.delay, "Waits before continuing"),
   (.call, "Invokes an action registered on the target object")]

/-- The palette of every node type. -/
def standard : Palette :=
  standardDescriptions.foldl (fun p e => p.offer e.1 e.2) empty

end Palette

end BehaviorGraph
