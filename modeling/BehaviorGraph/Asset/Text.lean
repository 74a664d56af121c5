import BehaviorGraph.Asset.Graph
import BehaviorGraph.Json.Format
import BehaviorGraph.Json.Parser
import BehaviorGraph.Json.Printer
import BehaviorGraph.Ron.Format
import BehaviorGraph.Ron.Parser
import BehaviorGraph.Ron.Printer
/-!
# Asset Texts

Nodes, steps and graphs as texts in the two notations.

RON is the notation of files; JSON serves tools that do not read it. A single
node or step is written without white space, a graph with one item on each
line.

## Main definitions

* `AssetError`: Why a text is no asset.
* `Asset`: A type of values that are persisted.
* `Asset.toJson`, `Asset.fromJson`: JSON texts.
* `Asset.toRon`, `Asset.fromRon`: RON texts.
* `Asset.load`: The asset in a file.
-/

namespace BehaviorGraph

/-- Why an asset cannot be read. -/
inductive AssetError where
  /-- The file cannot be read. -/
  | unreadable
  /-- The text is no asset in RON. -/
  | ron
  /-- The text is no asset in JSON. -/
  | json
deriving DecidableEq

/-- A type of values that are persisted in either notation. -/
class Asset (α : Type) where
  /-- Write a value in a format. -/
  encode : {V : Type} → Format V → α → V
  /-- Read a value in a format. -/
  decode? : {V : Type} → Format V → V → Option α

instance : Asset Node where
  encode := Format.ofNode
  decode? := Format.node?

instance : Asset Step where
  encode := Format.ofStep
  decode? := Format.step?

instance : Asset Graph where
  encode := Format.ofGraph
  decode? := Format.graph?

namespace Asset

variable {α : Type} [Asset α]

/-- A value in JSON. -/
def toJson (layout : Layout) (x : α) : String :=
  String.ofList ((encode Json.format x).render layout 0)

/-- The value that a JSON text holds. -/
def fromJson (s : String) : Except AssetError α :=
  match (Json.parse? s).bind (decode? Json.format) with
  | some x => .ok x
  | none => .error .json

/-- A value in RON. -/
def toRon (layout : Layout) (x : α) : String :=
  String.ofList ((encode (Ron.format {}) x).render layout 0)

/-- The value that a RON text holds. -/
def fromRon (s : String) : Except AssetError α :=
  match (Ron.parse? s).bind fun (e, v) => decode? (Ron.format { extensions := e }) v with
  | some x => .ok x
  | none => .error .ron

/-- The value in a file, given what the file contains if it can be read. -/
def load (content : Option String) : Except AssetError α :=
  match content with
  | none => .error .unreadable
  | some s => fromRon s

end Asset

namespace Graph

/-- A graph in JSON. -/
def toJson (g : Graph) : String :=
  Asset.toJson .lines g

/-- The graph that a JSON text holds. -/
def fromJson (s : String) : Except AssetError Graph :=
  Asset.fromJson s

/-- A graph in RON. -/
def toRon (g : Graph) : String :=
  Asset.toRon .lines g

/-- The graph that a RON text holds. -/
def fromRon (s : String) : Except AssetError Graph :=
  Asset.fromRon s

end Graph

end BehaviorGraph
