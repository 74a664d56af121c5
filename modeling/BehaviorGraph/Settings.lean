import BehaviorGraph.Asset.Format
import BehaviorGraph.Ron.Format
import BehaviorGraph.Ron.Parser
import BehaviorGraph.Ron.Printer
/-!
# Settings

The settings of a session, and their RON text.

Declared layers restrict which layer names there are; cancel actions name the
layer that an input action hides. Every setting may be left out of the text.

## Main definitions

* `Settings`: The settings.
* `Settings.toRon`, `Settings.fromRon`: Their text.
* `Settings.load`: The settings in a file.
-/

namespace BehaviorGraph

/-- The settings of a session. -/
structure Settings where
  /-- The declared layers; without any, every layer name is accepted. -/
  layers : List String := []
  /-- For an input action, the layer that it hides. -/
  cancelActions : OrderedMap String String := .empty
  /-- Which diagnostics are written. -/
  logFilter : String := "ordoplay_ui_runtime=info"

/-- Why a configuration cannot be read. -/
inductive SettingsError where
  /-- The file cannot be read. -/
  | unreadable
  /-- The text is no configuration. -/
  | malformed
deriving DecidableEq

namespace Settings

/-- Declare a layer. -/
def declareLayer (layer : String) (c : Settings) : Settings :=
  { c with layers := c.layers ++ [layer] }

/-- Let an input action hide a layer. -/
def addCancelAction (action layer : String) (c : Settings) : Settings :=
  { c with cancelActions := c.cancelActions.insert action layer }

/-- Equality of settings; the order of cancel actions does not count. -/
def same (a b : Settings) : Bool :=
  a.layers == b.layers && a.cancelActions.sameBy (· == ·) b.cancelActions
    && a.logFilter == b.logFilter

/-- The members of a configuration, in the order of their declaration. -/
def fields : List String :=
  ["layers", "cancel_actions", "log_filter"]

/-- Write the settings in a format. -/
def encode {V : Type} (fmt : Format V) (c : Settings) : V :=
  fmt.ofRecord "RuntimeConfig"
    [("layers", fmt.ofItems fmt.ofText c.layers),
     ("cancel_actions", fmt.ofMap fmt.ofText c.cancelActions),
     ("log_filter", fmt.ofText c.logFilter)]

/-- Read the settings in a format. -/
def decode? {V : Type} (fmt : Format V) (v : V) : Option Settings := do
  let default : Settings := {}
  let members ← fmt.fields? "RuntimeConfig" fields v
  let layers ← Format.defaulted? (fmt.items? fmt.text?) default.layers "layers" members
  let cancelActions ←
    Format.defaulted? (fmt.map? fmt.text?) default.cancelActions "cancel_actions" members
  let logFilter ← Format.defaulted? fmt.text? default.logFilter "log_filter" members
  return { layers, cancelActions, logFilter }

/-- The settings in RON, with the type name in front. -/
def toRon (c : Settings) : String :=
  (encode (Ron.format { typeNames := true }) c).linesText

/-- The settings that a RON text holds. -/
def fromRon (s : String) : Except SettingsError Settings :=
  match (Ron.parse? s).bind fun (e, v) => decode? (Ron.format { extensions := e }) v with
  | some c => .ok c
  | none => .error .malformed

/-- The settings in a file, given what the file contains if it can be read. -/
def load (content : Option String) : Except SettingsError Settings :=
  match content with
  | none => .error .unreadable
  | some s => fromRon s

end Settings

end BehaviorGraph
