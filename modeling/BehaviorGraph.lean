import BehaviorGraph.Asset.Format
import BehaviorGraph.Asset.Graph
import BehaviorGraph.Asset.Node
import BehaviorGraph.Asset.Text
import BehaviorGraph.Bake.Basic
import BehaviorGraph.Bake.Draft
import BehaviorGraph.Graph.Basic
import BehaviorGraph.Graph.Diagnostics
import BehaviorGraph.Graph.Edit
import BehaviorGraph.Graph.Node
import BehaviorGraph.Input.Bindings
import BehaviorGraph.Input.Key
import BehaviorGraph.Json.Basic
import BehaviorGraph.Json.Format
import BehaviorGraph.Json.Number
import BehaviorGraph.Json.Parser
import BehaviorGraph.Json.Printer
import BehaviorGraph.Number.Digits
import BehaviorGraph.Number.Plain
import BehaviorGraph.Number.Single
import BehaviorGraph.ObjectId
import BehaviorGraph.OrderedMap
import BehaviorGraph.Palette
import BehaviorGraph.Program
import BehaviorGraph.Proofs.Accounting
import BehaviorGraph.Proofs.ActionAges
import BehaviorGraph.Proofs.Ancestry
import BehaviorGraph.Proofs.AssetReading
import BehaviorGraph.Proofs.AssetWriting
import BehaviorGraph.Proofs.AuthoredGraphs
import BehaviorGraph.Proofs.BakeFrame
import BehaviorGraph.Proofs.BakeMeaning
import BehaviorGraph.Proofs.BakeOrder
import BehaviorGraph.Proofs.BakeRequests
import BehaviorGraph.Proofs.BreadthFirst
import BehaviorGraph.Proofs.CallableActions
import BehaviorGraph.Proofs.CanonicalKeys
import BehaviorGraph.Proofs.ClickWiring
import BehaviorGraph.Proofs.ClosedLayers
import BehaviorGraph.Proofs.DanglingEdges
import BehaviorGraph.Proofs.DeclaredLayers
import BehaviorGraph.Proofs.DepthFirst
import BehaviorGraph.Proofs.EditHistory
import BehaviorGraph.Proofs.Enlisting
import BehaviorGraph.Proofs.FailedEdits
import BehaviorGraph.Proofs.Fates
import BehaviorGraph.Proofs.Findings
import BehaviorGraph.Proofs.FlagWrites
import BehaviorGraph.Proofs.Histories
import BehaviorGraph.Proofs.HostCalls
import BehaviorGraph.Proofs.Independence
import BehaviorGraph.Proofs.InertEdges
import BehaviorGraph.Proofs.JsonLiterals
import BehaviorGraph.Proofs.JsonNumbers
import BehaviorGraph.Proofs.JsonReading
import BehaviorGraph.Proofs.JsonReload
import BehaviorGraph.Proofs.JsonRoundTrip
import BehaviorGraph.Proofs.LayerNames
import BehaviorGraph.Proofs.LeadingDigits
import BehaviorGraph.Proofs.Meaning
import BehaviorGraph.Proofs.NameReading
import BehaviorGraph.Proofs.NodeOutcomes
import BehaviorGraph.Proofs.OneKey
import BehaviorGraph.Proofs.OrderViolations
import BehaviorGraph.Proofs.ParentLinks
import BehaviorGraph.Proofs.ParentsFirst
import BehaviorGraph.Proofs.Punctuality
import BehaviorGraph.Proofs.QuietSteps
import BehaviorGraph.Proofs.Rebaking
import BehaviorGraph.Proofs.RegisteringTwice
import BehaviorGraph.Proofs.Registrations
import BehaviorGraph.Proofs.Registries
import BehaviorGraph.Proofs.Rendering
import BehaviorGraph.Proofs.Respawning
import BehaviorGraph.Proofs.RonLiterals
import BehaviorGraph.Proofs.RonNumbers
import BehaviorGraph.Proofs.RonReading
import BehaviorGraph.Proofs.RonRoundTrip
import BehaviorGraph.Proofs.RunReach
import BehaviorGraph.Proofs.SceneChanges
import BehaviorGraph.Proofs.Scheduling
import BehaviorGraph.Proofs.SharedTargets
import BehaviorGraph.Proofs.SoloRun
import BehaviorGraph.Proofs.StepFrame
import BehaviorGraph.Proofs.StepMeaning
import BehaviorGraph.Proofs.Subtrees
import BehaviorGraph.Proofs.Switching
import BehaviorGraph.Proofs.TagRecord
import BehaviorGraph.Proofs.Tagging
import BehaviorGraph.Proofs.TargetLife
import BehaviorGraph.Proofs.Timers
import BehaviorGraph.Proofs.Toggling
import BehaviorGraph.Proofs.TriggeredSteps
import BehaviorGraph.Proofs.TurnRecord
import BehaviorGraph.Proofs.Unloading
import BehaviorGraph.Ron.Basic
import BehaviorGraph.Ron.Format
import BehaviorGraph.Ron.Number
import BehaviorGraph.Ron.Outline
import BehaviorGraph.Ron.Parser
import BehaviorGraph.Ron.Printer
import BehaviorGraph.Ron.Text
import BehaviorGraph.Ron.Token
import BehaviorGraph.Scene.Action
import BehaviorGraph.Scene.Layers
import BehaviorGraph.Scene.World
import BehaviorGraph.Session.Bake
import BehaviorGraph.Session.Basic
import BehaviorGraph.Session.Clock
import BehaviorGraph.Session.Frame
import BehaviorGraph.Session.Perform
import BehaviorGraph.Session.Registration
import BehaviorGraph.Settings
import BehaviorGraph.Text.Identifier
import BehaviorGraph.Text.Name
import BehaviorGraph.Text.Writing
