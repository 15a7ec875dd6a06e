import ScriptGraph.Analysis
import ScriptGraph.Binary
import ScriptGraph.Canvas.Controller
import ScriptGraph.Canvas.Settings
import ScriptGraph.Canvas.Viewport
import ScriptGraph.Chain
import ScriptGraph.Channel
import ScriptGraph.Color
import ScriptGraph.Condition
import ScriptGraph.Config
import ScriptGraph.Decimal
import ScriptGraph.Disk
import ScriptGraph.Document
import ScriptGraph.Duration
import ScriptGraph.Engine
import ScriptGraph.Error
import ScriptGraph.Event
import ScriptGraph.Exchange
import ScriptGraph.Generator
import ScriptGraph.Geometry
import ScriptGraph.Glob
import ScriptGraph.Graph
import ScriptGraph.Interpolation
import ScriptGraph.Json.Number
import ScriptGraph.Json.Parser
import ScriptGraph.Json.Printer
import ScriptGraph.Json.Token
import ScriptGraph.Json.Value
import ScriptGraph.Listing
import ScriptGraph.Node
import ScriptGraph.Proofs.Construction
import ScriptGraph.Proofs.DocumentLines
import ScriptGraph.Proofs.DocumentRoundTrip
import ScriptGraph.Proofs.JsonText
import ScriptGraph.Reading
import ScriptGraph.Registry
import ScriptGraph.Samples
import ScriptGraph.Store.Backend
import ScriptGraph.Store.Basic
import ScriptGraph.Store.Files
import ScriptGraph.Store.Memory
import ScriptGraph.Template
import ScriptGraph.Text.Blank
import ScriptGraph.Text.Hex
import ScriptGraph.Text.Lowercase
import ScriptGraph.Text.Pattern
import ScriptGraph.Text.Quoted
import ScriptGraph.Text.Ranges
import ScriptGraph.Text.Split
import ScriptGraph.Text.Utf8
import ScriptGraph.Timers
import ScriptGraph.Timers.Plan
import ScriptGraph.Timers.WakeQueue
import ScriptGraph.Toml.Parser
import ScriptGraph.Toml.Scalar
import ScriptGraph.Toml.Token
import ScriptGraph.Toml.Value
import ScriptGraph.Trigger
import ScriptGraph.Variables
import ScriptGraph.Variables.Usage
import ScriptGraph.World
import ScriptGraph.Proofs.Recursion
import ScriptGraph.Proofs.Segments
import ScriptGraph.Proofs.Courses
import ScriptGraph.Proofs.Ceiling
import ScriptGraph.Proofs.Reports
import ScriptGraph.Proofs.Digraphs
import ScriptGraph.Proofs.DocumentLinks
import ScriptGraph.Proofs.JsonPrefix
import ScriptGraph.Proofs.Subgraphs
import ScriptGraph.Proofs.DocumentParts
import ScriptGraph.Proofs.DocumentDamage
import ScriptGraph.Proofs.DocumentRepair
import ScriptGraph.Proofs.Updates
import ScriptGraph.Proofs.Timekeeping
import ScriptGraph.Proofs.Refusals
import ScriptGraph.Proofs.VariableScope
import ScriptGraph.Proofs.Truncation
import ScriptGraph.Proofs.Bookkeeping
import ScriptGraph.Proofs.Gestures
import ScriptGraph.Proofs.ZoomRange
import ScriptGraph.Proofs.CanvasEdits
import ScriptGraph.Proofs.DiskEntries
import ScriptGraph.Proofs.OutputTree
import ScriptGraph.Proofs.FreshNames
import ScriptGraph.Proofs.StoreHistory
import ScriptGraph.Proofs.DocumentMeaning
import ScriptGraph.Proofs.Solitude
import ScriptGraph.Proofs.Triggers
import ScriptGraph.Proofs.TriggerTotals
import ScriptGraph.Proofs.HostEdits
import ScriptGraph.Proofs.DueTasks
import ScriptGraph.Proofs.WakeInterleavings
import ScriptGraph.Proofs.OutputForest
import ScriptGraph.Proofs.FloatRounding
import ScriptGraph.Proofs.NumberScale
import ScriptGraph.Proofs.DecimalDigits
import ScriptGraph.Proofs.NumberText
import ScriptGraph.Proofs.JsonArrays
import ScriptGraph.Proofs.JsonValues
import ScriptGraph.Proofs.DocumentArrays
import ScriptGraph.Proofs.References
import ScriptGraph.Proofs.ConditionGrammar
import ScriptGraph.Proofs.Reachability
import ScriptGraph.Proofs.VisitBounds
import ScriptGraph.Proofs.ReachedNodes
import ScriptGraph.Proofs.OrderedRegistry
import ScriptGraph.Proofs.ListedScripts
import ScriptGraph.Proofs.PointerAnchors
import ScriptGraph.Proofs.NodeInputs
import ScriptGraph.Proofs.ColorDigits
import ScriptGraph.Proofs.LowerCase
import ScriptGraph.Proofs.TriggerNames
