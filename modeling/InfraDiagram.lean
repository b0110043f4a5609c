import InfraDiagram.Access
import InfraDiagram.Binary64.Basic
import InfraDiagram.Binary64.Shortest
import InfraDiagram.Command.Batch
import InfraDiagram.Command.Generate
import InfraDiagram.Command.Line
import InfraDiagram.Command.Outcome
import InfraDiagram.Command.Run
import InfraDiagram.Command.Validate
import InfraDiagram.Document.Basic
import InfraDiagram.Document.Codec
import InfraDiagram.File.Path
import InfraDiagram.File.Tree
import InfraDiagram.Fragment.Basic
import InfraDiagram.Fragment.Literal
import InfraDiagram.Graph.Basic
import InfraDiagram.Graph.Check
import InfraDiagram.Graph.Codec
import InfraDiagram.Graph.Cycle
import InfraDiagram.Graph.Problem
import InfraDiagram.Graph.Reader
import InfraDiagram.Json.Reader
import InfraDiagram.Main
import InfraDiagram.Order
import InfraDiagram.Proofs.AccessPreserved
import InfraDiagram.Proofs.Allocation
import InfraDiagram.Proofs.BatchJobs
import InfraDiagram.Proofs.BatchOrder
import InfraDiagram.Proofs.BatchPlan
import InfraDiagram.Proofs.CatalogRuns
import InfraDiagram.Proofs.Compilation
import InfraDiagram.Proofs.ConstructIds
import InfraDiagram.Proofs.DeclarationLines
import InfraDiagram.Proofs.DeclarationRun
import InfraDiagram.Proofs.Declarations
import InfraDiagram.Proofs.DefinedBefore
import InfraDiagram.Proofs.Digging
import InfraDiagram.Proofs.DistinctIds
import InfraDiagram.Proofs.DrawnValidity
import InfraDiagram.Proofs.DrawnZones
import InfraDiagram.Proofs.EdgeOrder
import InfraDiagram.Proofs.Escapes
import InfraDiagram.Proofs.ExitCodes
import InfraDiagram.Proofs.Fragments
import InfraDiagram.Proofs.GraphCodec
import InfraDiagram.Proofs.Growth
import InfraDiagram.Proofs.HonestSteps
import InfraDiagram.Proofs.Instantiation
import InfraDiagram.Proofs.Itemization
import InfraDiagram.Proofs.Layout
import InfraDiagram.Proofs.Lines
import InfraDiagram.Proofs.LiteralsReadBack
import InfraDiagram.Proofs.NameSearch
import InfraDiagram.Proofs.Order
import InfraDiagram.Proofs.OrderExact
import InfraDiagram.Proofs.Outcome
import InfraDiagram.Proofs.Placement
import InfraDiagram.Proofs.Program
import InfraDiagram.Proofs.ProgramScope
import InfraDiagram.Proofs.Properties
import InfraDiagram.Proofs.QuotableNames
import InfraDiagram.Proofs.QuotedLines
import InfraDiagram.Proofs.Reading
import InfraDiagram.Proofs.Recasting
import InfraDiagram.Proofs.Registrations
import InfraDiagram.Proofs.Rewiring
import InfraDiagram.Proofs.RuleLines
import InfraDiagram.Proofs.Rules
import InfraDiagram.Proofs.SourceLines
import InfraDiagram.Proofs.Symbols
import InfraDiagram.Proofs.Tally
import InfraDiagram.Proofs.TextIsData
import InfraDiagram.Proofs.TreeFiles
import InfraDiagram.Proofs.Validity
import InfraDiagram.Proofs.WellFormed
import InfraDiagram.Resource.Bucket
import InfraDiagram.Resource.Database
import InfraDiagram.Resource.Emit
import InfraDiagram.Resource.Engine
import InfraDiagram.Resource.Network
import InfraDiagram.Resource.Property
import InfraDiagram.Resource.Satellite
import InfraDiagram.Resource.Server
import InfraDiagram.Settings.Basic
import InfraDiagram.Settings.Catalog
import InfraDiagram.Settings.Codec
import InfraDiagram.Settings.File
import InfraDiagram.Settings.Toml
import InfraDiagram.Settings.Yaml
import InfraDiagram.Stack.Basic
import InfraDiagram.Stack.Error
import InfraDiagram.Stack.Generate
import InfraDiagram.Stack.Report
import InfraDiagram.Symbol.Allocator
import InfraDiagram.Symbol.Basic
import InfraDiagram.Text.Blank
import InfraDiagram.Text.Quoted
import InfraDiagram.Text.Size
import InfraDiagram.Text.Unprintable
import InfraDiagram.Toml.Item
import InfraDiagram.Toml.Reader
import InfraDiagram.Toml.Text
import InfraDiagram.Value.Basic
import InfraDiagram.Value.Decode
import InfraDiagram.Value.Printer
import InfraDiagram.Yaml.Node
import InfraDiagram.Yaml.Resolve
import InfraDiagram.Yaml.Scalar
import InfraDiagram.Yaml.Scan
import InfraDiagram.Yaml.Token
import InfraDiagram.Yaml.Writer
