import RouteScaffold.Main
import RouteScaffold.Proofs.Json.Distinct
import RouteScaffold.Proofs.Json.Pointer
import RouteScaffold.Proofs.Source.Distinct
import RouteScaffold.Proofs.Document.Record
import RouteScaffold.Proofs.Document.Reader
import RouteScaffold.Proofs.Document.Mention
import RouteScaffold.Proofs.Document.Forms
import RouteScaffold.Proofs.Document.Accepts
import RouteScaffold.Proofs.OpenApi.Declared
import RouteScaffold.Proofs.OpenApi.Fits
import RouteScaffold.Proofs.OpenApi.Normal
import RouteScaffold.Proofs.OpenApi.Operations
import RouteScaffold.Proofs.OpenApi.Violations
import RouteScaffold.Proofs.Document.Outline
import RouteScaffold.Proofs.OpenApi.Reordered
import RouteScaffold.Proofs.Document.Reordered
import RouteScaffold.Proofs.Synthesis.Unresolved
import RouteScaffold.Proofs.Synthesis.Bodies
import RouteScaffold.Proofs.Synthesis.Reached
import RouteScaffold.Proofs.Files.Kind
import RouteScaffold.Proofs.Files.Way
import RouteScaffold.Proofs.Files.Parents
import RouteScaffold.Proofs.Files.Shape
import RouteScaffold.Proofs.Files.Calls
import RouteScaffold.Proofs.Files.Resume
import RouteScaffold.Proofs.Files.Visits
import RouteScaffold.Proofs.Files.Clear
import RouteScaffold.Proofs.Files.Count
import RouteScaffold.Proofs.Files.Partial
import RouteScaffold.Proofs.Route.Descent
import RouteScaffold.Proofs.Run.Action
import RouteScaffold.Proofs.Run.Report
import RouteScaffold.Proofs.Run.Plan
import RouteScaffold.Proofs.Run.Settled
import RouteScaffold.Proofs.Run.Ending
import RouteScaffold.Proofs.Run.Stages
import RouteScaffold.Proofs.Run.Effect
import RouteScaffold.Proofs.Run.Footprint
import RouteScaffold.Proofs.Run.Generated
import RouteScaffold.Proofs.Run.Present
import RouteScaffold.Proofs.Run.Progress
import RouteScaffold.Proofs.Run.Along
import RouteScaffold.Proofs.Run.Kept
import RouteScaffold.Proofs.Run.Again
import RouteScaffold.Proofs.Run.Interrupted
import RouteScaffold.Proofs.Run.Confined
import RouteScaffold.Proofs.Run.Separate
import RouteScaffold.Proofs.Run.Escaping
import RouteScaffold.Proofs.Run.Reaches
import RouteScaffold.Proofs.Run.Unresolved
import RouteScaffold.Proofs.Run.Unaffected
import RouteScaffold.Proofs.Run.Reordered
import RouteScaffold.Proofs.Run.Accounted
import RouteScaffold.Proofs.Run.Truncated
import RouteScaffold.Proofs.Run.Log
import RouteScaffold.Proofs.Files.Sibling
import RouteScaffold.Proofs.Run.Styles
import RouteScaffold.Proofs.Json.Lines
import RouteScaffold.Proofs.Json.ReadBack
import RouteScaffold.Proofs.Scaffold.Comment
import RouteScaffold.Proofs.Scaffold.Determined
import RouteScaffold.Proofs.Scaffold.SchemaBlock
import RouteScaffold.Proofs.Text.Words
import RouteScaffold.Proofs.Json.Members
import RouteScaffold.Proofs.Synthesis.Parameters
import RouteScaffold.Proofs.Synthesis.Denoted
import RouteScaffold.Proofs.Synthesis.Headers
import RouteScaffold.Proofs.Synthesis.Gaps
import RouteScaffold.Proofs.Scaffold.AccessMark
import RouteScaffold.Proofs.Synthesis.Expanded
import RouteScaffold.Proofs.Files.Paved
import RouteScaffold.Proofs.Run.Truthful
import RouteScaffold.Proofs.Run.Prepared
import RouteScaffold.Proofs.Route.Variables
import RouteScaffold.Proofs.Route.Directory
import RouteScaffold.Proofs.Route.Mapped
import RouteScaffold.Proofs.OpenApi.Lookup
