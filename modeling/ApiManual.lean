import ApiManual.Main
import ApiManual.Route.Check
import ApiManual.Proofs.Docstring.Layout
import ApiManual.Proofs.Manual.Reports
import ApiManual.Proofs.OpenApi.Paths
import ApiManual.Proofs.Resource.Layout
import ApiManual.Proofs.Manual.Assembly
import ApiManual.Proofs.Manual.Breaks
import ApiManual.Proofs.Manual.Calls
import ApiManual.Proofs.Manual.Strict
import ApiManual.Proofs.Manual.LeftOut
import ApiManual.Proofs.OpenApi.Typed
import ApiManual.Proofs.Route.Interleaving
import ApiManual.Proofs.Route.Declared
import ApiManual.Proofs.Param.Places
import ApiManual.Proofs.Resource.Descent
import ApiManual.Proofs.Route.Credentials
import ApiManual.Proofs.CommandLine.Publication
import ApiManual.Proofs.OpenApi.Payload
import ApiManual.Proofs.Config.Loading
import ApiManual.Proofs.Resource.Undocumented
import ApiManual.Proofs.Param.Reordered
import ApiManual.Proofs.Param.Orders
import ApiManual.Proofs.Param.Grammar
import ApiManual.Proofs.Param.Written
import ApiManual.Proofs.OpenApi.Component
import ApiManual.Proofs.Json.Opening
import ApiManual.Proofs.OpenApi.Examples
import ApiManual.Proofs.Text.Search
import ApiManual.Proofs.Route.Placeholders
import ApiManual.Proofs.Route.DeclaredBodies
import ApiManual.Proofs.Number.Foreign
import ApiManual.Proofs.Resource.Exampled
import ApiManual.Proofs.Resource.Choices
import ApiManual.Proofs.Route.Captured
import ApiManual.Proofs.Sample.Sent
import ApiManual.Proofs.Sample.Shell
import ApiManual.Proofs.OpenApi.Bodies
import ApiManual.Proofs.Param.Scalars
import ApiManual.Proofs.Sample.Form
import ApiManual.Proofs.Sample.Leaves
import ApiManual.Proofs.Sample.Carried
import ApiManual.Proofs.OpenApi.Schemas
import ApiManual.Proofs.Source.Declaring
import ApiManual.Proofs.Manual.Drawn
import ApiManual.Proofs.Resource.Scanned
import ApiManual.Proofs.Param.Accessors
import ApiManual.Proofs.Route.Identity
