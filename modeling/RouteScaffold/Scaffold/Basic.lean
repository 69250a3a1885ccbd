import RouteScaffold.Files.Path
import RouteScaffold.OpenApi.Method
import RouteScaffold.Route.Directory
import RouteScaffold.Scaffold.Style
import RouteScaffold.Synthesis.Basic

/-!
# Scaffolds

A route is a template with its mapped path and its directory.  A scaffold is the module for one
operation of a route, with all that decides the text of its file.
-/

namespace RouteScaffold

namespace Scaffold

/-- A path template and where its modules go. -/
structure Route where
  template : String
  mapped : String
  directory : String
  deriving DecidableEq, Repr

/-- The route of a template below a destination; nothing when it would leave the destination. -/
def Route.of? (destination template : String) : Option Route :=
  let mapped := RouteScaffold.Route.mapTemplate template
  (RouteScaffold.Route.directory? destination mapped).map fun directory =>
    ⟨template, mapped, directory⟩

end Scaffold

open OpenApi (Method)
open Synthesis (Access RequestSchema)

/-- A module for one operation. -/
structure Scaffold where
  file : String
  method : Method
  template : String
  mapped : String
  access : Option Access
  schema : Option RequestSchema
  style : Scaffold.Style
  deriving Repr

namespace Scaffold

/-- The name of the file of a method's module. -/
def fileName (method : Method) (style : Style) : String :=
  method.name ++ "." ++ style.extension

/-- The module for an operation of a route. -/
def Route.scaffold (route : Route) (method : Method) (style : Style) (found : Synthesis) :
    Scaffold where
  file := Files.join route.directory (fileName method style)
  method := method
  template := route.template
  mapped := route.mapped
  access := found.access
  schema := found.schema
  style := style

end Scaffold

end RouteScaffold
