import RouteScaffold.OpenApi.Method
import RouteScaffold.OpenApi.Reference
import RouteScaffold.Text.Pieces

/-!
# Documents

The parts of a description that route modules are made from, in the order of the document.  Schemas
stay trees, so that they can be written out as they were read.
-/

namespace RouteScaffold.Document

open OpenApi (Method OrReference)

/-- Where a parameter is sent. -/
inductive Location where
  | header
  | path
  | query
  | cookie
  deriving DecidableEq, Repr

namespace Location

/-- All locations. -/
def all : List Location := [header, path, query, cookie]

/-- The name of a location. -/
def name : Location → String
  | header => "header"
  | path => "path"
  | query => "query"
  | cookie => "cookie"

end Location

/-- A parameter of an operation. -/
structure Parameter where
  name : String
  location : Location
  required : Bool := false
  schema : Option Json := none
  description : Option String := none
  deriving Repr

/-- What a request body may hold for a media type. -/
structure MediaType where
  schema : Option Json := none
  deriving Repr

/-- A request body. -/
structure RequestBody where
  required : Bool := false
  content : List (String × MediaType) := []
  deriving Repr

/-- An operation of a path. -/
structure Operation where
  parameters : Option (List (OrReference Parameter)) := none
  requestBody : Option (OrReference RequestBody) := none
  deriving Repr

/-- The operations of a path, in the order of the document, and the parameters they share. -/
structure PathItem where
  operations : List (Method × Operation) := []
  parameters : List (OrReference Parameter) := []
  deriving Repr

/-- The definitions that references may name. -/
structure Components where
  schemas : List (String × Json) := []
  parameters : List (String × Parameter) := []
  requestBodies : List (String × RequestBody) := []
  deriving Repr

namespace Components

/-- The schema that a reference names. -/
def schema? (components : Components) (reference : String) : Option Json :=
  (Text.afterStart? "#/components/schemas/" reference).bind
    fun name => components.schemas.lookup name

/-- The parameter that a reference names. -/
def parameter? (components : Components) (reference : String) : Option Parameter :=
  (Text.afterStart? "#/components/parameters/" reference).bind
    fun name => components.parameters.lookup name

/-- The request body that a reference names. -/
def requestBody? (components : Components) (reference : String) : Option RequestBody :=
  (Text.afterStart? "#/components/requestBodies/" reference).bind
    fun name => components.requestBodies.lookup name

end Components

end RouteScaffold.Document

namespace RouteScaffold

open Document (Components Operation PathItem)
open OpenApi (Method)

/-- A document. -/
structure Document where
  title : String
  version : String
  paths : List (String × PathItem) := []
  components : Components := {}
  deriving Repr

/-- The operations of a document with the template of their path. -/
def Document.operations (document : Document) : List (String × Method × Operation) :=
  document.paths.flatMap fun (template, item) =>
    item.operations.map fun (method, operation) => (template, method, operation)

end RouteScaffold
