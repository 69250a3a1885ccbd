import RouteScaffold.Json.Basic

/-!
# What an operation asks of a request

The outcome of looking at one operation: whether it is private, which headers and which body a
request must have, and where the document leaves gaps.
-/

namespace RouteScaffold.Synthesis

/-- The mark of an operation that asks for authorization, with a comment about it. -/
structure Access where
  comment : Option String := none
  deriving DecidableEq, Repr

/-- What a request must look like: its headers and its body. -/
structure RequestSchema where
  headers : Option Json := none
  body : Option Json := none
  deriving Repr

/-- The tree of a request schema, headers first. -/
def RequestSchema.tree (schema : RequestSchema) : Json :=
  .obj ((schema.headers.map fun headers => ("headers", headers)).toList ++
    (schema.body.map fun body => ("body", body)).toList)

/-- A gap in what a document says about an operation. -/
inductive Gap where
  | unresolvedParameter (reference : String)
  | unresolvedRequestBody (reference : String)
  | unresolvedBodySchema (reference : String)
  | missingBodySchema
  | untypedHeader (name : String)
  deriving DecidableEq, Repr

namespace Gap

/-- The type a header is given when its own is not known. -/
def fallbackType : String := "string"

/-- The name of the kind of a gap. -/
def kind : Gap → String
  | unresolvedParameter _ => "UnresolvedParameter"
  | unresolvedRequestBody _ => "UnresolvedRequestBody"
  | unresolvedBodySchema _ => "UnresolvedBodySchema"
  | missingBodySchema => "MissingBodySchema"
  | untypedHeader _ => "UntypedHeader"

/-- The reference or the name a gap is about. -/
def detail? : Gap → Option String
  | unresolvedParameter reference => some reference
  | unresolvedRequestBody reference => some reference
  | unresolvedBodySchema reference => some reference
  | missingBodySchema => none
  | untypedHeader name => some name

/-- The words for a gap. -/
def message : Gap → String
  | unresolvedParameter reference =>
    "parameter reference " ++ reference ++ " does not resolve; skipped"
  | unresolvedRequestBody reference =>
    "request body reference " ++ reference ++ " does not resolve; body schema omitted"
  | unresolvedBodySchema reference =>
    "schema reference " ++ reference ++ " does not resolve; body schema omitted"
  | missingBodySchema => "required request body declares no schema; body schema omitted"
  | untypedHeader name =>
    "header " ++ name ++ " has no resolvable type; defaulting to " ++ fallbackType

end Gap

end RouteScaffold.Synthesis

namespace RouteScaffold

open Synthesis (Access Gap RequestSchema)

/-- What was found out about an operation. -/
structure Synthesis where
  access : Option Access := none
  schema : Option RequestSchema := none
  gaps : List Gap := []
  deriving Repr

end RouteScaffold
