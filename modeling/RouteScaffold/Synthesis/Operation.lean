import RouteScaffold.Document.Basic
import RouteScaffold.Synthesis.Basic
import RouteScaffold.Text.Blank

/-!
# Looking at an operation

References are followed one step: from a parameter or a body to the component it names, and from a
schema to the component it names.  What cannot be resolved is left out and noted as a gap.  The gaps
of the parameter list come first, then those of the headers, then that of the body.
-/

namespace RouteScaffold.Synthesis

open Document (Components Operation Parameter RequestBody)
open OpenApi (OrReference)

/-! ## Parameters -/

/-- The header whose presence makes an operation private. -/
def authorizationHeader : String := "Authorization"

/-- The parameters that a list of entries stands for, and the gaps it leaves. -/
def resolveParameters (components : Components) :
    List (OrReference Parameter) → List Parameter × List Gap
  | [] => ([], [])
  | .item parameter :: rest =>
    let (found, gaps) := resolveParameters components rest
    (parameter :: found, gaps)
  | .reference text :: rest =>
    let (found, gaps) := resolveParameters components rest
    match components.parameter? text with
    | some parameter => (parameter :: found, gaps)
    | none => (found, .unresolvedParameter text :: gaps)

/-- Whether a parameter is the header that makes an operation private. -/
def isAuthorization (header : Parameter) : Bool := header.name = authorizationHeader

/-- The mark of the first authorization header among some headers. -/
def accessOf (headers : List Parameter) : Option Access :=
  (headers.find? isAuthorization).map fun header =>
    { comment := header.description.bind Text.singleLine }

/-! ## Headers -/

/-- The reference a schema is, if it is one. -/
def schemaReference? (schema : Json) : Option String := schema.getText? "$ref"

/-- The type of a header: the one its schema names, or the schema that its schema refers to. -/
def headerType? (components : Components) (header : Parameter) : Option String := do
  let schema ← header.schema
  match schemaReference? schema with
  | some reference => (← components.schema? reference).getText? "type"
  | none => schema.getText? "type"

/-- The gap a header leaves. -/
def headerGap? (components : Components) (header : Parameter) : Option Gap :=
  if (headerType? components header).isSome then none else some (.untypedHeader header.name)

/-- The field a header has in the schema of headers. -/
def headerField (components : Components) (header : Parameter) : Json :=
  .obj (("type", .str ((headerType? components header).getD Gap.fallbackType)) ::
    (header.description.map fun description => ("description", .str description)).toList)

/-- The schema of some headers, if there are any. -/
def headerSchema? (components : Components) (headers : List Parameter) : Option Json :=
  if headers.isEmpty then
    none
  else
    let properties := headers.foldl
      (fun fields header => putMember header.name (headerField components header) fields) []
    let required := (headers.filter (·.required)).map fun header => Json.str header.name
    some (.obj ([("type", .str "object"), ("properties", .obj properties)] ++
      if required.isEmpty then [] else [("required", .arr required)]))

/-! ## The body -/

/-- The schema of a body, and the gap it leaves. -/
def bodySchema (components : Components) (body : RequestBody) : Option Json × Option Gap :=
  if !body.required then
    (none, none)
  else
    match body.content.head?.bind fun content => content.2.schema with
    | none => (none, some .missingBodySchema)
    | some schema =>
      match schemaReference? schema with
      | none => (some schema, none)
      | some reference =>
        match components.schema? reference with
        | some found => (some found, none)
        | none => (none, some (.unresolvedBodySchema reference))

/-- The schema of what stands for a body, and the gap it leaves. -/
def resolveBody (components : Components) :
    Option (OrReference RequestBody) → Option Json × Option Gap
  | none => (none, none)
  | some (.item body) => bodySchema components body
  | some (.reference text) =>
    match components.requestBody? text with
    | some body => bodySchema components body
    | none => (none, some (.unresolvedRequestBody text))

/-! ## The operation -/

/-- What a document says about an operation.  An operation with a list of parameters has a schema
even when nothing is asked of a request. -/
def synthesize (components : Components) (operation : Operation) : Synthesis :=
  let (parameters, parameterGaps) :=
    resolveParameters components (operation.parameters.getD [])
  let headers := parameters.filter (·.location = .header)
  let others := headers.filter (!isAuthorization ·)
  let headerFragment := headerSchema? components others
  let (bodyFragment, bodyGap) := resolveBody components operation.requestBody
  { access := accessOf headers
    schema :=
      if headerFragment.isSome || bodyFragment.isSome || operation.parameters.isSome then
        some ⟨headerFragment, bodyFragment⟩
      else none
    gaps := parameterGaps ++ others.filterMap (headerGap? components) ++ bodyGap.toList }

end RouteScaffold.Synthesis
