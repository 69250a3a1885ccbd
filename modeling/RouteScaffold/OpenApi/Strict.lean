import RouteScaffold.Json.Pointer
import RouteScaffold.OpenApi.Description
import RouteScaffold.Route.Template

/-!
# Strict checks

Strict checks look at what the shape of a description leaves open: the version, whether references
lead anywhere within the document, whether the variables of a template are declared as parameters,
and whether operation ids are used once.  All violations are collected.

References are looked for in the whole tree, also inside of examples and extensions.
-/

namespace RouteScaffold.OpenApi

/-- A violation of a strict check. -/
inductive Violation where
  | unsupportedVersion (version : String)
  | unresolvedReference (reference : String)
  | externalReference (reference : String)
  | relativeTemplate (template : String)
  | undeclaredVariable (method : Method) (template variableName : String)
  | repeatedOperationId (id : String)
  deriving DecidableEq, Repr

/-- The words for a violation. -/
def Violation.message : Violation → String
  | unsupportedVersion version => "unsupported OpenAPI version " ++ Text.quoted version
  | unresolvedReference reference => "unresolved reference " ++ reference
  | externalReference reference => "unsupported external reference " ++ reference
  | relativeTemplate template => "path " ++ Text.quoted template ++ " must start with '/'"
  | undeclaredVariable method template variableName =>
    method.upperName ++ " " ++ template ++ ": path parameter " ++ Text.quoted variableName ++
      " is not declared"
  | repeatedOperationId id => "operationId " ++ Text.quoted id ++ " is used more than once"

/-- Whether a version is one of OpenAPI 3. -/
def isSupported (version : String) : Bool := version.toList.take 2 == ['3', '.']

/-! ## References -/

mutual

/-- The references of a tree, that of an object before those within it. -/
def references : Json → List String
  | .obj members =>
    ((Json.obj members).reference?.toList) ++ memberReferences members
  | .arr items => itemReferences items
  | _ => []

/-- The references within array items. -/
def itemReferences : List Json → List String
  | [] => []
  | item :: rest => references item ++ itemReferences rest

/-- The references within object members. -/
def memberReferences : List (String × Json) → List String
  | [] => []
  | (_, value) :: rest => references value ++ memberReferences rest

end

/-- What is wrong with a reference in a document. -/
def referenceViolation (root : Json) (reference : String) : Option Violation :=
  match reference.toList with
  | '#' :: pointer =>
    if (root.pointer? pointer).isSome then none else some (.unresolvedReference reference)
  | _ => some (.externalReference reference)

/-! ## Variables -/

/-- How references name the shared parameters. -/
def parameterReferenceStart : String := "#/components/parameters/"

/-- The parameter an entry stands for; a reference is followed once. -/
def Description.parameterOf (description : Description) :
    OrReference DescribedParameter → Option DescribedParameter
  | .item parameter => some parameter
  | .reference text => do
    let name ← Text.afterStart? parameterReferenceStart text
    (← description.parameters.lookup name).item?

/-- The names that parameter entries declare for variables of the path. -/
def Description.declaredNames (description : Description)
    (entries : List (OrReference DescribedParameter)) : List String :=
  ((entries.filterMap description.parameterOf).filter (·.location = "path")).map (·.name)

/-- The violations of one operation: the variables it does not declare, each time they occur. -/
def Description.operationViolations (description : Description) (template : String)
    (inherited : List String) (method : Method) (operation : DescribedOperation) :
    List Violation :=
  let declared := description.declaredNames operation.parameters
  ((Route.templateVariables template).filter fun variableName =>
    !declared.contains variableName && !inherited.contains variableName).map
      (.undeclaredVariable method template)

/-- The violations of one path. -/
def Description.pathViolations (description : Description) :
    String × OrReference DescribedPath → List Violation
  | (template, entry) =>
    (if template.toList.head? = some '/' then [] else [.relativeTemplate template]) ++
      match entry with
      | .reference _ => []
      | .item path =>
        path.operations.flatMap fun (method, operation) =>
          description.operationViolations template (description.declaredNames path.parameters)
            method operation

/-! ## Operation ids -/

/-- The operation ids of a description, in the order of its operations. -/
def Description.operationIds (description : Description) : List String :=
  description.paths.flatMap fun (_, entry) =>
    match entry with
    | .reference _ => []
    | .item path => path.operations.filterMap fun (_, operation) => operation.operationId

/-- The texts that occur more than once, each one time and in ascending order. -/
def repeated (texts : List String) : List String :=
  ((texts.filter fun text => 1 < texts.count text).eraseDups).mergeSort fun a b => decide (a ≤ b)

/-! ## All checks -/

/-- All violations of a tree that holds a description: the version, then the references in the order
of the document, then the paths, then the repeated operation ids. -/
def violations (tree : Json) (description : Description) : List Violation :=
  (if isSupported description.openapi then [] else [.unsupportedVersion description.openapi]) ++
    (references tree).filterMap (referenceViolation tree) ++
    description.paths.flatMap description.pathViolations ++
    (repeated description.operationIds).map .repeatedOperationId

end RouteScaffold.OpenApi
